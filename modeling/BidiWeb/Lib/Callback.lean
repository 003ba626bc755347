/-
  BidiWeb.Lib.Callback

  Programs that are given a function.  What such a program passes to the
  function is where its result depends on the function.
-/

import Mathlib.Logic.Function.Basic

namespace BidiWeb
namespace Lib

variable {α β γ : Type}

/-- The result of `run` depends on what its function answers for `a`. -/
def Asks (run : (α → β) → γ) (a : α) : Prop :=
  ∃ f f' : α → β, (∀ other, other ≠ a → f other = f' other) ∧ run f ≠ run f'

/-- A program whose result is fixed has not called its function. -/
theorem not_asks_of_const {run : (α → β) → γ} (h : ∀ f f', run f = run f') (a : α) :
    ¬ Asks run a := by
  rintro ⟨f, f', -, hne⟩
  exact hne (h f f')

/-- A program that makes its result of one answer asks for nothing else. -/
theorem eq_of_asks {run : (α → β) → γ} {a : α} {k : β → γ} (h : ∀ f, run f = k (f a)) {a' : α}
    (hasks : Asks run a') : a' = a := by
  obtain ⟨f, f', hsame, hne⟩ := hasks
  by_contra hother
  apply hne
  rw [h, h, hsame a (Ne.symm hother)]

theorem asks_of_ne {run : (α → β) → γ} {a : α} {k : β → γ} (h : ∀ f, run f = k (f a)) {b b' : β}
    (hne : k b ≠ k b') : Asks run a := by
  classical
  refine ⟨fun _ => b, Function.update (fun _ => b) a b', ?_, ?_⟩
  · intro other hother
    exact (Function.update_of_ne hother b' fun _ => b).symm
  · rw [h, h, Function.update_self]
    exact hne

end Lib
end BidiWeb
