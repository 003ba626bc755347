/-
  BidiWeb.Lib.Machine

  Labelled machines whose steps compute.  A label names an action *and*
  resolves every choice the environment has in it (which goroutine moves,
  which ready case a `select` takes, what a peer sends), so a run is a list
  of labels and "for every interleaving" is "for every list of labels".

  The two induction rules every safety result uses are stated once:
  `exec_invariant` for what each step preserves, and
  `exec_invariant_of_meets` for what each step preserves as long as a guard
  on the state before the step holds along the run.
-/

import Mathlib.Tactic.TypeStar

namespace BidiWeb
namespace Lib

/-- An initial state and a step function; `none` means that the label is not
    enabled in the state. -/
structure Machine (σ α : Type*) where
  init : σ
  step : σ → α → Option σ

namespace Machine

variable {σ α : Type*} (M : Machine σ α)

/-- The state after taking the labels in order from `s`, if each is enabled. -/
def exec : σ → List α → Option σ
  | s, [] => some s
  | s, a :: as => (M.step s a).bind fun s' => exec s' as

/-- The state after a run from the initial state. -/
def run (as : List α) : Option σ := M.exec M.init as

@[simp] theorem exec_nil (s : σ) : M.exec s [] = some s := rfl

theorem exec_cons {s t : σ} {a : α} {as : List α} :
    M.exec s (a :: as) = some t ↔ ∃ s', M.step s a = some s' ∧ M.exec s' as = some t := by
  simp [exec, Option.bind_eq_some_iff]

theorem exec_append {s t : σ} {as bs : List α} :
    M.exec s (as ++ bs) = some t ↔ ∃ m, M.exec s as = some m ∧ M.exec m bs = some t := by
  induction as generalizing s with
  | nil => simp
  | cons a as ih =>
      simp only [List.cons_append, exec_cons, ih]
      constructor
      · rintro ⟨s', hs', m, hm, ht⟩
        exact ⟨m, ⟨s', hs', hm⟩, ht⟩
      · rintro ⟨m, ⟨s', hs', hm⟩, ht⟩
        exact ⟨s', hs', m, hm, ht⟩

/-- A property that each step preserves holds after every run from a state
    that has it. -/
theorem exec_invariant {I : σ → Prop}
    (hstep : ∀ s a s', I s → M.step s a = some s' → I s')
    {as : List α} {s t : σ} (hs : I s) (h : M.exec s as = some t) : I t := by
  induction as generalizing s with
  | nil =>
      cases h
      exact hs
  | cons a as ih =>
      obtain ⟨s', hs', ht⟩ := M.exec_cons.mp h
      exact ih (hstep s a s' hs hs') ht

/-- Every step of the run `as` from `s` is taken in a state in which the
    guard `G` allows it. -/
def Meets (G : σ → α → Prop) : σ → List α → Prop
  | _, [] => True
  | s, a :: as => G s a ∧ ∀ s', M.step s a = some s' → Meets G s' as

@[simp] theorem meets_nil (G : σ → α → Prop) (s : σ) : M.Meets G s [] := trivial

theorem meets_cons {G : σ → α → Prop} {s s' : σ} {a : α} {as : List α}
    (hs : M.step s a = some s') :
    M.Meets G s (a :: as) ↔ G s a ∧ M.Meets G s' as := by
  simp [Meets, hs]

/-- The guard holds where a run has got to. -/
theorem guard_of_meets {G : σ → α → Prop} {as : List α} {a : α} {s t : σ}
    (hG : M.Meets G s (as ++ [a])) (h : M.exec s as = some t) : G t a := by
  induction as generalizing s with
  | nil =>
      cases h
      exact hG.1
  | cons b as ih =>
      obtain ⟨s', hs', ht⟩ := M.exec_cons.mp h
      exact ih (hG.2 s' hs') ht

/-- A guard that the labels alone decide. -/
theorem meets_and_of_forall {G : σ → α → Prop} {P : α → Prop} {as : List α} {s : σ}
    (hG : M.Meets G s as) (hP : ∀ a ∈ as, P a) : M.Meets (fun s a => G s a ∧ P a) s as := by
  induction as generalizing s with
  | nil => trivial
  | cons a as ih =>
      exact ⟨⟨hG.1, hP a List.mem_cons_self⟩,
        fun s' hs' => ih (hG.2 s' hs') fun b hb => hP b (List.mem_cons_of_mem a hb)⟩

theorem meets_of_forall {P : α → Prop} {as : List α} (hP : ∀ a ∈ as, P a) (s : σ) :
    M.Meets (fun _ a => P a) s as := by
  induction as generalizing s with
  | nil => trivial
  | cons a as ih =>
      exact ⟨hP a List.mem_cons_self,
        fun s' _ => ih (fun b hb => hP b (List.mem_cons_of_mem a hb)) s'⟩

theorem meets_of_always {G : σ → α → Prop} (hG : ∀ s a, G s a) (s : σ) (as : List α) :
    M.Meets G s as := by
  induction as generalizing s with
  | nil => trivial
  | cons a as ih => exact ⟨hG s a, fun s' _ => ih s'⟩

instance decidableMeets (G : σ → α → Prop) [∀ s a, Decidable (G s a)] :
    ∀ s as, Decidable (M.Meets G s as)
  | _, [] => isTrue trivial
  | s, a :: as =>
      match h : M.step s a with
      | none => decidable_of_iff (G s a) (by simp [Meets, h])
      | some s' =>
          have := decidableMeets G s' as
          decidable_of_iff (G s a ∧ M.Meets G s' as) (M.meets_cons h).symm

/-- A property that each guarded step preserves holds after every run whose
    steps all meet the guard. -/
theorem exec_invariant_of_meets {I : σ → Prop} {G : σ → α → Prop}
    (hstep : ∀ s a s', I s → G s a → M.step s a = some s' → I s')
    {as : List α} {s t : σ} (hs : I s) (hG : M.Meets G s as)
    (h : M.exec s as = some t) : I t := by
  induction as generalizing s with
  | nil =>
      cases h
      exact hs
  | cons a as ih =>
      obtain ⟨s', hs', ht⟩ := M.exec_cons.mp h
      exact ih (hstep s a s' hs hG.1 hs') (hG.2 s' hs') ht

/-- A guard that follows from another one in every state that one lets a run
    reach. -/
theorem meets_of_invariant {I : σ → Prop} {G H : σ → α → Prop}
    (hstep : ∀ s a s', I s → G s a → M.step s a = some s' → I s')
    (himp : ∀ s a, I s → G s a → H s a) {s : σ} (hs : I s) {as : List α}
    (hG : M.Meets G s as) : M.Meets H s as := by
  induction as generalizing s with
  | nil => trivial
  | cons a as ih =>
      exact ⟨himp s a hs hG.1, fun s' hs' => ih (hstep s a s' hs hG.1 hs') (hG.2 s' hs')⟩

/-- Two guards that agree in every state the first one lets a run reach hold
    along the same runs. -/
theorem meets_iff_of_invariant {I : σ → Prop} {G H : σ → α → Prop}
    (hstep : ∀ s a s', I s → G s a → M.step s a = some s' → I s')
    (hiff : ∀ s a, I s → (G s a ↔ H s a)) {s : σ} (hs : I s) (as : List α) :
    M.Meets G s as ↔ M.Meets H s as := by
  constructor
  · exact M.meets_of_invariant hstep (fun s a hI => (hiff s a hI).mp) hs
  · apply M.meets_of_invariant _ (fun s a hI => (hiff s a hI).mpr) hs
    intro s a s' hI hH hs'
    exact hstep s a s' hI ((hiff s a hI).mpr hH) hs'

/-- The machine with a log of what an observer sees of each step. -/
def logged {β : Type*} (obs : σ → α → σ → List β) : Machine (σ × List β) α where
  init := (M.init, [])
  step := fun p a => (M.step p.1 a).map fun s' => (s', p.2 ++ obs p.1 a s')

theorem logged_step {β : Type*} {obs : σ → α → σ → List β} {p q : σ × List β} {a : α} :
    (M.logged obs).step p a = some q ↔ M.step p.1 a = some q.1 ∧ q.2 = p.2 ++ obs p.1 a q.1 := by
  obtain ⟨t, log⟩ := q
  simp only [logged, Option.map_eq_some_iff, Prod.mk.injEq]
  constructor
  · rintro ⟨s', hs', rfl, rfl⟩
    exact ⟨hs', rfl⟩
  · rintro ⟨hs', rfl⟩
    exact ⟨t, hs', rfl, rfl⟩

/-- `P` holds in `s` and in every state the run `as` reaches from it. -/
def Always (P : σ → Prop) : σ → List α → Prop
  | s, [] => P s
  | s, a :: as => P s ∧ ∀ s', M.step s a = some s' → Always P s' as

/-- It holds where the run ends. -/
theorem of_always {P : σ → Prop} {as : List α} {s t : σ} (hall : M.Always P s as)
    (h : M.exec s as = some t) : P t := by
  induction as generalizing s with
  | nil =>
      cases h
      exact hall
  | cons a as ih =>
      obtain ⟨s', hs', ht⟩ := M.exec_cons.mp h
      exact ih (hall.2 s' hs') ht

/-- It holds in every state of a run whose steps meet the guard. -/
theorem always_of_meets {I P : σ → Prop} {G : σ → α → Prop}
    (hstep : ∀ s a s', I s → G s a → M.step s a = some s' → I s') (hP : ∀ s, I s → P s) {s : σ}
    (hs : I s) {as : List α} (hG : M.Meets G s as) : M.Always P s as := by
  induction as generalizing s with
  | nil => exact hP s hs
  | cons a as ih =>
      exact ⟨hP s hs, fun s' hs' => ih (hstep s a s' hs hG.1 hs') (hG.2 s' hs')⟩

/-- A run that does not meet a guard has a first step that breaks it. -/
theorem exists_of_not_meets {G : σ → α → Prop} {as : List α} {s : σ} (h : ¬ M.Meets G s as) :
    ∃ pre a t, pre ++ [a] <+: as ∧ M.exec s pre = some t ∧ M.Meets G s pre ∧ ¬ G t a := by
  induction as generalizing s with
  | nil => exact absurd trivial h
  | cons a as ih =>
      by_cases hG : G s a
      · obtain ⟨s', hs', hlater⟩ : ∃ s', M.step s a = some s' ∧ ¬ M.Meets G s' as := by
          simpa [Meets, hG] using h
        obtain ⟨pre, b, t, hpre, ht, hmet, hbreaks⟩ := ih hlater
        exact ⟨a :: pre, b, t, List.cons_prefix_cons.mpr ⟨rfl, hpre⟩,
          M.exec_cons.mpr ⟨s', hs', ht⟩, (M.meets_cons hs').mpr ⟨hG, hmet⟩, hbreaks⟩
      · exact ⟨[], a, s, List.cons_prefix_cons.mpr ⟨rfl, List.nil_prefix⟩, rfl, trivial, hG⟩

/-- A property that holds exactly as long as the steps meet a guard. -/
theorem always_iff_meets {I P : σ → Prop} {G : σ → α → Prop}
    (hstep : ∀ s a s', I s → G s a → M.step s a = some s' → I s') (hP : ∀ s, I s → P s)
    (hG : ∀ s a, I s → (∀ s', M.step s a = some s' → P s') → G s a) {s : σ} (hs : I s)
    (as : List α) : M.Always P s as ↔ M.Meets G s as := by
  induction as generalizing s with
  | nil => exact ⟨fun _ => trivial, fun _ => hP s hs⟩
  | cons a as ih =>
      constructor
      · intro hall
        have hguard : G s a := hG s a hs fun s' hs' => by
          cases as with
          | nil => exact hall.2 s' hs'
          | cons b bs => exact (hall.2 s' hs').1
        exact ⟨hguard, fun s' hs' => (ih (hstep s a s' hs hguard hs')).mp (hall.2 s' hs')⟩
      · intro hmeets
        exact ⟨hP s hs,
          fun s' hs' => (ih (hstep s a s' hs hmeets.1 hs')).mpr (hmeets.2 s' hs')⟩

end Machine

end Lib
end BidiWeb
