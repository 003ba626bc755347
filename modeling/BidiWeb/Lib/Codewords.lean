/-
  BidiWeb.Lib.Codewords

  Items written one after another in a code whose words tell where they end.

  What a reader has made of the front of such a text does not depend on where
  the text is cut: the items it has found are the first ones written
  (`prefix_of_begun`), and if it has got as far as the writer, they are all
  of them (`eq_of_begun`).
-/

import Mathlib.Data.List.Infix

namespace BidiWeb
namespace Lib

variable {ε β : Type*}

/-- No word of an item in `S` is empty, and each can be split off the front of
    what follows it. -/
structure SelfDelimiting (S : ε → Prop) (code : ε → List β) : Prop where
  nonempty : ∀ x, S x → code x ≠ []
  split : ∀ x y s t, S x → S y → code x ++ s = code y ++ t → x = y ∧ s = t

/-- The front of a word that is not finished, or nothing. -/
def Begun (S : ε → Prop) (code : ε → List β) (p : List β) : Prop :=
  p = [] ∨ ∃ e more, S e ∧ more ≠ [] ∧ code e = p ++ more

theorem begun_nil (S : ε → Prop) (code : ε → List β) : Begun S code [] := Or.inl rfl

namespace SelfDelimiting

variable {S : ε → Prop} {code : ε → List β} (hcode : SelfDelimiting S code)
include hcode

/-- What starts with a word is no unfinished one. -/
theorem not_begun {x : ε} (hx : S x) (s : List β) : ¬ Begun S code (code x ++ s) := by
  rintro (hnil | ⟨e, more, he, hne, hword⟩)
  · exact hcode.nonempty x hx (List.append_eq_nil_iff.mp hnil).1
  · have hsame : code e ++ [] = code x ++ (s ++ more) := by
      rw [List.append_nil, hword, List.append_assoc]
    have hrest := (hcode.split e x [] (s ++ more) he hx hsame).2
    exact hne (List.append_eq_nil_iff.mp hrest.symm).2

theorem prefix_of_begun {xs ys : List ε} {p q : List β} (hxs : ∀ x ∈ xs, S x)
    (hys : ∀ y ∈ ys, S y) (hq : Begun S code q)
    (h : xs.flatMap code ++ p = ys.flatMap code ++ q) : xs <+: ys := by
  induction xs generalizing ys with
  | nil => exact List.nil_prefix
  | cons x xs ih =>
      obtain ⟨hx, hxs⟩ := List.forall_mem_cons.mp hxs
      rw [List.flatMap_cons, List.append_assoc] at h
      cases ys with
      | nil =>
          rw [List.flatMap_nil, List.nil_append] at h
          exact absurd (h ▸ hq) (hcode.not_begun hx _)
      | cons y ys =>
          obtain ⟨hy, hrest⟩ := List.forall_mem_cons.mp hys
          rw [List.flatMap_cons, List.append_assoc] at h
          obtain ⟨rfl, htail⟩ := hcode.split x y _ _ hx hy h
          exact (List.prefix_cons_inj x).mpr (ih hxs hrest htail)

theorem eq_of_begun {xs ys : List ε} {p q : List β} (hxs : ∀ x ∈ xs, S x)
    (hys : ∀ y ∈ ys, S y) (hp : Begun S code p) (hq : Begun S code q)
    (h : xs.flatMap code ++ p = ys.flatMap code ++ q) : xs = ys ∧ p = q := by
  have hle := hcode.prefix_of_begun hxs hys hq h
  have hge := hcode.prefix_of_begun hys hxs hp h.symm
  obtain rfl : xs = ys := hle.eq_of_length (Nat.le_antisymm hle.length_le hge.length_le)
  exact ⟨rfl, List.append_cancel_left h⟩

end SelfDelimiting

end Lib
end BidiWeb
