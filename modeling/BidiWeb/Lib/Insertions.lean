/-
  BidiWeb.Lib.Insertions

  Finite maps that are filled entry by entry.  What is inserted need not have
  distinct keys: it is enough that it holds one value for the key asked for.
-/

import Mathlib.Data.List.AList

namespace BidiWeb
namespace Lib

variable {α β : Type} [DecidableEq α]

theorem mem_of_lookup {m : AList (fun _ : α => β)} {k : α} {b : β} (h : m.lookup k = some b) :
    k ∈ m := by
  rw [← AList.lookup_isSome, h]
  rfl

/-- The entries of a map as pairs. -/
theorem mem_pairs {m : AList (fun _ : α => β)} {k : α} {b : β} :
    (k, b) ∈ m.entries.map (fun e => (e.1, e.2)) ↔ m.lookup k = some b := by
  rw [List.mem_map]
  constructor
  · rintro ⟨e, he, heq⟩
    obtain ⟨rfl, rfl⟩ := Prod.mk.inj heq
    exact AList.mem_lookup_iff.mpr he
  · intro h
    exact ⟨⟨k, b⟩, AList.mem_lookup_iff.mp h, rfl⟩

/-- Insert `entries` one after another; the last one for a key stays. -/
def insertAll (m : AList (fun _ : α => β)) (entries : List (α × β)) : AList (fun _ : α => β) :=
  entries.foldl (fun m e => m.insert e.1 e.2) m

@[simp] theorem insertAll_nil (m : AList (fun _ : α => β)) : insertAll m [] = m := rfl

@[simp] theorem insertAll_cons (m : AList (fun _ : α => β)) (e : α × β) (entries : List (α × β)) :
    insertAll m (e :: entries) = insertAll (m.insert e.1 e.2) entries := rfl

/-- Entries of other keys change nothing. -/
theorem lookup_insertAll_of_notMem (m : AList (fun _ : α => β)) {entries : List (α × β)} {k : α}
    (hk : ∀ b, (k, b) ∉ entries) : (insertAll m entries).lookup k = m.lookup k := by
  induction entries generalizing m with
  | nil => rfl
  | cons e entries ih =>
      have hne : k ≠ e.1 := by
        rintro rfl
        exact hk e.2 List.mem_cons_self
      rw [insertAll_cons, ih _ fun b hb => hk b (List.mem_cons_of_mem e hb),
        AList.lookup_insert_ne hne]

/-- The one value among the entries of a key. -/
theorem lookup_insertAll_of_mem (m : AList (fun _ : α => β)) {entries : List (α × β)} {k : α}
    {b : β} (hmem : (k, b) ∈ entries) (hunique : ∀ b', (k, b') ∈ entries → b' = b) :
    (insertAll m entries).lookup k = some b := by
  induction entries generalizing m with
  | nil => cases hmem
  | cons e entries ih =>
      have hrest : ∀ b', (k, b') ∈ entries → b' = b :=
        fun b' hb' => hunique b' (List.mem_cons_of_mem e hb')
      rw [insertAll_cons]
      by_cases hin : (k, b) ∈ entries
      · exact ih _ hin hrest
      · -- the first entry is the only one of its key
        have hhead : (k, b) = e := (List.mem_cons.mp hmem).resolve_right hin
        subst hhead
        have hlast : ∀ b', (k, b') ∉ entries := by
          intro b' hb'
          obtain rfl := hrest b' hb'
          exact hin hb'
        rw [lookup_insertAll_of_notMem _ hlast, AList.lookup_insert]

/-- Both cases, for entries that hold what `v` says of the key. -/
theorem lookup_insertAll (m : AList (fun _ : α => β)) {entries : List (α × β)} {k : α}
    {v : Option β} (hv : ∀ b, (k, b) ∈ entries ↔ v = some b) :
    (insertAll m entries).lookup k = v.or (m.lookup k) := by
  cases v with
  | none =>
      rw [lookup_insertAll_of_notMem m fun b hb => by cases (hv b).mp hb]
      rfl
  | some b =>
      have hunique : ∀ b', (k, b') ∈ entries → b' = b :=
        fun b' hb' => (Option.some.inj ((hv b').mp hb')).symm
      rw [lookup_insertAll_of_mem m ((hv b).mpr rfl) hunique]
      rfl

/-- What is found was inserted, or had been there. -/
theorem mem_of_lookup_insertAll {m : AList (fun _ : α => β)} {entries : List (α × β)} {k : α}
    {b : β} (h : (insertAll m entries).lookup k = some b) :
    (k, b) ∈ entries ∨ m.lookup k = some b := by
  induction entries generalizing m with
  | nil => exact Or.inr h
  | cons e entries ih =>
      rcases ih h with hmem | hlookup
      · exact Or.inl (List.mem_cons_of_mem e hmem)
      · by_cases hk : k = e.1
        · subst hk
          rw [AList.lookup_insert] at hlookup
          obtain rfl := Option.some.inj hlookup
          exact Or.inl List.mem_cons_self
        · rw [AList.lookup_insert_ne hk] at hlookup
          exact Or.inr hlookup

/-- The last entry of a key is the one that stays. -/
theorem lookup_insertAll_getLast? (m : AList (fun _ : α => β)) (entries : List (α × β)) (k : α) :
    (insertAll m entries).lookup k =
      ((entries.filter fun e => e.1 = k).getLast?.map (·.2)).or (m.lookup k) := by
  induction entries generalizing m with
  | nil => rfl
  | cons e entries ih =>
      rw [insertAll_cons, ih]
      by_cases hk : e.1 = k
      · subst hk
        rw [List.filter_cons_of_pos (by simp), AList.lookup_insert, List.getLast?_cons]
        cases (entries.filter fun e' => e'.1 = e.1).getLast? <;> rfl
      · rw [List.filter_cons_of_neg (by simpa using hk), AList.lookup_insert_ne (Ne.symm hk)]

end Lib
end BidiWeb
