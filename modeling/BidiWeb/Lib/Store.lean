/-
  BidiWeb.Lib.Store

  Objects allocated in order and named by their index: a list that only
  grows at its end and whose cells are modified in place.  The two rules
  reduce "every object has `P`" after an allocation or a modification to the
  object concerned.
-/

import Mathlib.Algebra.GroupWithZero.Nat
import Mathlib.Data.List.Forall2
import Mathlib.Logic.Function.Basic

namespace BidiWeb
namespace Lib
namespace Store

variable {α : Type*}

theorem getElem?_concat {xs : List α} {x y : α} {j : Nat} :
    (xs ++ [x])[j]? = some y ↔ xs[j]? = some y ∨ j = xs.length ∧ y = x := by
  rcases Nat.lt_trichotomy j xs.length with hlt | heq | hgt
  · have hne : j ≠ xs.length := by omega
    rw [List.getElem?_append_left hlt]
    simp [hne]
  · subst heq
    simp [eq_comm]
  · have hnone : xs[j]? = none := List.getElem?_eq_none (by omega)
    have hne : j ≠ xs.length := by omega
    rw [List.getElem?_eq_none (by simp; omega), hnone]
    simp [hne]

theorem getElem?_modify {xs : List α} {f : α → α} {i j : Nat} {y : α} :
    (xs.modify i f)[j]? = some y ↔
      if i = j then ∃ x, xs[j]? = some x ∧ f x = y else xs[j]? = some y := by
  rw [List.getElem?_modify]
  by_cases h : i = j <;> simp [h]

theorem forall_concat {P : Nat → α → Prop} {xs : List α} {x : α}
    (hxs : ∀ j y, xs[j]? = some y → P j y) (hx : P xs.length x) :
    ∀ j y, (xs ++ [x])[j]? = some y → P j y := by
  intro j y h
  rcases getElem?_concat.mp h with h | ⟨rfl, rfl⟩
  · exact hxs j y h
  · exact hx

theorem forall_modify {P : Nat → α → Prop} {xs : List α} {f : α → α} {i : Nat}
    (hxs : ∀ j y, xs[j]? = some y → P j y) (hf : ∀ x, xs[i]? = some x → P i (f x)) :
    ∀ j y, (xs.modify i f)[j]? = some y → P j y := by
  intro j y h
  rw [getElem?_modify] at h
  by_cases hij : i = j
  · subst hij
    rw [if_pos rfl] at h
    obtain ⟨x, hx, rfl⟩ := h
    exact hf x hx
  · rw [if_neg hij] at h
    exact hxs j y h

theorem forall_set {P : Nat → α → Prop} {xs : List α} {i : Nat} {x : α}
    (hxs : ∀ j y, xs[j]? = some y → P j y) (hx : P i x) :
    ∀ j y, (xs.set i x)[j]? = some y → P j y := by
  intro j y h
  by_cases hij : i = j
  · subst hij
    have hlt : i < xs.length := by
      have hset := (List.getElem?_eq_some_iff.mp h).1
      rwa [List.length_set] at hset
    rw [List.getElem?_set_self hlt] at h
    cases h
    exact hx
  · rw [List.getElem?_set_ne hij] at h
    exact hxs j y h

/-- Modifying a cell keeps a view of the cells that the modification keeps. -/
theorem map_modify_of_eq {β : Type*} {g : α → β} {xs : List α} {i : Nat} {f : α → α}
    (hf : ∀ x, xs[i]? = some x → g (f x) = g x) : (xs.modify i f).map g = xs.map g := by
  refine List.ext_getElem? fun j => ?_
  rw [List.getElem?_map, List.getElem?_map, List.getElem?_modify]
  by_cases hij : i = j
  · subst hij
    cases hx : xs[i]? with
    | none => simp
    | some x => simp [hf x hx]
  · simp [hij]

/-- Of what occurs at most once there is at most one cell. -/
theorem index_unique {p : α → Bool} {xs : List α} (hcount : xs.countP p ≤ 1) {i j : Nat} {x y : α}
    (hx : xs[i]? = some x) (hy : xs[j]? = some y) (hpx : p x = true) (hpy : p y = true) :
    i = j := by
  induction xs generalizing i j with
  | nil => cases hx
  | cons z zs ih =>
      rw [List.countP_cons] at hcount
      -- a cell of the tail counts, so the head does not
      have htail : ∀ {k : Nat} {w : α}, zs[k]? = some w → p w = true → 0 < zs.countP p :=
        fun hw hpw => List.countP_pos_iff.mpr ⟨_, List.mem_of_getElem? hw, hpw⟩
      cases i with
      | zero =>
          cases j with
          | zero => rfl
          | succ j =>
              obtain rfl : z = x := Option.some.inj hx
              have := htail (by simpa using hy) hpy
              simp only [hpx, if_true] at hcount
              omega
      | succ i =>
          have hpos := htail (by simpa using hx) hpx
          cases j with
          | zero =>
              obtain rfl : z = y := Option.some.inj hy
              simp only [hpy, if_true] at hcount
              omega
          | succ j =>
              have := ih (by omega) (i := i) (j := j) (by simpa using hx) (by simpa using hy)
              omega

/-- What a family of logs that only grow has gained, log by log. -/
def gained : List (List α) → List (List α) → List α
  | [], ys => ys.flatten
  | _ :: _, [] => []
  | x :: xs, y :: ys => y.drop x.length ++ gained xs ys

@[simp] theorem gained_self (xs : List (List α)) : gained xs xs = [] := by
  induction xs with
  | nil => rfl
  | cons x xs ih => simp [gained, ih]

@[simp] theorem gained_concat_nil (xs : List (List α)) : gained xs (xs ++ [[]]) = [] := by
  induction xs with
  | nil => rfl
  | cons x xs ih => simp [gained, ih]

theorem gained_modify_concat {xs : List (List α)} {i : Nat} (hi : i < xs.length) (a : α) :
    gained xs (xs.modify i (· ++ [a])) = [a] := by
  induction xs generalizing i with
  | nil => simp at hi
  | cons x xs ih =>
      cases i with
      | zero => simp [gained]
      | succ i =>
          have hi' : i < xs.length := by
            simp only [List.length_cons] at hi
            omega
          simp [gained, ih hi']

/-- Two families of objects stay related when related cells are modified. -/
theorem forall₂_modify {β : Type*} {R : α → β → Prop} {xs : List α} {ys : List β} {f : α → α}
    {g : β → β} (h : List.Forall₂ R xs ys) (i : Nat)
    (hfg : ∀ x y, xs[i]? = some x → ys[i]? = some y → R x y → R (f x) (g y)) :
    List.Forall₂ R (xs.modify i f) (ys.modify i g) := by
  induction h generalizing i with
  | nil =>
      rw [List.modify_nil, List.modify_nil]
      exact .nil
  | cons hxy hrest ih =>
      cases i with
      | zero => exact .cons (hfg _ _ rfl rfl hxy) hrest
      | succ i => exact .cons hxy (ih i fun x y hx hy => hfg x y hx hy)

theorem forall₂_getElem? {β : Type*} {R : α → β → Prop} {xs : List α} {ys : List β}
    (h : List.Forall₂ R xs ys) {i : Nat} {x : α} (hx : xs[i]? = some x) :
    ∃ y, ys[i]? = some y ∧ R x y := by
  induction h generalizing i with
  | nil => cases hx
  | cons hxy hrest ih =>
      cases i with
      | zero =>
          cases hx
          exact ⟨_, rfl, hxy⟩
      | succ i => exact ih hx

/-- One cell weighs less, and so do all together. -/
theorem sum_modify_lt {w : α → Nat} {f : α → α} {xs : List α} {i : Nat} {x : α}
    (hx : xs[i]? = some x) (hless : w (f x) < w x) :
    ((xs.modify i f).map w).sum < (xs.map w).sum := by
  induction xs generalizing i with
  | nil => cases hx
  | cons y ys ih =>
      cases i with
      | zero =>
          cases hx
          exact Nat.add_lt_add_right hless _
      | succ i => exact Nat.add_lt_add_left (ih hx) _

end Store
end Lib
end BidiWeb
