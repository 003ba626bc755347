/-
  BidiWeb.Lib.Window

  The part of a log from the first entry that opens a window to the first
  after it that shuts it, the opening entry included and the other not.  A
  log grows at its end, so the window is what a fold over it computes, and
  `window_concat` says what one more entry does.
-/

import Mathlib.Data.List.Induction
import Mathlib.Tactic.TypeStar

namespace BidiWeb
namespace Lib

inductive Window (β : Type*) where
  | before
  | during (entries : List β)
  | after (entries : List β)
deriving DecidableEq, Repr

namespace Window

variable {β : Type*} (opens shuts : β → Bool)

def entries : Window β → List β
  | .before => []
  | .during entries | .after entries => entries

def next (w : Window β) (x : β) : Window β :=
  match w with
  | .before => if opens x then .during [x] else .before
  | .during entries => if shuts x then .after entries else .during (entries ++ [x])
  | .after entries => .after entries

/-- The window of a log. -/
def window (log : List β) : Window β := log.foldl (next opens shuts) .before

@[simp] theorem window_nil : window opens shuts [] = .before := rfl

theorem window_concat (log : List β) (x : β) :
    window opens shuts (log ++ [x]) = (window opens shuts log).next opens shuts x := by
  simp [window]

variable {opens shuts}

theorem next_before_of_opens {x : β} (h : opens x = true) :
    (before : Window β).next opens shuts x = .during [x] := by
  simp [next, h]

theorem next_during_of_shuts {entries : List β} {x : β} (h : shuts x = true) :
    (during entries).next opens shuts x = .after entries := by
  simp [next, h]

theorem next_during {entries : List β} {x : β} (h : shuts x = false) :
    (during entries).next opens shuts x = .during (entries ++ [x]) := by
  simp [next, h]

@[simp] theorem next_after (entries : List β) (x : β) :
    (after entries).next opens shuts x = .after entries := rfl

/-- No window opens in a log without an opening entry. -/
theorem window_eq_before {log : List β} (h : ∀ x ∈ log, opens x = false) :
    window opens shuts log = .before := by
  induction log with
  | nil => rfl
  | cons x log ih =>
      have hx : (before : Window β).next opens shuts x = .before := by
        simp [next, h x List.mem_cons_self]
      show List.foldl _ (next opens shuts .before x) log = .before
      rw [hx]
      exact ih fun y hy => h y (List.mem_cons_of_mem x hy)

/-- A log cut at the ends of its window. -/
inductive Cut (opens shuts : β → Bool) (log : List β) : Window β → Prop where
  | before : (∀ x ∈ log, opens x = false) → Cut opens shuts log .before
  | during (pre : List β) (x : β) (rest : List β) : log = pre ++ x :: rest → opens x = true →
      (∀ y ∈ rest, shuts y = false) → Cut opens shuts log (.during (x :: rest))
  | after (pre : List β) (x : β) (rest post : List β) : log = pre ++ x :: rest ++ post →
      opens x = true → (∀ y ∈ rest, shuts y = false) → Cut opens shuts log (.after (x :: rest))

theorem cut_window (opens shuts : β → Bool) (log : List β) :
    Cut opens shuts log (window opens shuts log) := by
  induction log using List.reverseRecOn with
  | nil => exact .before fun _ hx => by cases hx
  | append_singleton log y ih =>
      rw [window_concat]
      generalize window opens shuts log = w at ih ⊢
      cases ih with
      | before hnone =>
          cases hy : opens y with
          | true =>
              rw [next_before_of_opens hy]
              exact .during log y [] rfl hy fun _ hz => by cases hz
          | false =>
              have hstays : (before : Window β).next opens shuts y = .before := by
                simp [next, hy]
              rw [hstays]
              refine .before fun x hx => ?_
              rcases List.mem_append.mp hx with hold | hlast
              · exact hnone x hold
              · exact List.mem_singleton.mp hlast ▸ hy
      | during pre x rest hlog hx hrest =>
          cases hy : shuts y with
          | true =>
              rw [next_during_of_shuts hy]
              exact .after pre x rest [y] (by rw [hlog]) hx hrest
          | false =>
              rw [next_during hy]
              refine .during pre x (rest ++ [y]) (by simp [hlog]) hx fun z hz => ?_
              rcases List.mem_append.mp hz with hold | hlast
              · exact hrest z hold
              · exact List.mem_singleton.mp hlast ▸ hy
      | after pre x rest post hlog hx hrest =>
          rw [next_after]
          exact .after pre x rest (post ++ [y]) (by simp [hlog]) hx hrest

end Window
end Lib
end BidiWeb
