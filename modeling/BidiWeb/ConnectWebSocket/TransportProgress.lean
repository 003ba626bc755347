/-
  BidiWeb.ConnectWebSocket.TransportProgress

  The calls of a transport come to an end: no call waits for the lock for
  good, as long as each dial returns one way or the other.

  Every step of a call takes it nearer to its return, and as long as one has
  not returned, the call that holds the lock can go on, or any call can.
-/

import BidiWeb.ConnectWebSocket.SharedConnection

namespace BidiWeb
namespace ConnectWebSocket

open BidiWeb.Lib

/-- The steps that a call has left at most. -/
def Phase.left : Phase → Nat
  | .waiting => 4
  | .locked | .dialingOwn => 3
  | .dialing | .dialedOwn _ => 2
  | .dialed _ | .failedOwn .. | .closing _ => 1
  | .opened .. | .failed _ | .closed => 0

/-- It is a step of a call. -/
def TransportEvent.ofCall : TransportEvent → Bool
  | .lock _ | .dialed _ | .dialFails .. | .advance _ => true
  | .call _ | .conn .. => false

namespace Transport

variable {t t' : Transport}

/-- The steps that all calls together have left at most. -/
def left (t : Transport) : Nat := (t.calls.map (·.phase.left)).sum

-- ============================================================================
-- What is left
-- ============================================================================

/-- A call that moves on has less left. -/
theorem left_setPhase {i : Nat} {c : Call} {phase : Phase} (hc : t.calls[i]? = some c)
    (hless : phase.left < c.phase.left) (hcalls : t'.calls = (t.setPhase i phase).calls) :
    t'.left < t.left ∧ t'.calls.length = t.calls.length := by
  refine ⟨?_, by rw [hcalls]; exact List.length_modify ..⟩
  rw [left, hcalls]
  exact Store.sum_modify_lt hc hless

theorem left_enter (t : Transport) (m : Method) : (t.enter m).left ≤ 4 := by
  unfold enter
  split
  · split
    · exact Nat.zero_le _
    · split <;> decide
  · exact Nat.le_refl _

/-- Every step of a call is one less, and a new call adds four at most. -/
theorem left_step {ev : TransportEvent} (hstep : Stepped t ev t') :
    (if ev.ofCall then 1 else 0) + t'.left + 4 * t.calls.length ≤
      t.left + 4 * t'.calls.length := by
  have hless : t'.left < t.left ∧ t'.calls.length = t.calls.length →
      1 + t'.left + 4 * t.calls.length ≤ t.left + 4 * t'.calls.length := by
    rintro ⟨hlt, hlength⟩
    omega
  cases hstep with
  | called m =>
      have hle := left_enter t m
      simp only [left, TransportEvent.ofCall, List.map_append, List.map_singleton, List.sum_append,
        List.sum_singleton, List.length_append, List.length_singleton]
      simp only [Bool.false_eq_true, if_false]
      omega
  | locked i unary _ hc => exact hless (left_setPhase hc (by simp [Phase.left]) rfl)
  | taken i k _ hc => exact hless (left_setPhase hc (by simp [Phase.left]) rfl)
  | idle i _ hc => exact hless (left_setPhase hc (by simp [Phase.left]) rfl)
  | dialed i m hc => exact hless (left_setPhase hc (by simp [Phase.left]) rfl)
  | dialedOwn i m hc => exact hless (left_setPhase hc (by simp [Phase.left]) rfl)
  | dialFails i m err hc => exact hless (left_setPhase hc (by simp [Phase.left]) rfl)
  | dialOwnFails i m err hc => exact hless (left_setPhase hc (by simp [Phase.left]) rfl)
  | dials i m hc => exact hless (left_setPhase hc (by simp [Phase.left]) rfl)
  | redials i m k d err hc => exact hless (left_setPhase hc (by simp [Phase.left]) rfl)
  | opens i m phase k d s hc hphase =>
      refine hless (left_setPhase hc ?_ rfl)
      rcases hphase with ⟨rfl, -⟩ | rfl <;> simp [Phase.left]
  | fails i m k d err hc => exact hless (left_setPhase hc (by simp [Phase.left]) rfl)
  | opensOwn i m k d s hc => exact hless (left_setPhase hc (by simp [Phase.left]) rfl)
  | failsOwn i m k d err hc => exact hless (left_setPhase hc (by simp [Phase.left]) rfl)
  | shutsOwn i m k err hc => exact hless (left_setPhase hc (by simp [Phase.left]) rfl)
  | shuts i m k hc => exact hless (left_setPhase hc (by simp [Phase.left]) rfl)
  | conn =>
      show 0 + _ + _ ≤ _
      rw [Nat.zero_add]
      exact Nat.le_refl _

-- ============================================================================
-- Some call can go on
-- ============================================================================

/-- A call that does not wait for the lock can go on. -/
theorem goes_on (ht : t.Uses) {i : Nat} {c : Call} (hc : t.calls[i]? = some c)
    (hleft : c.phase.left ≠ 0) (hwaits : c.phase ≠ .waiting) :
    ∃ ev t', ev.ofCall = true ∧ t.step ev = some t' := by
  obtain ⟨m, phase⟩ := c
  have hopens : ∀ {k : Nat} {d : Dialed}, t.conns[k]? = some d →
      phase = .dialed k ∨ phase = .dialedOwn k →
      ∃ ev t', TransportEvent.ofCall ev = true ∧ t.step ev = some t' := by
    intro k d hd hphase
    rcases hphase with rfl | rfl <;>
      exact ⟨.advance i, _, rfl, by simp only [step, advance, hc, hd]; rfl⟩
  cases ht.calls i _ hc with
  | waiting => exact absurd rfl hwaits
  | locked unary _ =>
      cases hshared : t.shared with
      | none =>
          exact ⟨.advance i, _, rfl,
            by simp only [step, advance, advanceShared, hc, hshared]; rfl⟩
      | some k =>
          obtain ⟨d, hd, -⟩ := ht.shared k hshared
          exact ⟨.advance i, _, rfl,
            by simp only [step, advance, advanceShared, hc, hshared, hd]; rfl⟩
  | dialing => exact ⟨.dialFails i "", _, rfl, by simp only [step, dialFails, hc]; rfl⟩
  | dialed unary k _ hk =>
      obtain ⟨d, hd, -⟩ := ht.shared k hk
      exact hopens hd (.inl rfl)
  | dialingOwn => exact ⟨.dialFails i "", _, rfl, by simp only [step, dialFails, hc]; rfl⟩
  | dialedOwn unary k d _ hd => exact hopens hd (.inr rfl)
  | failedOwn | closing => exact ⟨.advance i, _, rfl, by simp only [step, advance, hc]; rfl⟩
  | opened | failed | closed => exact absurd rfl hleft

/-- The holder of the lock goes on, or the lock is free for the next call. -/
theorem some_goes_on (ht : t.Uses) (hlocks : t.Locks) {i : Nat} {c : Call}
    (hc : t.calls[i]? = some c) (hleft : c.phase.left ≠ 0) :
    ∃ ev t', ev.ofCall = true ∧ t.step ev = some t' := by
  cases hlock : t.lock with
  | some j =>
      obtain ⟨x, hx⟩ : ∃ x, t.calls[j]? = some x :=
        ⟨_, List.getElem?_eq_getElem (hlocks.present j hlock)⟩
      have hheld := (hlocks.holder j x hx).mpr hlock
      obtain ⟨m, phase⟩ := x
      cases phase <;> cases hheld <;> exact goes_on ht hx nofun nofun
  | none =>
      by_cases hwaits : c.phase = .waiting
      · obtain ⟨m, phase⟩ := c
        obtain rfl : phase = .waiting := hwaits
        cases m with
        | newClientStream unary =>
            exact ⟨.lock i, _, rfl, by simp only [step, acquire, hlock, hc]; rfl⟩
        | close =>
            cases hshared : t.shared <;>
              exact ⟨.lock i, _, rfl, by simp only [step, acquire, hlock, hc, hshared]; rfl⟩
      · exact goes_on ht hc hleft hwaits

-- ============================================================================
-- Whole runs
-- ============================================================================

theorem left_run {url : String} {connectionPerStream : Bool} {evs : List TransportEvent}
    {s : Transport} (hexec : (transport url connectionPerStream).exec s evs = some t) :
    evs.countP TransportEvent.ofCall + t.left + 4 * s.calls.length ≤
      s.left + 4 * t.calls.length := by
  induction evs generalizing s with
  | nil =>
      cases hexec
      simp
  | cons ev evs ih =>
      obtain ⟨s', hs', hrest⟩ := (Machine.exec_cons _).mp hexec
      have hstep := left_step (stepped hs')
      have hmore := ih hrest
      rw [List.countP_cons]
      generalize (if ev.ofCall = true then 1 else 0) = one at hstep ⊢
      omega

end Transport

/-- The calls take four steps each at most, whatever else goes on; and as long
    as one of them has not returned, some call can take one. -/
theorem calls_return (url : String) (connectionPerStream : Bool) (evs : List TransportEvent)
    {t : Transport} (hrun : (transport url connectionPerStream).run evs = some t) :
    evs.countP TransportEvent.ofCall ≤ 4 * t.calls.length ∧
      ∀ (i : Nat) (c : Call), t.calls[i]? = some c → c.phase.left ≠ 0 →
        ∃ ev t', ev.ofCall = true ∧ t.step ev = some t' := by
  have ht := Transport.inv_of_run hrun
  refine ⟨?_, fun i c hc hleft => Transport.some_goes_on ht.uses ht.locks hc hleft⟩
  have hle := Transport.left_run hrun
  have hnone : (transport url connectionPerStream).init.left = 0 := rfl
  rw [hnone] at hle
  omega

theorem redialled_return :
    ∃ t, (transport "ws://host" true).run redialled = some t ∧
      redialled.countP TransportEvent.ofCall ≤ 4 * t.calls.length := by
  have hrun : (transport "ws://host" true).run redialled = some _ := rfl
  exact ⟨_, hrun, (calls_return "ws://host" true redialled hrun).1⟩

end ConnectWebSocket
end BidiWeb
