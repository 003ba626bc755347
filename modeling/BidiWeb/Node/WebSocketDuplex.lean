/-
  BidiWeb.Node.WebSocketDuplex

  `ts/packages/node/src/websocket-duplex.ts`: the listeners that
  `websocketToDuplexMessageStream` registers on a `ws` socket, and the
  readable they feed.

  A listener that throws takes the Node process with it: `ws` emits its
  events synchronously, nothing above the listener catches, and the state
  `crashed` has no further step.

  The text, error and close listeners do not look at the readable first.
  `controller.error` tolerates a stream that has already ended;
  `controller.close` and `controller.enqueue` do not.
-/

import BidiWeb.Core.Wire
import BidiWeb.Lib.ReadableStream

namespace BidiWeb
namespace Node

open BidiWeb.Lib (ReadableStream Machine)
open BidiWeb.Core (JsError)

-- ============================================================================
-- The adapter
-- ============================================================================

/-- `RawData` of `ws`. -/
inductive RawData where
  | buffer (data : Bytes)
  | arrayBuffer (data : Bytes)
  | fragments (chunks : List Bytes)
deriving DecidableEq, Repr

def toUint8Array : RawData → Bytes
  | .fragments chunks => chunks.flatten
  | .arrayBuffer data => data
  | .buffer data => data

/-- Events the `ws` socket emits, and calls made by the consumer of the
    `DuplexMessageStream`. -/
inductive Event where
  | message (data : RawData) (isBinary : Bool)
  | error (err : JsError)
  | close
  /-- `reader.read()` -/
  | read
  /-- `reader.cancel()` -/
  | cancel
  /-- `writer.abort()` -/
  | abort
  /-- `close(code, reason)` of the `DuplexMessageStream` -/
  | closeSocket (code : Option Nat) (reason : Option String)
deriving DecidableEq, Repr

/-- Emitted by the socket, as opposed to called by the consumer. -/
def Event.isEmitted : Event → Bool
  | .message .. | .error _ | .close => true
  | .read | .cancel | .abort | .closeSocket .. => false

structure Adapter where
  readable : ReadableStream Bytes JsError := {}
  /-- The arguments of the `ws.close` calls made so far. -/
  closeCalls : List (Nat × Option String) := []
  /-- A listener threw. -/
  crashed : Bool := false
deriving DecidableEq, Repr

def textFrameError : JsError :=
  .error "received a text WebSocket frame on a binary-only bidi connection"

/-- A listener's effect on the readable, where `none` is a throw. -/
def Adapter.settle (a : Adapter) : Option (ReadableStream Bytes JsError) → Adapter
  | some readable => { a with readable }
  | none => { a with crashed := true }

def Adapter.wsClose (a : Adapter) (code : Nat) (reason : Option String) : Adapter :=
  { a with closeCalls := a.closeCalls ++ [(code, reason)] }

/-- One event.  A crashed process takes no further step. -/
def Adapter.step (a : Adapter) (ev : Event) : Option Adapter :=
  if a.crashed then none
  else
    match ev with
    | .message data isBinary =>
        if !isBinary then some (a.settle (some (a.readable.error textFrameError)))
        else some (a.settle (a.readable.enqueue (toUint8Array data)))
    | .close => some (a.settle a.readable.close)
    | .error err => some (a.settle (some (a.readable.error err)))
    | .read => some { a with readable := a.readable.read }
    | .cancel =>
        match a.readable.cancel with
        | (readable, true) => some ({ a with readable }.wsClose 1000 none)
        | (readable, false) => some { a with readable }
    | .abort => some (a.wsClose 1000 none)
    | .closeSocket code reason => some (a.wsClose (code.getD 1000) reason)

/-- `websocketToDuplexMessageStream(ws)`. -/
def websocketToDuplexMessageStream : Machine Adapter Event where
  init := {}
  step := Adapter.step

-- ============================================================================
-- Event safety
-- ============================================================================

/-- `ws` emits a single close, after every other event of the socket. -/
def SingleClose (evs : List Event) : Prop :=
  evs.Pairwise fun e later => e = .close → later.isEmitted = false

instance (evs : List Event) : Decidable (SingleClose evs) :=
  inferInstanceAs (Decidable (evs.Pairwise _))

/-- What handling `ev` in the state `a` must do: no listener throws, and on a
    readable that has been closed, errored or cancelled an emitted event is
    ignored. -/
def EventSafe (a : Adapter) (ev : Event) : Prop :=
  ∀ a', a.step ev = some a' →
    a'.crashed = false ∧
      (ev.isEmitted = true → a.readable.canCloseOrEnqueue = false → a' = a)

/-- Ends the readable without being the socket's close. -/
def Event.ends : Event → Bool
  | .message _ isBinary => !isBinary
  | .error _ | .cancel => true
  | .close | .read | .abort | .closeSocket .. => false

/-- Handled by `controller.enqueue` or `controller.close`. -/
def Event.needsReadable : Event → Bool
  | .message _ isBinary => isBinary
  | .close => true
  | .error _ | .read | .cancel | .abort | .closeSocket .. => false

/-- No binary message and no close comes after a text message, an error or a
    cancel. -/
def EndsWithClose (evs : List Event) : Prop :=
  evs.Pairwise fun e later => e.ends = true → later.needsReadable = false

instance (evs : List Event) : Decidable (EndsWithClose evs) :=
  inferInstanceAs (Decidable (evs.Pairwise _))

theorem Event.isEmitted_of_needsReadable {ev : Event} (h : ev.needsReadable = true) :
    ev.isEmitted = true := by
  cases ev <;> simp_all [Event.needsReadable, Event.isEmitted]

-- ============================================================================
-- One event, by what the readable has been through
-- ============================================================================

/-- One event on a readable that has closed or errored: a binary message or a
    close kills the process, any other event leaves the readable ended. -/
theorem step_of_hasEnded {a : Adapter} (hc : a.crashed = false)
    (hended : a.readable.hasEnded = true) (ev : Event) :
    ∃ a', a.step ev = some a' ∧ a'.crashed = ev.needsReadable ∧
      a'.readable.hasEnded = true ∧
      (ev.isEmitted = true → ev.needsReadable = false → a' = a) := by
  obtain ⟨readable, closeCalls, crashed⟩ := a
  obtain rfl : crashed = false := hc
  have hno := ReadableStream.canCloseOrEnqueue_of_hasEnded hended
  have hclose : readable.close = none := ReadableStream.close_eq_none.mpr hno
  have henq : ∀ c, readable.enqueue c = none := fun c => ReadableStream.enqueue_eq_none.mpr hno
  have herr := ReadableStream.error_of_hasEnded hended
  have hcancel := ReadableStream.cancel_of_hasEnded hended
  cases ev with
  | message data isBinary =>
      cases isBinary <;>
        simp [Adapter.step, Adapter.settle, herr, henq, hended, Event.needsReadable]
  | error err => simp [Adapter.step, Adapter.settle, herr, hended, Event.needsReadable]
  | close => simp [Adapter.step, Adapter.settle, hclose, hended, Event.needsReadable]
  | read =>
      simp [Adapter.step, Event.needsReadable, Event.isEmitted,
        ReadableStream.hasEnded_read_of_hasEnded hended]
  | cancel =>
      simp [Adapter.step, hcancel, hended, Event.needsReadable, Event.isEmitted]
  | abort =>
      simp [Adapter.step, Adapter.wsClose, hended, Event.needsReadable, Event.isEmitted]
  | closeSocket code reason =>
      simp [Adapter.step, Adapter.wsClose, hended, Event.needsReadable, Event.isEmitted]

/-- One event on a readable that can still be closed: nothing throws; a text
    message, an error or a cancel ends it, a close lets it drain. -/
theorem step_of_canClose {a : Adapter} (hc : a.crashed = false)
    (hopen : a.readable.canCloseOrEnqueue = true) (ev : Event) :
    ∃ a', a.step ev = some a' ∧ a'.crashed = false ∧
      (ev.ends = true → a'.readable.hasEnded = true) ∧
      (ev.ends = false → ev ≠ .close → a'.readable.canCloseOrEnqueue = true) := by
  have hne : ∀ c, a.readable.enqueue c ≠ none := fun c h => by
    rw [ReadableStream.enqueue_eq_none, hopen] at h
    cases h
  cases ev with
  | message data isBinary =>
      cases isBinary with
      | false => simp [Adapter.step, hc, Adapter.settle, Event.ends]
      | true =>
          obtain ⟨s', hs'⟩ := Option.ne_none_iff_exists'.mp (hne (toUint8Array data))
          simp [Adapter.step, hc, Adapter.settle, hs', Event.ends,
            ReadableStream.canCloseOrEnqueue_of_enqueue hs']
  | error err => simp [Adapter.step, hc, Adapter.settle, Event.ends]
  | close =>
      have hclose : a.readable.close ≠ none := fun h => by
        rw [ReadableStream.close_eq_none, hopen] at h
        cases h
      obtain ⟨s', hs'⟩ := Option.ne_none_iff_exists'.mp hclose
      simp [Adapter.step, hc, Adapter.settle, hs', Event.ends]
  | read => simp [Adapter.step, hc, Event.ends, hopen]
  | cancel =>
      have hrun := ReadableStream.cancel_snd_of_canCloseOrEnqueue hopen
      have hend := ReadableStream.hasEnded_cancel a.readable
      cases hcancel : a.readable.cancel with
      | mk s' ran =>
          rw [hcancel] at hrun hend
          cases hrun
          simpa [Adapter.step, hc, hcancel, Adapter.wsClose, Event.ends] using hend
  | abort => simp [Adapter.step, hc, Adapter.wsClose, Event.ends, hopen]
  | closeSocket code reason => simp [Adapter.step, hc, Adapter.wsClose, Event.ends, hopen]

/-- The consumer's own calls never throw in a listener. -/
theorem step_of_not_isEmitted {a : Adapter} (hc : a.crashed = false) {ev : Event}
    (hev : ev.isEmitted = false) : ∃ a', a.step ev = some a' ∧ a'.crashed = false := by
  cases ev with
  | message data isBinary => cases hev
  | error err => cases hev
  | close => cases hev
  | read => simp [Adapter.step, hc]
  | cancel =>
      cases hcancel : a.readable.cancel with
      | mk s' ran => cases ran <;> simp [Adapter.step, hc, hcancel, Adapter.wsClose]
  | abort => simp [Adapter.step, hc, Adapter.wsClose]
  | closeSocket code reason => simp [Adapter.step, hc, Adapter.wsClose]

-- ============================================================================
-- Whole runs
-- ============================================================================

theorem meets_of_not_isEmitted {a : Adapter} {evs : List Event} (hc : a.crashed = false)
    (hevs : ∀ e ∈ evs, e.isEmitted = false) :
    websocketToDuplexMessageStream.Meets EventSafe a evs := by
  induction evs generalizing a with
  | nil => trivial
  | cons ev evs ih =>
      have hev := hevs ev (List.mem_cons_self ..)
      obtain ⟨a', hstep, hc'⟩ := step_of_not_isEmitted hc hev
      refine (Machine.meets_cons _ hstep).mpr ⟨?_, ?_⟩
      · intro b hb
        obtain rfl : a' = b := Option.some.inj (hstep.symm.trans hb)
        exact ⟨hc', fun h => absurd h (by simp [hev])⟩
      · exact ih hc' fun e he => hevs e (List.mem_cons_of_mem _ he)

/-- Once the readable has closed or errored, the run is safe exactly while no
    binary message and no close arrives. -/
theorem meets_iff_of_hasEnded {a : Adapter} {evs : List Event} (hc : a.crashed = false)
    (hended : a.readable.hasEnded = true) :
    websocketToDuplexMessageStream.Meets EventSafe a evs ↔
      ∀ e ∈ evs, e.needsReadable = false := by
  induction evs generalizing a with
  | nil => simp
  | cons ev evs ih =>
      obtain ⟨a', hstep, hcrash, hended', hsame⟩ := step_of_hasEnded hc hended ev
      rw [Machine.meets_cons _ hstep]
      cases hneeds : ev.needsReadable with
      | true =>
          have hbad : ¬ EventSafe a ev := fun h => by
            have := (h a' hstep).1
            rw [hcrash, hneeds] at this
            cases this
          simp [hbad, hneeds]
      | false =>
          have hsafe : EventSafe a ev := by
            intro b hb
            obtain rfl : a' = b := Option.some.inj (hstep.symm.trans hb)
            exact ⟨hcrash.trans hneeds, fun h _ => hsame h hneeds⟩
          rw [ih (hcrash.trans hneeds) hended']
          simp [hsafe, hneeds]

/-- While the readable can still be closed, the run is safe exactly if the
    close is the first of its ending causes and no message follows another. -/
theorem meets_iff_of_canClose {a : Adapter} {evs : List Event} (hc : a.crashed = false)
    (hopen : a.readable.canCloseOrEnqueue = true) (hclose : SingleClose evs) :
    websocketToDuplexMessageStream.Meets EventSafe a evs ↔ EndsWithClose evs := by
  induction evs generalizing a with
  | nil => simp [EndsWithClose]
  | cons ev evs ih =>
      obtain ⟨hlast, hclose'⟩ := List.pairwise_cons.mp hclose
      obtain ⟨a', hstep, hc', hends, hstays⟩ := step_of_canClose hc hopen ev
      have hsafe : EventSafe a ev := by
        intro b hb
        obtain rfl : a' = b := Option.some.inj (hstep.symm.trans hb)
        exact ⟨hc', fun _ h => absurd h (by simp [hopen])⟩
      have hvacuous : (∀ e ∈ evs, e.needsReadable = false) → EndsWithClose evs := by
        intro hnone
        exact List.pairwise_of_forall_mem_list fun _ _ x hx _ => hnone x hx
      rw [Machine.meets_cons _ hstep, EndsWithClose, List.pairwise_cons]
      cases hev : ev.ends with
      | true =>
          rw [meets_iff_of_hasEnded hc' (hends hev)]
          exact ⟨fun h => ⟨fun x hx _ => h.2 x hx, hvacuous h.2⟩,
            fun h => ⟨hsafe, fun x hx => h.1 x hx rfl⟩⟩
      | false =>
          by_cases hclosed : ev = .close
          · -- nothing the socket emits follows its close
            have hquiet := fun x hx => hlast x hx hclosed
            have hnone : ∀ e ∈ evs, e.needsReadable = false := by
              intro e he
              cases hneeds : e.needsReadable with
              | false => rfl
              | true =>
                  have := hquiet e he
                  rw [Event.isEmitted_of_needsReadable hneeds] at this
                  cases this
            have := hvacuous hnone
            simp_all [meets_of_not_isEmitted hc' hquiet, EndsWithClose]
          · have := ih hc' (hstays hev hclosed) hclose'
            simp [hsafe, this, EndsWithClose]

/-- The listeners of the adapter are safe in a run exactly if no binary
    message and no close arrives after a text message, an error or a cancel:
    none of the three listeners checks whether the readable is still open. -/
theorem listeners_safe_iff (evs : List Event) (hclose : SingleClose evs) :
    websocketToDuplexMessageStream.Meets EventSafe websocketToDuplexMessageStream.init evs ↔
      EndsWithClose evs :=
  meets_iff_of_canClose rfl rfl hclose

theorem listeners_safe_message_close :
    websocketToDuplexMessageStream.Meets EventSafe websocketToDuplexMessageStream.init
      [.message (.buffer [1]) true, .read, .close, .cancel] :=
  (listeners_safe_iff _ (by decide)).mpr (by decide)

/-- Tearing down a connection cancels its reader, which closes the socket; the
    close event that follows makes the close listener throw. -/
theorem close_after_cancel_throws :
    ¬ ∀ evs, SingleClose evs →
      websocketToDuplexMessageStream.Meets EventSafe websocketToDuplexMessageStream.init evs := by
  intro h
  have hsafe := (h [.cancel, .close] (by decide)).2 _ rfl
  have hcrash := (hsafe.1 _ rfl).1
  cases hcrash

end Node
end BidiWeb
