/-
  BidiWeb.Cloudflare.WebSocketLike

  `ts/packages/cloudflare/src/websocket-like.ts`: the listeners that
  `wrapWebSocket` adds to an accepted Workers socket, and the readable they
  feed.

  A Workers socket throws from its second `close()`, and fires its close event
  from within the first.  An exception that escapes an event listener tears
  the connection down, one that escapes a close path rejects the promise of
  the caller; `thrown` keeps them all.

  `ended` and the readable agree: as long as the flag is down the controller
  takes chunks and can be closed, and no call in between sees them disagree.
-/

import BidiWeb.Core.Wire
import BidiWeb.Lib.JsObject
import BidiWeb.Lib.Machine
import BidiWeb.Lib.ReadableStream
import BidiWeb.Lib.Uint8Array

namespace BidiWeb
namespace Cloudflare

open BidiWeb.Lib
open BidiWeb.Core (JsError)

-- ============================================================================
-- Message data
-- ============================================================================

/-- `event.data` of a message event. -/
inductive MessageData where
  | string (text : JsString)
  | arrayBuffer (bytes : Bytes)
  /-- `ArrayBuffer.isView(data)` -/
  | view (data : Uint8Array)
  /-- Anything else, by what `Object.prototype.toString` calls it. -/
  | other (tag : String)

def toBytes : MessageData → Except JsError Bytes
  | .string text => .ok (Unicode.encodeUtf8 (Unicode.decodeUtf16 text))
  | .arrayBuffer bytes => .ok bytes
  | .view data => .ok data.bytes
  | .other tag => .error (.error ("unsupported WebSocket message data type: " ++ tag))

-- ============================================================================
-- State
-- ============================================================================

structure WrappedSocket where
  readable : ReadableStream Bytes JsError := {}
  ended : Bool := false
  /-- The chunks the controller has taken. -/
  given : List Bytes := []
  /-- `close()` of the socket throws. -/
  socketClosed : Bool := false
  /-- The arguments of the `close` calls the socket has taken. -/
  closeCalls : List (Nat × Option String) := []
  /-- Messages sent. -/
  sent : List Bytes := []
  /-- What has escaped a listener or a close path. -/
  thrown : List JsError := []

/-- Events the socket fires, and calls made by the consumer of the
    `DuplexMessageStream`. -/
inductive Event where
  | message (data : MessageData)
  /-- The peer has closed the socket; whether `close()` throws from now on. -/
  | close (socketClosed : Bool)
  | error
  /-- `reader.read()` -/
  | read
  /-- `reader.cancel()` -/
  | cancel
  | write (chunk : Bytes)
  /-- The writable is closed. -/
  | writableClose
  /-- The writable is aborted. -/
  | writableAbort
  /-- `close(code, reason)` of the `DuplexMessageStream`. -/
  | closeSocket (code : Option Nat) (reason : Option String)

/-- What a call leaves behind, and what it throws. -/
structure Completion where
  thrown : Option JsError := none
  state : WrappedSocket

def enqueueError : JsError := .typeError "Invalid state: Controller is already closed"
def closeTwiceError : JsError := .typeError "Can't call WebSocket close() after close()."

namespace WrappedSocket

variable (s : WrappedSocket)

-- ============================================================================
-- The functions of the source
-- ============================================================================

/-- `controller.enqueue(chunk)` -/
def enqueue (chunk : Bytes) : Completion :=
  match s.readable.enqueue chunk with
  | some readable => { state := { s with readable, given := s.given ++ [chunk] } }
  | none => { thrown := some enqueueError, state := s }

/-- `controller.error(err)`: never throws. -/
def error (err : JsError) : WrappedSocket := { s with readable := s.readable.error err }

def onMessage (data : MessageData) : Completion :=
  if s.ended then { state := s }
  else
    let attempt : Completion :=
      match toBytes data with
      | .ok chunk => s.enqueue chunk
      | .error err => { thrown := some err, state := s }
    match attempt.thrown with
    | none => attempt
    | some err => { state := { attempt.state with ended := true }.error err }

def onClose : Completion :=
  if s.ended then { state := s }
  else
    match s.readable.close with
    | some readable => { state := { s with ended := true, readable } }
    | none => { thrown := some enqueueError, state := { s with ended := true } }

def onError : Completion :=
  if s.ended then { state := s }
  else { state := { s with ended := true }.error (.error "WebSocket error") }

/-- Run a listener or a close path; what escapes it is lost to its caller. -/
def settle (completion : Completion) : WrappedSocket :=
  match completion.thrown with
  | none => completion.state
  | some err => { completion.state with thrown := completion.state.thrown ++ [err] }

/-- `socket.close(code, reason)` -/
def socketClose (code : Nat) (reason : Option String) : Completion :=
  if s.socketClosed then { thrown := some closeTwiceError, state := s }
  else
    let closed := { s with socketClosed := true, closeCalls := s.closeCalls ++ [(code, reason)] }
    -- the close event is fired before the call returns
    { state := settle closed.onClose }

def closeQuietly (code : Option Nat) (reason : Option String) : Completion :=
  { state := (s.socketClose (code.getD 1000) reason).state }

/-- The cancel algorithm of the readable. -/
def cancel : Completion := { s with ended := true }.closeQuietly none none

def step (ev : Event) : WrappedSocket :=
  match ev with
  | .message data => settle (s.onMessage data)
  | .close socketClosed => settle { s with socketClosed := s.socketClosed || socketClosed }.onClose
  | .error => settle s.onError
  | .read => { s with readable := s.readable.read }
  | .cancel =>
      match s.readable.cancel with
      | (readable, true) => settle { s with readable }.cancel
      | (readable, false) => { s with readable }
  | .write chunk =>
      -- a closed socket refuses to send
      if s.socketClosed then s else { s with sent := s.sent ++ [chunk] }
  | .writableClose | .writableAbort => settle (s.closeQuietly none none)
  | .closeSocket code reason => settle (s.closeQuietly code reason)

end WrappedSocket

/-- `wrapWebSocket(socket)`. -/
def wrapWebSocket : Machine WrappedSocket Event where
  init := {}
  step s ev := some (s.step ev)

-- ============================================================================
-- What a run should give
-- ============================================================================

/-- The event ends the readable, if nothing has before: a close, an error, a
    cancel, a message of unsupported data, or a call that closes the socket. -/
def Event.ends : Event → Bool
  | .message (.other _) => true
  | .message (.string _) | .message (.arrayBuffer _) | .message (.view _) => false
  | .close _ | .error | .cancel | .writableClose | .writableAbort | .closeSocket .. => true
  | .read | .write _ => false

/-- The bytes of a message. -/
def Event.bytes? : Event → Option Bytes
  | .message data => (toBytes data).toOption
  | .close _ | .error | .read | .cancel | .write _ | .writableClose | .writableAbort
  | .closeSocket .. => none

/-- The messages before the first cause that ends the readable. -/
def messagesBeforeEnd (evs : List Event) : List Bytes :=
  (evs.takeWhile fun ev => !ev.ends).filterMap Event.bytes?

namespace WrappedSocket

-- ============================================================================
-- The invariant
-- ============================================================================

structure Inv (s : WrappedSocket) : Prop where
  /-- The flag says what the controller would. -/
  ended : s.ended = !s.readable.canCloseOrEnqueue
  thrown : s.thrown = []
  /-- The consumer gets what the controller has taken, in order. -/
  received : s.readable.received ++ s.readable.queue <+: s.given
  whole : s.ended = false → s.readable.received ++ s.readable.queue = s.given

/-- What every cause that ends the readable leaves behind. -/
structure Ended (s s' : WrappedSocket) : Prop where
  inv : s'.Inv
  ended : s'.ended = true
  given : s'.given = s.given

variable {s s' : WrappedSocket}

theorem inv_init : Inv wrapWebSocket.init where
  ended := rfl
  thrown := rfl
  received := List.prefix_rfl
  whole := fun _ => rfl

theorem Inv.open_iff (hs : s.Inv) : s.ended = false ↔ s.readable.canCloseOrEnqueue = true := by
  rw [hs.ended, Bool.not_eq_false']

/-- The readable has ended, and given up nothing but its queue. -/
theorem Inv.of_ended (hs : s.Inv) (hended : s'.ended = true)
    (hclosed : s'.readable.canCloseOrEnqueue = false) (hthrown : s'.thrown = s.thrown)
    (hgiven : s'.given = s.given)
    (hreceived : s'.readable.received ++ s'.readable.queue <+:
      s.readable.received ++ s.readable.queue) : Ended s s' where
  inv :=
    { ended := by rw [hended, hclosed]; rfl
      thrown := hthrown.trans hs.thrown
      received := hgiven ▸ hreceived.trans hs.received
      whole := fun h => by rw [hended] at h; cases h }
  ended := hended
  given := hgiven

theorem Ended.trans {s'' : WrappedSocket} (h : Ended s s') (h' : Ended s' s'') : Ended s s'' :=
  ⟨h'.inv, h'.ended, h'.given.trans h.given⟩

-- ============================================================================
-- The listeners and the close paths
-- ============================================================================

/-- Once the flag is up, the close listener does nothing. -/
theorem onClose_of_ended (hended : s.ended = true) : s.onClose = { state := s } := by
  rw [onClose, if_pos hended]

theorem ended_onClose (hs : s.Inv) : Ended s (settle s.onClose) := by
  by_cases hended : s.ended = true
  · rw [onClose_of_ended hended]
    exact ⟨hs, hended, rfl⟩
  · have hopen := hs.open_iff.mp (Bool.eq_false_iff.mpr hended)
    have hne : s.readable.close ≠ none := fun h => by
      rw [ReadableStream.close_eq_none, hopen] at h
      cases h
    obtain ⟨readable, hclose⟩ := Option.ne_none_iff_exists'.mp hne
    obtain ⟨hreceived, hqueue, -⟩ := ReadableStream.received_queue_close hclose
    have hstate : settle s.onClose = { s with ended := true, readable } := by
      rw [onClose, if_neg hended, hclose, settle]
    rw [hstate]
    refine hs.of_ended rfl (ReadableStream.canCloseOrEnqueue_of_close hclose) rfl rfl ?_
    have hsame : readable.received ++ readable.queue =
        s.readable.received ++ s.readable.queue := by
      rw [hreceived, hqueue]
    show readable.received ++ readable.queue <+: _
    exact hsame ▸ List.prefix_rfl

theorem ended_error (hs : s.Inv) (err : JsError) :
    Ended s ({ s with ended := true }.error err) := by
  obtain ⟨hreceived, hqueue, -⟩ := ReadableStream.received_error s.readable err
  refine hs.of_ended rfl ?_ rfl rfl ?_
  · exact ReadableStream.canCloseOrEnqueue_of_hasEnded (ReadableStream.hasEnded_error _ _)
  · show (s.readable.error err).received ++ (s.readable.error err).queue <+: _
    rw [hreceived, hqueue, List.append_nil]
    exact List.prefix_append ..

theorem ended_onError (hs : s.Inv) : Ended s (settle s.onError) := by
  unfold onError
  split
  · rename_i hended
    exact ⟨hs, hended, rfl⟩
  · exact ended_error hs _

/-- Every close path ends the readable, by the close event that the first
    `close()` fires; a later one is caught. -/
theorem ended_closeQuietly (hs : s.Inv) (hclosed : s.socketClosed = true → s.ended = true)
    (code : Option Nat) (reason : Option String) :
    Ended s (settle (s.closeQuietly code reason)) := by
  unfold closeQuietly socketClose
  split
  · rename_i htwice
    exact ⟨hs, hclosed htwice, rfl⟩
  · have hsame : Inv { s with
        socketClosed := true, closeCalls := s.closeCalls ++ [(code.getD 1000, reason)] } :=
      ⟨hs.ended, hs.thrown, hs.received, hs.whole⟩
    have hended := ended_onClose hsame
    exact ⟨hended.inv, hended.ended, hended.given⟩

/-- The flag goes up before the socket is closed. -/
theorem ended_cancel (hs : s.Inv) :
    Ended s (settle { s with readable := s.readable.cancel.1 }.cancel) := by
  have hflag : Ended s { s with readable := s.readable.cancel.1, ended := true } := by
    refine hs.of_ended rfl ?_ rfl rfl ?_
    · exact ReadableStream.canCloseOrEnqueue_of_hasEnded (ReadableStream.hasEnded_cancel _)
    · show s.readable.cancel.1.received ++ s.readable.cancel.1.queue <+: _
      rw [ReadableStream.received_cancel, ReadableStream.queue_cancel, List.append_nil]
      exact List.prefix_append ..
  exact hflag.trans (ended_closeQuietly hflag.inv (fun _ => rfl) none none)

/-- A message of supported data, while the readable is open. -/
theorem onMessage_of_ok (hs : s.Inv) (hopen : s.ended = false) {data : MessageData} {chunk : Bytes}
    (hdata : toBytes data = .ok chunk) :
    (settle (s.onMessage data)).Inv ∧ (settle (s.onMessage data)).ended = false ∧
      (settle (s.onMessage data)).given = s.given ++ [chunk] ∧
      (settle (s.onMessage data)).socketClosed = s.socketClosed := by
  have hcan := hs.open_iff.mp hopen
  have hne : s.readable.enqueue chunk ≠ none := fun h => by
    rw [ReadableStream.enqueue_eq_none, hcan] at h
    cases h
  obtain ⟨readable, htakes⟩ := Option.ne_none_iff_exists'.mp hne
  obtain ⟨hreceived, -, -⟩ := ReadableStream.received_queue_enqueue htakes
  have hstate : settle (s.onMessage data) = { s with readable, given := s.given ++ [chunk] } := by
    simp [onMessage, hopen, hdata, enqueue, htakes, settle]
  have hwhole : readable.received ++ readable.queue = s.given ++ [chunk] := by
    rw [hreceived, hs.whole hopen]
  rw [hstate]
  refine ⟨⟨?_, hs.thrown, ?_, fun _ => hwhole⟩, hopen, rfl, rfl⟩
  · show s.ended = !readable.canCloseOrEnqueue
    rw [ReadableStream.canCloseOrEnqueue_of_enqueue htakes, hopen]
    rfl
  · show readable.received ++ readable.queue <+: s.given ++ [chunk]
    exact hwhole ▸ List.prefix_rfl

/-- A message of any other data, or after the end. -/
theorem ended_onMessage (hs : s.Inv) {data : MessageData}
    (hdata : s.ended = true ∨ ∃ err, toBytes data = .error err) :
    Ended s (settle (s.onMessage data)) := by
  by_cases hended : s.ended = true
  · rw [onMessage, if_pos hended]
    exact ⟨hs, hended, rfl⟩
  · obtain ⟨err, herr⟩ := hdata.resolve_left hended
    have hstate : settle (s.onMessage data) = { s with ended := true }.error err := by
      simp [onMessage, hended, herr, settle]
    rw [hstate]
    exact ended_error hs err

-- ============================================================================
-- One event
-- ============================================================================

/-- Between two events the socket refuses to be closed only if the readable has
    ended. -/
structure Steady (s : WrappedSocket) : Prop where
  inv : s.Inv
  closed : s.socketClosed = true → s.ended = true

theorem Ended.steady (h : Ended s s') : s'.Steady := ⟨h.inv, fun _ => h.ended⟩

/-- Reading moves chunks to the consumer, sending leaves the readable alone. -/
theorem Steady.of_passive (hs : s.Steady) (hended : s'.ended = s.ended)
    (hcan : s'.readable.canCloseOrEnqueue = s.readable.canCloseOrEnqueue)
    (hthrown : s'.thrown = s.thrown) (hgiven : s'.given = s.given)
    (hclosed : s'.socketClosed = s.socketClosed)
    (hreceived : s'.readable.received ++ s'.readable.queue =
      s.readable.received ++ s.readable.queue) : s'.Steady where
  inv :=
    { ended := by rw [hended, hcan]; exact hs.inv.ended
      thrown := hthrown.trans hs.inv.thrown
      received := by rw [hreceived, hgiven]; exact hs.inv.received
      whole := fun h => by rw [hreceived, hgiven]; exact hs.inv.whole (hended ▸ h) }
  closed := fun h => hended.trans (hs.closed (hclosed ▸ h))

theorem toBytes_ok_of_not_ends {data : MessageData} (h : (Event.message data).ends = false) :
    ∃ chunk, toBytes data = .ok chunk := by
  cases data with
  | string text => exact ⟨_, rfl⟩
  | arrayBuffer bytes => exact ⟨_, rfl⟩
  | view data => exact ⟨_, rfl⟩
  | other tag => cases h

theorem toBytes_error_of_ends {data : MessageData} (h : (Event.message data).ends = true) :
    ∃ err, toBytes data = .error err := by
  cases data with
  | other tag => exact ⟨_, rfl⟩
  | string | arrayBuffer | view => cases h

/-- A cause that ends the readable, whether or not it has ended before. -/
theorem step_ends (hs : s.Steady) {ev : Event} (hev : ev.ends = true) : Ended s (s.step ev) := by
  cases ev with
  | message data => exact ended_onMessage hs.inv (.inr (toBytes_error_of_ends hev))
  | close socketClosed =>
      have hsame : Inv { s with socketClosed := s.socketClosed || socketClosed } :=
        ⟨hs.inv.ended, hs.inv.thrown, hs.inv.received, hs.inv.whole⟩
      have hended := ended_onClose hsame
      exact ⟨hended.inv, hended.ended, hended.given⟩
  | error => exact ended_onError hs.inv
  | cancel =>
      by_cases hstopped : s.readable.hasEnded = true
      · have hcancel := ReadableStream.cancel_of_hasEnded hstopped
        have hstate : s.step .cancel = s := by simp only [step, hcancel]
        rw [hstate]
        refine ⟨hs.inv, ?_, rfl⟩
        rw [hs.inv.ended, ReadableStream.canCloseOrEnqueue_of_hasEnded hstopped]
        rfl
      · have hstate :
            s.step .cancel = settle { s with readable := s.readable.cancel.1 }.cancel := by
          have hruns : s.readable.cancel.2 = true := by
            rw [ReadableStream.cancel_snd, Bool.eq_false_iff.mpr hstopped]
            rfl
          have hcancel : s.readable.cancel = (s.readable.cancel.1, true) := Prod.ext rfl hruns
          simp only [step]
          rw [hcancel]
        rw [hstate]
        exact ended_cancel hs.inv
  | writableClose | writableAbort => exact ended_closeQuietly hs.inv hs.closed none none
  | closeSocket code reason => exact ended_closeQuietly hs.inv hs.closed code reason
  | read | write chunk => cases hev

/-- A read or a write. -/
theorem step_passive (hs : s.Steady) {ev : Event} (hev : ev.ends = false)
    (hdata : ev.bytes? = none) :
    (s.step ev).Steady ∧ (s.step ev).ended = s.ended ∧ (s.step ev).given = s.given := by
  cases ev with
  | message data =>
      obtain ⟨chunk, hchunk⟩ := toBytes_ok_of_not_ends hev
      simp [Event.bytes?, hchunk, Except.toOption] at hdata
  | read =>
      refine ⟨hs.of_passive rfl ?_ rfl rfl rfl ?_, rfl, rfl⟩
      · exact ReadableStream.canCloseOrEnqueue_read s.readable
      · exact ReadableStream.received_queue_read s.readable
  | write chunk =>
      simp only [step]
      split
      · exact ⟨hs, rfl, rfl⟩
      · exact ⟨hs.of_passive rfl rfl rfl rfl rfl rfl, rfl, rfl⟩
  | close | error | cancel | writableClose | writableAbort | closeSocket => cases hev

/-- A message of supported data, while the readable is open. -/
theorem step_message (hs : s.Steady) (hopen : s.ended = false) {ev : Event} {chunk : Bytes}
    (hdata : ev.bytes? = some chunk) :
    (s.step ev).Steady ∧ (s.step ev).ended = false ∧ (s.step ev).given = s.given ++ [chunk] := by
  cases ev with
  | message data =>
      have hchunk : toBytes data = .ok chunk := by
        cases hbytes : toBytes data with
        | ok bytes => simpa [Event.bytes?, hbytes, Except.toOption] using hdata
        | error err => simp [Event.bytes?, hbytes, Except.toOption] at hdata
      obtain ⟨hinv, hended, hgiven, hsocket⟩ := onMessage_of_ok hs.inv hopen hchunk
      refine ⟨⟨hinv, fun hclosed => ?_⟩, hended, hgiven⟩
      have hbefore : s.ended = true := hs.closed (hsocket.symm.trans hclosed)
      rw [hopen] at hbefore
      cases hbefore
  | close | error | read | cancel | write | writableClose | writableAbort | closeSocket =>
      cases hdata

/-- After the end nothing reaches the controller. -/
theorem step_of_ended (hs : s.Steady) (hended : s.ended = true) (ev : Event) :
    (s.step ev).Steady ∧ (s.step ev).ended = true ∧ (s.step ev).given = s.given := by
  by_cases hev : ev.ends = true
  · have h := step_ends hs hev
    exact ⟨h.steady, h.ended, h.given⟩
  · cases hdata : ev.bytes? with
    | none =>
        obtain ⟨hsteady, hsame, hgiven⟩ := step_passive hs (Bool.eq_false_iff.mpr hev) hdata
        exact ⟨hsteady, hsame.trans hended, hgiven⟩
    | some chunk =>
        cases ev with
        | message data =>
            have h : Ended s (settle (s.onMessage data)) := ended_onMessage hs.inv (.inl hended)
            exact ⟨h.steady, h.ended, h.given⟩
        | close | error | read | cancel | write | writableClose | writableAbort | closeSocket =>
            cases hdata

end WrappedSocket

-- ============================================================================
-- Whole runs
-- ============================================================================

theorem given_of_ended {s : WrappedSocket} (hs : s.Steady) (hended : s.ended = true)
    (evs : List Event) :
    ∃ t, wrapWebSocket.exec s evs = some t ∧ t.Steady ∧ t.given = s.given := by
  induction evs generalizing s with
  | nil => exact ⟨s, rfl, hs, rfl⟩
  | cons ev evs ih =>
      obtain ⟨hs', hended', hgiven⟩ := WrappedSocket.step_of_ended hs hended ev
      obtain ⟨t, hrun, ht, hgiven'⟩ := ih hs' hended'
      exact ⟨t, hrun, ht, hgiven'.trans hgiven⟩

theorem given_of_open {s : WrappedSocket} (hs : s.Steady) (hopen : s.ended = false)
    (evs : List Event) :
    ∃ t, wrapWebSocket.exec s evs = some t ∧ t.Steady ∧
      t.given = s.given ++ messagesBeforeEnd evs := by
  induction evs generalizing s with
  | nil => exact ⟨s, rfl, hs, by simp [messagesBeforeEnd]⟩
  | cons ev evs ih =>
      by_cases hev : ev.ends = true
      · have h := WrappedSocket.step_ends hs hev
        obtain ⟨t, hrun, ht, hgiven⟩ := given_of_ended h.steady h.ended evs
        have hnone : messagesBeforeEnd (ev :: evs) = [] := by simp [messagesBeforeEnd, hev]
        rw [hnone, List.append_nil]
        exact ⟨t, hrun, ht, hgiven.trans h.given⟩
      · cases hdata : ev.bytes? with
        | none =>
            obtain ⟨hs', hsame, hgiven⟩ :=
              WrappedSocket.step_passive hs (Bool.eq_false_iff.mpr hev) hdata
            obtain ⟨t, hrun, ht, hgiven'⟩ := ih hs' (hsame.trans hopen)
            have hrest : messagesBeforeEnd (ev :: evs) = messagesBeforeEnd evs := by
              simp [messagesBeforeEnd, hev, hdata]
            rw [hrest]
            exact ⟨t, hrun, ht, by rw [hgiven', hgiven]⟩
        | some chunk =>
            obtain ⟨hs', hopen', hgiven⟩ := WrappedSocket.step_message hs hopen hdata
            obtain ⟨t, hrun, ht, hgiven'⟩ := ih hs' hopen'
            have hfirst : messagesBeforeEnd (ev :: evs) = chunk :: messagesBeforeEnd evs := by
              simp [messagesBeforeEnd, hev, hdata]
            rw [hfirst]
            exact ⟨t, hrun, ht, by rw [hgiven', hgiven, List.append_assoc, List.singleton_append]⟩

end Cloudflare
end BidiWeb
