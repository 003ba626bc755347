/-
  BidiWeb.ConnectWebSocket.WireSteps

  A connection on the messages themselves: `readFrame` and `writeFrame`
  around the state of `MuxConn`.

  A message that is no frame ends the read loop, as a failed read does.
-/

import BidiWeb.ConnectWebSocket.Framing
import BidiWeb.ConnectWebSocket.StreamOrder

namespace BidiWeb
namespace ConnectWebSocket

open BidiWeb.Lib
open BidiWeb.Core (Code)

-- ============================================================================
-- Messages
-- ============================================================================

/-- The message of a frame. -/
def Frame.bytes (f : Frame) : Bytes := frameBytes f.id f.env.flag f.env.payload

/-- The error the streams end with when `readFrame` refuses a message:
    `connReadError` of an error that is neither an EOF nor a close status. -/
def Role.readError : Role → GoError → GoError
  | .client, err => GoError.connectErrorf Code.unavailable ("websocket read: " ++ err.error)
  | .server, _ => errConnClosed

inductive WireEvent where
  /-- `conn.Read` returns a binary message. -/
  | message (data : Bytes)
  /-- Anything else. -/
  | other (ev : ConnEvent)
deriving DecidableEq, Repr

namespace WireEvent

def takes : WireEvent → Option Bytes
  | .message data => some data
  | .other _ => none

end WireEvent

namespace MuxConn

variable (c : MuxConn)

/-- Task `k` is a write that `writeFrame` refuses. -/
def tooLarge (ev : ConnEvent) : Bool :=
  match ev with
  | .task k =>
      match c.tasks[k]? with
      | some (.write _ env) => 0xffffffff < env.payload.length  -- math.MaxUint32
      | _ => false
  | _ => false

def wireStep : WireEvent → Option MuxConn
  | .message data =>
      match splitFrame data with
      | .ok (id, flag, payload) => c.step (.recv ⟨id, ⟨flag, payload⟩⟩)
      | .error err => c.step (.recvFails (c.role.readError err))
  | .other ev => if ev.takes.isSome || c.tooLarge ev then none else c.step ev

/-- The messages written. -/
def messages : List Bytes := c.sent.map Frame.bytes

variable {c} {c' : MuxConn}

-- ============================================================================
-- Steps
-- ============================================================================

/-- What a step on messages is of the steps on frames. -/
inductive WireStepped (c : MuxConn) : WireEvent → MuxConn → Prop where
  | frame (f : Frame) (c' : MuxConn) : c.step (.recv f) = some c' →
      WireStepped c (.message f.bytes) c'
  | refused (data : Bytes) (err : GoError) (c' : MuxConn) : c.step (.recvFails err) = some c' →
      WireStepped c (.message data) c'
  | other (ev : ConnEvent) (c' : MuxConn) : ev.takes = none → c.step ev = some c' →
      WireStepped c (.other ev) c'

theorem wireStepped {ev : WireEvent} (hstep : c.wireStep ev = some c') : WireStepped c ev c' := by
  cases ev with
  | message data =>
      have hstep : (match splitFrame data with
        | .ok (id, flag, payload) => c.step (.recv ⟨id, ⟨flag, payload⟩⟩)
        | .error err => c.step (.recvFails (c.role.readError err))) = some c' := hstep
      cases hsplit : splitFrame data with
      | ok r =>
          obtain ⟨id, flag, payload⟩ := r
          rw [hsplit] at hstep
          rw [(splitFrame_eq_ok.mp hsplit).bytes]
          exact .frame ⟨id, ⟨flag, payload⟩⟩ c' hstep
      | error err =>
          rw [hsplit] at hstep
          exact .refused data _ c' hstep
  | other ev =>
      obtain ⟨hno, hstep⟩ := Option.ite_none_left_eq_some.mp hstep
      simp only [Bool.or_eq_true, not_or] at hno
      exact .other ev c' (by simpa using hno.1) hstep

/-- A step on messages, as one on frames. -/
theorem WireStepped.step {ev : WireEvent} (h : WireStepped c ev c') :
    ∃ ev', c.step ev' = some c' := by
  cases h with
  | frame f _ h => exact ⟨_, h⟩
  | refused data err _ h => exact ⟨_, h⟩
  | other ev _ _ h => exact ⟨_, h⟩

theorem messages_grow {ev : WireEvent} (h : WireStepped c ev c') : c.messages <+: c'.messages := by
  obtain ⟨ev', hstep⟩ := h.step
  exact (wrote_step hstep).sent_grow.map _

end MuxConn
end ConnectWebSocket
end BidiWeb
