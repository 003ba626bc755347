/-
  BidiWeb.ConnectWebSocket.MuxStream

  `muxStream` of `connectwebsocket/mux.go`: one logical stream, its inbox,
  and what ends it.

  `terminated` is a channel that `terminate` closes once; here it is the
  terminal error being set.  A blocking operation is a function that returns
  `none` while it blocks; a `select` with several ready cases is one function
  per case.
-/

import BidiWeb.Wire.GoError

namespace BidiWeb
namespace ConnectWebSocket

/-- The capacity of a stream's inbox. -/
def inboxCap : Nat := 64

structure MuxStream where
  id : UInt32
  inbox : List Envelope := []
  /-- Set when `terminated` is closed. -/
  terminalErr : Option GoError := none
  /-- `ctx.Err()`: set when the stream's context is done. -/
  ctxErr : Option GoError := none
  /-- `cancel` aborts the server-side handler; clients have none. -/
  cancel : Bool := false
  /-- A client stream that owns its connection outright. -/
  dedicated : Bool := false
  /-- The peer finished this stream with an end-stream envelope. -/
  rxEnd : Bool := false
deriving DecidableEq, Repr

namespace MuxStream

variable (s : MuxStream)

def terminated : Bool := s.terminalErr.isSome

def push (env : Envelope) : MuxStream := { s with inbox := s.inbox ++ [env] }

/-- `deliver`, first case: the inbox accepts the frame. -/
def deliverSend (env : Envelope) : Option MuxStream :=
  if s.inbox.length < inboxCap then some (s.push env) else none

/-- `deliver`, second case: the stream has terminated and the frame is
    dropped. -/
def deliverDrop : Option MuxStream := if s.terminated then some s else none

/-- `terminate(err)`: only the first call counts. -/
def terminate (err : GoError) : MuxStream :=
  match s.terminalErr with
  | some _ => s
  | none =>
      { s with
        terminalErr := some err
        ctxErr := if s.cancel then s.ctxErr.or (some .canceled) else s.ctxErr }

def acceptEnvelope (env : Envelope) : MuxStream :=
  { s with rxEnd := s.rxEnd || env.flag = flagEnvelopeEndStream }

/-- Receive from the inbox. -/
def receive : Option (Envelope × MuxStream) :=
  match s.inbox with
  | env :: rest => some (env, { s with inbox := rest }.acceptEnvelope env)
  | [] => none

@[simp] theorem terminate_inbox (err : GoError) : (s.terminate err).inbox = s.inbox := by
  unfold terminate
  split <;> rfl

@[simp] theorem terminated_terminate (err : GoError) : (s.terminate err).terminated = true := by
  unfold terminate terminated
  split
  · rename_i h
    simp [h]
  · rfl

theorem terminated_of_drop (h : s.deliverDrop.isSome) : s.terminated = true := by
  unfold deliverDrop at h
  split at h
  · assumption
  · cases h

theorem terminate_id (err : GoError) : (s.terminate err).id = s.id := by
  unfold terminate
  split <;> rfl

theorem receive_eq_some {env : Envelope} {t : MuxStream} (h : s.receive = some (env, t)) :
    s.inbox = env :: t.inbox ∧ t.terminalErr = s.terminalErr := by
  unfold receive at h
  split at h
  · rename_i e rest hinbox
    cases h
    exact ⟨hinbox, rfl⟩
  · cases h

theorem receive_id {env : Envelope} {t : MuxStream} (h : s.receive = some (env, t)) :
    t.id = s.id := by
  unfold receive at h
  split at h
  · cases h
    rfl
  · cases h

/-- Receiving changes neither how the stream ends nor its context. -/
theorem receive_frame {env : Envelope} {t : MuxStream} (h : s.receive = some (env, t)) :
    t.cancel = s.cancel ∧ t.ctxErr = s.ctxErr ∧ t.terminalErr = s.terminalErr := by
  unfold receive at h
  split at h
  · cases h
    exact ⟨rfl, rfl, rfl⟩
  · cases h

end MuxStream
end ConnectWebSocket
end BidiWeb
