/-
  BidiWeb.Web.WebSocketMux

  `class WebSocketMux` of `ts/packages/web/src/connect-websocket-transport.ts`
  with every socket it ever dials, every stream it ever opens, and the reader
  each call has on its stream.

  A label is one turn of the event loop or one microtask of it.  A socket's
  events are tasks of their own and wait until no call is `ready`; the
  `openStream` calls waiting for a dial become ready in the `open` event that
  settles it and resume one by one.  A socket that fails fires `error` and
  then `close`, and code of the page may run between the two; one that closes
  only fires `close`, any time after it stopped being open.
-/

import BidiWeb.Lib.Machine
import BidiWeb.Lib.Store
import BidiWeb.Web.EnvelopeReader

namespace BidiWeb
namespace Web

open BidiWeb.Lib
open BidiWeb.Core (JsError Code)

-- ============================================================================
-- State
-- ============================================================================

/-- `WebSocket.readyState`. -/
inductive ReadyState where
  | connecting
  | opened
  | closing
  | closed
deriving DecidableEq, Repr

/-- A dialled socket, with the events it has fired and the frames sent on it. -/
structure Socket where
  readyState : ReadyState := .connecting
  erred : Bool := false
  closeDelivered : Bool := false
  /-- The stream and the envelope of each `socket.send(prefixStreamId(..))`. -/
  sent : List (Nat × Bytes) := []
deriving DecidableEq, Repr

/-- What removed a stream from `entries`, other than its own call. -/
inductive Cause where
  /-- The `close` event of this socket. -/
  | closeEvent (socket : Nat)
  /-- A reset frame received on this socket. -/
  | resetFrame (socket : Nat)
  /-- `mux.close()`. -/
  | muxClose
deriving DecidableEq, Repr

/-- One opened stream: its entry and both ends of its readable. -/
structure Stream where
  /-- The socket its writable sends on. -/
  socket : Nat
  /-- Its ID is a key of `entries`. -/
  registered : Bool := true
  /-- The server finished this stream with an end-stream envelope. -/
  endSeen : Bool := false
  readable : ReadableStream Bytes JsError := {}
  response : EnvelopeReader := {}
  /-- The chunks `route` has enqueued. -/
  routed : List Bytes := []
  endedBy : Option Cause := none
deriving DecidableEq, Repr

structure WebSocketMux where
  closeWhenIdle : Bool := false
  /-- Every socket dialled, in order. -/
  sockets : List Socket := []
  /-- `this.socket`. -/
  socket : Option Nat := none
  /-- `this.opening`: the socket its promise is about. -/
  opening : Option Nat := none
  /-- Every stream opened, in order; the `n`-th has the stream ID `n + 1`. -/
  streams : List Stream := []
  /-- The sockets whose dial an `openStream` call awaits. -/
  waiting : List Nat := []
  /-- The sockets with which an `openStream` call is about to resume. -/
  ready : List Nat := []
deriving DecidableEq, Repr

inductive MuxEvent where
  | openStream
  /-- The `i`-th ready `openStream` call resumes after its `await`. -/
  | resume (i : Nat)
  /-- The writable of stream `h` is given one envelope. -/
  | write (h : Nat) (envelope : Bytes)
  /-- The writable of stream `h` is closed. -/
  | closeWriter (h : Nat)
  /-- `closeStream` is called for stream `h`, or its writable is aborted. -/
  | closeStream (h : Nat)
  | close
  | onopen (k : Nat)
  /-- The peer starts the closing handshake. -/
  | peerClosing (k : Nat)
  | onerror (k : Nat)
  | onclose (k : Nat) (reason : String)
  | onmessage (k : Nat) (message : Bytes)
  /-- The envelope stream on stream `h` pulls. -/
  | pull (h : Nat)
  /-- The read that pull awaits settles. -/
  | settle (h : Nat)
  /-- The consumer reads the next envelope of stream `h`. -/
  | read (h : Nat)
deriving DecidableEq, Repr

-- ============================================================================
-- The methods of the class
-- ============================================================================

/-- The stream ID of the `n`-th stream, as `prefixStreamId` writes it. -/
def wireId (h : Nat) : UInt32 := UInt32.ofNat (h + 1)

/-- `prefixStreamId(streamId, envelope)`. -/
def prefixStreamId (h : Nat) (envelope : Bytes) : Bytes :=
  Lib.putUint32 (wireId h) ++ envelope

def closedError (reason : String) : JsError :=
  .connectError (if reason = "" then "WebSocket closed" else "WebSocket closed: " ++ reason)
    Code.unavailable

def serverResetError : JsError := .connectError "stream reset by server" Code.canceled

/-- Remove a stream from `entries` and error its readable. -/
def Stream.fail (s : Stream) (cause : Cause) (reason : JsError) : Stream :=
  { s with
    registered := false
    readable := s.readable.error reason
    endedBy := some cause }

/-- Enqueue an incoming chunk. -/
def Stream.route (s : Stream) (chunk : Bytes) (endStream : Bool) : Stream :=
  { s with
    endSeen := s.endSeen || endStream
    readable := (s.readable.enqueue chunk).getD s.readable
    routed := s.routed ++ [chunk] }

/-- Remove a stream from `entries` and close its readable. -/
def Stream.release (s : Stream) : Stream :=
  { s with
    registered := false
    readable := s.readable.close.getD s.readable }

/-- `ws.close(1000)`. -/
def Socket.close (w : Socket) : Socket :=
  match w.readyState with
  | .connecting | .opened => { w with readyState := .closing }
  | .closing | .closed => w

/-- `ws.send(prefixStreamId(..))`: on a socket that is closing the frame is
    silently discarded. -/
def Socket.send (w : Socket) (h : Nat) (envelope : Bytes) : Socket :=
  if w.readyState = .opened then { w with sent := w.sent ++ [(h, envelope)] } else w

namespace WebSocketMux

variable (m : WebSocketMux)

def readyStateIs (k : Nat) (st : ReadyState) : Bool :=
  match m.sockets[k]? with
  | some w => w.readyState = st
  | none => false

/-- `this.socket` is defined and OPEN. -/
def openSocket : Option Nat :=
  match m.socket with
  | some k => if m.readyStateIs k .opened then some k else none
  | none => none

/-- Terminate every stream after the connection failed or closed. -/
def failAll (cause : Cause) (reason : JsError) : WebSocketMux :=
  { m with streams := m.streams.map fun s => if s.registered then s.fail cause reason else s }

def sendOn (k : Nat) (h : Nat) (envelope : Bytes) : WebSocketMux :=
  { m with sockets := m.sockets.modify k (·.send h envelope) }

def wsClose (k : Nat) : WebSocketMux :=
  { m with sockets := m.sockets.modify k Socket.close }

/-- `openStream()` up to its `await`: use the open socket, or join the dial in
    progress, or start one. -/
def openStream : WebSocketMux :=
  match m.openSocket with
  | some k => { m with ready := m.ready ++ [k] }
  | none =>
      match m.opening with
      | some k => { m with waiting := m.waiting ++ [k] }
      | none =>
          { m with
            sockets := m.sockets ++ [{}]
            opening := some m.sockets.length
            waiting := m.waiting ++ [m.sockets.length] }

/-- `openStream()` after its `await`, with the socket it resolved to. -/
def resume (i k : Nat) : WebSocketMux :=
  { m with
    ready := m.ready.eraseIdx i
    streams := m.streams ++ [{ socket := k }] }

/-- `close()`. -/
def close : WebSocketMux :=
  let failed := { m with socket := none }.failAll .muxClose (closedError "")
  match m.socket with
  | some k => failed.wsClose k
  | none => failed

/-- The reset frame `closeStream` sends for an unfinished stream. -/
def sendReset (h : Nat) (s : Stream) : WebSocketMux :=
  if s.endSeen then m
  else
    match m.openSocket with
    | some k => m.sendOn k h (Core.encodeEnvelope flagEnvelopeReset [])
    | none => m

/-- With `closeWhenIdle`, close the connection once no streams remain. -/
def closeIdle : WebSocketMux :=
  match m.socket with
  | some k =>
      if m.closeWhenIdle && m.streams.all (!·.registered) then
        { m.wsClose k with socket := none }
      else m
  | none => m

/-- `closeStream(streamId)`. -/
def closeStream (h : Nat) : WebSocketMux :=
  match m.streams[h]? with
  | some s =>
      if s.registered then
        let sent := m.sendReset h s
        { sent with streams := sent.streams.modify h Stream.release }.closeIdle
      else m
  | none => m

/-- The stream registered under a stream ID received on the wire. -/
def entry (streamId : UInt32) : Option Nat :=
  match streamId.toNat with
  | 0 => none
  | h + 1 =>
      match m.streams[h]? with
      | some s => if s.registered then some h else none
      | none => none

/-- Route one incoming message to the stream it belongs to. -/
def route (k : Nat) (message : Bytes) : WebSocketMux :=
  match message with
  | i₀ :: i₁ :: i₂ :: i₃ :: flag :: rest =>
      match m.entry (Lib.getUint32 i₀ i₁ i₂ i₃) with
      | none => m
      | some h =>
          if flag = flagEnvelopeReset then
            { m with streams := m.streams.modify h (·.fail (.resetFrame k) serverResetError) }
          else
            { m with
              streams := m.streams.modify h
                (·.route (flag :: rest) (flag = flagEnvelopeEndStream)) }
  | _ => m

def onopen (k : Nat) : WebSocketMux :=
  { m with
    sockets := m.sockets.modify k fun w => { w with readyState := .opened }
    opening := none
    socket := some k
    ready := m.ready ++ m.waiting.filter (· = k)
    waiting := m.waiting.filter (· ≠ k) }

def onerror (k : Nat) : WebSocketMux :=
  { m with
    sockets := m.sockets.modify k fun w => { w with readyState := .closed, erred := true }
    opening := none
    waiting := m.waiting.filter (· ≠ k) }

def onclose (k : Nat) (reason : String) : WebSocketMux :=
  { m with
    sockets := m.sockets.modify k fun w => { w with readyState := .closed, closeDelivered := true }
    opening := none
    socket := if m.socket = some k then none else m.socket }.failAll (.closeEvent k)
      (closedError reason)

-- ============================================================================
-- Steps
-- ============================================================================

/-- An event of socket `k`: it fires once every ready call has resumed. -/
def onSocket (k : Nat) (enabled : Socket → Bool) (f : WebSocketMux) : Option WebSocketMux :=
  match m.sockets[k]? with
  | some w => if m.ready.isEmpty && enabled w then some f else none
  | none => none

/-- An action of the call that opened stream `h`. -/
def onStream (h : Nat) (f : Stream → Option WebSocketMux) : Option WebSocketMux :=
  m.streams[h]?.bind f

def setStream (h : Nat) (s : Stream) : WebSocketMux :=
  { m with streams := m.streams.modify h fun _ => s }

def step [ConnectPackage] (ev : MuxEvent) : Option WebSocketMux :=
  match ev with
  | .openStream => some m.openStream
  | .resume i =>
      match m.ready[i]? with
      | some k => some (m.resume i k)
      | none => none
  | .write h envelope => m.onStream h fun s => some (m.sendOn s.socket h envelope)
  | .closeWriter h =>
      -- half-close: an explicit end-stream envelope
      m.onStream h fun s =>
        some (m.sendOn s.socket h (Core.encodeEnvelope flagEnvelopeEndStream []))
  | .closeStream h => some (m.closeStream h)
  | .close => some m.close
  | .onopen k => m.onSocket k (·.readyState = .connecting) (m.onopen k)
  | .peerClosing k =>
      m.onSocket k (·.readyState = .opened)
        { m with sockets := m.sockets.modify k fun w => { w with readyState := .closing } }
  | .onerror k => m.onSocket k (fun w => !w.erred && !w.closeDelivered) (m.onerror k)
  | .onclose k reason =>
      m.onSocket k (fun w => w.readyState ≠ .connecting && !w.closeDelivered)
        (m.onclose k reason)
  | .onmessage k message => m.onSocket k (·.readyState = .opened) (m.route k message)
  | .pull h =>
      m.onStream h fun s =>
        (s.response.pull s.readable).map fun p =>
          m.setStream h { s with response := p.1, readable := p.2 }
  | .settle h =>
      m.onStream h fun s =>
        (s.response.settle s.readable).map fun p =>
          m.setStream h { s with response := p.1, readable := p.2 }
  | .read h =>
      m.onStream h fun s =>
        some (m.setStream h
          { s with response := { s.response with envelopes := s.response.envelopes.read } })

variable {m} {m' : WebSocketMux}

theorem step_resume [ConnectPackage] {i : Nat} :
    m.step (.resume i) = some m' ↔ ∃ k, m.ready[i]? = some k ∧ m.resume i k = m' := by
  simp only [step]
  cases m.ready[i]? <;> simp

theorem streams_closeIdle (m : WebSocketMux) : m.closeIdle.streams = m.streams := by
  unfold closeIdle
  split
  · split <;> rfl
  · rfl

theorem streams_sendReset (m : WebSocketMux) (h : Nat) (s : Stream) :
    (m.sendReset h s).streams = m.streams := by
  unfold sendReset
  split
  · rfl
  · split <;> rfl

theorem onSocket_eq_some {k : Nat} {enabled : Socket → Bool} {f : WebSocketMux}
    (h : m.onSocket k enabled f = some m') :
    ∃ w, m.sockets[k]? = some w ∧ m.ready = [] ∧ enabled w = true ∧ f = m' := by
  unfold onSocket at h
  split at h
  · rename_i w hw
    split at h
    · rename_i hboth
      simp only [Bool.and_eq_true, List.isEmpty_iff] at hboth
      exact ⟨w, hw, hboth.1, hboth.2, Option.some.inj h⟩
    · cases h
  · cases h

theorem onStream_eq_some {h : Nat} {f : Stream → Option WebSocketMux}
    (hf : m.onStream h f = some m') : ∃ s, m.streams[h]? = some s ∧ f s = some m' :=
  Option.bind_eq_some_iff.mp hf

end WebSocketMux

/-- `new WebSocketMux(url, closeWhenIdle)`. -/
def webSocketMux [ConnectPackage] (closeWhenIdle : Bool) : Machine WebSocketMux MuxEvent where
  init := { closeWhenIdle }
  step m ev := m.step ev

end Web
end BidiWeb
