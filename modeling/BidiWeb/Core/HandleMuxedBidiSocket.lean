/-
  BidiWeb.Core.HandleMuxedBidiSocket

  `ts/packages/core/src/handle-muxed-bidi-socket.ts`: the read loop of a
  multiplexed connection, the map from stream ID to stream, and the RPCs
  started on it.

  A label is one turn of the event loop: the read loop handling one message,
  one of its other endings, the server's signal aborting, or one step of one
  RPC.  An RPC is known here by its request readable, by what has been done
  to its abort controller, and by how far `handleBidiSocket` has come: the
  `finally` block there cancels the envelope reader, awaits, closes the
  writer, awaits, and only then calls `close`, which removes the entry from
  `streams`.  Between the first and the last of these the entry is still
  registered.  Whether its readable still takes envelopes then is up to
  `createEnvelopeReadableStream` of `@connectrpc/connect`: a parameter.
-/

import BidiWeb.Core.Wire
import BidiWeb.Lib.ReadableStream
import BidiWeb.Lib.Store

namespace BidiWeb
namespace Core

open BidiWeb.Lib (ReadableStream Machine)

-- ============================================================================
-- State
-- ============================================================================

/-- How far `handleBidiSocket` has come for one stream. -/
inductive RpcPhase where
  /-- Before its `finally` block. -/
  | serving
  /-- `await envReader.cancel()` -/
  | cancellingReader
  /-- `await writer.close()` -/
  | closingWriter
  /-- `socket.close()` has run; the returned promise is settled. -/
  | released
  /-- The `finally` callback of `startStream` has run. -/
  | settled
deriving DecidableEq, Repr

/-- One started RPC: its `StreamEntry` and the phase of its bridge. -/
structure Rpc where
  streamId : UInt32
  /-- Feeds incoming envelopes to the stream's `handleBidiSocket`. -/
  readable : ReadableStream Bytes JsError
  /-- The reason the entry's abort controller was aborted with. -/
  aborted : Option JsError := none
  /-- Set on reset: suppresses further writes for this stream. -/
  reset : Bool := false
  phase : RpcPhase := .serving
deriving DecidableEq, Repr

/-- Why the read loop ended. -/
inductive LoopEnd where
  | failed
  | idle
  | done
  | malformed (err : JsError)
  /-- An exception escaped the loop while it handled a frame. -/
  | threw (err : JsError)
deriving DecidableEq, Repr

structure HandleMuxedBidiSocketOptions where
  idleTimeoutMs : Option Nat := none
  /-- `options.signal` is aborted when the function is called. -/
  signalAborted : Bool := false

/-- What a call of `handleMuxedBidiSocket` finds: its options, and how the
    envelope readers of `@connectrpc/connect` behave. -/
structure MuxedSetup extends HandleMuxedBidiSocketOptions where
  /-- `envReader.cancel()` cancels the stream it reads from too.  Otherwise it
      leaves that one as it is, as a stream without a cancel algorithm does. -/
  cancelsSource : Bool := false

structure MuxedSocket where
  /-- Every RPC started on the connection, in order. -/
  rpcs : List Rpc := []
  /-- `streams`: the entry registered under a stream ID. -/
  streams : UInt32 → Option Nat := fun _ => none
  ended : Option LoopEnd := none
  signalAborted : Bool := false
  /-- Messages written on the connection. -/
  sent : List Bytes := []
  /-- Arguments of the `socket.close` calls. -/
  closeCalls : List (Option Nat × Option String) := []
  /-- The outer promise has settled. -/
  finished : Bool := false

inductive MuxedEvent where
  /-- `readNext()` resolved with a message. -/
  | receive (message : Bytes)
  | readFailed
  | readDone
  | idleTimeout
  /-- `options.signal` aborts with this reason. -/
  | abortSignal (reason : JsError)
  /-- The bridge of an RPC reads from its request readable. -/
  | rpcRead (h : Nat)
  /-- The bridge of an RPC writes one envelope. -/
  | rpcWrite (h : Nat) (chunk : Bytes)
  /-- The bridge of an RPC reaches its `finally` block. -/
  | rpcFinish (h : Nat)
  | rpcReaderCancelled (h : Nat)
  | rpcWriterClosed (h : Nat)
  | rpcSettled (h : Nat)
  /-- Every RPC has settled; the connection is closed. -/
  | finish
deriving DecidableEq, Repr

-- ============================================================================
-- The functions of the source
-- ============================================================================

def resetReason : JsError := .connectError "stream reset by client" Code.canceled

def teardownReason : LoopEnd → JsError
  | .idle => .connectError "connection closed after idle timeout" Code.unavailable
  | .failed | .done | .malformed _ | .threw _ =>
      .connectError "websocket connection closed" Code.unavailable

/-- What `controller.enqueue` throws on a stream that is not readable. -/
def enqueueError : JsError := .typeError "Invalid state: Controller is already closed"

/-- `await envReader.cancel()`, up to the `await`. -/
def Rpc.cancelReader (setup : MuxedSetup) (r : Rpc) : Rpc :=
  { r with
    phase := .cancellingReader
    readable := if setup.cancelsSource then r.readable.cancel.1 else r.readable }

/-- Mark an entry reset, abort its RPC and error its request readable. -/
def Rpc.kill (r : Rpc) (reason : JsError) : Rpc :=
  { r with
    reset := true
    aborted := r.aborted.or (some reason)
    readable := r.readable.error reason }

namespace MuxedSocket

variable (c : MuxedSocket)

/-- Kill every registered stream and forget them all. -/
def teardown (reason : JsError) : MuxedSocket :=
  { c with
    rpcs := c.rpcs.mapIdx fun h r =>
      if c.streams r.streamId = some h then r.kill reason else r
    streams := fun _ => none }

/-- Leaving the loop runs the `finally` block up to its first `await`. -/
def endLoop (cause : LoopEnd) : MuxedSocket :=
  { c.teardown (teardownReason cause) with ended := some cause }

/-- Register a new stream and call `handleBidiSocket` on it, seeded with the
    headers envelope that opened it. -/
def startStream (streamId : UInt32) (headersEnvelope : Bytes) : MuxedSocket :=
  { c with
    rpcs := c.rpcs ++
      [{ streamId, readable := (ReadableStream.enqueue {} headersEnvelope).getD {} }]
    streams := Function.update c.streams streamId (some c.rpcs.length) }

/-- `streams.delete(streamId)`. -/
def delete (streamId : UInt32) : MuxedSocket :=
  { c with streams := Function.update c.streams streamId none }

def modifyRpc (h : Nat) (f : Rpc → Rpc) : MuxedSocket :=
  { c with rpcs := c.rpcs.modify h f }

/-- Hand an envelope to a registered stream. -/
def enqueue (h : Nat) (envelope : Bytes) : MuxedSocket :=
  match c.rpcs[h]? with
  | none => c
  | some r =>
      match r.readable.enqueue envelope with
      | some readable => c.modifyRpc h fun r => { r with readable }
      | none => c.endLoop (.threw enqueueError)

/-- The dispatch of one well-formed frame. -/
def dispatch (frame : StreamFrame) : MuxedSocket :=
  match c.streams frame.streamId with
  | none =>
      if frame.flag = flagEnvelopeHeaders then c.startStream frame.streamId frame.envelope
      else c
  | some h =>
      if frame.flag = flagEnvelopeReset then
        (c.delete frame.streamId).modifyRpc h (·.kill resetReason)
      else c.enqueue h frame.envelope

/-- Advance the bridge of RPC `h` from phase `before`. -/
def advance (h : Nat) (before : RpcPhase) (f : Rpc → MuxedSocket) : Option MuxedSocket :=
  match c.rpcs[h]? with
  | some r => if r.phase = before then some (f r) else none
  | none => none

def step (setup : MuxedSetup) (ev : MuxedEvent) : Option MuxedSocket :=
  match ev with
  | .receive message =>
      if c.ended.isSome then none
      else
        match decodeStreamFrame message with
        | .error err => some (c.endLoop (.malformed err))
        | .ok frame => some (c.dispatch frame)
  | .readFailed => if c.ended.isSome then none else some (c.endLoop .failed)
  | .readDone => if c.ended.isSome then none else some (c.endLoop .done)
  | .idleTimeout =>
      if c.ended.isSome || setup.idleTimeoutMs.isNone then none
      else
        some ({ c with closeCalls := c.closeCalls ++ [(some 1000, some "idle timeout")] }.endLoop
          .idle)
  | .abortSignal reason =>
      if c.signalAborted then none
      else some { c.teardown reason with signalAborted := true }
  | .rpcRead h =>
      c.advance h .serving fun _ =>
        c.modifyRpc h fun r => { r with readable := r.readable.read }
  | .rpcWrite h chunk =>
      c.advance h .serving fun r =>
        -- a write for a reset stream is rejected
        if r.reset then c
        else { c with sent := c.sent ++ [encodeStreamFrame r.streamId chunk] }
  | .rpcFinish h =>
      c.advance h .serving fun _ => c.modifyRpc h (·.cancelReader setup)
  | .rpcReaderCancelled h =>
      c.advance h .cancellingReader fun _ =>
        c.modifyRpc h fun r => { r with phase := .closingWriter }
  | .rpcWriterClosed h =>
      c.advance h .closingWriter fun r =>
        (c.delete r.streamId).modifyRpc h fun r => { r with phase := .released }
  | .rpcSettled h =>
      c.advance h .released fun r =>
        (c.delete r.streamId).modifyRpc h fun r => { r with phase := .settled }
  | .finish =>
      if c.ended.isSome && !c.finished && c.rpcs.all (·.phase = .settled) then
        some { c with finished := true, closeCalls := c.closeCalls ++ [(none, none)] }
      else none

end MuxedSocket

/-- `handleMuxedBidiSocket(socket, handlers, options)`. -/
def handleMuxedBidiSocket (setup : MuxedSetup) : Machine MuxedSocket MuxedEvent where
  init := { signalAborted := setup.signalAborted }
  step c ev := c.step setup ev

end Core
end BidiWeb
