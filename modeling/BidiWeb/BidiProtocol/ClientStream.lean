/-
  BidiWeb.BidiProtocol.ClientStream

  `internal/bidiprotocol/client_stream.go` on any `Conn`.

  A `sync.Once` that guards a result is an optional result.
-/

import BidiWeb.BidiProtocol.Conn
import BidiWeb.Lib.Machine

namespace BidiWeb
namespace BidiProtocol

open BidiWeb.ConnectProtocol
open BidiWeb.Lib
open BidiWeb.Core (Code)

/-- What stays the same during a call. -/
structure ClientConfig (κ μ : Type) where
  conn : Conn κ
  procedure : GoString
  /-- `StreamTypeUnary` -/
  unary : Bool
  opts : Options μ
  /-- The codec `NewClientStream` has picked. -/
  codec : Codec μ
  /-- What is left of the deadline when the headers are built, in ms. -/
  timeoutMs : Option Int := none
  lib : Library
  range : RangeOrder (List GoString) := .stored

structure ClientStream (κ : Type) where
  session : Session κ
  callInfo : Option CallInfo := some {}
  sendHeadersOnce : Option (Option GoError) := none
  closeSendOnce : Bool := false
  recvHeadersOnce : Option (Option GoError) := none
  rxEnd : Bool := false

/-- How a `Receive` ends. -/
inductive Received (μ : Type) where
  | message (msg : μ)
  | error (err : GoError)
  /-- A nil pointer has been dereferenced. -/
  | panic

/-- `errors.Is(err, io.EOF)` of what `Receive` returns. -/
def Received.isEOF {μ : Type} : Received μ → Bool
  | .error err => err.isEOF
  | .message _ | .panic => false

namespace ClientStream

variable {κ μ : Type} (cfg : ClientConfig κ μ) (cs : ClientStream κ)

-- ============================================================================
-- Sending
-- ============================================================================

/-- The request headers. -/
def requestHeader : Header :=
  let header : Header :=
    match cs.callInfo with
    | some info => Header.insertAll ∅ info.requestHeader
    | none => ∅
  let header := header.set ":path".toList cfg.procedure
  let header := header.set "Content-Type".toList ("application/connect+".toList ++ cfg.codec.name)
  let header :=
    if cfg.opts.sendCompressor ≠ [] ∧ cfg.opts.sendCompressor ≠ compressionNameIdentity then
      header.set "Connect-Content-Encoding".toList cfg.opts.sendCompressor
    else header
  let header :=
    if cfg.opts.acceptCompression ≠ [] then
      header.set "Connect-Accept-Encoding".toList cfg.opts.acceptCompression
    else header
  match cfg.timeoutMs with
  | some ms =>
      if 0 < ms then header.set "Connect-Timeout-Ms".toList (Nat.toDigits 10 ms.toNat) else header
  | none => header

/-- `sendHeaders` -/
def writeHeaders : Option GoError × ClientStream κ :=
  match marshalHeaders (cs.requestHeader cfg) with
  | .error err =>
      (some (.connectErrorf Code.internal s!"failed to marshal headers: {err.error}"), cs)
  | .ok data =>
      let (err, session) := cs.session.writeEnvelope cfg.conn ⟨flagEnvelopeHeaders, data⟩
      (err, { cs with session })

def sendHeaders : Option GoError × ClientStream κ :=
  match cs.sendHeadersOnce with
  | some err => (err, cs)
  | none =>
      let (err, cs) := cs.writeHeaders cfg
      (err, { cs with sendHeadersOnce := some err })

/-- What `Send` does to a message: marshal, compress, check the size. -/
def encode (msg : μ) : Except GoError Envelope :=
  match cfg.codec.marshalWrite msg with
  | .error err => .error (.connectErrorf Code.internal s!"failed to marshal request: {err.error}")
  | .ok payload =>
      let compressor :=
        if cfg.opts.sendCompressor ≠ [] ∧ cfg.opts.sendCompressor ≠ compressionNameIdentity then
          cfg.opts.compressors.lookup cfg.opts.sendCompressor
        else none
      encodePayload compressor cfg.opts.sendMaxBytes payload

theorem encode_isMessage {cfg : ClientConfig κ μ} {msg : μ} {env : Envelope}
    (h : encode cfg msg = .ok env) : env.isMessage = true := by
  unfold encode at h
  split at h
  · cases h
  · exact encodePayload_isMessage h

def send (msg : μ) : Option GoError × ClientStream κ :=
  match cs.sendHeaders cfg with
  | (some err, cs) => (some err, cs)
  | (none, cs) =>
      match encode cfg msg with
      | .error err => (some err, cs)
      | .ok env =>
          let (err, session) := cs.session.writeEnvelope cfg.conn env
          (err, { cs with session })

def closeSend : Option GoError × ClientStream κ :=
  if cs.closeSendOnce then (none, cs)
  else
    let (err, session) := cs.session.closeSend cfg.conn
    (err, { cs with session, closeSendOnce := true })

def close : Option GoError × ClientStream κ :=
  let (_, cs) := cs.closeSend cfg
  let (err, session) := cs.session.close cfg.conn
  (err, { cs with session })

-- ============================================================================
-- Receiving
-- ============================================================================

def readEnvelope (awaits : Awaits) : Except GoError Envelope × ClientStream κ :=
  let (result, session) := cs.session.readEnvelope cfg.conn awaits
  (result, { cs with session })

/-- Pseudo-headers aren't surfaced to the application. -/
def setResponseHeader (headers : Header) : ClientStream κ :=
  { cs with
    callInfo := cs.callInfo.map fun info =>
      { info with
        responseHeader := setAllValues info.responseHeader
          ((cfg.range.visit headers).filter fun e => !isPseudo e.1) } }

/-- `recvHeaders` -/
def readHeaders : Option GoError × ClientStream κ :=
  match cs.readEnvelope cfg .headers with
  | (.error err, cs) => (some err, cs)
  | (.ok env, cs) =>
      if env.flag ≠ flagEnvelopeHeaders then
        (some (.connectErrorf Code.internal
          s!"protocol error: expected headers frame first, got {hexFlag env.flag}"), cs)
      else
        match unmarshalHeaders cfg.range env.payload with
        | none =>
            (some (.connectErrorf Code.internal
              s!"failed to unmarshal response headers: {
                (cfg.lib.jsonError env.payload).error}"), cs)
        | some headers => (none, cs.setResponseHeader cfg headers)

/-- `cs.recvHeadersOnce.Do` -/
def recvHeaders : Option GoError × ClientStream κ :=
  match cs.recvHeadersOnce with
  | some err => (err, cs)
  | none =>
      let (err, cs) := cs.readHeaders cfg
      (err, { cs with recvHeadersOnce := some err })

def setResponseTrailers (trailers : Header) : ClientStream κ :=
  { cs with
    callInfo := cs.callInfo.map fun info =>
      { info with
        responseTrailer := setAllValues info.responseTrailer (cfg.range.visit trailers) } }

/-- An end-stream envelope has been read; the error it amounts to, if any. -/
def endStream (payload : Bytes) : Option GoError × ClientStream κ :=
  let cs := { cs with rxEnd := true }
  match unmarshalEndStream cfg.lib payload with
  | .error err =>
      (some (.connectErrorf Code.internal
        s!"failed to unmarshal end stream envelope: {err.error}"), cs)
  | .ok (cerr, trailers) => (cerr, cs.setResponseTrailers cfg trailers)

def readUnaryEndStream : Option GoError × ClientStream κ :=
  match cs.readEnvelope cfg .endStream with
  | (.error err, cs) => (some err, cs)
  | (.ok env, cs) =>
      if env.flag ≠ flagEnvelopeEndStream then
        (some (.connectErrorf Code.internal
          s!"protocol error: expected end stream envelope after unary response message, got {
            hexFlag env.flag}"),
          cs)
      else cs.endStream cfg env.payload

/-- A data or compressed-data envelope has been read. -/
def receiveMessage (env : Envelope) : Received μ × ClientStream κ :=
  if exceeds env.payload cfg.opts.readMaxBytes then
    (.error (sizeError "read" env.payload cfg.opts.readMaxBytes), cs)
  else if env.flag = flagEnvelopeCompressed ∧ cs.callInfo.isNone then (.panic, cs)
  else
    let encoding := ((cs.callInfo.getD {}).responseHeader.get "Connect-Content-Encoding".toList)
    match decodePayload cfg.opts.compressors encoding env with
    | .error err => (.error err, cs)
    | .ok payload =>
        match cfg.codec.unmarshalRead payload with
        | .error err =>
            (.error (.connectErrorf Code.internal s!"failed to unmarshal response: {err.error}"),
              cs)
        | .ok msg =>
            if cfg.unary then
              match cs.readUnaryEndStream cfg with
              | (some err, cs) => (.error err, cs)
              | (none, cs) => (.message msg, cs)
            else (.message msg, cs)

/-- An envelope has been read where a message or the end-stream is due. -/
def receiveEnvelope (env : Envelope) : Received μ × ClientStream κ :=
  if env.flag = flagEnvelopeHeaders then
    (.error (.connectErrorf Code.internal "protocol error: unexpected headers frame"), cs)
  else if env.flag = flagEnvelopeEndStream then
    match cs.endStream cfg env.payload with
    | (some err, cs) => (.error err, cs)
    | (none, cs) => (.error .eof, cs)
  else if env.flag ≠ flagEnvelopeData ∧ env.flag ≠ flagEnvelopeCompressed then
    (.error (.connectErrorf Code.internal
      s!"protocol error: unknown frame flag: {hexFlag env.flag}"), cs)
  else cs.receiveMessage cfg env

/-- `Receive` once the response headers have been read. -/
def receiveNext : Received μ × ClientStream κ :=
  if cs.rxEnd then (.error .eof, cs)
  else
    match cs.readEnvelope cfg .message with
    | (.error err, cs) =>
        if err.isEOF then
          (.error (.connectErrorf Code.internal
            "protocol error: unexpected EOF before end stream envelope"), cs)
        else (.error err, cs)
    | (.ok env, cs) => cs.receiveEnvelope cfg env

def receive : Received μ × ClientStream κ :=
  -- the request headers precede everything, even for receive-first RPCs
  match cs.sendHeaders cfg with
  | (some err, cs) => (.error err, cs)
  | (none, cs) =>
      match cs.recvHeaders cfg with
      | (some err, cs) => (.error err, cs)
      | (none, cs) => cs.receiveNext cfg

end ClientStream

-- ============================================================================
-- Sequences of calls
-- ============================================================================

/-- A call on a `ClientStream`. -/
inductive ClientOp (μ : Type) where
  | sendHeaders
  | send (msg : μ)
  | closeSend
  | receive
  | close

variable {κ μ : Type}

def ClientStream.step (cfg : ClientConfig κ μ) (cs : ClientStream κ) (op : ClientOp μ) :
    ClientStream κ :=
  match op with
  | .sendHeaders => (cs.sendHeaders cfg).2
  | .send msg => (cs.send cfg msg).2
  | .closeSend => (cs.closeSend cfg).2
  | .receive => (cs.receive cfg).2
  | .close => (cs.close cfg).2

/-- One `ClientStream` and the calls made on it. -/
def clientMachine (cfg : ClientConfig κ μ) (conn : κ) (callInfo : Option CallInfo) :
    Machine (ClientStream κ) (ClientOp μ) where
  init := { session := { conn }, callInfo }
  step := fun cs op => some (cs.step cfg op)

/-- Every sequence of calls can be made. -/
theorem exec_clientMachine (cfg : ClientConfig κ μ) (conn : κ) (callInfo : Option CallInfo)
    (cs : ClientStream κ) (ops : List (ClientOp μ)) :
    ∃ cs', (clientMachine cfg conn callInfo).exec cs ops = some cs' := by
  induction ops generalizing cs with
  | nil => exact ⟨cs, rfl⟩
  | cons op ops ih => exact ih (cs.step cfg op)

/-- A streaming call of messages that are bytes. -/
def bytesCall (conn : Conn κ) : ClientConfig κ Bytes where
  conn
  procedure := "/pkg.Service/Method".toList
  unary := false
  opts := {}
  codec := { name := codecNameProto, marshalWrite := .ok, unmarshalRead := .ok }
  lib :=
    { jsonError := fun _ => .text "invalid JSON"
      codeOfText := fun _ => none
      codeText := fun _ => "unknown".toList
      decodeBinaryHeader := fun _ => none
      detailDebug := fun _ => none }

end BidiProtocol
end BidiWeb
