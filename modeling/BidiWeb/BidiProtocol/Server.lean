/-
  BidiWeb.BidiProtocol.Server

  `internal/bidiprotocol/server.go` on any `Conn`, and `ErrorForWire` of
  `wire.go`.

  What `server.Call` runs is a parameter: a handler is any terminating
  program over the operations of its stream.
-/

import BidiWeb.BidiProtocol.Conn
import BidiWeb.ConnectProtocol.Compression

namespace BidiWeb
namespace BidiProtocol

open BidiWeb.ConnectProtocol
open BidiWeb.Core (Code)

/-- A handler: what it does next, given how its calls have ended so far. -/
inductive Handler (μ : Type) where
  | ret (err : Option GoError)
  | setResponseHeader (key : GoString) (values : List GoString) (next : Handler μ)
  | setResponseTrailer (key : GoString) (values : List GoString) (next : Handler μ)
  | sendHeaders (next : Option GoError → Handler μ)
  | send (msg : μ) (next : Option GoError → Handler μ)
  | receive (next : Except GoError μ → Handler μ)

structure ServerStream (κ : Type) where
  session : Session κ
  callInfo : CallInfo
  sendHeadersOnce : Option (Option GoError) := none
  responseCompressor : Option Compressor := none

/-- What `server.Call` is given. -/
structure Call (μ : Type) where
  procedure : GoString
  callInfo : CallInfo
  codec : Codec μ
  /-- How far the deadline of the context is, in ns. -/
  timeout : Option Int

structure ServerConfig (κ μ : Type) where
  conn : Conn κ
  opts : Options μ
  /-- `server.Call` -/
  call : Call μ → Handler μ
  lib : Library
  rangeHeaders : RangeOrder (List GoString) := .stored
  rangeCodecs : RangeOrder (Codec μ) := .stored

-- ============================================================================
-- ServerStream
-- ============================================================================

namespace ServerStream

variable {κ μ : Type} (srv : ServerConfig κ μ) (codec : Codec μ) (ss : ServerStream κ)

def receive : Except GoError μ × ServerStream κ :=
  let (result, session) := ss.session.readEnvelope srv.conn .message
  let ss := { ss with session }
  let result : Except GoError μ :=
    match result with
    -- a half-close of the transport (io.EOF) ends the request too
    | .error err => .error err
    | .ok env =>
        if env.flag = flagEnvelopeHeaders then
          .error (.connectErrorf Code.internal
            "protocol error: unexpected headers envelope in request body")
        else if env.flag = flagEnvelopeEndStream then .error .eof
        else if env.flag ≠ flagEnvelopeData ∧ env.flag ≠ flagEnvelopeCompressed then
          .error (.connectErrorf Code.internal
            s!"protocol error: unknown frame flag: {hexFlag env.flag}")
        else if exceeds env.payload srv.opts.readMaxBytes then
          .error (sizeError "read" env.payload srv.opts.readMaxBytes)
        else
          let encoding := ss.callInfo.requestHeader.get "Connect-Content-Encoding".toList
          match decodePayload srv.opts.compressors encoding env with
          | .error err => .error err
          | .ok payload =>
              match codec.unmarshalRead payload with
              | .error err =>
                  .error (.connectErrorf Code.internal s!"failed to unmarshal request: {err.error}")
              | .ok msg => .ok msg
  (result, ss)

/-- The compressor the response uses, with its name. -/
def negotiated : Option (GoString × Compressor) :=
  negotiateCompression (ss.callInfo.requestHeader.get "Connect-Accept-Encoding".toList)
    srv.opts.compressors

/-- The response headers. -/
def responseHeader : Header :=
  let header := Header.insertAll ∅ ss.callInfo.responseHeader
  let header := header.set "Content-Type".toList ("application/connect+".toList ++ codec.name)
  let header :=
    match ss.negotiated srv with
    | some (encoding, _) => header.set "Connect-Content-Encoding".toList encoding
    | none => header
  if srv.opts.acceptCompression ≠ [] then
    header.set "Connect-Accept-Encoding".toList srv.opts.acceptCompression
  else header

/-- `sendHeaders` -/
def writeHeaders : Option GoError × ServerStream κ :=
  let ss' := { ss with responseCompressor := (ss.negotiated srv).map (·.2) }
  match marshalHeaders (ss.responseHeader srv codec) with
  | .error err =>
      (some (.connectErrorf Code.internal s!"failed to marshal headers: {err.error}"), ss')
  | .ok data =>
      let (err, session) := ss'.session.writeEnvelope srv.conn ⟨flagEnvelopeHeaders, data⟩
      (err, { ss' with session })

def sendHeaders : Option GoError × ServerStream κ :=
  match ss.sendHeadersOnce with
  | some err => (err, ss)
  | none =>
      let (err, ss) := ss.writeHeaders srv codec
      (err, { ss with sendHeadersOnce := some err })

/-- What `Send` does to a message: marshal, compress, check the size. -/
def encode (msg : μ) : Except GoError Envelope :=
  match codec.marshalWrite msg with
  | .error err => .error (.connectErrorf Code.internal s!"failed to marshal response: {err.error}")
  | .ok payload => encodePayload ss.responseCompressor srv.opts.sendMaxBytes payload

def send (msg : μ) : Option GoError × ServerStream κ :=
  match ss.sendHeaders srv codec with
  | (some err, ss) => (some err, ss)
  | (none, ss) =>
      match ss.encode srv codec msg with
      | .error err => (some err, ss)
      | .ok env =>
          let (err, session) := ss.session.writeEnvelope srv.conn env
          (err, { ss with session })

/-- Run a handler to the end. -/
def run (ss : ServerStream κ) : Handler μ → Option GoError × ServerStream κ
  | .ret err => (err, ss)
  | .setResponseHeader key values next =>
      let responseHeader := setAllValues ss.callInfo.responseHeader [(key, values)]
      run { ss with callInfo := { ss.callInfo with responseHeader } } next
  | .setResponseTrailer key values next =>
      let responseTrailer := setAllValues ss.callInfo.responseTrailer [(key, values)]
      run { ss with callInfo := { ss.callInfo with responseTrailer } } next
  | .sendHeaders next =>
      let (err, ss) := ss.sendHeaders srv codec
      run ss (next err)
  | .send msg next =>
      let (err, ss) := ss.send srv codec msg
      run ss (next err)
  | .receive next =>
      let (result, ss) := ss.receive srv codec
      run ss (next result)

variable {srv codec ss}

/-- The headers are sent once, and the result stays. -/
theorem sendHeaders_of_sent {err : Option GoError} (hsent : ss.sendHeadersOnce = some err) :
    ss.sendHeaders srv codec = (err, ss) := by
  rw [sendHeaders, hsent]

theorem sendHeaders_of_unsent (hsent : ss.sendHeadersOnce = none) {data : Bytes}
    (hdata : marshalHeaders (ss.responseHeader srv codec) = .ok data) {err : Option GoError}
    {session : Session κ}
    (hwrite : ss.session.writeEnvelope srv.conn ⟨flagEnvelopeHeaders, data⟩ = (err, session)) :
    ss.sendHeaders srv codec =
      (err, { ss with
        session
        sendHeadersOnce := some err
        responseCompressor := (ss.negotiated srv).map (·.2) }) := by
  rw [sendHeaders, hsent, writeHeaders, hdata]
  simp only [hwrite]

end ServerStream

-- ============================================================================
-- HandleRPC
-- ============================================================================

/-- `ErrorForWire`: what came from a peer is not forwarded verbatim. -/
def errorForWire (err : GoError) : GoError :=
  match err.asConnect with
  | some (.connect code message remote details) =>
      if remote then .connectErrorf code "" else .connect code message remote details
  | _ =>
      if err.isCanceled then .connectErrorf Code.canceled ""
      else if err.isDeadlineExceeded then .connectErrorf Code.deadlineExceeded ""
      else .connectErrorf Code.unknown ""

variable {κ μ : Type} (srv : ServerConfig κ μ)

/-- `negotiateCodec` -/
def negotiateCodec (contentType : GoString) : Option (Codec μ) :=
  let codecName := if contains contentType codecNameJSON then codecNameJSON else codecNameProto
  match srv.opts.codecs.lookup codecName with
  | some codec => some codec
  | none => (srv.rangeCodecs.visit srv.opts.codecs).head?.map (·.2)

/-- `time.Duration(ms) * time.Millisecond`, an `int64` of ns. -/
def millisecondsToDuration (ms : Int) : Int := (ms * 1000000).bmod 0x10000000000000000

/-- The `Connect-Timeout-Ms` of a request, if there is one to be applied. -/
def requestTimeout (headers : Header) : Option Int :=
  match parseInt64 (headers.get "Connect-Timeout-Ms".toList) with
  | some ms => if 0 < ms then some (millisecondsToDuration ms) else none
  | none => none

def procedureOf (headers : Header) : GoString := (headers.values ":path".toList).headD []

/-- `HandleRPC` from the dispatch on. -/
def serveCall (headers : Header) (codec : Codec μ) (session : Session κ) : Session κ :=
  let callInfo : CallInfo :=
    { requestHeader := setAllValues ∅
        ((srv.rangeHeaders.visit headers).filter fun e => !isPseudo e.1) }
  let call : Call μ :=
    { procedure := procedureOf headers, callInfo, codec, timeout := requestTimeout headers }
  let (callErr, stream) := ServerStream.run srv codec { session, callInfo } (srv.call call)
  -- the headers precede the end-stream, even if the handler sent nothing
  let (_, stream) := stream.sendHeaders srv codec
  let payload : Bytes :=
    match marshalEndStream srv.lib (callErr.map errorForWire) stream.callInfo.responseTrailer with
    | .ok payload => payload
    | .error _ => []
  (stream.session.writeEnvelope srv.conn ⟨flagEnvelopeEndStream, payload⟩).2

/-- `HandleRPC`.  Without any codec it never returns: it dereferences nil. -/
def handleRPC (session : Session κ) : Option (Session κ) :=
  match session.readEnvelope srv.conn .headers with
  | (.error _, session) => some session
  | (.ok env, session) =>
      if env.flag ≠ flagEnvelopeHeaders then some session
      else
        match unmarshalHeaders srv.rangeHeaders env.payload with
        | none => some session
        | some headers =>
            if procedureOf headers = [] then some session
            else
              (negotiateCodec srv (headers.get "Content-Type".toList)).map fun codec =>
                serveCall srv headers codec session

end BidiProtocol
end BidiWeb
