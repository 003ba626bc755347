/-
  BidiWeb.Core.HandleBidiSocket

  `ts/packages/core/src/handle-bidi-socket.ts`: one RPC carried by a duplex
  stream, bridged to a `UniversalHandler`.

  A handler and the body of its response are given by what they do: return,
  or throw.  What `@connectrpc/connect` and the platform do with their
  arguments is a parameter.  An async function is a computation that may
  throw and appends what it writes.
-/

import BidiWeb.Core.HeadersFrame

namespace BidiWeb
namespace Core

open BidiWeb.Lib

-- ============================================================================
-- Thrown values
-- ============================================================================

structure ConnectError where
  rawMessage : JsString
  code : Code
  /-- The type and the value of every detail. -/
  details : List (JsString × Bytes) := []
  metadata : Headers := {}

/-- What a handler or a function it calls throws. -/
inductive Thrown where
  | connectError (e : ConnectError)
  /-- An `Error` of another class. -/
  | jsError (e : JsError)
  /-- Not an error at all. -/
  | value (v : Json)

-- ============================================================================
-- Handlers
-- ============================================================================

inductive MethodKind where
  | unary
  | serverStreaming
  | clientStreaming
  | bidiStreaming
deriving DecidableEq, Repr

/-- An `AsyncIterable<Uint8Array>`: its chunks, and whether it throws then. -/
structure Body where
  chunks : List Bytes
  failure : Option Thrown := none

structure UniversalServerRequest where
  httpVersion : String
  method : String
  url : JsString
  header : Headers
  body : Body

structure UniversalServerResponse where
  status : Nat
  header : Option Headers := none
  body : Option Body := none

structure UniversalHandler where
  requestPath : JsString
  methodKind : MethodKind
  call : UniversalServerRequest → Except Thrown UniversalServerResponse

/-- What `parseContentType` reads off a content type. -/
structure ParsedContentType where
  stream : Bool
  binary : Bool

/-- What is called outside of this repository. -/
structure Platform where
  /-- How a number of a JSON text is spelled in a string. -/
  numberText : List Char → JsString
  /-- `new URL(path, "https://bidi.invalid").toString()` -/
  newURL : JsString → Except JsError JsString
  parseContentType : Option HeaderValue → Option ParsedContentType
  trailerDemux : Headers → Except JsError (Headers × Headers)
  /-- `validateResponse`: the error of the status, if it is a unary error. -/
  validateResponse : MethodKind → Nat → Headers → Except Thrown (Option ConnectError)
  errorFromJsonBytes : Bytes → Headers → ConnectError → Except Thrown ConnectError
  codeFromHttpStatus : Nat → Code
  /-- `ConnectError.from` -/
  connectErrorFrom : Thrown → Code → ConnectError
  /-- `endStreamSerialization.serialize`, of metadata and an error. -/
  serializeEndStream : Headers → Option ConnectError → Except JsError Bytes

-- ============================================================================
-- The stream
-- ============================================================================

/-- What is written: an encoded envelope, or a chunk of a body as it is. -/
inductive Write where
  | envelope (e : Envelope)
  | chunk (bytes : Bytes)

structure DuplexByteStream where
  /-- The envelopes of `readable`. -/
  requests : List Envelope
  /-- With what `readable` errors after these, if it does not close. -/
  readError : Option Thrown := none
  /-- With what the next write fails, if it does. -/
  writeError : List Write → Option Thrown := fun _ => none

/-- An async function that writes to the stream: what it settles with, and
    what has been written then. -/
structure Async (α : Type) where
  run : List Write → Except Thrown α × List Write

namespace Async

/-- `await` -/
def bind {α β : Type} (f : Async α) (g : α → Async β) : Async β where
  run written :=
    match f.run written with
    | (.ok a, written) => (g a).run written
    | (.error err, written) => (.error err, written)

instance : Monad Async where
  pure a := ⟨fun written => (.ok a, written)⟩
  bind := bind

def throw {α : Type} (err : Thrown) : Async α := ⟨fun written => (.error err, written)⟩

/-- A call that writes nothing. -/
def throwing {α : Type} : Except JsError α → Async α
  | .ok a => pure a
  | .error err => throw (.jsError err)

end Async

def write (socket : DuplexByteStream) (w : Write) : Async Unit where
  run written :=
    match socket.writeError written with
    | none => (.ok (), written ++ [w])
    | some err => (.error err, written)

/-- A failure of a write is swallowed, and so is every other. -/
def ignoringPeerDisconnect (f : Async Unit) : Async Unit where
  run written := (.ok (), (f.run written).2)

-- ============================================================================
-- Headers
-- ============================================================================

def headerContentType : HeaderName := ⟨js "content-type", by decide, by decide⟩
def headerUnaryEncoding : HeaderName := ⟨js "content-encoding", by decide, by decide⟩
def headerStreamEncoding : HeaderName := ⟨js "connect-content-encoding", by decide, by decide⟩
def headerUnaryAcceptEncoding : HeaderName := ⟨js "accept-encoding", by decide, by decide⟩
def headerStreamAcceptEncoding : HeaderName :=
  ⟨js "connect-accept-encoding", by decide, by decide⟩

def contentTypeUnaryProto : HeaderValue := ⟨js "application/proto", by decide⟩
def contentTypeUnaryJson : HeaderValue := ⟨js "application/json", by decide⟩

/-- Move a header to another name. -/
def renameHeader (headers : Headers) (old new : HeaderName) : Headers :=
  match headers.get old with
  | none => headers
  | some value => (headers.set new value).delete old

/-- Streaming-shaped request headers as their unary equivalents. -/
def normalizeUnaryRequestHeaders (platform : Platform) (headers : Headers) : Headers :=
  let headers :=
    match platform.parseContentType (headers.get headerContentType) with
    | some parsed =>
        if parsed.stream then
          headers.set headerContentType
            (if parsed.binary then contentTypeUnaryProto else contentTypeUnaryJson)
        else headers
    | none => headers
  let headers := renameHeader headers headerStreamEncoding headerUnaryEncoding
  renameHeader headers headerStreamAcceptEncoding headerUnaryAcceptEncoding

def mirrorUnaryResponseEncoding (headers : Headers) : Headers :=
  match headers.get headerUnaryEncoding with
  | none => headers
  | some encoding => headers.set headerStreamEncoding encoding

-- ============================================================================
-- Request bodies
-- ============================================================================

def unexpectedHeaders : Thrown :=
  .connectError
    { rawMessage := js "protocol error: unexpected headers envelope in request body"
      code := Code.internal }

/-- The payloads up to the end of the request, as one. -/
def readUnaryRequestBody (readError : Option Thrown) : List Envelope → Except Thrown Bytes
  | [] =>
      match readError with
      | none => .ok []
      | some err => .error err
  | e :: es =>
      if e.flag = flagEnvelopeEndStream then .ok []
      else if e.flag = flagEnvelopeHeaders then .error unexpectedHeaders
      else (readUnaryRequestBody readError es).map (e.payload ++ ·)

/-- Every envelope up to the end of the request, encoded again as it was read. -/
def streamingRequestBody (readError : Option Thrown) : List Envelope → Body
  | [] => { chunks := [], failure := readError }
  | e :: es =>
      if e.flag = flagEnvelopeEndStream then { chunks := [] }
      else if e.flag = flagEnvelopeHeaders then { chunks := [], failure := unexpectedHeaders }
      else
        let body := streamingRequestBody readError es
        { body with chunks := encodeEnvelope e.flag e.payload :: body.chunks }

-- ============================================================================
-- Responses
-- ============================================================================

def concatAsyncIterable (body : Body) : Except Thrown Bytes :=
  match body.failure with
  | none => .ok body.chunks.flatten
  | some err => .error err

namespace UniversalServerResponse

variable (response : UniversalServerResponse)

/-- `response.header ?? new Headers()` -/
def headers : Headers := response.header.getD {}

def bodyBytes : Except Thrown Bytes :=
  match response.body with
  | some body => concatAsyncIterable body
  | none => .ok []

end UniversalServerResponse

variable (platform : Platform) (socket : DuplexByteStream)

def writeHeaders (headers : Headers) : Async Unit := do
  let payload ← Async.throwing (encodeHeadersFrame headers {})
  write socket (.envelope ⟨flagEnvelopeHeaders, payload⟩)

def writeEndStream (metadata : Headers) (error : Option ConnectError) : Async Unit := do
  let payload ← Async.throwing (platform.serializeEndStream metadata error)
  write socket (.envelope ⟨flagEnvelopeEndStream, payload⟩)

def writeErrorResponse (error : ConnectError) (header trailer : Headers) : Async Unit := do
  writeHeaders socket header
  writeEndStream platform socket trailer (some error)

/-- The flag of the data envelope of a unary response. -/
def unaryDataFlag (header : Headers) : UInt8 :=
  match header.get headerUnaryEncoding with
  | some encoding =>
      if encoding.toLowerCase ≠ js "identity" then flagEnvelopeCompressed else flagEnvelopeData
  | none => flagEnvelopeData

/-- The error that stands for a status, without anything better to go by. -/
def statusError (status : Nat) : ConnectError :=
  { rawMessage := js "HTTP " ++ js status.repr, code := platform.codeFromHttpStatus status }

/-- The error a response with another status than 200 is about. -/
def responseError (methodKind : MethodKind) (response : UniversalServerResponse) : ConnectError :=
  let error : Except Thrown ConnectError := do
    let unaryError ← platform.validateResponse methodKind response.status response.headers
    match unaryError with
    | none => throw (.connectError (statusError platform response.status))
    | some unaryError =>
        let bodyBytes ← response.bodyBytes
        platform.errorFromJsonBytes bodyBytes response.headers unaryError
  match error with
  | .ok error => error
  | .error (.connectError error) => error
  | .error (.jsError _) | .error (.value _) => statusError platform response.status

/-- `for await (const chunk of body)` -/
def forwardBody (body : Body) : Async Unit := do
  body.chunks.forM fun chunk => write socket (.chunk chunk)
  match body.failure with
  | none => pure ()
  | some err => Async.throw err

/-- What follows the headers of a unary response. -/
def writeUnaryBody (response : UniversalServerResponse) (header trailer : Headers) : Async Unit :=
  match response.bodyBytes with
  | .error err => Async.throw err
  | .ok bodyBytes => do
      write socket (.envelope ⟨unaryDataFlag header, bodyBytes⟩)
      writeEndStream platform socket trailer none

def writeUnaryResponse (response : UniversalServerResponse) : Async Unit := do
  let (header, trailer) ← Async.throwing (platform.trailerDemux response.headers)
  let header := mirrorUnaryResponseEncoding header
  writeHeaders socket header
  writeUnaryBody platform socket response header trailer

/-- What follows the headers of a streaming response: its body is envelopes
    already. -/
def writeStreamingBody (response : UniversalServerResponse) : Async Unit :=
  match response.body with
  | some body => forwardBody socket body
  | none => writeEndStream platform socket {} none

def writeStreamingResponse (response : UniversalServerResponse) : Async Unit := do
  writeHeaders socket response.headers
  writeStreamingBody platform socket response

/-- Writes a `UniversalServerResponse` to the wire. -/
def writeResponse (methodKind : MethodKind) (response : UniversalServerResponse) : Async Unit :=
  if response.status = 200 then
    if methodKind = .unary then writeUnaryResponse platform socket response
    else writeStreamingResponse platform socket response
  else do
    let error := responseError platform methodKind response
    let (header, trailer) ← Async.throwing (platform.trailerDemux response.headers)
    writeErrorResponse platform socket error (mirrorUnaryResponseEncoding header) trailer

-- ============================================================================
-- handleBidiSocket
-- ============================================================================

/-- `pseudo[":path"] ?? ""` -/
def HeadersFrame.path (frame : HeadersFrame) : Json :=
  match frame.pseudo.get? (js ":path") with
  | none | some .null => .str []
  | some path => path

def findHandler (handlers : List UniversalHandler) : Json → Option UniversalHandler
  | .str path => handlers.find? fun h => h.requestPath = path
  | _ => none

def unknownProcedure (path : JsString) : ConnectError :=
  { rawMessage := js "unknown procedure: " ++ path, code := Code.unimplemented }

/-- The request a handler is called with. -/
def newRequest (handler : UniversalHandler) (headers : Headers) (requests : List Envelope) :
    Except Thrown UniversalServerRequest := do
  let header :=
    if handler.methodKind = .unary then normalizeUnaryRequestHeaders platform headers else headers
  let url ← (platform.newURL handler.requestPath).mapError .jsError
  let body ←
    if handler.methodKind = .unary then do
      let bytes ← readUnaryRequestBody socket.readError requests
      pure { chunks := [bytes] }
    else pure (streamingRequestBody socket.readError requests)
  return { httpVersion := "2", method := "POST", url, header, body }

/-- From the dispatch on. -/
def serveRequest (handlers : List UniversalHandler) (frame : HeadersFrame)
    (requests : List Envelope) : Async Unit :=
  match findHandler handlers frame.path with
  | none =>
      match frame.path.toText platform.numberText with
      | none => Async.throw (.jsError (.typeError "Cannot convert object to primitive value"))
      | some path =>
          ignoringPeerDisconnect
            (writeErrorResponse platform socket (unknownProcedure path) {} {})
  | some handler =>
      match newRequest platform socket handler frame.headers requests with
      | .error err => Async.throw err
      | .ok request =>
          match handler.call request with
          | .error err =>
              let error := platform.connectErrorFrom err Code.internal
              ignoringPeerDisconnect (writeErrorResponse platform socket error {} {})
          | .ok response =>
              ignoringPeerDisconnect (writeResponse platform socket handler.methodKind response)

def handleBidiSocket (handlers : List UniversalHandler) : Async Unit :=
  match socket.requests with
  -- the stream has ended, or its initial frame is malformed
  | [] => pure ()
  | first :: requests =>
      if first.flag ≠ flagEnvelopeHeaders then pure ()
      else do
        let frame ← Async.throwing (decodeHeadersFrame first.payload)
        serveRequest platform socket handlers frame requests

end Core
end BidiWeb
