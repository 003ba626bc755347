/-
  BidiWeb.BidiProtocol.Conn

  What clients and servers of `internal/bidiprotocol` share: the `Conn` they
  run on, the options, the codecs and compressors, and the call info of
  `connectrpc.com/connect`.
-/

import BidiWeb.ConnectProtocol.EndStream

namespace BidiWeb
namespace BidiProtocol

open BidiWeb.ConnectProtocol
open BidiWeb.Core (Code)

-- ============================================================================
-- Conn
-- ============================================================================

/-- A `Conn` whose state is `κ`.  An error is `some`. -/
structure Conn (κ : Type) where
  readEnvelope : κ → Except GoError Envelope × κ
  writeEnvelope : κ → Envelope → Option GoError × κ
  closeSend : κ → Option GoError × κ
  close : κ → Option GoError × κ

/-- What a `ReadEnvelope` is called for. -/
inductive Awaits where
  | headers
  | message
  /-- The end-stream that follows the message of a unary RPC. -/
  | endStream
deriving DecidableEq, Repr

/-- A `Conn` in use: its state, and what its calls have answered so far. -/
structure Session (κ : Type) where
  conn : κ
  reads : List (Awaits × Except GoError Envelope) := []
  writes : List (Envelope × Option GoError) := []

namespace Session

variable {κ : Type} (c : Conn κ) (s : Session κ)

def readEnvelope (awaits : Awaits) : Except GoError Envelope × Session κ :=
  let (result, conn) := c.readEnvelope s.conn
  (result, { s with conn, reads := s.reads ++ [(awaits, result)] })

def writeEnvelope (env : Envelope) : Option GoError × Session κ :=
  let (err, conn) := c.writeEnvelope s.conn env
  (err, { s with conn, writes := s.writes ++ [(env, err)] })

def closeSend : Option GoError × Session κ :=
  let (err, conn) := c.closeSend s.conn
  (err, { s with conn })

def close : Option GoError × Session κ :=
  let (err, conn) := c.close s.conn
  (err, { s with conn })

/-- The envelopes whose write has succeeded. -/
def written : List Envelope := (s.writes.filter fun w => w.2.isNone).map (·.1)

end Session

-- ============================================================================
-- Codecs and compressors
-- ============================================================================

/-- A `connect.Codec` for messages of type `μ`. -/
structure Codec (μ : Type) where
  name : GoString
  marshalWrite : μ → Except GoError Bytes
  unmarshalRead : Bytes → Except GoError μ

/-- Where compressing fails. -/
inductive CompressError where
  | compress (err : GoError)
  | write (err : GoError)
  | close (err : GoError)

/-- Where decompressing fails. -/
inductive DecompressError where
  | decompress (err : GoError)
  | read (err : GoError)

/-- A `connect.Compressor` -/
structure Compressor where
  name : GoString
  compress : Bytes → Except CompressError Bytes
  decompress : Bytes → Except DecompressError Bytes

def compress (compressor : Compressor) (payload : Bytes) : Except GoError Bytes :=
  match compressor.compress payload with
  | .ok compressed => .ok compressed
  | .error (.compress err) =>
      .error (.connectErrorf Code.internal s!"failed to compress message: {err.error}")
  | .error (.write err) =>
      .error (.connectErrorf Code.internal s!"failed to write compressed message: {err.error}")
  | .error (.close err) =>
      .error (.connectErrorf Code.internal s!"failed to flush compressed message: {err.error}")

def decompress (compressor : Compressor) (payload : Bytes) : Except GoError Bytes :=
  match compressor.decompress payload with
  | .ok decompressed => .ok decompressed
  | .error (.decompress err) =>
      .error (.connectErrorf Code.internal s!"failed to decompress message: {err.error}")
  | .error (.read err) =>
      .error (.connectErrorf Code.internal s!"failed to read decompressed message: {err.error}")

-- ============================================================================
-- Options
-- ============================================================================

structure Options (μ : Type) where
  codecs : AList (fun _ : GoString => Codec μ) := ∅
  sendCodecName : GoString := []
  sendCodec : Option (Codec μ) := none
  sendCompressor : GoString := []
  compressors : AList (fun _ : GoString => Compressor) := ∅
  compressorNames : List GoString := []
  acceptCompression : GoString := []
  readMaxBytes : Int := 0
  sendMaxBytes : Int := 0

def codecNameProto : GoString := "proto".toList
def codecNameJSON : GoString := "json".toList
def compressionNameIdentity : GoString := "identity".toList

/-- A limit of zero is none. -/
def exceeds (payload : Bytes) (limit : Int) : Bool := 0 < limit && limit < payload.length

def sizeError (what : String) (payload : Bytes) (limit : Int) : GoError :=
  .connectErrorf Code.resourceExhausted
    s!"message size {payload.length} exceeds {what} limit {limit}"

/-- `0x%x` -/
def hexFlag (flag : UInt8) : String := "0x" ++ String.ofList (Nat.toDigits 16 flag.toNat)

/-- `connect.CallInfo`; it creates its headers when they are asked for. -/
structure CallInfo where
  requestHeader : Header := ∅
  responseHeader : Header := ∅
  responseTrailer : Header := ∅

/-- `SetValues` for every entry of `hs`. -/
def setAllValues (h : Header) (hs : List (GoString × List GoString)) : Header :=
  hs.foldl (fun h e => h.insert (canonicalHeaderKey e.1) e.2) h

/-- The payload of a data or compressed-data envelope, decompressed with the
    compressor its headers name. -/
def decodePayload (compressors : AList (fun _ : GoString => Compressor)) (encoding : GoString)
    (env : Envelope) : Except GoError Bytes :=
  if env.flag = flagEnvelopeCompressed then
    match compressors.lookup encoding with
    | none =>
        .error (.connectErrorf Code.internal
          "protocol error: compressed message without Connect-Content-Encoding")
    | some compressor => decompress compressor env.payload
  else .ok env.payload

/-- Refuse an envelope over the send limit. -/
def limitSize (sendMaxBytes : Int) (env : Envelope) : Except GoError Envelope :=
  if exceeds env.payload sendMaxBytes then .error (sizeError "send" env.payload sendMaxBytes)
  else .ok env

/-- A marshalled message as an envelope: compressed if there is a compressor,
    and not larger than the limit. -/
def encodePayload (compressor : Option Compressor) (sendMaxBytes : Int) (payload : Bytes) :
    Except GoError Envelope :=
  match compressor with
  | none => limitSize sendMaxBytes ⟨flagEnvelopeData, payload⟩
  | some compressor =>
      match compress compressor payload with
      | .error err => .error err
      | .ok compressed => limitSize sendMaxBytes ⟨flagEnvelopeCompressed, compressed⟩

/-- What fails to be decoded fails with a Connect error. -/
theorem decompress_isEOF {compressor : Compressor} {payload : Bytes} {err : GoError}
    (h : decompress compressor payload = .error err) : err.isEOF = false := by
  unfold decompress at h
  split at h <;> cases h <;> rfl

theorem decodePayload_isEOF {compressors : AList (fun _ : GoString => Compressor)}
    {encoding : GoString} {env : Envelope} {err : GoError}
    (h : decodePayload compressors encoding env = .error err) : err.isEOF = false := by
  unfold decodePayload at h
  split at h
  · split at h
    · cases h
      rfl
    · exact decompress_isEOF h
  · cases h

theorem limitSize_eq_ok {sendMaxBytes : Int} {env env' : Envelope}
    (h : limitSize sendMaxBytes env = .ok env') : env = env' := by
  unfold limitSize at h
  split at h
  · cases h
  · exact Except.ok.inj h

theorem encodePayload_isMessage {compressor : Option Compressor} {sendMaxBytes : Int}
    {payload : Bytes} {env : Envelope}
    (h : encodePayload compressor sendMaxBytes payload = .ok env) : env.isMessage = true := by
  unfold encodePayload at h
  split at h
  · rw [← limitSize_eq_ok h]
    rfl
  · split at h
    · cases h
    · rw [← limitSize_eq_ok h]
      rfl

end BidiProtocol
end BidiWeb
