/-
  BidiWeb.Core.Wire

  `ts/packages/core/src/wire.ts`: one WebSocket message is a 4-byte
  big-endian stream ID followed by one Connect envelope (1 flag byte, 4-byte
  big-endian payload length, payload).
-/

import BidiWeb.Lib.BigEndian
import BidiWeb.Wire.Envelope

namespace BidiWeb
namespace Core

-- ============================================================================
-- Thrown values
-- ============================================================================

/-- The Connect status codes, with their numbers on the wire. -/
abbrev Code := UInt32

namespace Code

def canceled : Code := 1
def unknown : Code := 2
def invalidArgument : Code := 3
def deadlineExceeded : Code := 4
def resourceExhausted : Code := 8
def internal : Code := 13
def unimplemented : Code := 12
def unavailable : Code := 14

end Code

/-- What TypeScript code throws or rejects with. -/
inductive JsError where
  /-- `new Error(message)`. -/
  | error (message : String)
  /-- A `TypeError` of the platform. -/
  | typeError (message : String)
  /-- `new ConnectError(message, code)`. -/
  | connectError (message : String) (code : Code)
deriving DecidableEq, Repr

-- ============================================================================
-- Envelopes and stream frames as bytes
-- ============================================================================

/-- `encodeEnvelope(flags, data)` of `@connectrpc/connect`. -/
def encodeEnvelope (flags : UInt8) (data : Bytes) : Bytes :=
  flags :: Lib.putUint32 (UInt32.ofNat data.length) ++ data

/-- One WebSocket message, split into the stream it belongs to and the
    Connect envelope it carries. -/
structure StreamFrame where
  streamId : UInt32
  flag : UInt8
  /-- The complete envelope: flag, length, and payload. -/
  envelope : Bytes
deriving DecidableEq, Repr

/-- Encode one WebSocket message: the stream ID followed by one envelope. -/
def encodeStreamFrame (streamId : UInt32) (envelope : Bytes) : Bytes :=
  Lib.putUint32 streamId ++ envelope

/-- Split one WebSocket message into stream ID and envelope.  Throws on a
    malformed frame: too short, or not exactly one complete envelope. -/
def decodeStreamFrame (message : Bytes) : Except JsError StreamFrame :=
  match message with
  | i₀ :: i₁ :: i₂ :: i₃ :: flag :: l₀ :: l₁ :: l₂ :: l₃ :: payload =>
      let declared := (Lib.getUint32 l₀ l₁ l₂ l₃).toNat
      let actual := payload.length
      if declared ≠ actual then
        .error (.error
          s!"envelope declares {declared} payload bytes but frame carries {actual}")
      else
        .ok ⟨Lib.getUint32 i₀ i₁ i₂ i₃, flag, message.drop 4⟩
  | _ => .error (.error s!"frame too short: {message.length} bytes")

end Core
end BidiWeb
