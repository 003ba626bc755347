/-
  BidiWeb.Interop.Messages

  What a WebSocket message means to either implementation: the stream it is
  for and the envelope it carries.  A reset carries none, and a message too
  short for a stream ID and a flag is for no stream.

  An envelope is its bytes here.  Both ends of a connection are compared by
  what they put on it, and the TypeScript ends do not take it apart.
-/

import BidiWeb.Lib.Sessions
import BidiWeb.Wire.StreamFrame

namespace BidiWeb
namespace Interop

open BidiWeb.Lib
open BidiWeb.Core (encodeEnvelope encodeStreamFrame)

/-- The stream a message is for, and the envelope it carries for it. -/
def streamOf (message : Bytes) : Option (UInt32 × Bytes) :=
  match message with
  | i₀ :: i₁ :: i₂ :: i₃ :: flag :: rest =>
      if flag = flagEnvelopeReset then none
      else some (getUint32 i₀ i₁ i₂ i₃, flag :: rest)
  | _ => none

/-- The headers envelope opens a stream. -/
def opensStream (envelope : Bytes) : Bool := envelope.head? = some flagEnvelopeHeaders

/-- The chunk has a flag, and not that of a reset. -/
def isEnvelope (chunk : Bytes) : Bool := chunk.head?.any (· ≠ flagEnvelopeReset)

/-- An envelope on the wire. -/
def envelopeBytes (env : Envelope) : Bytes := encodeEnvelope env.flag env.payload

theorem isEnvelope_envelopeBytes (env : Envelope) :
    isEnvelope (envelopeBytes env) = !env.isReset := by
  simp [isEnvelope, envelopeBytes, encodeEnvelope, Envelope.isReset]

theorem opensStream_envelopeBytes (env : Envelope) :
    opensStream (envelopeBytes env) = decide (env.flag = flagEnvelopeHeaders) := by
  simp [opensStream, envelopeBytes, encodeEnvelope]

theorem streamOf_encodeStreamFrame (id : UInt32) (chunk : Bytes) :
    streamOf (encodeStreamFrame id chunk) =
      if isEnvelope chunk then some (id, chunk) else none := by
  obtain ⟨a, b, c, d, hput⟩ : ∃ a b c d, putUint32 id = [a, b, c, d] := ⟨_, _, _, _, rfl⟩
  rw [encodeStreamFrame, hput]
  cases chunk with
  | nil => rfl
  | cons flag rest =>
      show (if flag = flagEnvelopeReset then none
        else some (getUint32 a b c d, flag :: rest)) = _
      rw [getUint32_of_put hput]
      by_cases hreset : flag = flagEnvelopeReset
      · simp [isEnvelope, hreset]
      · simp [isEnvelope, hreset]

/-- The messages of one stream, as they carry its chunks. -/
theorem carries_encodeStreamFrame (id j : UInt32) (chunk : Bytes) :
    carries streamOf id (encodeStreamFrame j chunk) =
      if j = id ∧ isEnvelope chunk = true then some chunk else none := by
  have hlabel := streamOf_encodeStreamFrame j chunk
  by_cases hproper : isEnvelope chunk = true
  · rw [if_pos hproper] at hlabel
    by_cases hid : j = id
    · subst hid
      simp [carries_of_label hlabel, hproper]
    · simp [carries_of_ne hlabel hid, hid]
  · rw [if_neg hproper] at hlabel
    simp [carries_of_none hlabel, hproper]

end Interop
end BidiWeb
