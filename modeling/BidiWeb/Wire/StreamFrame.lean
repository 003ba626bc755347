/-
  BidiWeb.Wire.StreamFrame

  The WebSocket frame format both languages document:

    [4-byte big-endian stream ID][1-byte flag][4-byte big-endian length][payload]

  `IsFrame` says what a message of this form is; `isFrame_iff` restates it as
  what a decoder can check, field by field at its offset.
-/

import BidiWeb.Core.Wire
import BidiWeb.Lib.Uint8Array

namespace BidiWeb

open BidiWeb.Lib

def streamIDLen : Nat := 4

/-- Stream ID and the head of a Connect envelope. -/
def frameHeadLen : Nat := streamIDLen + 5

theorem le_of_frameHeadLen {i n : Nat} (hi : i ≤ frameHeadLen) (h : frameHeadLen ≤ n) : i ≤ n :=
  Nat.le_trans hi h

/-- One WebSocket message: the stream ID, flag, length and payload. -/
def frameBytes (streamID : UInt32) (flag : UInt8) (payload : Bytes) : Bytes :=
  putUint32 streamID ++ flag :: putUint32 (UInt32.ofNat payload.length) ++ payload

/-- The message is the frame of these three, its length not truncated. -/
structure IsFrame (message : Bytes) (streamID : UInt32) (flag : UInt8) (payload : Bytes) :
    Prop where
  bounded : payload.length < 0x100000000
  bytes : message = frameBytes streamID flag payload

/-- A frame is its stream ID before a Connect envelope. -/
theorem frameBytes_eq (streamID : UInt32) (flag : UInt8) (payload : Bytes) :
    frameBytes streamID flag payload =
      Core.encodeStreamFrame streamID (Core.encodeEnvelope flag payload) := by
  simp only [frameBytes, Core.encodeStreamFrame, Core.encodeEnvelope, List.append_assoc]

theorem length_frameBytes (streamID : UInt32) (flag : UInt8) (payload : Bytes) :
    (frameBytes streamID flag payload).length = frameHeadLen + payload.length := by
  simp only [frameBytes, List.length_append, List.length_cons, length_putUint32, frameHeadLen,
    streamIDLen]

theorem drop_frameHeadLen (streamID : UInt32) (flag : UInt8) (payload : Bytes) :
    (frameBytes streamID flag payload).drop frameHeadLen = payload := rfl

theorem drop_streamIDLen (streamID : UInt32) (flag : UInt8) (payload : Bytes) :
    (frameBytes streamID flag payload).drop streamIDLen = Core.encodeEnvelope flag payload := rfl

theorem uint32At_zero (streamID : UInt32) (flag : UInt8) (payload : Bytes)
    (h : 0 + 4 ≤ (frameBytes streamID flag payload).length) :
    uint32At (frameBytes streamID flag payload) 0 h = streamID :=
  (uint32At_eq_iff h).mpr rfl

theorem uint32At_length (streamID : UInt32) (flag : UInt8) (payload : Bytes)
    (h : 5 + 4 ≤ (frameBytes streamID flag payload).length) :
    uint32At (frameBytes streamID flag payload) 5 h = UInt32.ofNat payload.length :=
  (uint32At_eq_iff h).mpr rfl

/-- A message cut at the offsets of the format. -/
theorem eq_frame_fields {message : Bytes} (h : frameHeadLen ≤ message.length) :
    message = putUint32 (uint32At message 0 (le_of_frameHeadLen (by decide) h)) ++
      message.get ⟨4, le_of_frameHeadLen (by decide) h⟩ ::
      putUint32 (uint32At message 5 (le_of_frameHeadLen (by decide) h)) ++
      message.drop frameHeadLen := by
  rw [← take_drop_uint32At, ← take_drop_uint32At]
  match message, h with
  | _ :: _ :: _ :: _ :: _ :: _ :: _ :: _ :: _ :: _, _ => rfl

/-- What there is to check: the head is whole, and the length it declares is
    that of the bytes after it. -/
theorem isFrame_iff {message payload : Bytes} {streamID : UInt32} {flag : UInt8} :
    IsFrame message streamID flag payload ↔
      ∃ h : frameHeadLen ≤ message.length,
        (uint32At message 5 (le_of_frameHeadLen (by decide) h)).toNat =
          message.length - frameHeadLen ∧
        uint32At message 0 (le_of_frameHeadLen (by decide) h) = streamID ∧
        message.get ⟨4, le_of_frameHeadLen (by decide) h⟩ = flag ∧
        message.drop frameHeadLen = payload := by
  constructor
  · rintro ⟨hbound, rfl⟩
    have hlen := length_frameBytes streamID flag payload
    refine ⟨by omega, ?_, uint32At_zero .., rfl, drop_frameHeadLen ..⟩
    rw [uint32At_length, UInt32.toNat_ofNat', Nat.mod_eq_of_lt hbound]
    omega
  · rintro ⟨h, hlen, hid, hflag, hpayload⟩
    have hrest : payload.length = message.length - frameHeadLen := by
      rw [← hpayload, List.length_drop]
    have hfield : 5 + 4 ≤ message.length := le_of_frameHeadLen (by decide) h
    have hbound := (uint32At message 5 hfield).toNat_lt
    have hdeclared : uint32At message 5 hfield = UInt32.ofNat payload.length := by
      rw [hrest, ← hlen, UInt32.ofNat_toNat]
    refine ⟨by omega, ?_⟩
    rw [frameBytes, ← hdeclared, ← hid, ← hflag, ← hpayload]
    exact eq_frame_fields h

/-- A message has at most one reading. -/
theorem IsFrame.unique {message payload payload' : Bytes} {streamID streamID' : UInt32}
    {flag flag' : UInt8} (h : IsFrame message streamID flag payload)
    (h' : IsFrame message streamID' flag' payload') :
    streamID = streamID' ∧ flag = flag' ∧ payload = payload' := by
  obtain ⟨hle, -, hid, hflag, hpayload⟩ := isFrame_iff.mp h
  obtain ⟨hle', -, hid', hflag', hpayload'⟩ := isFrame_iff.mp h'
  exact ⟨hid.symm.trans hid', hflag.symm.trans hflag', hpayload.symm.trans hpayload'⟩

-- ============================================================================
-- decodeStreamFrame
-- ============================================================================

namespace Core

theorem decodeStreamFrame_short {message : Bytes} (h : message.length < frameHeadLen) :
    decodeStreamFrame message = .error (.error s!"frame too short: {message.length} bytes") := by
  unfold decodeStreamFrame
  split
  · simp only [List.length_cons, frameHeadLen, streamIDLen] at h
    omega
  · rfl

theorem decodeStreamFrame_long {message : Bytes} (h : frameHeadLen ≤ message.length) :
    decodeStreamFrame message =
      if (uint32At message 5 (le_of_frameHeadLen (by decide) h)).toNat ≠
          message.length - frameHeadLen then
        .error (.error s!"envelope declares {
          (uint32At message 5 (le_of_frameHeadLen (by decide) h)).toNat
          } payload bytes but frame carries {message.length - frameHeadLen}")
      else .ok ⟨uint32At message 0 (le_of_frameHeadLen (by decide) h),
        message.get ⟨4, le_of_frameHeadLen (by decide) h⟩, message.drop streamIDLen⟩ := by
  match message, h with
  | _ :: _ :: _ :: _ :: _ :: _ :: _ :: _ :: _ :: _, _ => rfl

/-- `decodeStreamFrame` accepts the frames, and nothing else. -/
theorem decodeStreamFrame_eq_ok {message : Bytes} {frame : StreamFrame} :
    decodeStreamFrame message = .ok frame ↔
      ∃ payload, IsFrame message frame.streamId frame.flag payload ∧
        frame.envelope = encodeEnvelope frame.flag payload := by
  constructor
  · intro h
    by_cases hshort : message.length < frameHeadLen
    · rw [decodeStreamFrame_short hshort] at h
      cases h
    · have hle : frameHeadLen ≤ message.length := Nat.le_of_not_lt hshort
      rw [decodeStreamFrame_long hle] at h
      split at h
      · cases h
      · rename_i hlen
        cases h
        have hframe : IsFrame message _ _ _ :=
          isFrame_iff.mpr ⟨hle, Decidable.not_not.mp hlen, rfl, rfl, rfl⟩
        refine ⟨_, hframe, ?_⟩
        have hdrop := congrArg (List.drop streamIDLen) hframe.bytes
        exact hdrop.trans (drop_streamIDLen ..)
  · rintro ⟨payload, hframe, henvelope⟩
    obtain ⟨hle, hlen, hid, hflag, -⟩ := isFrame_iff.mp hframe
    rw [decodeStreamFrame_long hle, if_neg (Decidable.not_not.mpr hlen), hid, hflag]
    have hdrop : message.drop streamIDLen = frame.envelope := by
      rw [henvelope, hframe.bytes]
      exact drop_streamIDLen ..
    rw [hdrop]

/-- A message that is no frame of any envelope is refused. -/
theorem decodeStreamFrame_eq_error {message : Bytes} :
    (∃ err, decodeStreamFrame message = .error err) ↔
      ∀ streamID flag payload, ¬ IsFrame message streamID flag payload := by
  constructor
  · rintro ⟨err, herr⟩ streamID flag payload hframe
    have hok : decodeStreamFrame message = .ok ⟨streamID, flag, encodeEnvelope flag payload⟩ :=
      decodeStreamFrame_eq_ok.mpr ⟨payload, hframe, rfl⟩
    rw [herr] at hok
    cases hok
  · intro hnone
    cases hdecode : decodeStreamFrame message with
    | error err => exact ⟨err, rfl⟩
    | ok frame =>
        obtain ⟨payload, hframe, -⟩ := decodeStreamFrame_eq_ok.mp hdecode
        exact absurd hframe (hnone _ _ _)

end Core
end BidiWeb
