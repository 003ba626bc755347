/-
  BidiWeb.FrameFormat

  One WebSocket frame format in three implementations: `writeFrame` and
  `readFrame` of `connectwebsocket/mux.go`, `encodeStreamFrame` and
  `decodeStreamFrame` of `ts/packages/core/src/wire.ts`, and `prefixStreamId`
  of `ts/packages/web/src/connect-websocket-transport.ts`.

  The TypeScript functions are here on typed arrays, windows that may start
  anywhere in their buffer.  What they make of a window is what the functions
  of `Core.Wire` make of the bytes it shows (`bytes_encodeStreamFrameView`,
  `decodeStreamFrameView_bytes`).
-/

import BidiWeb.ConnectWebSocket.Framing

namespace BidiWeb

open BidiWeb.Lib
open BidiWeb.Core (JsError encodeEnvelope)

-- ============================================================================
-- The functions on typed arrays
-- ============================================================================

/-- A new array with `streamId` in its first four bytes and `envelope` behind. -/
def prependStreamId (streamId : UInt32) (envelope : Uint8Array) : Uint8Array :=
  let frame := Uint8Array.new (4 + envelope.byteLength)
  let frame := DataView.setUint32 frame 0 streamId
    (show 0 + 4 ≤ 4 + envelope.byteLength by omega)
  frame.set envelope 4 (Nat.le_refl _)

namespace Web

def prefixStreamIdView (streamId : UInt32) (envelope : Uint8Array) : Uint8Array :=
  prependStreamId streamId envelope

end Web

namespace Core

abbrev streamIdLength : Nat := 4

def encodeStreamFrameView (streamId : UInt32) (envelope : Uint8Array) : Uint8Array :=
  prependStreamId streamId envelope

/-- One WebSocket message, split; the envelope is a window of its buffer. -/
structure StreamFrameView where
  streamId : UInt32
  flag : UInt8
  envelope : Uint8Array

def StreamFrameView.frame (v : StreamFrameView) : StreamFrame :=
  ⟨v.streamId, v.flag, v.envelope.bytes⟩

/-- `decodeStreamFrame(message)` -/
def decodeStreamFrameView (message : Uint8Array) : Except JsError StreamFrameView :=
  let envelopeHeadLength := 5
  if h : message.byteLength < streamIdLength + envelopeHeadLength then
    .error (.error s!"frame too short: {message.byteLength} bytes")
  else
    have hle : 9 ≤ message.byteLength := Nat.le_of_not_lt h
    let streamId := DataView.getUint32 message 0 (Nat.le_trans (by decide) hle)
    let flag := DataView.getUint8 message streamIdLength (Nat.lt_of_lt_of_le (by decide) hle)
    let declared := (DataView.getUint32 message (streamIdLength + 1)
      (Nat.le_trans (by decide) hle)).toNat
    let actual := message.byteLength - streamIdLength - envelopeHeadLength
    if declared ≠ actual then
      .error (.error
        s!"envelope declares {declared} payload bytes but frame carries {actual}")
    else .ok ⟨streamId, flag, message.subarray streamIdLength⟩

end Core

-- ============================================================================
-- Windows and the bytes they show
-- ============================================================================

theorem bytes_prependStreamId (streamId : UInt32) (envelope : Uint8Array) :
    (prependStreamId streamId envelope).bytes = putUint32 streamId ++ envelope.bytes := by
  have hlen := envelope.length_bytes
  have hzeros : (List.replicate (4 + envelope.byteLength) (0 : UInt8)).drop (0 + 4) =
      List.replicate envelope.byteLength 0 := by
    rw [List.drop_replicate]
    congr 1
    omega
  have hhead : overwrite (List.replicate (4 + envelope.byteLength) (0 : UInt8)) 0
      (putUint32 streamId) = putUint32 streamId ++ List.replicate envelope.byteLength 0 := by
    rw [overwrite, length_putUint32, hzeros, List.take_zero, List.nil_append]
  have hbuffer : overwrite (putUint32 streamId ++ List.replicate envelope.byteLength 0) (0 + 4)
      envelope.bytes = putUint32 streamId ++ envelope.bytes := by
    rw [overwrite, hlen, List.drop_eq_nil_of_le (by simp), List.append_nil]
    rfl
  show ((overwrite (overwrite (List.replicate (4 + envelope.byteLength) (0 : UInt8)) (0 + 0)
    (putUint32 streamId)) (0 + 4) envelope.bytes).drop 0).take (4 + envelope.byteLength) = _
  rw [Nat.add_zero, hhead, hbuffer, List.drop_zero, ← hlen]
  apply List.take_of_length_le
  exact Nat.le_of_eq (by rw [List.length_append, length_putUint32])

/-- The decoder sees the bytes of the message, wherever its window starts. -/
theorem Core.decodeStreamFrameView_bytes (message : Uint8Array) :
    (decodeStreamFrameView message).map StreamFrameView.frame =
      decodeStreamFrame message.bytes := by
  have hlen := message.length_bytes
  unfold decodeStreamFrameView
  simp only
  split
  · rename_i hshort
    have hshort' : message.bytes.length < frameHeadLen := by
      rw [hlen]
      exact hshort
    rw [decodeStreamFrame_short hshort', hlen]
    rfl
  · rename_i hlong
    have hle : frameHeadLen ≤ message.bytes.length := by
      rw [hlen]
      exact Nat.le_of_not_lt hlong
    rw [decodeStreamFrame_long hle]
    have hactual : message.byteLength - streamIdLength - 5 =
        message.byteLength - frameHeadLen := Nat.sub_sub ..
    simp only [DataView.getUint32_eq, DataView.getUint8_eq, hlen, hactual]
    split
    · rfl
    · simp only [Except.map, StreamFrameView.frame, Uint8Array.bytes_subarray]
      rfl

theorem Core.decodeStreamFrameView_eq_ok {message : Uint8Array} {frame : StreamFrameView}
    (h : decodeStreamFrameView message = .ok frame) :
    decodeStreamFrame message.bytes = .ok frame.frame := by
  rw [← decodeStreamFrameView_bytes, h]
  rfl

/-- Accepting a message is deciding whether it is a frame. -/
theorem Core.decodeStreamFrameView_accepts {message : Uint8Array} {streamID : UInt32}
    {flag : UInt8} {payload : Bytes} :
    (∃ envelope, decodeStreamFrameView message = .ok ⟨streamID, flag, envelope⟩ ∧
        envelope.bytes = encodeEnvelope flag payload) ↔
      IsFrame message.bytes streamID flag payload := by
  constructor
  · rintro ⟨envelope, hdecode, henvelope⟩
    obtain ⟨payload', hframe, henvelope'⟩ :=
      decodeStreamFrame_eq_ok.mp (decodeStreamFrameView_eq_ok hdecode)
    have hpayload : payload = payload' :=
      congrArg (List.drop 5) (henvelope.symm.trans henvelope')
    rw [hpayload]
    exact hframe
  · intro hframe
    have hok : decodeStreamFrame message.bytes =
        .ok ⟨streamID, flag, encodeEnvelope flag payload⟩ :=
      decodeStreamFrame_eq_ok.mpr ⟨payload, hframe, rfl⟩
    rw [← decodeStreamFrameView_bytes] at hok
    cases hdecode : decodeStreamFrameView message with
    | error err =>
        rw [hdecode] at hok
        cases hok
    | ok frame =>
        rw [hdecode] at hok
        have hframe : frame.frame = ⟨streamID, flag, encodeEnvelope flag payload⟩ :=
          Except.ok.inj hok
        have hid : frame.streamId = streamID := congrArg StreamFrame.streamId hframe
        have hflag : frame.flag = flag := congrArg StreamFrame.flag hframe
        refine ⟨frame.envelope, ?_, congrArg StreamFrame.envelope hframe⟩
        rw [← hid, ← hflag]

theorem Core.decodeStreamFrameView_rejects {message : Uint8Array} :
    (∃ err, decodeStreamFrameView message = .error err) ↔
      ∀ streamID flag payload, ¬ IsFrame message.bytes streamID flag payload := by
  rw [← decodeStreamFrame_eq_error, ← decodeStreamFrameView_bytes]
  cases decodeStreamFrameView message with
  | error err => exact ⟨fun _ => ⟨err, rfl⟩, fun _ => ⟨err, rfl⟩⟩
  | ok frame =>
      constructor
      · rintro ⟨err, h⟩
        cases h
      · rintro ⟨err, h⟩
        cases h

-- ============================================================================
-- One format
-- ============================================================================

open ConnectWebSocket in
/-- Encoders that write the same bytes, and decoders that accept exactly the
    messages of that form, each with its one reading. -/
theorem one_frame_format :
    (∀ (streamID : UInt32) (flag : UInt8) (payload : Bytes), payload.length < 0x100000000 →
      (∀ (κ : Type) (conn : MessageConn κ) (o o' : Outgoing κ),
        writeFrame conn o streamID flag payload = (none, o') →
          o'.sent = o.sent ++ [frameBytes streamID flag payload]) ∧
      (∀ (κ : Type) (conn : MessageConn κ) (o : Outgoing κ), conn.Up →
        (writeFrame conn o streamID flag payload).1 = none) ∧
      (∀ envelope : Uint8Array, envelope.bytes = encodeEnvelope flag payload →
        (Core.encodeStreamFrameView streamID envelope).bytes = frameBytes streamID flag payload ∧
        (Web.prefixStreamIdView streamID envelope).bytes = frameBytes streamID flag payload)) ∧
    (∀ (κ : Type) (conn : MessageConn κ) (k : κ) (message : Bytes),
      (conn.read k).1 = .ok (.binary, message) →
        (∀ streamID flag payload, (readFrame conn k).1 = .ok (streamID, flag, payload) ↔
          IsFrame message streamID flag payload) ∧
        ((∃ err, (readFrame conn k).1 = .error err) ↔
          ∀ streamID flag payload, ¬ IsFrame message streamID flag payload)) ∧
    (∀ message : Uint8Array,
      (∀ streamID flag payload,
        (∃ envelope, Core.decodeStreamFrameView message = .ok ⟨streamID, flag, envelope⟩ ∧
          envelope.bytes = encodeEnvelope flag payload) ↔
          IsFrame message.bytes streamID flag payload) ∧
      ((∃ err, Core.decodeStreamFrameView message = .error err) ↔
        ∀ streamID flag payload, ¬ IsFrame message.bytes streamID flag payload)) ∧
    (∀ message streamID flag payload streamID' flag' payload',
      IsFrame message streamID flag payload → IsFrame message streamID' flag' payload' →
        streamID = streamID' ∧ flag = flag' ∧ payload = payload') := by
  refine ⟨?_, ?_, ?_, ?_⟩
  · intro streamID flag payload hlen
    refine ⟨fun κ conn o o' => writeFrame_ok, ?_, ?_⟩
    · intro κ conn o hup
      obtain ⟨o', hwrite⟩ := writeFrame_up hup o streamID flag hlen
      rw [hwrite]
    · intro envelope henvelope
      have hbytes : (prependStreamId streamID envelope).bytes =
          frameBytes streamID flag payload := by
        rw [bytes_prependStreamId, henvelope, frameBytes_eq]
        rfl
      exact ⟨hbytes, hbytes⟩
  · intro κ conn k message hread
    exact ⟨fun streamID flag payload => readFrame_accepts hread, readFrame_rejects hread⟩
  · intro message
    exact ⟨fun streamID flag payload => Core.decodeStreamFrameView_accepts,
      Core.decodeStreamFrameView_rejects⟩
  · intro message streamID flag payload streamID' flag' payload' h h'
    exact h.unique h'

open ConnectWebSocket in
/-- A connection on which every write succeeds and every read returns the
    message it is made of. -/
def loopback : MessageConn Bytes where
  read := fun message => (.ok (.binary, message), message)
  writer := fun message => (none, message)
  write := fun message _ => (none, message)
  closeWriter := fun message => (none, message)

open ConnectWebSocket in
/-- One byte on stream 7, and a message that is cut short. -/
theorem frame_of_stream_seven :
    (writeFrame loopback ⟨[], [], []⟩ 7 0 [42]).2.sent = [frameBytes 7 0 [42]] ∧
    (Web.prefixStreamIdView 7 (.ofBuffer (encodeEnvelope 0 [42]))).bytes =
      frameBytes 7 0 [42] ∧
    (readFrame loopback (frameBytes 7 0 [42])).1 = .ok (7, 0, [42]) ∧
    ∃ err, (readFrame loopback [0, 0, 0, 7, 0]).1 = .error err := by
  obtain ⟨hencode, hread, -, -⟩ := one_frame_format
  obtain ⟨hwrite, hup, hprefixed⟩ := hencode 7 0 [42] (by decide)
  refine ⟨?_, ?_, ?_, ?_⟩
  · exact hwrite Bytes loopback ⟨[], [], []⟩ _
      (Prod.ext (hup Bytes loopback _ ⟨fun _ => rfl, fun _ _ => rfl, fun _ => rfl⟩) rfl)
  · exact (hprefixed (.ofBuffer (encodeEnvelope 0 [42])) (by rw [Uint8Array.bytes_ofBuffer])).2
  · exact ((hread Bytes loopback (frameBytes 7 0 [42]) _ rfl).1 7 0 [42]).mpr ⟨by decide, rfl⟩
  · refine (hread Bytes loopback [0, 0, 0, 7, 0] _ rfl).2.mpr ?_
    intro streamID flag payload hframe
    have hlen := congrArg List.length hframe.bytes
    rw [length_frameBytes] at hlen
    simp only [List.length_cons, List.length_nil, frameHeadLen, streamIDLen] at hlen
    omega

end BidiWeb
