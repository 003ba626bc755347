/-
  BidiWeb.ConnectWebSocket.Framing

  `writeFrame` and `readFrame` of `connectwebsocket/mux.go`, on a
  `*websocket.Conn` that may fail at any call.
-/

import BidiWeb.Wire.GoError
import BidiWeb.Wire.StreamFrame

namespace BidiWeb
namespace ConnectWebSocket

open BidiWeb.Lib

-- ============================================================================
-- The connection
-- ============================================================================

/-- `websocket.MessageType` -/
inductive MessageType where
  | text
  | binary
deriving DecidableEq, Repr

/-- The calls of a `*websocket.Conn` whose state is `κ`.  An error is `some`. -/
structure MessageConn (κ : Type) where
  read : κ → Except GoError (MessageType × Bytes) × κ
  writer : κ → Option GoError × κ
  /-- `Write` of the writer. -/
  write : κ → Bytes → Option GoError × κ
  /-- `Close` of the writer. -/
  closeWriter : κ → Option GoError × κ

/-- No call for writing fails. -/
structure MessageConn.Up {κ : Type} (conn : MessageConn κ) : Prop where
  writer : ∀ k, (conn.writer k).1 = none
  write : ∀ k p, (conn.write k p).1 = none
  closeWriter : ∀ k, (conn.closeWriter k).1 = none

/-- A connection in use for writing.  A message is what has been written to
    its writer when that is closed. -/
structure Outgoing (κ : Type) where
  conn : κ
  writing : Bytes := []
  sent : List Bytes := []

namespace Outgoing

variable {κ : Type} (conn : MessageConn κ) (o : Outgoing κ)

/-- `conn.Writer(ctx, websocket.MessageBinary)` -/
def writer : Option GoError × Outgoing κ :=
  match conn.writer o.conn with
  | (none, k) => (none, { o with conn := k, writing := [] })
  | (some err, k) => (some err, { o with conn := k })

def write (p : Bytes) : Option GoError × Outgoing κ :=
  match conn.write o.conn p with
  | (none, k) => (none, { o with conn := k, writing := o.writing ++ p })
  | (some err, k) => (some err, { o with conn := k })

def closeWriter : Option GoError × Outgoing κ :=
  match conn.closeWriter o.conn with
  | (none, k) => (none, { conn := k, writing := [], sent := o.sent ++ [o.writing] })
  | (some err, k) => (some err, { o with conn := k })

end Outgoing

-- ============================================================================
-- Frames
-- ============================================================================

/-- `var head [frameHeadLen]byte`, filled in. -/
def frameHead (streamID : UInt32) (flag : UInt8) (payload : Bytes) : Bytes :=
  let head := List.replicate frameHeadLen 0
  let head := overwrite head 0 (putUint32 streamID)
  let head := overwrite head 4 [flag]
  overwrite head 5 (putUint32 (UInt32.ofNat payload.length))

/-- Write one message carrying one envelope for one stream. -/
def writeFrame {κ : Type} (conn : MessageConn κ) (o : Outgoing κ) (streamID : UInt32)
    (flag : UInt8) (payload : Bytes) : Option GoError × Outgoing κ :=
  if 0xffffffff < payload.length then (some (.text "payload too large"), o)  -- math.MaxUint32
  else
    match o.writer conn with
    | (some err, o) => (some err, o)
    | (none, o) =>
        match o.write conn (frameHead streamID flag payload) with
        | (some err, o) => (some err, (o.closeWriter conn).2)
        | (none, o) =>
            if 0 < payload.length then
              match o.write conn payload with
              | (some err, o) => (some err, (o.closeWriter conn).2)
              | (none, o) => o.closeWriter conn
            else o.closeWriter conn

/-- Split one message into stream ID, flag and payload. -/
def splitFrame (data : Bytes) : Except GoError (UInt32 × UInt8 × Bytes) :=
  if h : data.length < frameHeadLen then
    .error (.text s!"frame too short: {data.length} bytes")
  else
    have hle : frameHeadLen ≤ data.length := Nat.le_of_not_lt h
    let streamID := uint32At data 0 (le_of_frameHeadLen (by decide) hle)
    let flag := data.get ⟨4, le_of_frameHeadLen (by decide) hle⟩
    let length := (uint32At data 5 (le_of_frameHeadLen (by decide) hle)).toNat
    if length ≠ data.length - frameHeadLen then
      .error (.text s!"envelope declares {length} payload bytes but frame carries {
        data.length - frameHeadLen}")
    else .ok (streamID, flag, data.drop frameHeadLen)

/-- Read one message and split it. -/
def readFrame {κ : Type} (conn : MessageConn κ) (k : κ) :
    Except GoError (UInt32 × UInt8 × Bytes) × κ :=
  match conn.read k with
  | (.error err, k) => (.error err, k)
  | (.ok (msgType, data), k) =>
      if msgType ≠ .binary then (.error (.text "received non-binary websocket message"), k)
      else (splitFrame data, k)

-- ============================================================================
-- What is written and what is accepted
-- ============================================================================

theorem frameHead_eq (streamID : UInt32) (flag : UInt8) (payload : Bytes) :
    frameHead streamID flag payload ++ payload = frameBytes streamID flag payload := rfl

section

variable {κ : Type} {conn : MessageConn κ} {o o' : Outgoing κ}

theorem Outgoing.writer_ok (h : o.writer conn = (none, o')) :
    o'.writing = [] ∧ o'.sent = o.sent := by
  unfold Outgoing.writer at h
  split at h
  · cases h
    exact ⟨rfl, rfl⟩
  · cases h

theorem Outgoing.write_ok {p : Bytes} (h : o.write conn p = (none, o')) :
    o'.writing = o.writing ++ p ∧ o'.sent = o.sent := by
  unfold Outgoing.write at h
  split at h
  · cases h
    exact ⟨rfl, rfl⟩
  · cases h

theorem Outgoing.closeWriter_ok (h : o.closeWriter conn = (none, o')) :
    o'.sent = o.sent ++ [o.writing] := by
  unfold Outgoing.closeWriter at h
  split at h
  · cases h
    rfl
  · cases h

/-- A `writeFrame` that succeeds has sent one message, the frame. -/
theorem writeFrame_ok {streamID : UInt32} {flag : UInt8} {payload : Bytes}
    (h : writeFrame conn o streamID flag payload = (none, o')) :
    o'.sent = o.sent ++ [frameBytes streamID flag payload] := by
  unfold writeFrame at h
  split at h
  · cases h
  · split at h
    · cases h
    · rename_i o₁ hwriter
      obtain ⟨hwriting₁, hsent₁⟩ := Outgoing.writer_ok hwriter
      split at h
      · cases h
      · rename_i o₂ hhead
        obtain ⟨hwriting₂, hsent₂⟩ := Outgoing.write_ok hhead
        rw [hwriting₁, List.nil_append] at hwriting₂
        rw [hsent₁] at hsent₂
        split at h
        · split at h
          · cases h
          · rename_i o₃ hpayload
            obtain ⟨hwriting₃, hsent₃⟩ := Outgoing.write_ok hpayload
            rw [hwriting₂, frameHead_eq] at hwriting₃
            rw [Outgoing.closeWriter_ok h, hwriting₃, hsent₃, hsent₂]
        · -- no second `Write` for an empty payload
          rename_i hempty
          obtain rfl : payload = [] := List.eq_nil_of_length_eq_zero (by omega)
          have hbytes := frameHead_eq streamID flag []
          rw [List.append_nil] at hbytes
          rw [Outgoing.closeWriter_ok h, hwriting₂, hsent₂, hbytes]

theorem Outgoing.writer_up (hup : conn.Up) (o : Outgoing κ) : ∃ o', o.writer conn = (none, o') := by
  have hnone := hup.writer o.conn
  unfold Outgoing.writer
  split
  · exact ⟨_, rfl⟩
  · rename_i herr
    rw [herr] at hnone
    cases hnone

theorem Outgoing.write_up (hup : conn.Up) (o : Outgoing κ) (p : Bytes) :
    ∃ o', o.write conn p = (none, o') := by
  have hnone := hup.write o.conn p
  unfold Outgoing.write
  split
  · exact ⟨_, rfl⟩
  · rename_i herr
    rw [herr] at hnone
    cases hnone

theorem Outgoing.closeWriter_up (hup : conn.Up) (o : Outgoing κ) :
    ∃ o', o.closeWriter conn = (none, o') := by
  have hnone := hup.closeWriter o.conn
  unfold Outgoing.closeWriter
  split
  · exact ⟨_, rfl⟩
  · rename_i herr
    rw [herr] at hnone
    cases hnone

/-- Nothing but the connection and the length of the payload stops it. -/
theorem writeFrame_up (hup : conn.Up) (o : Outgoing κ) (streamID : UInt32) (flag : UInt8)
    {payload : Bytes} (hlen : payload.length < 0x100000000) :
    ∃ o', writeFrame conn o streamID flag payload = (none, o') := by
  have hmax : ¬ 0xffffffff < payload.length := by omega
  obtain ⟨o₁, hwriter⟩ := o.writer_up hup
  obtain ⟨o₂, hhead⟩ := o₁.write_up hup (frameHead streamID flag payload)
  obtain ⟨o₃, hpayload⟩ := o₂.write_up hup payload
  simp only [writeFrame, if_neg hmax, hwriter, hhead, hpayload]
  split
  · exact o₃.closeWriter_up hup
  · exact o₂.closeWriter_up hup

/-- A payload whose length does not fit the field is refused, not truncated. -/
theorem writeFrame_too_large (conn : MessageConn κ) (o : Outgoing κ) (streamID : UInt32)
    (flag : UInt8) {payload : Bytes} (hlen : 0x100000000 ≤ payload.length) :
    writeFrame conn o streamID flag payload = (some (.text "payload too large"), o) := by
  have hmax : 0xffffffff < payload.length := by omega
  rw [writeFrame, if_pos hmax]

/-- `splitFrame` accepts the frames, and nothing else. -/
theorem splitFrame_eq_ok {data payload : Bytes} {streamID : UInt32} {flag : UInt8} :
    splitFrame data = .ok (streamID, flag, payload) ↔ IsFrame data streamID flag payload := by
  rw [isFrame_iff]
  unfold splitFrame
  split
  · rename_i hshort
    constructor
    · intro h
      cases h
    · rintro ⟨hle, -⟩
      omega
  · rename_i hshort
    have hle : frameHeadLen ≤ data.length := Nat.le_of_not_lt hshort
    simp only
    split
    · rename_i hne
      constructor
      · intro h
        cases h
      · rintro ⟨_, hlen, -⟩
        exact absurd hlen hne
    · rename_i hlen
      constructor
      · intro h
        cases h
        exact ⟨hle, Decidable.not_not.mp hlen, rfl, rfl, rfl⟩
      · rintro ⟨_, _, rfl, rfl, rfl⟩
        rfl

theorem readFrame_binary {k : κ} {data : Bytes} (hread : (conn.read k).1 = .ok (.binary, data)) :
    (readFrame conn k).1 = splitFrame data := by
  unfold readFrame
  split
  · rename_i herr
    rw [herr] at hread
    cases hread
  · rename_i hok
    rw [hok] at hread
    cases hread
    rfl

theorem readFrame_accepts {k : κ} {data payload : Bytes} {streamID : UInt32} {flag : UInt8}
    (hread : (conn.read k).1 = .ok (.binary, data)) :
    (readFrame conn k).1 = .ok (streamID, flag, payload) ↔
      IsFrame data streamID flag payload := by
  rw [readFrame_binary hread, splitFrame_eq_ok]

theorem readFrame_rejects {k : κ} {data : Bytes}
    (hread : (conn.read k).1 = .ok (.binary, data)) :
    (∃ err, (readFrame conn k).1 = .error err) ↔
      ∀ streamID flag payload, ¬ IsFrame data streamID flag payload := by
  rw [readFrame_binary hread]
  constructor
  · rintro ⟨err, herr⟩ streamID flag payload hframe
    rw [splitFrame_eq_ok.mpr hframe] at herr
    cases herr
  · intro hnone
    cases hsplit : splitFrame data with
    | error err => exact ⟨err, rfl⟩
    | ok r => exact absurd (splitFrame_eq_ok.mp hsplit) (hnone _ _ _)

end

end ConnectWebSocket
end BidiWeb
