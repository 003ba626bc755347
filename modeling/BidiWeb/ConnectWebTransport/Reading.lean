/-
  BidiWeb.ConnectWebTransport.Reading

  `ReadEnvelopeWithSizeLimit` of `internal/bidiprotocol/envelope.go` one
  `Read` at a time: a call waits in one of its two `io.ReadFull`s for bytes
  that have not arrived, and what it returns is what it would return if they
  were all there (`Reads.take`, `Reads.fails`).
-/

import BidiWeb.BidiProtocol.EnvelopeIO
import BidiWeb.Lib.Codewords

namespace BidiWeb
namespace ConnectWebTransport

open BidiWeb.Lib
open BidiWeb.BidiProtocol

-- ============================================================================
-- A call in progress
-- ============================================================================

/-- A call that waits in a `Read`, with what its `io.ReadFull` has so far. -/
inductive Reading where
  | head (buf : Bytes)
  | payload (flag : UInt8) (length : UInt32) (buf : Bytes)
deriving DecidableEq, Repr

/-- Where a `Read` leaves the call: it returns, or goes on. -/
inductive Outcome where
  | returns (result : Except GoError Envelope)
  | waits (reading : Reading)

namespace Reading

/-- The room in the slice passed to `Read`. -/
def room : Reading → Nat
  | .head buf => envelopeLen - buf.length
  | .payload _ length buf => length.toNat - buf.length

/-- The head is complete. -/
def afterHead (maxReadSize : Int) (flag : UInt8) (length : UInt32) : Outcome :=
  if length = 0 then .returns (.ok ⟨flag, []⟩)
  else if 0 < maxReadSize ∧ maxReadSize < length.toNat then .returns (.error errOverLimit)
  else .waits (.payload flag length [])

/-- The first `io.ReadFull` has `buf`. -/
def takeHead (maxReadSize : Int) (buf : Bytes) : Outcome :=
  match buf with
  | [flag, l₀, l₁, l₂, l₃] => afterHead maxReadSize flag (getUint32 l₀ l₁ l₂ l₃)
  | _ => .waits (.head buf)

/-- A `Read` returns `p`. -/
def take (maxReadSize : Int) (r : Reading) (p : Bytes) : Outcome :=
  match r with
  | .head buf => takeHead maxReadSize (buf ++ p)
  | .payload flag length buf =>
      if (buf ++ p).length < length.toNat then .waits (.payload flag length (buf ++ p))
      else .returns (.ok ⟨flag, buf ++ p⟩)

/-- What the call returns when a `Read` fails. -/
def fails (r : Reading) (err : GoError) : GoError :=
  match r with
  | .head buf => cutError err buf.length
  | .payload _ _ buf => cutError err buf.length

/-- The bytes the call has read. -/
def held : Reading → Bytes
  | .head buf => buf
  | .payload flag length buf => flag :: putUint32 length ++ buf

end Reading

-- ============================================================================
-- What it returns
-- ============================================================================

/-- The states a call goes through. -/
def Reading.Reads (maxReadSize : Int) : Reading → Prop
  | .head buf => buf.length < envelopeLen
  | .payload _ length buf =>
      buf.length < length.toNat ∧ (0 < maxReadSize → length.toNat ≤ maxReadSize)

variable {maxReadSize : Int} {r : Reading} {p : Bytes}

theorem Reading.Reads.room_pos (h : r.Reads maxReadSize) : 0 < r.room := by
  cases r with
  | head buf => exact Nat.sub_pos_of_lt h
  | payload flag length buf => exact Nat.sub_pos_of_lt h.1

/-- What `ReadEnvelopeWithSizeLimit` returns with the bytes there at once. -/
def Returns (maxReadSize : Int) (taken : Bytes) (result : Except GoError Envelope) : Prop :=
  ∀ (reader : ByteReader) (rest : Bytes), reader.content = taken ++ rest →
    ∃ reader', readEnvelopeWithSizeLimit reader maxReadSize = (result, reader') ∧
      reader'.content = rest

/-- Where the call can be once it has read `taken`. -/
def Outcome.Follows (maxReadSize : Int) (taken : Bytes) : Outcome → Prop
  | .returns result => Returns maxReadSize taken result
  | .waits r => r.Reads maxReadSize ∧ r.held = taken

theorem follows_afterHead (maxReadSize : Int) (flag : UInt8) (length : UInt32) :
    (Reading.afterHead maxReadSize flag length).Follows maxReadSize
      (flag :: putUint32 length) := by
  unfold Reading.afterHead Outcome.Follows
  split
  · rename_i result hafter
    intro reader rest hcontent
    obtain ⟨reader', heq, hrest, -⟩ := readEnvelope_head hcontent maxReadSize
    refine ⟨reader', heq.trans ?_, hrest⟩
    unfold readPayload
    split at hafter
    · rename_i hzero
      cases hafter
      rw [if_pos hzero]
    · rename_i hzero
      split at hafter
      · rename_i hover
        cases hafter
        rw [if_neg hzero, if_pos hover]
      · cases hafter
  · rename_i r hafter
    split at hafter
    · cases hafter
    · rename_i hzero
      split at hafter
      · cases hafter
      · rename_i hlimit
        cases hafter
        refine ⟨⟨?_, fun hpos => ?_⟩, List.append_nil _⟩
        · apply Nat.pos_of_ne_zero
          intro hnone
          exact hzero (UInt32.toNat_inj.mp hnone)
        · exact Int.not_lt.mp fun hover => hlimit ⟨hpos, hover⟩

theorem follows_takeHead (maxReadSize : Int) {buf : Bytes} (hlen : buf.length ≤ envelopeLen) :
    (Reading.takeHead maxReadSize buf).Follows maxReadSize buf := by
  match buf, hlen with
  | [flag, l₀, l₁, l₂, l₃], _ =>
      have hspec := follows_afterHead maxReadSize flag (getUint32 l₀ l₁ l₂ l₃)
      rw [putUint32_getUint32] at hspec
      exact hspec
  | [], _ | [_], _ | [_, _], _ | [_, _, _], _ | [_, _, _, _], _ =>
      exact ⟨show _ < 5 by simp, rfl⟩

/-- A `Read` returns some of the bytes asked for. -/
theorem Reading.Reads.take (h : r.Reads maxReadSize) (hroom : p.length ≤ r.room) :
    (r.take maxReadSize p).Follows maxReadSize (r.held ++ p) := by
  cases r with
  | head buf =>
      have hlen : (buf ++ p).length ≤ envelopeLen := by
        rw [List.length_append]
        have hbuf : buf.length < envelopeLen := h
        have hp : p.length ≤ envelopeLen - buf.length := hroom
        omega
      exact follows_takeHead maxReadSize hlen
  | payload flag length buf =>
      obtain ⟨hshort, hlimit⟩ := h
      have hp : p.length ≤ length.toNat - buf.length := hroom
      simp only [Reading.take]
      by_cases hmore : (buf ++ p).length < length.toNat
      · rw [if_pos hmore]
        exact ⟨⟨hmore, hlimit⟩, (List.append_assoc ..).symm⟩
      · rw [if_neg hmore]
        intro reader rest hcontent
        have hfull : (buf ++ p).length = length.toNat := by
          rw [List.length_append] at hmore ⊢
          omega
        have hhead : reader.content = flag :: putUint32 length ++ ((buf ++ p) ++ rest) := by
          rw [hcontent]
          simp [Reading.held]
        obtain ⟨reader₁, heq, hcontent₁, -⟩ := readEnvelope_head hhead maxReadSize
        have hwhole : length.toNat ≤ reader₁.content.length := by
          rw [hcontent₁, ← hfull]
          simp only [List.length_append]
          omega
        obtain ⟨reader', hread, hrest, -⟩ := readPayload_whole flag hlimit hwhole
        rw [hcontent₁, ← hfull, List.take_left] at hread
        rw [hcontent₁, ← hfull, List.drop_left] at hrest
        exact ⟨reader', heq.trans hread, hrest⟩

/-- A `Read` fails. -/
theorem Reading.Reads.fails (h : r.Reads maxReadSize) {reader : ByteReader}
    (hcontent : reader.content = r.held) :
    (readEnvelopeWithSizeLimit reader maxReadSize).1 = .error (r.fails reader.fin) := by
  cases r with
  | head buf =>
      have hshort : reader.content.length < envelopeLen := hcontent ▸ h
      obtain ⟨reader', heq, -⟩ := readEnvelope_short hshort maxReadSize
      rw [heq, hcontent]
      rfl
  | payload flag length buf =>
      obtain ⟨hshort, hlimit⟩ := h
      obtain ⟨reader₁, heq, hcontent₁, hfin⟩ := readEnvelope_head hcontent maxReadSize
      have hcut : reader₁.content.length < length.toNat := hcontent₁ ▸ hshort
      obtain ⟨reader', hread, -⟩ := readPayload_truncated flag hlimit hcut
      rw [heq, hread, hcontent₁, hfin]
      rfl

end ConnectWebTransport
end BidiWeb
