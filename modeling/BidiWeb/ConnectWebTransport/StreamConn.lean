/-
  BidiWeb.ConnectWebTransport.StreamConn

  `streamConn` of `connectwebtransport/connectwebtransport.go`: envelopes on
  a WebTransport stream, and what `ServerStream.Receive` makes of a request
  that stops in the middle of one.
-/

import BidiWeb.BidiProtocol.EnvelopeIO
import BidiWeb.BidiProtocol.Server
import BidiWeb.ConnectProtocol.StatusRoundTrip

namespace BidiWeb
namespace ConnectWebTransport

open BidiWeb.Lib
open BidiWeb.BidiProtocol
open BidiWeb.ConnectProtocol (GoString plainLibrary)

/-- A `*webtransport.Stream` whose sending side has the state `κ`. -/
structure Stream (κ : Type) where
  write : Write κ
  close : κ → Option GoError × κ
  /-- What a `Read` after `CancelRead(0)` fails with. -/
  readCanceled : GoError

structure StreamState (κ : Type) where
  reader : ByteReader
  sink : Sink κ

def streamConn {κ : Type} (stream : Stream κ) : Conn (StreamState κ) where
  readEnvelope c :=
    let (result, reader) := BidiProtocol.readEnvelope c.reader
    (result, { c with reader })
  writeEnvelope c env :=
    let (err, sink) := writeEnvelopeChunked stream.write c.sink env
    (err, { c with sink })
  closeSend c :=
    let (err, state) := stream.close c.sink.state
    (err, { c with sink := { c.sink with state } })
  close c := (none, { c with reader := ⟨[], stream.readCanceled, false⟩ })

-- ============================================================================
-- The end of a request
-- ============================================================================

/-- The content is one complete head, of an envelope that has a payload and
    is not over the limit. -/
def EndsAfterHead (maxReadSize : Int) (content : Bytes) : Prop :=
  ∃ flag length, content = flag :: putUint32 length ∧ length ≠ 0 ∧
    (0 < maxReadSize → length.toNat ≤ maxReadSize)

/-- The second `io.ReadFull` has read no byte either. -/
theorem readEnvelope_after_head {r : ByteReader} {maxReadSize : Int} (hfin : r.fin = .eof)
    (h : EndsAfterHead maxReadSize r.content) :
    (readEnvelopeWithSizeLimit r maxReadSize).1 = .error .eof := by
  obtain ⟨flag, length, hcontent, hne, hlimit⟩ := h
  have hhead : r.content = flag :: putUint32 length ++ [] := by
    rw [hcontent, List.append_nil]
  obtain ⟨r₁, heq, hnil, hfin₁⟩ := readEnvelope_head hhead maxReadSize
  have hpos : 0 < length.toNat := by
    apply Nat.pos_of_ne_zero
    intro hzero
    exact hne (UInt32.toNat_inj.mp hzero)
  have hshort : r₁.content.length < length.toNat := by
    rw [hnil]
    exact hpos
  obtain ⟨r₂, hread, -⟩ := readPayload_truncated flag hlimit hshort
  have hnone : ¬ (0 < r₁.content.length ∧ r₁.fin = .eof) := by
    rw [hnil]
    simp
  rw [heq, hread, if_neg hnone, hfin₁, hfin]

/-- `io.EOF` means that there was nothing, or just a head. -/
theorem content_of_eof {r : ByteReader} {maxReadSize : Int}
    (h : (readEnvelopeWithSizeLimit r maxReadSize).1 = .error .eof) :
    r.content = [] ∨ EndsAfterHead maxReadSize r.content := by
  have hnone : ∀ n : Nat, cutError r.fin n = .eof → n = 0 := by
    intro n hcut
    apply Nat.eq_zero_of_not_pos
    intro hpos
    unfold cutError at hcut
    split at hcut
    · cases hcut
    · rename_i hnot
      exact hnot ⟨hpos, hcut⟩
  have hread := readEnvelope_cases r maxReadSize
  generalize readEnvelopeWithSizeLimit r maxReadSize = result at h hread
  obtain ⟨result, r'⟩ := result
  cases hread with
  | short r' hshort =>
      exact Or.inl (List.eq_nil_of_length_eq_zero (hnone _ (Except.error.inj h)))
  | overLimit flag length r' => cases h
  | truncated flag length rest r' hhead hlimit hcut =>
      have hzero := hnone _ (Except.error.inj h)
      have hnil : rest = [] := List.eq_nil_of_length_eq_zero hzero
      refine Or.inr ⟨flag, length, ?_, ?_, hlimit⟩
      · rw [hhead, hnil, List.append_nil]
      · rintro rfl
        simp at hcut
  | whole env r' => cases h

/-- The errors `ReadEnvelopeWithSizeLimit` can return. -/
theorem readEnvelope_error {r : ByteReader} {maxReadSize : Int} {err : GoError}
    (h : (readEnvelopeWithSizeLimit r maxReadSize).1 = .error err) :
    err = r.fin ∨ err = errUnexpectedEOF ∨ err = errOverLimit := by
  have hcut : ∀ n : Nat, cutError r.fin n = r.fin ∨ cutError r.fin n = errUnexpectedEOF ∨
      cutError r.fin n = errOverLimit := by
    intro n
    unfold cutError
    split
    · exact Or.inr (Or.inl rfl)
    · exact Or.inl rfl
  have hread := readEnvelope_cases r maxReadSize
  generalize readEnvelopeWithSizeLimit r maxReadSize = result at h hread
  obtain ⟨result, r'⟩ := result
  cases hread with
  | short r' =>
      rw [← Except.error.inj h]
      exact hcut _
  | overLimit flag length r' => exact Or.inr (Or.inr (Except.error.inj h).symm)
  | truncated flag length rest r' =>
      rw [← Except.error.inj h]
      exact hcut _
  | whole env r' => cases h

/-- A head that announces a payload is no whole envelope. -/
theorem head_ne_envelope {flag flag' : UInt8} {length : UInt32} (hne : length ≠ 0)
    (payload rest : Bytes) :
    flag :: putUint32 length ≠ Core.encodeEnvelope flag' payload ++ rest := by
  intro h
  have hlen := congrArg List.length h
  simp only [Core.encodeEnvelope, List.length_append, List.length_cons, length_putUint32] at hlen
  have hpayload : payload = [] := List.eq_nil_of_length_eq_zero (by omega)
  have hrest : rest = [] := List.eq_nil_of_length_eq_zero (by omega)
  rw [hpayload, hrest] at h
  exact hne (putUint32_injective (List.cons_eq_cons.mp h).2)

section

variable {κ μ : Type} {srv : ServerConfig κ μ} {codec : Codec μ} {ss : ServerStream κ}

theorem receive_error {err : GoError}
    (h : (srv.conn.readEnvelope ss.session.conn).1 = .error err) :
    (ss.receive srv codec).1 = .error err := by
  have hsession : (ss.session.readEnvelope srv.conn .message).1 = .error err := h
  simp only [ServerStream.receive, hsession]

/-- `Receive` reports the end of the request when the `Conn` does, or for an
    end-stream envelope. -/
theorem receive_isEOF {err : GoError} (h : (ss.receive srv codec).1 = .error err)
    (heof : err.isEOF = true) :
    (srv.conn.readEnvelope ss.session.conn).1 = .error err ∨
      ∃ env, (srv.conn.readEnvelope ss.session.conn).1 = .ok env ∧
        env.flag = flagEnvelopeEndStream := by
  cases hread : (srv.conn.readEnvelope ss.session.conn).1 with
  | error err' =>
      rw [receive_error hread] at h
      cases h
      exact Or.inl rfl
  | ok env =>
      have hsession : (ss.session.readEnvelope srv.conn .message).1 = .ok env := hread
      simp only [ServerStream.receive, hsession] at h
      split at h
      · cases h
        cases heof
      · split at h
        · rename_i hend
          exact Or.inr ⟨env, rfl, hend⟩
        · split at h
          · cases h
            cases heof
          · split at h
            · cases h
              cases heof
            · split at h
              · rename_i hdecode
                cases h
                rw [decodePayload_isEOF hdecode] at heof
                cases heof
              · split at h
                · cases h
                  cases heof
                · cases h

end

/-- `io.EOF` for an end before the first byte only, and a half-close reported
    to the handler for that or an end-stream envelope only: exactly when the
    bytes do not stop between a head and its payload. -/
theorem truncated_request_iff (chunks : List Bytes) (withLast : Bool) :
    (∀ maxReadSize : Int,
      ((readEnvelopeWithSizeLimit ⟨chunks, .eof, withLast⟩ maxReadSize).1 = .error .eof →
        chunks.flatten = []) ↔ ¬ EndsAfterHead maxReadSize chunks.flatten) ∧
    (∀ (κ μ : Type) (stream : Stream κ) (sink : Sink κ) (srv : ServerConfig (StreamState κ) μ)
      (codec : Codec μ) (ss : ServerStream (StreamState κ)),
      srv.conn = streamConn stream → ss.session.conn = ⟨⟨chunks, .eof, withLast⟩, sink⟩ →
        ((∀ err, (ss.receive srv codec).1 = .error err → err.isEOF = true →
          chunks.flatten = [] ∨ ∃ payload rest, chunks.flatten =
            Core.encodeEnvelope flagEnvelopeEndStream payload ++ rest) ↔
          ¬ EndsAfterHead defaultMaxReadFrameSize chunks.flatten)) := by
  have hread : ∀ maxReadSize : Int,
      ((readEnvelopeWithSizeLimit ⟨chunks, .eof, withLast⟩ maxReadSize).1 = .error .eof →
        chunks.flatten = []) ↔ ¬ EndsAfterHead maxReadSize chunks.flatten := by
    intro maxReadSize
    constructor
    · intro hclean hends
      obtain ⟨flag, length, hcontent, -⟩ := id hends
      rw [hclean (readEnvelope_after_head rfl hends)] at hcontent
      cases hcontent
    · intro hnot heof
      exact (content_of_eof heof).resolve_right hnot
  refine ⟨hread, ?_⟩
  intro κ μ stream sink srv codec ss hconn hstate
  have hcall : (srv.conn.readEnvelope ss.session.conn).1 =
      (BidiProtocol.readEnvelope ⟨chunks, .eof, withLast⟩).1 := by
    rw [hconn, hstate]
    rfl
  constructor
  · intro hclean hends
    have heof := readEnvelope_after_head
      (show (⟨chunks, .eof, withLast⟩ : ByteReader).fin = .eof from rfl) hends
    obtain ⟨flag, length, hcontent, hne, -⟩ := hends
    rcases hclean .eof (receive_error (hcall.trans heof)) rfl with hnil | ⟨payload, rest, hend⟩
    · rw [hnil] at hcontent
      cases hcontent
    · exact head_ne_envelope hne payload rest (hcontent.symm.trans hend)
  · intro hnot err herr heof
    rcases receive_isEOF herr heof with hconnerr | ⟨env, henv, hflag⟩
    · have hreaderr := hcall.symm.trans hconnerr
      have herr_eof : err = .eof := by
        rcases readEnvelope_error hreaderr with h | h | h
        · exact h
        · rw [h] at heof
          cases heof
        · rw [h] at heof
          cases heof
      rw [herr_eof] at hreaderr
      exact Or.inl ((hread _).mpr hnot hreaderr)
    · obtain ⟨hcontent, -⟩ := readEnvelope_ok (Prod.ext (hcall.symm.trans henv) rfl)
      rw [hflag] at hcontent
      exact Or.inr ⟨_, _, hcontent⟩

/-- A message of one byte that stops after its head. -/
theorem truncated_message_read_as_end :
    ¬ ∀ (chunks : List Bytes) (withLast : Bool) (maxReadSize : Int),
      (readEnvelopeWithSizeLimit ⟨chunks, .eof, withLast⟩ maxReadSize).1 = .error .eof →
        chunks.flatten = [] := by
  intro hclean
  have hends : EndsAfterHead defaultMaxReadFrameSize
      (⟨[[0, 0, 0, 0, 1]], .eof, false⟩ : ByteReader).content :=
    ⟨0, 1, rfl, by decide, by decide⟩
  have hnil := hclean [[0, 0, 0, 0, 1]] false _ (readEnvelope_after_head rfl hends)
  cases hnil

/-- A stream that takes every write. -/
def openStream : Stream Unit where
  write := fun k _ => (none, k)
  close := fun k => (none, k)
  readCanceled := .canceled

def receivingServer : ServerConfig (StreamState Unit) Bytes where
  conn := streamConn openStream
  opts := {}
  call := fun _ => .receive fun _ => .ret none
  lib := plainLibrary

def bytesCodec : Codec Bytes where
  name := codecNameProto
  marshalWrite := .ok
  unmarshalRead := .ok

def cutRequest : ServerStream (StreamState Unit) where
  session := { conn := ⟨⟨[[0, 0, 0], [0, 2, 7]], .eof, false⟩, ⟨(), []⟩⟩ }
  callInfo := {}

/-- A message that stops inside its payload is no end of the request. -/
theorem cut_payload_is_no_end :
    (readEnvelopeWithSizeLimit ⟨[[0, 0, 0], [0, 2, 7]], .eof, false⟩ 0).1 ≠ .error .eof ∧
      ∀ err, (cutRequest.receive receivingServer bytesCodec).1 = .error err →
        err.isEOF = false := by
  have hnot : ∀ maxReadSize, ¬ EndsAfterHead maxReadSize [[0, 0, 0], [0, 2, 7]].flatten := by
    rintro maxReadSize ⟨flag, length, hcontent, -⟩
    have hlen := congrArg List.length hcontent
    simp at hlen
  obtain ⟨hread, hreceive⟩ := truncated_request_iff [[0, 0, 0], [0, 2, 7]] false
  constructor
  · intro heof
    cases (hread 0).mpr (hnot 0) heof
  · intro err herr
    by_contra htrue
    have heof : err.isEOF = true := by simpa using htrue
    rcases (hreceive Unit Bytes openStream _ receivingServer bytesCodec cutRequest rfl rfl).mpr
      (hnot _)
      err herr heof with hnil | ⟨payload, rest, hcontent⟩
    · cases hnil
    · have hflag := congrArg List.head? hcontent
      cases hflag

end ConnectWebTransport
end BidiWeb
