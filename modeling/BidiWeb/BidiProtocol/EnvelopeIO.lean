/-
  BidiWeb.BidiProtocol.EnvelopeIO

  `internal/bidiprotocol/envelope.go`: envelopes written to an `io.Writer`
  and read from an `io.Reader`.

  What `readEnvelopeWithSizeLimit` comes to depends on the content of the
  reader alone (`readEnvelope_cases`), not on how the bytes come in chunks.
-/

import BidiWeb.Lib.Reader
import BidiWeb.Lib.Uint8Array
import BidiWeb.Wire.GoError
import BidiWeb.Wire.Splitter

namespace BidiWeb
namespace BidiProtocol

open BidiWeb.Lib

def envelopeLen : Nat := 5

-- ============================================================================
-- Writing
-- ============================================================================

/-- The `Write` of an `io.Writer` whose state is `κ`.  An error is `some`. -/
abbrev Write (κ : Type) := κ → Bytes → Option GoError × κ

/-- A writer in use, with what its successful writes have written. -/
structure Sink (κ : Type) where
  state : κ
  bytes : Bytes := []

def Sink.write {κ : Type} (w : Write κ) (s : Sink κ) (p : Bytes) : Option GoError × Sink κ :=
  match w s.state p with
  | (none, state) => (none, ⟨state, s.bytes ++ p⟩)
  | (some err, state) => (some err, { s with state })

/-- `var head [envelopeLen]byte`, filled in. -/
def envelopeHead (flag : UInt8) (payload : Bytes) : Bytes :=
  let head := List.replicate envelopeLen 0
  let head := overwrite head 0 [flag]
  overwrite head 1 (putUint32 (UInt32.ofNat payload.length))

/-- Write the head and the payload as separate `Write` calls. -/
def writeEnvelopeChunked {κ : Type} (w : Write κ) (s : Sink κ) (env : Envelope) :
    Option GoError × Sink κ :=
  if 0xffffffff < env.payload.length then (some (.text "payload too large"), s)  -- math.MaxUint32
  else
    match s.write w (envelopeHead env.flag env.payload) with
    | (some err, s) => (some err, s)
    | (none, s) =>
        if 0 < env.payload.length then s.write w env.payload else (none, s)

/-- One envelope after another, up to the first error. -/
def writeEnvelopes {κ : Type} (w : Write κ) (s : Sink κ) : List Envelope → Option GoError × Sink κ
  | [] => (none, s)
  | env :: envs =>
      match writeEnvelopeChunked w s env with
      | (some err, s) => (some err, s)
      | (none, s) => writeEnvelopes w s envs

-- ============================================================================
-- Reading
-- ============================================================================

/-- `io.ErrUnexpectedEOF` -/
def errUnexpectedEOF : GoError := .text "unexpected EOF"

abbrev ByteReader := Reader UInt8 GoError

def errOverLimit : GoError := .text "envelope payload exceeds maximum allowed size"

/-- `ReadEnvelopeWithSizeLimit` from the decoded head on; a limit of 0 is none. -/
def readPayload (r : ByteReader) (maxReadSize : Int) (flag : UInt8) (length : UInt32) :
    Except GoError Envelope × ByteReader :=
  if length = 0 then (.ok ⟨flag, []⟩, r)
  else if 0 < maxReadSize ∧ maxReadSize < length.toNat then (.error errOverLimit, r)
  else
    match r.readFull .eof errUnexpectedEOF length.toNat with
    | (_, some err, r) => (.error err, r)
    | (payload, none, r) => (.ok ⟨flag, payload⟩, r)

/-- Read a single envelope of up to `maxReadSize` bytes. -/
def readEnvelopeWithSizeLimit (r : ByteReader) (maxReadSize : Int) :
    Except GoError Envelope × ByteReader :=
  match r.readFull .eof errUnexpectedEOF envelopeLen with
  | (_, some err, r) => (.error err, r)
  | (head, none, r) =>
      -- `head` is a zeroed array that has been read full
      let flag := head.getD 0 0
      let length :=
        getUint32 (head.getD 1 0) (head.getD 2 0) (head.getD 3 0) (head.getD 4 0)
      readPayload r maxReadSize flag length

/-- 128 MiB -/
def defaultMaxReadFrameSize : Int := 128 * 1024 * 1024

def readEnvelope (r : ByteReader) : Except GoError Envelope × ByteReader :=
  readEnvelopeWithSizeLimit r defaultMaxReadFrameSize

/-- What `n` calls of `ReadEnvelopeWithSizeLimit` return. -/
def readEnvelopes (maxReadSize : Int) :
    Nat → ByteReader → List (Except GoError Envelope) × ByteReader
  | 0, r => ([], r)
  | n + 1, r =>
      let (result, r) := readEnvelopeWithSizeLimit r maxReadSize
      let (results, r) := readEnvelopes maxReadSize n r
      (result :: results, r)

-- ============================================================================
-- One envelope
-- ============================================================================

/-- The read limit does not refuse the envelope. -/
def WithinLimit (maxReadSize : Int) (env : Envelope) : Prop :=
  0 < maxReadSize → env.payload.length ≤ maxReadSize

/-- Five bytes are a head. -/
theorem exists_head {b : Bytes} (h : envelopeLen ≤ b.length) :
    ∃ flag n rest, b = flag :: putUint32 n ++ rest := by
  match b, h with
  | flag :: l₀ :: l₁ :: l₂ :: l₃ :: rest, _ =>
      exact ⟨flag, getUint32 l₀ l₁ l₂ l₃, rest, by rw [putUint32_getUint32]; rfl⟩

variable {r : ByteReader} {maxReadSize : Int} {flag : UInt8} {length : UInt32} {rest : Bytes}

/-- With the head complete, what matters is the payload. -/
theorem readEnvelope_head (h : r.content = flag :: putUint32 length ++ rest) (maxReadSize : Int) :
    ∃ r', readEnvelopeWithSizeLimit r maxReadSize = readPayload r' maxReadSize flag length ∧
      r'.content = rest ∧ r'.fin = r.fin := by
  have hlen : envelopeLen ≤ r.content.length := by
    rw [h]
    simp only [List.length_append, List.length_cons, length_putUint32, envelopeLen]
    omega
  obtain ⟨r', hread, hrest, hfin⟩ := Reader.readFull_of_le hlen
  rw [h] at hread hrest
  refine ⟨r', ?_, hrest, hfin⟩
  rw [readEnvelopeWithSizeLimit, hread]
  exact congrArg (readPayload r' maxReadSize flag) (getUint32_of_put rfl)

/-- Less than a head: the error tells whether there was anything at all. -/
theorem readEnvelope_short (h : r.content.length < envelopeLen) (maxReadSize : Int) :
    ∃ r', readEnvelopeWithSizeLimit r maxReadSize =
        (.error (if 0 < r.content.length ∧ r.fin = .eof then errUnexpectedEOF else r.fin), r') ∧
      r'.content = [] ∧ r'.fin = r.fin := by
  obtain ⟨r', hread, hnil, hfin⟩ := Reader.readFull_of_lt h
  refine ⟨r', ?_, hnil, hfin⟩
  rw [readEnvelopeWithSizeLimit, hread]

theorem readPayload_over_limit (hlimit : 0 < maxReadSize) (hover : maxReadSize < length.toNat) :
    readPayload r maxReadSize flag length = (.error errOverLimit, r) := by
  have hne : length ≠ 0 := by
    rintro rfl
    simp only [UInt32.toNat_zero] at hover
    omega
  rw [readPayload, if_neg hne, if_pos ⟨hlimit, hover⟩]

theorem readPayload_truncated (flag : UInt8)
    (hlimit : 0 < maxReadSize → length.toNat ≤ maxReadSize)
    (hshort : r.content.length < length.toNat) :
    ∃ r', readPayload r maxReadSize flag length =
        (.error (if 0 < r.content.length ∧ r.fin = .eof then errUnexpectedEOF else r.fin), r') ∧
      r'.content = [] := by
  have hne : length ≠ 0 := by
    rintro rfl
    simp only [UInt32.toNat_zero] at hshort
    omega
  have hle : ¬ (0 < maxReadSize ∧ maxReadSize < length.toNat) := by
    rintro ⟨hpos, hover⟩
    have hin := hlimit hpos
    omega
  obtain ⟨r', hread, hnil, -⟩ := Reader.readFull_of_lt hshort
  refine ⟨r', ?_, hnil⟩
  rw [readPayload, if_neg hne, if_neg hle, hread]

theorem readPayload_whole (flag : UInt8)
    (hlimit : 0 < maxReadSize → length.toNat ≤ maxReadSize)
    (hlen : length.toNat ≤ r.content.length) :
    ∃ r', readPayload r maxReadSize flag length =
        (.ok ⟨flag, r.content.take length.toNat⟩, r') ∧
      r'.content = r.content.drop length.toNat ∧ r'.fin = r.fin := by
  by_cases hzero : length = 0
  · subst hzero
    exact ⟨r, by rw [readPayload, if_pos rfl]; rfl, rfl, rfl⟩
  · have hle : ¬ (0 < maxReadSize ∧ maxReadSize < length.toNat) := by
      rintro ⟨hpos, hover⟩
      have hin := hlimit hpos
      omega
    obtain ⟨r', hread, hrest, hfin⟩ := Reader.readFull_of_le hlen
    refine ⟨r', ?_, hrest, hfin⟩
    rw [readPayload, if_neg hzero, if_neg hle, hread]

/-- An envelope at the front of the content is read, and no byte beyond. -/
theorem readEnvelope_encoded {env : Envelope}
    (h : r.content = Core.encodeEnvelope env.flag env.payload ++ rest)
    (hbound : env.payload.length < 0x100000000) (hlimit : WithinLimit maxReadSize env) :
    ∃ r', readEnvelopeWithSizeLimit r maxReadSize = (.ok env, r') ∧ r'.content = rest ∧
      r'.fin = r.fin := by
  have hlen : (UInt32.ofNat env.payload.length).toNat = env.payload.length := by
    rw [UInt32.toNat_ofNat', Nat.mod_eq_of_lt hbound]
  have hhead : r.content =
      env.flag :: putUint32 (UInt32.ofNat env.payload.length) ++ (env.payload ++ rest) := by
    rw [h, Core.encodeEnvelope, List.append_assoc]
  obtain ⟨r₁, heq, hcontent₁, hfin₁⟩ := readEnvelope_head hhead maxReadSize
  have hlimit' : 0 < maxReadSize →
      (UInt32.ofNat env.payload.length).toNat ≤ maxReadSize := by
    rw [hlen]
    exact hlimit
  have hwhole : (UInt32.ofNat env.payload.length).toNat ≤ r₁.content.length := by
    rw [hlen, hcontent₁, List.length_append]
    omega
  obtain ⟨r₂, hread, hcontent₂, hfin₂⟩ := readPayload_whole env.flag hlimit' hwhole
  rw [hlen, hcontent₁] at hread hcontent₂
  rw [List.take_left] at hread
  rw [List.drop_left] at hcontent₂
  exact ⟨r₂, heq.trans hread, hcontent₂, hfin₂.trans hfin₁⟩

/-- What `io.ReadFull` fails with when the reader ends after `read` bytes. -/
def cutError (fin : GoError) (read : Nat) : GoError :=
  if 0 < read ∧ fin = .eof then errUnexpectedEOF else fin

/-- What a `ReadEnvelopeWithSizeLimit` can come to. -/
inductive EnvelopeRead (r : ByteReader) (maxReadSize : Int) :
    Except GoError Envelope → ByteReader → Prop where
  | short (r' : ByteReader) : r.content.length < envelopeLen →
      EnvelopeRead r maxReadSize (.error (cutError r.fin r.content.length)) r'
  | overLimit (flag : UInt8) (length : UInt32) (r' : ByteReader) :
      r.content = flag :: putUint32 length ++ r'.content → 0 < maxReadSize →
      maxReadSize < length.toNat → EnvelopeRead r maxReadSize (.error errOverLimit) r'
  | truncated (flag : UInt8) (length : UInt32) (rest : Bytes) (r' : ByteReader) :
      r.content = flag :: putUint32 length ++ rest →
      (0 < maxReadSize → length.toNat ≤ maxReadSize) → rest.length < length.toNat →
      EnvelopeRead r maxReadSize (.error (cutError r.fin rest.length)) r'
  | whole (env : Envelope) (r' : ByteReader) :
      r.content = Core.encodeEnvelope env.flag env.payload ++ r'.content →
      env.payload.length < 0x100000000 → WithinLimit maxReadSize env →
      EnvelopeRead r maxReadSize (.ok env) r'

theorem readEnvelope_cases (r : ByteReader) (maxReadSize : Int) :
    EnvelopeRead r maxReadSize (readEnvelopeWithSizeLimit r maxReadSize).1
      (readEnvelopeWithSizeLimit r maxReadSize).2 := by
  by_cases hshort : r.content.length < envelopeLen
  · obtain ⟨r₁, heq, -⟩ := readEnvelope_short hshort maxReadSize
    rw [heq]
    exact .short r₁ hshort
  · obtain ⟨flag, length, rest, hhead⟩ := exists_head (Nat.le_of_not_lt hshort)
    obtain ⟨r₁, heq, rfl, hfin₁⟩ := readEnvelope_head hhead maxReadSize
    rw [heq]
    by_cases hlimit : 0 < maxReadSize → length.toNat ≤ maxReadSize
    · by_cases hcut : r₁.content.length < length.toNat
      · obtain ⟨r₂, hread, -⟩ := readPayload_truncated flag hlimit hcut
        rw [hread, hfin₁]
        exact .truncated flag length _ r₂ hhead hlimit hcut
      · have hwhole : length.toNat ≤ r₁.content.length := Nat.le_of_not_lt hcut
        obtain ⟨r₂, hread, hcontent₂, -⟩ := readPayload_whole flag hlimit hwhole
        rw [hread]
        have hlen : (r₁.content.take length.toNat).length = length.toNat := by
          rw [List.length_take]
          omega
        have hbound := length.toNat_lt
        refine .whole _ r₂ ?_ ?_ ?_
        · rw [hhead, hcontent₂, Core.encodeEnvelope]
          simp only [hlen, UInt32.ofNat_toNat, List.append_assoc]
          rw [List.take_append_drop]
        · show (r₁.content.take length.toNat).length < _
          omega
        · intro hpos
          show ((r₁.content.take length.toNat).length : Int) ≤ maxReadSize
          rw [hlen]
          exact hlimit hpos
    · obtain ⟨hpos, hover⟩ := Classical.not_imp.mp hlimit
      have hlt : maxReadSize < length.toNat := by omega
      rw [readPayload_over_limit hpos hlt]
      exact .overLimit flag length r₁ hhead hpos hlt

/-- The envelope read is the bytes consumed. -/
theorem readEnvelope_ok {env : Envelope} {r' : ByteReader}
    (h : readEnvelopeWithSizeLimit r maxReadSize = (.ok env, r')) :
    r.content = Core.encodeEnvelope env.flag env.payload ++ r'.content ∧
      env.payload.length < 0x100000000 := by
  have hread := readEnvelope_cases r maxReadSize
  rw [h] at hread
  cases hread with
  | whole env r' hcontent hbound hlimit => exact ⟨hcontent, hbound⟩

-- ============================================================================
-- Many envelopes
-- ============================================================================

/-- What was written is read back, and then the end of the content. -/
theorem readEnvelopes_encoded {envs : List Envelope} {r : ByteReader}
    (h : r.content = encodeEnvelopes envs) (hfin : r.fin = .eof)
    (hbound : ∀ e ∈ envs, e.payload.length < 0x100000000)
    (hlimit : ∀ e ∈ envs, WithinLimit maxReadSize e) :
    (readEnvelopes maxReadSize (envs.length + 1) r).1 = envs.map .ok ++ [.error .eof] := by
  induction envs generalizing r with
  | nil =>
      have hempty : r.content.length < envelopeLen := by
        rw [h]
        decide
      obtain ⟨r', hread, -⟩ := readEnvelope_short hempty maxReadSize
      have hnil : ¬ (0 < r.content.length ∧ r.fin = .eof) := by
        rw [h]
        simp [encodeEnvelopes]
      rw [if_neg hnil, hfin] at hread
      simp only [readEnvelopes, List.length_nil, hread, List.map_nil, List.nil_append]
  | cons e envs ih =>
      obtain ⟨hbound₁, hbounds⟩ := List.forall_mem_cons.mp hbound
      obtain ⟨hlimit₁, hlimits⟩ := List.forall_mem_cons.mp hlimit
      have hcontent : r.content = Core.encodeEnvelope e.flag e.payload ++ encodeEnvelopes envs := by
        rw [h, encodeEnvelopes, List.flatMap_cons]
        rfl
      obtain ⟨r', hread, hrest, hfin'⟩ := readEnvelope_encoded hcontent hbound₁ hlimit₁
      have hresults := ih hrest (hfin'.trans hfin) hbounds hlimits
      rw [List.length_cons, readEnvelopes, hread, List.map_cons, List.cons_append, ← hresults]

/-- Re-encoding the envelopes read gives the bytes consumed. -/
theorem readEnvelopes_ok {envs : List Envelope} {r r' : ByteReader} {n : Nat}
    (h : readEnvelopes maxReadSize n r = (envs.map .ok, r')) :
    r.content = encodeEnvelopes envs ++ r'.content ∧
      ∀ e ∈ envs, e.payload.length < 0x100000000 := by
  induction n generalizing r envs with
  | zero =>
      have hnil : envs = [] := List.map_eq_nil_iff.mp (congrArg Prod.fst h).symm
      obtain rfl : r = r' := congrArg Prod.snd h
      subst hnil
      exact ⟨rfl, by simp⟩
  | succ n ih =>
      cases hread : readEnvelopeWithSizeLimit r maxReadSize with
      | mk result r₁ =>
          cases hrest : readEnvelopes maxReadSize n r₁ with
          | mk results r₂ =>
              simp only [readEnvelopes, hread, hrest] at h
              obtain ⟨hresults, rfl⟩ := Prod.mk.inj h
              cases envs with
              | nil => cases hresults
              | cons e envs =>
                  obtain ⟨rfl, rfl⟩ := List.cons_eq_cons.mp hresults
                  obtain ⟨hcontent, hbound⟩ := readEnvelope_ok hread
                  obtain ⟨hcontents, hbounds⟩ := ih hrest
                  refine ⟨?_, List.forall_mem_cons.mpr ⟨hbound, hbounds⟩⟩
                  rw [hcontent, hcontents, ← List.append_assoc]
                  rfl

section

variable {κ : Type} {w : Write κ} {s s' : Sink κ}

theorem Sink.write_ok {p : Bytes} (h : s.write w p = (none, s')) : s'.bytes = s.bytes ++ p := by
  unfold Sink.write at h
  split at h
  · cases h
    rfl
  · cases h

theorem envelopeHead_eq (flag : UInt8) (payload : Bytes) :
    envelopeHead flag payload ++ payload = Core.encodeEnvelope flag payload := rfl

theorem writeEnvelopeChunked_ok {env : Envelope} (h : writeEnvelopeChunked w s env = (none, s')) :
    s'.bytes = s.bytes ++ Core.encodeEnvelope env.flag env.payload ∧
      env.payload.length < 0x100000000 := by
  unfold writeEnvelopeChunked at h
  split at h
  · cases h
  · rename_i hlen
    refine ⟨?_, by omega⟩
    split at h
    · cases h
    · rename_i s₁ hhead
      have hbytes₁ := Sink.write_ok hhead
      split at h
      · rw [Sink.write_ok h, hbytes₁, List.append_assoc, envelopeHead_eq]
      · -- an empty payload is no second `Write`
        rename_i hempty
        cases h
        have hnil : env.payload = [] := List.eq_nil_of_length_eq_zero (by omega)
        have heq := envelopeHead_eq env.flag []
        rw [List.append_nil] at heq
        rw [hbytes₁, hnil, heq]

theorem writeEnvelopes_ok {envs : List Envelope} (h : writeEnvelopes w s envs = (none, s')) :
    s'.bytes = s.bytes ++ encodeEnvelopes envs ∧
      ∀ e ∈ envs, e.payload.length < 0x100000000 := by
  induction envs generalizing s with
  | nil =>
      cases h
      exact ⟨(List.append_nil _).symm, by simp⟩
  | cons e envs ih =>
      unfold writeEnvelopes at h
      split at h
      · cases h
      · rename_i s₁ hfirst
        obtain ⟨hbytes₁, hbound⟩ := writeEnvelopeChunked_ok hfirst
        obtain ⟨hbytes, hbounds⟩ := ih h
        refine ⟨?_, List.forall_mem_cons.mpr ⟨hbound, hbounds⟩⟩
        rw [hbytes, hbytes₁, List.append_assoc]
        rfl

theorem Sink.write_up (hup : ∀ k p, (w k p).1 = none) (s : Sink κ) (p : Bytes) :
    ∃ s', s.write w p = (none, s') := by
  have hnone := hup s.state p
  unfold Sink.write
  split
  · exact ⟨_, rfl⟩
  · rename_i herr
    rw [herr] at hnone
    cases hnone

theorem writeEnvelopeChunked_up (hup : ∀ k p, (w k p).1 = none) (s : Sink κ) {env : Envelope}
    (hlen : env.payload.length < 0x100000000) :
    ∃ s', writeEnvelopeChunked w s env = (none, s') := by
  have hmax : ¬ 0xffffffff < env.payload.length := by omega
  obtain ⟨s₁, hhead⟩ := s.write_up hup (envelopeHead env.flag env.payload)
  rw [writeEnvelopeChunked, if_neg hmax, hhead]
  simp only
  split
  · exact s₁.write_up hup env.payload
  · exact ⟨s₁, rfl⟩

theorem writeEnvelopes_up (hup : ∀ k p, (w k p).1 = none) (s : Sink κ) {envs : List Envelope}
    (hlen : ∀ e ∈ envs, e.payload.length < 0x100000000) :
    ∃ s', writeEnvelopes w s envs = (none, s') := by
  induction envs generalizing s with
  | nil => exact ⟨s, rfl⟩
  | cons e envs ih =>
      obtain ⟨hlen₁, hlens⟩ := List.forall_mem_cons.mp hlen
      obtain ⟨s₁, hfirst⟩ := writeEnvelopeChunked_up hup s hlen₁
      obtain ⟨s', hrest⟩ := ih s₁ hlens
      exact ⟨s', by rw [writeEnvelopes, hfirst]; exact hrest⟩

end

-- ============================================================================
-- The byte stream
-- ============================================================================

/-- Envelopes written one after another are read back whatever the chunks;
    envelopes read from any bytes are those bytes; and one over the limit is
    refused with its payload still unread. -/
theorem envelope_stream (maxReadSize : Int) :
    (∀ (κ : Type) (w : Write κ) (s s' : Sink κ) (envs : List Envelope),
      (∀ e ∈ envs, WithinLimit maxReadSize e) → writeEnvelopes w s envs = (none, s') →
        ∃ written, s'.bytes = s.bytes ++ written ∧
          ∀ r : ByteReader, r.content = written → r.fin = .eof →
            (readEnvelopes maxReadSize (envs.length + 1) r).1 =
              envs.map .ok ++ [.error .eof]) ∧
    (∀ (κ : Type) (w : Write κ), (∀ k p, (w k p).1 = none) →
      ∀ (s : Sink κ) (envs : List Envelope),
        (writeEnvelopes w s envs).1 = none ↔ ∀ e ∈ envs, e.payload.length ≤ 0xffffffff) ∧
    (∀ (r r' : ByteReader) (n : Nat) (envs : List Envelope),
      readEnvelopes maxReadSize n r = (envs.map .ok, r') →
        ∃ consumed, r.content = consumed ++ r'.content ∧
          ∀ (κ : Type) (w : Write κ), (∀ k p, (w k p).1 = none) → ∀ s : Sink κ,
            ∃ s', writeEnvelopes w s envs = (none, s') ∧ s'.bytes = s.bytes ++ consumed) ∧
    (∀ (r : ByteReader) (flag : UInt8) (length : UInt32) (rest : Bytes),
      r.content = flag :: putUint32 length ++ rest → 0 < maxReadSize →
        maxReadSize < length.toNat →
          ∃ r', readEnvelopeWithSizeLimit r maxReadSize = (.error errOverLimit, r') ∧
            r'.content = rest) := by
  refine ⟨?_, ?_, ?_, ?_⟩
  · intro κ w s s' envs hlimit hwrite
    obtain ⟨hbytes, hbound⟩ := writeEnvelopes_ok hwrite
    refine ⟨encodeEnvelopes envs, hbytes, ?_⟩
    intro r hcontent hfin
    exact readEnvelopes_encoded hcontent hfin hbound hlimit
  · intro κ w hup s envs
    constructor
    · intro hnone
      obtain ⟨-, hbound⟩ := writeEnvelopes_ok (Prod.ext hnone rfl)
      intro e he
      have hlt := hbound e he
      omega
    · intro hbound
      have hlt : ∀ e ∈ envs, e.payload.length < 0x100000000 := by
        intro e he
        have hle := hbound e he
        omega
      obtain ⟨s', hwrite⟩ := writeEnvelopes_up hup s hlt
      rw [hwrite]
  · intro r r' n envs hread
    obtain ⟨hcontent, hbound⟩ := readEnvelopes_ok hread
    refine ⟨encodeEnvelopes envs, hcontent, ?_⟩
    intro κ w hup s
    obtain ⟨s', hwrite⟩ := writeEnvelopes_up hup s hbound
    exact ⟨s', hwrite, (writeEnvelopes_ok hwrite).1⟩
  · intro r flag length rest hcontent hpos hover
    obtain ⟨r', heq, hrest, -⟩ := readEnvelope_head hcontent maxReadSize
    exact ⟨r', heq.trans (readPayload_over_limit hpos hover), hrest⟩

/-- A message of two bytes and an empty end-stream, in chunks that cut both
    heads; and the message again, under a limit of one byte. -/
theorem envelope_stream_of_chunks :
    (readEnvelopes 2 3 ⟨[[0, 0], [0, 0, 2, 1], [8, 2, 0, 0], [0, 0]], .eof, false⟩).1 =
      [.ok ⟨0, [1, 8]⟩, .ok ⟨2, []⟩, .error .eof] ∧
    ∃ r', readEnvelopeWithSizeLimit ⟨[[0, 0, 0, 0, 2, 1], [8]], .eof, true⟩ 1 =
      (.error errOverLimit, r') ∧ r'.content = [1, 8] := by
  obtain ⟨hround, hwrites, -, -⟩ := envelope_stream 2
  obtain ⟨-, -, -, hlimit⟩ := envelope_stream 1
  constructor
  · have hlimits : ∀ e ∈ [Envelope.mk 0 [1, 8], Envelope.mk 2 []], WithinLimit 2 e := by
      intro e he _
      have hcases : e = ⟨0, [1, 8]⟩ ∨ e = ⟨2, []⟩ := by simpa using he
      rcases hcases with rfl | rfl <;> decide
    have hwritten := (hwrites Unit (fun k _ => (none, k)) (fun _ _ => rfl) ⟨(), []⟩
      [⟨0, [1, 8]⟩, ⟨2, []⟩]).mpr (by decide)
    obtain ⟨written, hbytes, hread⟩ := hround Unit (fun k _ => (none, k)) ⟨(), []⟩ _
      [⟨0, [1, 8]⟩, ⟨2, []⟩] hlimits (Prod.ext hwritten rfl)
    refine hread _ (Eq.trans ?_ hbytes) rfl
    decide
  · exact hlimit _ 0 2 [1, 8] rfl (by decide) (by decide)

end BidiProtocol
end BidiWeb
