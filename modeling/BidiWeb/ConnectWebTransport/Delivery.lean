/-
  BidiWeb.ConnectWebTransport.Delivery

  What the reading end of a pipe makes of what the writing end has written.

  Both ends are described by bytes: the writing end has put whole envelopes
  and the beginning of one more (`Writes`), the reading end has taken whole
  envelopes and holds the beginning of one more.  Since an envelope tells
  where it ends, the envelopes of one end are the first ones of the other.
-/

import BidiWeb.ConnectWebTransport.Pipe

namespace BidiWeb
namespace ConnectWebTransport

open BidiWeb.Lib
open BidiWeb.BidiProtocol

-- ============================================================================
-- Envelopes as code words
-- ============================================================================

/-- The envelopes that can be written. -/
def Encodable (env : Envelope) : Prop := env.payload.length < 0x100000000

def encode (env : Envelope) : Bytes := Core.encodeEnvelope env.flag env.payload

theorem encodeEnvelopes_eq (es : List Envelope) : encodeEnvelopes es = es.flatMap encode := rfl

theorem selfDelimiting_encode : SelfDelimiting Encodable encode where
  nonempty := nofun
  split := by
    intro x y s t hx hy h
    have hfirst : firstEnvelope (encode x ++ s) = some (x, s) :=
      firstEnvelope_iff_encode.mpr ⟨hx, rfl⟩
    have hfirst' : firstEnvelope (encode y ++ t) = some (y, t) :=
      firstEnvelope_iff_encode.mpr ⟨hy, rfl⟩
    rw [h, hfirst'] at hfirst
    obtain ⟨rfl, rfl⟩ := Prod.mk.inj (Option.some.inj hfirst)
    exact ⟨rfl, rfl⟩

/-- The bytes taken by a call that returns an envelope are that envelope. -/
theorem Returns.encode {maxReadSize : Int} {taken : Bytes} {env : Envelope}
    (h : Returns maxReadSize taken (.ok env)) : taken = encode env ∧ Encodable env := by
  obtain ⟨reader', heq, hnil⟩ := h ⟨[taken], .eof, false⟩ [] (by simp [Reader.content])
  obtain ⟨hcontent, hbound⟩ := readEnvelope_ok heq
  refine ⟨?_, hbound⟩
  rw [hnil, List.append_nil] at hcontent
  exact (List.append_nil taken).symm.trans hcontent

/-- A call gives up early on account of the length in a head only. -/
theorem Reading.take_error {maxReadSize : Int} {r : Reading} {p : Bytes} {err : GoError}
    (h : r.take maxReadSize p = .returns (.error err)) :
    err = errOverLimit ∧ ∃ flag length, r.held ++ p = flag :: putUint32 length ∧
      0 < maxReadSize ∧ maxReadSize < length.toNat := by
  cases r with
  | head buf =>
      simp only [Reading.take] at h
      unfold Reading.takeHead at h
      split at h
      · rename_i flag l₀ l₁ l₂ l₃ hbuf
        unfold Reading.afterHead at h
        split at h
        · cases h
        · split at h
          · rename_i hover
            cases h
            refine ⟨rfl, flag, getUint32 l₀ l₁ l₂ l₃, ?_, hover⟩
            rw [putUint32_getUint32]
            exact hbuf
          · cases h
      · cases h
  | payload flag length buf =>
      simp only [Reading.take] at h
      split at h <;> cases h

/-- What a call holds is the beginning of an envelope. -/
theorem Reading.Reads.begun {maxReadSize : Int} {r : Reading} (h : r.Reads maxReadSize) :
    Begun Encodable encode r.held := by
  refine Or.inr ?_
  cases r with
  | head buf =>
      have hshort : buf.length < 5 := h
      let fill : Bytes := List.replicate (5 - buf.length) 0
      have hlen : (buf ++ fill).length = 5 := by
        rw [List.length_append, List.length_replicate]
        omega
      obtain ⟨flag, length, rest, hhead⟩ := exists_head (Nat.le_of_eq hlen.symm)
      have hnil : rest = [] := by
        apply List.eq_nil_of_length_eq_zero
        rw [hhead, List.length_append, List.length_cons, length_putUint32] at hlen
        omega
      let payload : Bytes := List.replicate length.toNat 0
      have hpayload : payload.length = length.toNat := List.length_replicate
      refine ⟨⟨flag, payload⟩, fill ++ payload, ?_, ?_, ?_⟩
      · show payload.length < _
        have hbound := length.toNat_lt
        omega
      · apply List.append_ne_nil_of_left_ne_nil
        apply List.ne_nil_of_length_pos
        rw [List.length_replicate]
        omega
      · show Core.encodeEnvelope flag payload = buf ++ (fill ++ payload)
        rw [← List.append_assoc, hhead, hnil, Core.encodeEnvelope, hpayload, UInt32.ofNat_toNat,
          List.append_nil]
  | payload flag length buf =>
      obtain ⟨hshort, -⟩ := h
      let fill : Bytes := List.replicate (length.toNat - buf.length) 0
      have hlen : (buf ++ fill).length = length.toNat := by
        rw [List.length_append, List.length_replicate]
        omega
      refine ⟨⟨flag, buf ++ fill⟩, fill, ?_, ?_, ?_⟩
      · show (buf ++ fill).length < _
        have hbound := length.toNat_lt
        omega
      · apply List.ne_nil_of_length_pos
        rw [List.length_replicate]
        omega
      · show Core.encodeEnvelope flag (buf ++ fill) = flag :: putUint32 length ++ buf ++ fill
        rw [Core.encodeEnvelope, hlen, UInt32.ofNat_toNat, List.append_assoc]

/-- An error passes through a call as it is, unless it is `io.EOF`. -/
theorem Reading.fails_eq {r : Reading} {err : GoError} (h : err ≠ .eof ∨ r.held = []) :
    r.fails err = err := by
  have hcut : ∀ buf : Bytes, (err ≠ .eof ∨ buf = []) → cutError err buf.length = err := by
    intro buf hbuf
    refine if_neg fun ⟨hpos, heof⟩ => ?_
    rcases hbuf with hne | hnil
    · exact hne heof
    · rw [hnil] at hpos
      exact absurd hpos (Nat.lt_irrefl 0)
  cases r with
  | head buf => exact hcut buf h
  | payload flag length buf => exact hcut buf (h.imp_right nofun)

-- ============================================================================
-- The writing end
-- ============================================================================

namespace Writing

/-- What is not accepted yet of the whole envelope. -/
def left : Writing → Bytes
  | .head env rest => rest ++ env.payload
  | .payload _ rest => rest

variable {w w' : Writing} {n : Nat}

theorem accepted_some (h : w.accepted n = some w') :
    w'.env = w.env ∧ w.left = w.rest.take n ++ w'.left ∧ w'.rest ≠ [] := by
  cases w with
  | head env rest =>
      simp only [accepted] at h
      split at h
      · rename_i hlt
        cases h
        refine ⟨rfl, ?_, fun hnil => ?_⟩
        · simp only [left, Writing.rest]
          rw [← List.append_assoc, List.take_append_drop]
        · have hle := List.drop_eq_nil_iff.mp hnil
          omega
      · rename_i hall
        split at h
        · rename_i hpos
          cases h
          refine ⟨rfl, ?_, List.ne_nil_of_length_pos hpos⟩
          simp only [left, Writing.rest]
          rw [List.take_of_length_le (Nat.le_of_not_lt hall)]
        · cases h
  | payload env rest =>
      simp only [accepted] at h
      split at h
      · rename_i hlt
        cases h
        refine ⟨rfl, (List.take_append_drop n rest).symm, fun hnil => ?_⟩
        have hle := List.drop_eq_nil_iff.mp hnil
        omega
      · cases h

theorem accepted_none (h : w.accepted n = none) : w.left = w.rest.take n := by
  cases w with
  | head env rest =>
      simp only [accepted] at h
      split at h
      · cases h
      · rename_i hall
        split at h
        · cases h
        · rename_i hempty
          have hnil : env.payload = [] := List.eq_nil_of_length_eq_zero (by omega)
          simp only [left, Writing.rest]
          rw [List.take_of_length_le (Nat.le_of_not_lt hall), hnil, List.append_nil]
  | payload env rest =>
      simp only [accepted] at h
      split at h
      · cases h
      · rename_i hall
        exact (List.take_of_length_le (Nat.le_of_not_lt hall)).symm

theorem left_ne_nil (h : w.rest ≠ []) : w.left ≠ [] := by
  cases w with
  | head env rest => exact List.append_ne_nil_of_left_ne_nil h _
  | payload env rest => exact h

end Writing

namespace Pipe

variable {maxReadSize : Int} {p p' : Pipe} {part : Bytes}

/-- Where the writing end is: `part` is what it has put of an envelope that it
    has not put as a whole. -/
inductive Writes (p : Pipe) (part : Bytes) : Prop where
  | idle : p.writing = none → p.started = p.wrote → part = [] → Writes p part
  | busy (w : Writing) : p.writing = some w → p.fin = false → p.started = p.wrote ++ [w.env] →
      encode w.env = part ++ w.left → w.rest ≠ [] → Writes p part
  /-- A `Write` has failed. -/
  | broken (env : Envelope) (more : Bytes) : p.writing = none → p.fin = false →
      p.writeErr.isSome → p.started = p.wrote ++ [env] → encode env = part ++ more →
      more ≠ [] → Writes p part

theorem Writes.begun (h : p.Writes part) (hbound : ∀ env ∈ p.started, Encodable env) :
    Begun Encodable encode part := by
  cases h with
  | idle _ _ hpart => exact Or.inl hpart
  | busy w _ _ hstarted hleft hne =>
      refine Or.inr ⟨w.env, w.left, hbound _ ?_, w.left_ne_nil hne, hleft⟩
      simp [hstarted]
  | broken env more _ _ _ hstarted hmore hne =>
      refine Or.inr ⟨env, more, hbound _ ?_, hne, hmore⟩
      simp [hstarted]

/-- What has been put is the front of what has been started. -/
theorem Writes.started (h : p.Writes part) :
    ∃ more, encodeEnvelopes p.started = encodeEnvelopes p.wrote ++ part ++ more := by
  cases h with
  | idle _ hstarted hpart => exact ⟨[], by rw [hstarted, hpart, List.append_nil, List.append_nil]⟩
  | busy w _ _ hstarted hleft _ =>
      refine ⟨w.left, ?_⟩
      rw [hstarted, encodeEnvelopes_append, List.append_assoc, ← hleft]
      simp [encodeEnvelopes, encode]
  | broken env more _ _ _ hstarted hmore _ =>
      refine ⟨more, ?_⟩
      rw [hstarted, encodeEnvelopes_append, List.append_assoc, ← hmore]
      simp [encodeEnvelopes, encode]

theorem Writes.wrote_le (h : p.Writes part) : p.wrote <+: p.started := by
  cases h with
  | idle _ hstarted _ => exact hstarted ▸ List.prefix_rfl
  | busy w _ _ hstarted _ _ => exact ⟨_, hstarted.symm⟩
  | broken env more _ _ _ hstarted _ _ => exact ⟨_, hstarted.symm⟩

/-- A stream that has been closed has all of what was written. -/
theorem Writes.closed (h : p.Writes part) (hfin : p.fin = true) :
    p.writing = none ∧ part = [] := by
  cases h with
  | idle hw _ hpart => exact ⟨hw, hpart⟩
  | busy w _ hopen _ _ _ => exact absurd (hfin.symm.trans hopen) (by decide)
  | broken env more _ hopen _ _ _ _ => exact absurd (hfin.symm.trans hopen) (by decide)

-- ============================================================================
-- The reading end
-- ============================================================================

@[simp] theorem firstError_append (results : List (Except GoError Envelope))
    (result : Except GoError Envelope) :
    firstError (results ++ [result]) = (firstError results).or (firstError [result]) := by
  induction results with
  | nil => rfl
  | cons r results ih =>
      cases r with
      | ok env => exact ih
      | error err => rfl

theorem beforeError_append (results : List (Except GoError Envelope))
    (result : Except GoError Envelope) :
    beforeError (results ++ [result]) =
      beforeError results ++ if firstError results = none then beforeError [result] else [] := by
  induction results with
  | nil => rfl
  | cons r results ih =>
      cases r with
      | ok env => exact congrArg (env :: ·) ih
      | error err => rfl

/-- How the first error comes about. -/
inductive Failed (maxReadSize : Int) (p : Pipe) : GoError → Prop where
  /-- The stream has been closed, and everything written has been read. -/
  | eof : p.fin = true → p.underway = [] → p.read = p.wrote → Failed maxReadSize p .eof
  /-- The next envelope is over the limit. -/
  | overLimit (env : Envelope) : p.read ++ [env] <+: p.started → 0 < maxReadSize →
      maxReadSize < env.payload.length → Failed maxReadSize p errOverLimit
  /-- The reading end is broken. -/
  | broken (err : GoError) : p.readErr = some err → Failed maxReadSize p err

structure Inv (maxReadSize : Int) (p : Pipe) : Prop where
  encodable : ∀ env ∈ p.started, Encodable env
  bytes : p.put = p.took ++ p.underway
  writes : ∃ part, p.Writes part ∧ p.put = encodeEnvelopes p.wrote ++ part
  reads : ∀ r, p.reading = some r → r.Reads maxReadSize
  intact : firstError p.results = none → p.took = encodeEnvelopes p.read ++ p.held
  le : p.read <+: p.wrote
  failed : ∀ err, firstError p.results = some err → p.Failed maxReadSize err
  noEOF : p.readErr ≠ some .eof

theorem inv_init (maxReadSize : Int) : Inv maxReadSize {} where
  encodable := nofun
  bytes := rfl
  writes := ⟨[], .idle rfl rfl rfl, rfl⟩
  reads := nofun
  intact := fun _ => rfl
  le := List.prefix_rfl
  failed := nofun
  noEOF := nofun

theorem read_eq (h : p'.results = p.results) : p'.read = p.read := congrArg beforeError h

theorem held_eq (h : p'.reading = p.reading) : p'.held = p.held := by
  unfold held
  rw [h]

/-- The writing end moves. -/
theorem Inv.of_writer (hp : p.Inv maxReadSize) {bytes : Bytes}
    (hstarted : p.started <+: p'.started) (hwrote : p.wrote <+: p'.wrote)
    (hclosed : p.fin = true → p'.fin = true ∧ bytes = [] ∧ p'.wrote = p.wrote)
    (hreading : p'.reading = p.reading) (hresults : p'.results = p.results)
    (hreadErr : p'.readErr = p.readErr) (htook : p'.took = p.took)
    (hput : p'.put = p.put ++ bytes) (hunderway : p'.underway = p.underway ++ bytes)
    (hencodable : ∀ env ∈ p'.started, Encodable env)
    (hwrites : ∃ part', p'.Writes part' ∧ p'.put = encodeEnvelopes p'.wrote ++ part') :
    p'.Inv maxReadSize where
  encodable := hencodable
  bytes := by rw [hput, hp.bytes, htook, hunderway, List.append_assoc]
  writes := hwrites
  reads := by
    rw [hreading]
    exact hp.reads
  intact := by
    intro hnone
    rw [hresults] at hnone
    rw [htook, hp.intact hnone, read_eq hresults, held_eq hreading]
  le := by
    rw [read_eq hresults]
    exact hp.le.trans hwrote
  failed := by
    intro err herr
    rw [hresults] at herr
    cases hp.failed err herr with
    | eof hfin hempty hall =>
        obtain ⟨hfin', hnil, hsame⟩ := hclosed hfin
        refine .eof hfin' ?_ ?_
        · rw [hunderway, hempty, hnil]
          rfl
        · rw [read_eq hresults, hsame]
          exact hall
    | overLimit env hnext hpos hover =>
        refine .overLimit env ?_ hpos hover
        rw [read_eq hresults]
        exact hnext.trans hstarted
    | broken err hbroken => exact .broken err (hreadErr.trans hbroken)
  noEOF := hreadErr ▸ hp.noEOF

/-- The reading end moves while nothing has failed. -/
theorem Inv.of_reader (hp : p.Inv maxReadSize) (hwriting : p'.writing = p.writing)
    (hfin : p'.fin = p.fin) (hwriteErr : p'.writeErr = p.writeErr)
    (hstarted : p'.started = p.started) (hwrote : p'.wrote = p.wrote) (hput : p'.put = p.put)
    (hbytes : p'.put = p'.took ++ p'.underway)
    (hreads : ∀ r, p'.reading = some r → r.Reads maxReadSize)
    (hintact : firstError p'.results = none → p'.took = encodeEnvelopes p'.read ++ p'.held)
    (hle : p'.read <+: p'.wrote)
    (hfailed : ∀ err, firstError p'.results = some err → p'.Failed maxReadSize err)
    (hnoEOF : p'.readErr ≠ some .eof) : p'.Inv maxReadSize where
  encodable := hstarted ▸ hp.encodable
  bytes := hbytes
  writes := by
    obtain ⟨part, hwrites, hparts⟩ := hp.writes
    refine ⟨part, ?_, by rw [hput, hparts, hwrote]⟩
    cases hwrites with
    | idle hw hs hpart => exact .idle (hwriting.trans hw) (by rw [hstarted, hs, hwrote]) hpart
    | busy w hw hf hs hleft hne =>
        exact .busy w (hwriting.trans hw) (hfin.trans hf) (by rw [hstarted, hs, hwrote]) hleft hne
    | broken env more hw hf herr hs hmore hne =>
        exact .broken env more (hwriting.trans hw) (hfin.trans hf) (hwriteErr ▸ herr)
          (by rw [hstarted, hs, hwrote]) hmore hne
  reads := hreads
  intact := hintact
  le := hle
  failed := hfailed
  noEOF := hnoEOF

-- ============================================================================
-- Every step
-- ============================================================================

theorem Writes.of_idle (h : p.Writes part) (hw : p.writing = none) (hup : p.writeErr = none) :
    p.started = p.wrote ∧ part = [] := by
  cases h with
  | idle _ hstarted hpart => exact ⟨hstarted, hpart⟩
  | busy w hbusy => rw [hw] at hbusy; cases hbusy
  | broken env more _ _ herr => rw [hup] at herr; cases herr

theorem Writes.of_busy {w : Writing} (h : p.Writes part) (hw : p.writing = some w) :
    p.fin = false ∧ p.started = p.wrote ++ [w.env] ∧ encode w.env = part ++ w.left ∧
      w.rest ≠ [] := by
  cases h with
  | idle hidle => rw [hw] at hidle; cases hidle
  | busy w' hbusy hopen hstarted hleft hne =>
      obtain rfl : w = w' := Option.some.inj (hw.symm.trans hbusy)
      exact ⟨hopen, hstarted, hleft, hne⟩
  | broken env more hidle => rw [hw] at hidle; cases hidle

theorem Inv.begins (hp : p.Inv maxReadSize) {env : Envelope} (hw : p.writing = none)
    (hopen : p.fin = false) (hup : p.writeErr = none) (henv : Encodable env) :
    Inv maxReadSize
      { p with
        writing := some (.head env (envelopeHead env.flag env.payload))
        started := p.started ++ [env] } := by
  obtain ⟨part, hwrites, hput⟩ := hp.writes
  obtain ⟨hstarted, hpart⟩ := hwrites.of_idle hw hup
  refine hp.of_writer (List.prefix_append _ _) List.prefix_rfl
    (fun hfin => absurd (hfin.symm.trans hopen) (by decide)) rfl rfl rfl rfl
    (List.append_nil _).symm (List.append_nil _).symm ?_ ?_
  · intro e he
    rcases List.mem_append.mp he with he | he
    · exact hp.encodable e he
    · rw [List.mem_singleton.mp he]
      exact henv
  · refine ⟨[], .busy _ rfl hopen ?_ ?_ (by simp [Writing.rest, envelopeHead, overwrite]), ?_⟩
    · rw [← hstarted]
      rfl
    · exact (envelopeHead_eq env.flag env.payload).symm
    · rw [hpart] at hput
      exact hput

theorem Inv.accepts (hp : p.Inv maxReadSize) {n : Nat} {w w' : Writing} (hw : p.writing = some w)
    (hrest : w.accepted n = some w') :
    Inv maxReadSize
      { p with
        put := p.put ++ w.rest.take n
        underway := p.underway ++ w.rest.take n
        writing := some w' } := by
  obtain ⟨part, hwrites, hput⟩ := hp.writes
  obtain ⟨hopen, hstarted, hleft, -⟩ := hwrites.of_busy hw
  obtain ⟨henv, htake, hne⟩ := Writing.accepted_some hrest
  refine hp.of_writer List.prefix_rfl List.prefix_rfl
    (fun hfin => absurd (hfin.symm.trans hopen) (by decide)) rfl rfl rfl rfl rfl rfl hp.encodable
    ⟨part ++ w.rest.take n, .busy w' rfl hopen (henv ▸ hstarted) ?_ hne, ?_⟩
  · rw [henv, hleft, htake, List.append_assoc]
  · show p.put ++ w.rest.take n = _
    rw [hput, List.append_assoc]

theorem Inv.wrote (hp : p.Inv maxReadSize) {n : Nat} {w : Writing} (hw : p.writing = some w)
    (hrest : w.accepted n = none) :
    Inv maxReadSize
      { p with
        put := p.put ++ w.rest.take n
        underway := p.underway ++ w.rest.take n
        writing := none
        wrote := p.wrote ++ [w.env] } := by
  obtain ⟨part, hwrites, hput⟩ := hp.writes
  obtain ⟨hopen, hstarted, hleft, -⟩ := hwrites.of_busy hw
  refine hp.of_writer List.prefix_rfl (List.prefix_append _ _)
    (fun hfin => absurd (hfin.symm.trans hopen) (by decide)) rfl rfl rfl rfl rfl rfl hp.encodable
    ⟨[], .idle rfl hstarted rfl, ?_⟩
  show p.put ++ w.rest.take n = _
  rw [hput, List.append_assoc, ← Writing.accepted_none hrest, ← hleft, List.append_nil,
    encodeEnvelopes_append]
  simp [encodeEnvelopes, encode]

/-- The writing end moves without putting anything. -/
theorem Inv.of_quiet_writer (hp : p.Inv maxReadSize) (hstarted : p'.started = p.started)
    (hwrote : p'.wrote = p.wrote) (hfin : p.fin = true → p'.fin = true)
    (hreading : p'.reading = p.reading) (hresults : p'.results = p.results)
    (hreadErr : p'.readErr = p.readErr) (htook : p'.took = p.took) (hput : p'.put = p.put)
    (hunderway : p'.underway = p.underway)
    (hwrites : ∀ part, p.Writes part → p'.Writes part) : p'.Inv maxReadSize := by
  obtain ⟨part, hold, hparts⟩ := hp.writes
  refine hp.of_writer (hstarted ▸ List.prefix_rfl) (hwrote ▸ List.prefix_rfl)
    (fun h => ⟨hfin h, rfl, hwrote⟩) hreading hresults hreadErr htook
      (by rw [hput, List.append_nil])
    (by rw [hunderway, List.append_nil]) (hstarted ▸ hp.encodable)
    ⟨part, hwrites part hold, by rw [hput, hwrote, hparts]⟩

/-- A first error stays explained while the reading end moves. -/
theorem Failed.kept {err : GoError} (h : p.Failed maxReadSize err) (hfin : p'.fin = p.fin)
    (hunderway : p.underway = [] → p'.underway = []) (hread : p'.read = p.read)
    (hwrote : p'.wrote = p.wrote) (hstarted : p'.started = p.started)
    (hreadErr : ∀ e, p.readErr = some e → p'.readErr = some e) : p'.Failed maxReadSize err := by
  cases h with
  | eof hclosed hempty hall =>
      exact .eof (hfin.trans hclosed) (hunderway hempty) (by rw [hread, hwrote, hall])
  | overLimit env hnext hpos hover =>
      exact .overLimit env (by rw [hread, hstarted]; exact hnext) hpos hover
  | broken err hbroken => exact .broken err (hreadErr err hbroken)

theorem Inv.takes (hp : p.Inv maxReadSize) {n : Nat} {r r' : Reading} (hr : p.reading = some r)
    (hroom : n ≤ r.room) (hle : n ≤ p.underway.length)
    (htake : r.take maxReadSize (p.underway.take n) = .waits r') :
    Inv maxReadSize
      { p with
        took := p.took ++ p.underway.take n
        underway := p.underway.drop n
        reading := some r' } := by
  have hlen : (p.underway.take n).length ≤ r.room := by
    rw [List.length_take_of_le hle]
    exact hroom
  have hfollows := (hp.reads r hr).take hlen
  rw [htake] at hfollows
  obtain ⟨hreads, hheld⟩ := hfollows
  refine hp.of_reader rfl rfl rfl rfl rfl rfl ?_ ?_ ?_ hp.le ?_ hp.noEOF
  · show p.put = p.took ++ p.underway.take n ++ p.underway.drop n
    rw [List.append_assoc, List.take_append_drop]
    exact hp.bytes
  · rintro _ ⟨⟩
    exact hreads
  · intro hnone
    have htook := hp.intact hnone
    have hold : p.held = r.held := by simp only [held, hr]
    show p.took ++ p.underway.take n = encodeEnvelopes p.read ++ r'.held
    rw [htook, hold, hheld, List.append_assoc]
  · intro err herr
    refine (hp.failed err herr).kept rfl (fun hnil => ?_) rfl rfl rfl fun _ h => h
    show p.underway.drop n = []
    rw [hnil, List.drop_nil]

/-- The envelopes read and the bytes read after them are the front of what has
    been started. -/
theorem Inv.next (hp : p.Inv maxReadSize) {es : List Envelope} {rest : Bytes}
    (hput : p.put = encodeEnvelopes es ++ rest) (hes : ∀ e ∈ es, Encodable e) :
    es <+: p.wrote ∧ ∃ next more, p.started = es ++ next ∧ rest ++ more = encodeEnvelopes next := by
  obtain ⟨part, hwrites, hparts⟩ := hp.writes
  have hwrote :
      ∀ e ∈ p.wrote, Encodable e := fun e he => hp.encodable e (hwrites.wrote_le.subset he)
  have hle : es <+: p.wrote := by
    refine selfDelimiting_encode.prefix_of_begun hes hwrote (hwrites.begun hp.encodable) ?_
      (p := rest)
    rw [← encodeEnvelopes_eq, ← encodeEnvelopes_eq, ← hput, hparts]
  obtain ⟨next, hnext⟩ := hle.trans hwrites.wrote_le
  obtain ⟨more, hmore⟩ := hwrites.started
  refine ⟨hle, next, more, hnext.symm, ?_⟩
  rw [← hnext, encodeEnvelopes_append, ← hparts, hput, List.append_assoc] at hmore
  exact (List.append_cancel_left hmore).symm

/-- A head that announces a payload over the limit is the one of the next
    envelope. -/
theorem exists_of_head {next : List Envelope} {flag : UInt8} {length : UInt32} {rest : Bytes}
    (hnext : ∀ e ∈ next, Encodable e)
    (h : flag :: putUint32 length ++ rest = encodeEnvelopes next) :
    ∃ env tail, next = env :: tail ∧ env.payload.length = length.toNat := by
  cases next with
  | nil => cases h
  | cons env tail =>
      refine ⟨env, tail, rfl, ?_⟩
      have henv := hnext env List.mem_cons_self
      rw [encodeEnvelopes, List.flatMap_cons, Core.encodeEnvelope, List.append_assoc] at h
      obtain ⟨-, htail⟩ := List.cons_eq_cons.mp h
      have hlength := (List.append_inj htail (by rw [length_putUint32, length_putUint32])).1
      rw [putUint32_injective hlength, UInt32.toNat_ofNat', Nat.mod_eq_of_lt henv]

theorem Inv.returns (hp : p.Inv maxReadSize) {n : Nat} {r : Reading}
    {result : Except GoError Envelope} (hr : p.reading = some r) (hpos : 0 < n)
    (hroom : n ≤ r.room) (hle : n ≤ p.underway.length)
    (htake : r.take maxReadSize (p.underway.take n) = .returns result) :
    Inv maxReadSize
      { p with
        took := p.took ++ p.underway.take n
        underway := p.underway.drop n
        reading := none
        results := p.results ++ [result] } := by
  have hbytes : p.put = p.took ++ p.underway.take n ++ p.underway.drop n := by
    rw [List.append_assoc, List.take_append_drop]
    exact hp.bytes
  have hne : p.underway ≠ [] := List.ne_nil_of_length_pos (by omega)
  have hlen : (p.underway.take n).length ≤ r.room := by
    rw [List.length_take_of_le hle]
    exact hroom
  have hfollows := (hp.reads r hr).take hlen
  rw [htake] at hfollows
  cases hfirst : firstError p.results with
  | some err =>
      -- the first error stays what it was
      have hread : beforeError (p.results ++ [result]) = beforeError p.results := by
        rw [beforeError_append, hfirst, if_neg (Option.some_ne_none err), List.append_nil]
      refine hp.of_reader rfl rfl rfl rfl rfl rfl hbytes (fun _ h => by cases h) ?_ ?_ ?_ hp.noEOF
      · intro hnone
        rw [firstError_append, hfirst] at hnone
        cases hnone
      · exact (congrArg (· <+: p.wrote) hread).mpr hp.le
      · intro err' herr
        rw [firstError_append, hfirst] at herr
        obtain rfl : err = err' := Option.some.inj herr
        exact (hp.failed err hfirst).kept rfl (fun hnil => absurd hnil hne) hread rfl rfl
          fun _ h => h
  | none =>
      have htook : p.took ++ p.underway.take n =
          encodeEnvelopes p.read ++ (r.held ++ p.underway.take n) := by
        have hold : p.held = r.held := by simp only [held, hr]
        rw [hp.intact hfirst, hold, List.append_assoc]
      cases result with
      | ok env =>
          obtain ⟨henv, hencodable⟩ := Returns.encode hfollows
          have hread : beforeError (p.results ++ [.ok env]) = p.read ++ [env] := by
            rw [beforeError_append, hfirst, if_pos rfl]
            rfl
          have hall : p.took ++ p.underway.take n = encodeEnvelopes (p.read ++ [env]) := by
            rw [htook, henv, encodeEnvelopes_append]
            simp [encodeEnvelopes, encode]
          have hle' : p.read ++ [env] <+: p.wrote := by
            obtain ⟨part, hwrites, -⟩ := hp.writes
            refine (hp.next (by rw [hbytes, hall]) fun e he => ?_).1
            rcases List.mem_append.mp he with he | he
            · exact hp.encodable e ((hp.le.trans hwrites.wrote_le).subset he)
            · rw [List.mem_singleton.mp he]
              exact hencodable
          refine hp.of_reader rfl rfl rfl rfl rfl rfl hbytes (fun _ h => by cases h) ?_ ?_ ?_
            hp.noEOF
          · intro _
            show _ = encodeEnvelopes (beforeError _) ++ []
            rw [hread, List.append_nil]
            exact hall
          · exact (congrArg (· <+: p.wrote) hread).mpr hle'
          · intro err herr
            rw [firstError_append, hfirst] at herr
            cases herr
      | error err =>
          obtain ⟨rfl, flag, length, hhead, hlimit, hover⟩ := Reading.take_error htake
          have hread : beforeError (p.results ++ [.error errOverLimit]) = p.read := by
            rw [beforeError_append, hfirst, if_pos rfl]
            exact List.append_nil _
          refine hp.of_reader rfl rfl rfl rfl rfl rfl hbytes (fun _ h => by cases h) ?_ ?_ ?_
            hp.noEOF
          · intro hnone
            rw [firstError_append, hfirst] at hnone
            cases hnone
          · exact (congrArg (· <+: p.wrote) hread).mpr hp.le
          · intro err herr
            rw [firstError_append, hfirst] at herr
            obtain rfl : errOverLimit = err := Option.some.inj herr
            obtain ⟨part, hwrites, -⟩ := hp.writes
            have hput : p.put = encodeEnvelopes p.read
                ++ (flag :: putUint32 length ++ p.underway.drop n) := by
              rw [hbytes, htook, hhead, List.append_assoc]
            obtain ⟨-, next, more, hnext, hmore⟩ := hp.next hput fun e he =>
              hp.encodable e ((hp.le.trans hwrites.wrote_le).subset he)
            rw [List.append_assoc] at hmore
            obtain ⟨env, tail, rfl, hlength⟩ := exists_of_head
              (fun e he => hp.encodable e (by rw [hnext]; exact List.mem_append_right _ he)) hmore
            refine .overLimit env ?_ hlimit (by rw [hlength]; exact hover)
            show beforeError _ ++ [env] <+: p.started
            rw [hread, hnext]
            exact ⟨tail, by rw [List.append_assoc]; rfl⟩

theorem Inv.readFails (hp : p.Inv maxReadSize) {r : Reading} {err : GoError}
    (hr : p.reading = some r) (herr : p.readError = some err) :
    Inv maxReadSize
      { p with reading := none, results := p.results ++ [.error (r.fails err)] } := by
  have hread : beforeError (p.results ++ [.error (r.fails err)]) = p.read := by
    rw [beforeError_append]
    show p.read ++ (if _ then [] else []) = p.read
    rw [ite_self, List.append_nil]
  have hkept : ∀ e, p.Failed maxReadSize e →
      Failed maxReadSize
        { p with reading := none, results := p.results ++ [.error (r.fails err)] } e := fun e he =>
    he.kept rfl (fun h => h) hread rfl rfl fun _ h => h
  refine hp.of_reader rfl rfl rfl rfl rfl rfl hp.bytes nofun ?_
    ((congrArg (· <+: p.wrote) hread).mpr hp.le) ?_ hp.noEOF
  · intro hnone
    rw [firstError_append] at hnone
    cases hfirst : firstError p.results <;> rw [hfirst] at hnone <;> cases hnone
  · intro e he
    rw [firstError_append] at he
    cases hfirst : firstError p.results with
    | some e' =>
        rw [hfirst] at he
        obtain rfl : e' = e := Option.some.inj he
        exact hkept e' (hp.failed e' hfirst)
    | none =>
        rw [hfirst] at he
        obtain rfl : r.fails err = e := Option.some.inj he
        apply hkept
        unfold readError at herr
        cases hbroken : p.readErr with
        | some e =>
            rw [hbroken] at herr
            obtain rfl : e = err := Option.some.inj herr
            rw [Reading.fails_eq (Or.inl fun heof => hp.noEOF (heof ▸ hbroken))]
            exact .broken e hbroken
        | none =>
            rw [hbroken, Option.none_or] at herr
            split at herr
            · rename_i hend
              obtain ⟨hfin, hempty⟩ := hend
              cases herr
              -- the reader has taken all there was, so it holds nothing
              obtain ⟨part, hwrites, hput⟩ := hp.writes
              have hheld : p.held = r.held := by simp only [held, hr]
              have hsame : p.read.flatMap encode ++ r.held = p.wrote.flatMap encode ++ [] := by
                rw [← encodeEnvelopes_eq, ← encodeEnvelopes_eq, ← hheld, ← hp.intact hfirst,
                  ← (hwrites.closed hfin).2, ← hput, hp.bytes, hempty, List.append_nil]
              have hencodable : ∀ e ∈ p.wrote, Encodable e := fun e he =>
                hp.encodable e (hwrites.wrote_le.subset he)
              obtain ⟨hall, hnil⟩ := selfDelimiting_encode.eq_of_begun
                (fun e he => hencodable e (hp.le.subset he)) hencodable (hp.reads r hr).begun
                (begun_nil _ _) hsame
              rw [Reading.fails_eq (Or.inr hnil)]
              exact .eof hfin hempty hall
            · cases herr

theorem Inv.step (hp : p.Inv maxReadSize) {ev : PipeEvent}
    (hstep : p.step maxReadSize ev = some p') : p'.Inv maxReadSize := by
  cases stepped hstep with
  | refused env hw => exact hp
  | begins env hw hopen hup henv => exact hp.begins hw hopen hup henv
  | accepts n w w' hw hup hle hrest => exact hp.accepts hw hrest
  | writes n w hw hup hle hrest => exact hp.wrote hw hrest
  | writeFails w hw herr =>
      refine hp.of_quiet_writer rfl rfl (fun h => h) rfl rfl rfl rfl rfl rfl fun part hwrites => ?_
      obtain ⟨hopen, hstarted, hleft, hne⟩ := hwrites.of_busy hw
      exact .broken w.env w.left rfl hopen herr hstarted hleft (w.left_ne_nil hne)
  | closeRefused hbroken => exact hp
  | closes hw hup =>
      refine hp.of_quiet_writer rfl rfl (fun _ => rfl) rfl rfl rfl rfl rfl rfl
        fun part hwrites => ?_
      obtain ⟨hstarted, hpart⟩ := hwrites.of_idle hw hup
      exact .idle hw hstarted hpart
  | breaksWrite err =>
      refine hp.of_quiet_writer rfl rfl (fun h => h) rfl rfl rfl rfl rfl rfl fun part hwrites => ?_
      cases hwrites with
      | idle hw hstarted hpart => exact .idle hw hstarted hpart
      | busy w hw hopen hstarted hleft hne => exact .busy w hw hopen hstarted hleft hne
      | broken env more hw hopen herr hstarted hmore hne =>
          exact .broken env more hw hopen (by simp) hstarted hmore hne
  | reads hidle =>
      refine hp.of_reader rfl rfl rfl rfl rfl rfl hp.bytes ?_ (fun hnone => ?_) hp.le
        (fun err herr => (hp.failed err herr).kept rfl (fun h => h) rfl rfl rfl fun _ h => h)
        hp.noEOF
      · rintro _ ⟨⟩
        exact show 0 < 5 by decide
      · have hold : p.held = [] := by simp only [held, hidle]
        have htook := hp.intact hnone
        rw [hold] at htook
        exact htook
  | takes n r r' hr hup hpos hroom hle htake => exact hp.takes hr hroom hle htake
  | returns n r result hr hup hpos hroom hle htake => exact hp.returns hr hpos hroom hle htake
  | readFails r err hr herr => exact hp.readFails hr herr
  | breaksRead err hne =>
      refine hp.of_reader rfl rfl rfl rfl rfl rfl hp.bytes hp.reads hp.intact hp.le
        (fun e he => (hp.failed e he).kept rfl (fun h => h) rfl rfl rfl fun e he => ?_) ?_
      · show p.readErr.or (some err) = some e
        rw [he, Option.some_or]
      · show p.readErr.or (some err) ≠ some .eof
        cases hbroken : p.readErr with
        | none => simpa using hne
        | some e =>
            rw [Option.some_or, ← hbroken]
            exact hp.noEOF

end Pipe

end ConnectWebTransport
end BidiWeb
