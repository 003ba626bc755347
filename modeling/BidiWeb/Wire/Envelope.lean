/-
  BidiWeb.Wire.Envelope

  The envelope both languages exchange (`internal/bidiprotocol/envelope.go`,
  `ts/packages/core/src/wire.ts`): one flag byte and a payload.  The flag
  values are complete byte values, not bitmasks.

  `envelopeOrder` is the sequence the protocol documents for each direction
  of a stream, "headers, zero or more data messages, end stream", as a
  machine over flag bytes; `InOrder` and `Complete` are its prefixes and its
  full words, and `inOrder_iff`/`complete_iff` restate both without the
  machine.
-/

import BidiWeb.Lib.Machine

namespace BidiWeb

/-- A byte slice. -/
abbrev Bytes := List UInt8

-- ============================================================================
-- Flags and envelopes
-- ============================================================================

def flagEnvelopeData : UInt8 := 0x00
def flagEnvelopeCompressed : UInt8 := 0x01
def flagEnvelopeEndStream : UInt8 := 0x02
/-- The leading metadata frame of a request or response. -/
def flagEnvelopeHeaders : UInt8 := 0x06
/-- Aborts a single stream; only used by transports that multiplex. -/
def flagEnvelopeReset : UInt8 := 0x07

/-- One envelope: flag byte and payload (the length is the payload's). -/
structure Envelope where
  flag : UInt8
  payload : Bytes
deriving DecidableEq, Repr

namespace Envelope

/-- An RPC message, compressed or not. -/
def isMessage (e : Envelope) : Bool :=
  e.flag = flagEnvelopeData || e.flag = flagEnvelopeCompressed

def isReset (e : Envelope) : Bool := e.flag = flagEnvelopeReset

theorem isMessage_iff {e : Envelope} :
    e.isMessage = true ↔ e.flag = flagEnvelopeData ∨ e.flag = flagEnvelopeCompressed := by
  rw [isMessage, Bool.or_eq_true, decide_eq_true_eq, decide_eq_true_eq]

end Envelope

-- ============================================================================
-- headers, zero or more data messages, end stream
-- ============================================================================

/-- How far along the documented sequence one direction of a stream is. -/
inductive Progress where
  | start
  | body
  | ended
deriving DecidableEq, Repr

/-- The envelope the sequence admits next, and where it leads. -/
def Progress.next (p : Progress) (e : Envelope) : Option Progress :=
  match p with
  | .start => if e.flag = flagEnvelopeHeaders then some .body else none
  | .body =>
      if e.isMessage then some .body
      else if e.flag = flagEnvelopeEndStream then some .ended
      else none
  | .ended => none

/-- The documented order of one direction of a stream. -/
def envelopeOrder : Lib.Machine Progress Envelope where
  init := .start
  step := Progress.next

/-- The envelopes written so far follow the documented sequence. -/
def InOrder (es : List Envelope) : Prop := (envelopeOrder.run es).isSome

/-- The envelopes are the whole documented sequence. -/
def Complete (es : List Envelope) : Prop := envelopeOrder.run es = some .ended

instance (es : List Envelope) : Decidable (InOrder es) :=
  inferInstanceAs (Decidable (_ = true))

instance (es : List Envelope) : Decidable (Complete es) :=
  inferInstanceAs (Decidable (_ = _))

theorem not_isMessage_endStream {e : Envelope} (h : e.flag = flagEnvelopeEndStream) :
    e.isMessage = false := by
  simp [Envelope.isMessage, h, flagEnvelopeEndStream, flagEnvelopeData,
    flagEnvelopeCompressed]

/-- Messages keep the sequence in its body. -/
theorem exec_body_messages {ms : List Envelope} (h : ∀ m ∈ ms, m.isMessage) :
    envelopeOrder.exec .body ms = some .body := by
  induction ms with
  | nil => rfl
  | cons m ms ih =>
      have hm : envelopeOrder.step .body m = some .body := by
        simp [envelopeOrder, Progress.next, h m (by simp)]
      exact (envelopeOrder.exec_cons).mpr ⟨.body, hm, ih fun x hx => h x (by simp [hx])⟩

/-- What follows the headers: only messages, or messages and one end-stream. -/
theorem exec_body_iff {es : List Envelope} {p : Progress} :
    envelopeOrder.exec .body es = some p ↔
      (p = .body ∧ ∀ m ∈ es, m.isMessage) ∨
      (p = .ended ∧ ∃ ms e, es = ms ++ [e] ∧ (∀ m ∈ ms, m.isMessage) ∧
        e.flag = flagEnvelopeEndStream) := by
  constructor
  · intro h
    induction es with
    | nil =>
        cases h
        simp
    | cons x es ih =>
        obtain ⟨q, hq, hes⟩ := envelopeOrder.exec_cons.mp h
        by_cases hx : x.isMessage
        · have hqb : q = .body := by
            simpa [envelopeOrder, Progress.next, hx] using hq.symm
          subst hqb
          rcases ih hes with ⟨hp, hm⟩ | ⟨hp, ms, e, rfl, hm, he⟩
          · exact Or.inl ⟨hp, by simpa [hx] using hm⟩
          · exact Or.inr ⟨hp, x :: ms, e, rfl, by simpa [hx] using hm, he⟩
        · have hend : x.flag = flagEnvelopeEndStream ∧ q = .ended := by
            simp only [envelopeOrder, Progress.next, hx, Bool.false_eq_true, if_false] at hq
            split at hq
            · rename_i hf
              exact ⟨hf, by simpa using hq.symm⟩
            · cases hq
          obtain ⟨hf, rfl⟩ := hend
          cases es with
          | nil =>
              cases hes
              exact Or.inr ⟨rfl, [], x, rfl, by simp, hf⟩
          | cons y ys =>
              obtain ⟨r, hr, -⟩ := envelopeOrder.exec_cons.mp hes
              simp [envelopeOrder, Progress.next] at hr
  · rintro (⟨rfl, hm⟩ | ⟨rfl, ms, e, rfl, hm, he⟩)
    · exact exec_body_messages hm
    · refine envelopeOrder.exec_append.mpr ⟨.body, exec_body_messages hm, ?_⟩
      simp [Lib.Machine.exec, envelopeOrder, Progress.next, not_isMessage_endStream he, he]

/-- A word of the sequence that has begun starts with a headers envelope. -/
theorem run_cons_iff {x : Envelope} {es : List Envelope} {p : Progress} :
    envelopeOrder.run (x :: es) = some p ↔
      x.flag = flagEnvelopeHeaders ∧ envelopeOrder.exec .body es = some p := by
  unfold Lib.Machine.run
  rw [envelopeOrder.exec_cons]
  by_cases hx : x.flag = flagEnvelopeHeaders <;>
    simp [envelopeOrder, Progress.next, hx]

/-- `Complete`, spelled out: one headers envelope, zero or more data or
    compressed-data envelopes, one end-stream envelope. -/
theorem complete_iff {es : List Envelope} :
    Complete es ↔ ∃ h ms e, es = h :: ms ++ [e] ∧ h.flag = flagEnvelopeHeaders ∧
      (∀ m ∈ ms, m.isMessage) ∧ e.flag = flagEnvelopeEndStream := by
  cases es with
  | nil => simp [Complete, Lib.Machine.run, envelopeOrder]
  | cons x es =>
      rw [Complete, run_cons_iff, exec_body_iff]
      constructor
      · rintro ⟨hx, (⟨h, -⟩ | ⟨-, ms, e, rfl, hm, he⟩)⟩
        · cases h
        · exact ⟨x, ms, e, rfl, hx, hm, he⟩
      · rintro ⟨h, ms, e, heq, hh, hm, he⟩
        obtain ⟨rfl, rfl⟩ := List.cons_eq_cons.mp heq
        exact ⟨hh, Or.inr ⟨rfl, ms, e, rfl, hm, he⟩⟩

/-- `InOrder`, spelled out: a prefix of some complete sequence. -/
theorem inOrder_iff {es : List Envelope} : InOrder es ↔ ∃ full, Complete full ∧ es <+: full := by
  constructor
  · intro h
    obtain ⟨p, hp⟩ := Option.isSome_iff_exists.mp h
    have hext : ∃ rest, envelopeOrder.exec p rest = some .ended := by
      cases p with
      | start =>
          exact ⟨[⟨flagEnvelopeHeaders, []⟩, ⟨flagEnvelopeEndStream, []⟩], by decide⟩
      | body => exact ⟨[⟨flagEnvelopeEndStream, []⟩], by decide⟩
      | ended => exact ⟨[], rfl⟩
    obtain ⟨rest, hrest⟩ := hext
    exact ⟨es ++ rest, envelopeOrder.exec_append.mpr ⟨p, hp, hrest⟩, List.prefix_append ..⟩
  · rintro ⟨full, hfull, rest, rfl⟩
    obtain ⟨m, hm, -⟩ := envelopeOrder.exec_append.mp hfull
    exact Option.isSome_iff_exists.mpr ⟨m, hm⟩

theorem InOrder.of_append {es rest : List Envelope} (h : InOrder (es ++ rest)) : InOrder es := by
  obtain ⟨full, hfull, hpre⟩ := inOrder_iff.mp h
  exact inOrder_iff.mpr ⟨full, hfull, (List.prefix_append es rest).trans hpre⟩

end BidiWeb
