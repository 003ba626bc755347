/-
  BidiWeb.Web.EnvelopeEnd

  How the stream of envelopes ends, against the readable it is split from: as
  the readable does, unless the package takes the bytes left over for an error.
-/

import BidiWeb.Web.AbortedStream

namespace BidiWeb

namespace Lib
namespace ReadableStream

variable {α ε : Type} {s s' : ReadableStream α ε} {c : α}

theorem phase_error_of_open (h : s.canCloseOrEnqueue = true) (e : ε) :
    (s.error e).phase = .errored e := by
  obtain ⟨phase, results⟩ := s
  cases phase with
  | waiting n => rfl
  | buffered h' t => rfl
  | closing h' t => cases h
  | closed => cases h
  | errored e' => cases h

/-- A stream that has ended takes nothing more. -/
theorem not_hasEnded_of_enqueue (h : s.enqueue c = some s') : s.hasEnded = false := by
  cases hended : s.hasEnded with
  | false => rfl
  | true =>
      rw [enqueue_eq_none.mpr (canCloseOrEnqueue_of_hasEnded hended)] at h
      cases h

theorem not_hasEnded_of_close (h : s.close = some s') : s.hasEnded = false := by
  cases hended : s.hasEnded with
  | false => rfl
  | true =>
      rw [close_eq_none.mpr (canCloseOrEnqueue_of_hasEnded hended)] at h
      cases h

/-- Reading neither errors a stream nor mends it. -/
theorem errored_read : (∀ e, s.read.phase ≠ .errored e) ↔ ∀ e, s.phase ≠ .errored e :=
  forall_congr' fun _ => not_congr ⟨phase_read, phase_read_of_errored⟩

end ReadableStream
end Lib

namespace Web
namespace EnvelopeReader

open BidiWeb.Core (JsError)
open BidiWeb.Lib

variable {connect : ConnectPackage} {r : EnvelopeReader}
  {readable readable' : ReadableStream Bytes JsError}

/-- How the stream of envelopes has ended. -/
structure Ends [ConnectPackage] (r : EnvelopeReader) (readable : ReadableStream Bytes JsError) :
    Prop where
  errored : ∀ e, r.envelopes.phase = .errored e →
    readable.phase = .errored e ∨
      readable.phase = .closed ∧ ConnectPackage.atEnd r.buffer = some e
  closed : r.envelopes.canCloseOrEnqueue = false → (∀ e, r.envelopes.phase ≠ .errored e) →
    readable.phase = .closed ∧ ConnectPackage.atEnd r.buffer = none

theorem ends_of_open (h : r.envelopes.canCloseOrEnqueue = true) : r.Ends readable where
  errored := fun e he => absurd he (ReadableStream.not_errored_of_canCloseOrEnqueue h e)
  closed := fun hclosed => by
    rw [h] at hclosed
    cases hclosed

/-- What has ended the readable is not changed by its producer. -/
theorem Ends.of_grows (h : r.Ends readable)
    (hkept : readable.hasEnded = true → readable'.phase = readable.phase) : r.Ends readable' where
  errored := by
    intro e he
    rcases h.errored e he with herr | ⟨hclosed, hbuffer⟩
    · have hended : readable.hasEnded = true := by simp [ReadableStream.hasEnded, herr]
      exact Or.inl ((hkept hended).trans herr)
    · have hended : readable.hasEnded = true := by simp [ReadableStream.hasEnded, hclosed]
      exact Or.inr ⟨(hkept hended).trans hclosed, hbuffer⟩
  closed := by
    intro hclosed herr
    obtain ⟨hphase, hbuffer⟩ := h.closed hclosed herr
    have hended : readable.hasEnded = true := by simp [ReadableStream.hasEnded, hphase]
    exact ⟨(hkept hended).trans hphase, hbuffer⟩

theorem ends_advance (hopen : r.envelopes.canCloseOrEnqueue = true) :
    (r.advance readable).1.Ends (r.advance readable).2 := by
  apply ends_of_open
  unfold advance
  split
  · rename_i e rest hfirst
    obtain ⟨envelopes, henq⟩ := ReadableStream.exists_enqueue hopen e
    simp only [henq, Option.getD_some]
    exact ReadableStream.canCloseOrEnqueue_of_enqueue henq
  · exact hopen

theorem ends_pull [ConnectPackage.Lawful] {p : EnvelopeReader × ReadableStream Bytes JsError}
    (hp : r.pull readable = some p) : p.1.Ends p.2 := by
  unfold EnvelopeReader.pull at hp
  split at hp
  · rename_i hshould
    cases hp
    obtain ⟨-, hopen, -⟩ := of_shouldPull hshould
    exact ends_advance hopen
  · cases hp

/-- A pull that meets the end of the readable ends the envelopes with it. -/
theorem ends_settle [ConnectPackage.Lawful] (hr : r.Inv readable) (htold : readable.Told)
    {p : EnvelopeReader × ReadableStream Bytes JsError} (hp : r.settle readable = some p) :
    p.1.Ends p.2 := by
  unfold EnvelopeReader.settle at hp
  split at hp
  · cases hp
  · rename_i c hc
    cases hp
    exact @ends_advance connect (r.append c) readable (hr.of_result hc).1
  · rename_i hdone
    cases hp
    obtain ⟨hopen, hqueue, -⟩ := hr.of_result hdone
    have hphase := htold.done (List.mem_of_getElem? hdone)
    cases hbuffer : ConnectPackage.atEnd r.buffer with
    | none =>
        obtain ⟨envelopes, hclose⟩ := ReadableStream.exists_close hopen
        simp only [hclose, Option.getD_some]
        exact ⟨fun e he => absurd he (ReadableStream.phase_close hclose e),
          fun _ _ => ⟨hphase, hbuffer⟩⟩
    | some e =>
        have herror := ReadableStream.phase_error_of_open hopen e
        refine ⟨fun e' he' => Or.inr ⟨hphase, ?_⟩, fun _ hnot => absurd herror (hnot e)⟩
        rw [← Phase.errored.inj (herror.symm.trans he')]
        exact hbuffer
  · rename_i e he
    cases hp
    rw [ConnectPackage.onError_eq]
    have herror := ReadableStream.phase_error_of_open (hr.of_result he).1 e
    refine ⟨fun e' he' => Or.inl ?_, fun _ hnot => absurd herror (hnot e)⟩
    rw [← Phase.errored.inj (herror.symm.trans he')]
    exact htold.rejected e (List.mem_of_getElem? he)

theorem Ends.read (h : r.Ends readable) :
    Ends { r with envelopes := r.envelopes.read } readable where
  errored := fun e he => h.errored e (ReadableStream.phase_read he)
  closed := fun hclosed herr =>
    h.closed ((ReadableStream.canCloseOrEnqueue_read _).symm.trans hclosed)
      (ReadableStream.errored_read.mp herr)

/-- What the envelopes tell is true of their phase. -/
theorem told_advance (htold : r.envelopes.Told) : (r.advance readable).1.envelopes.Told := by
  unfold advance
  split
  · rename_i e rest hfirst
    show ((r.envelopes.enqueue e).getD r.envelopes).Told
    cases henq : r.envelopes.enqueue e with
    | none => exact htold
    | some envelopes => exact htold.enqueue henq
  · exact htold

theorem told_pull (htold : r.envelopes.Told) {p : EnvelopeReader × ReadableStream Bytes JsError}
    (hp : r.pull readable = some p) : p.1.envelopes.Told := by
  unfold EnvelopeReader.pull at hp
  split at hp
  · cases hp
    exact told_advance htold
  · cases hp

theorem told_settle (htold : r.envelopes.Told)
    {p : EnvelopeReader × ReadableStream Bytes JsError} (hp : r.settle readable = some p) :
    p.1.envelopes.Told := by
  unfold EnvelopeReader.settle at hp
  split at hp
  · cases hp
  · rename_i c hc
    cases hp
    exact @told_advance connect (r.append c) readable htold
  · cases hp
    cases ConnectPackage.atEnd r.buffer with
    | none =>
        cases hclose : r.envelopes.close with
        | none => exact htold
        | some envelopes => exact htold.close hclose
    | some e => exact htold.error e
  · cases hp
    exact htold.error _

/-- All of a readable that has closed has been split, once the envelopes have
    ended. -/
theorem Inv.handledChunks_of_closed (hr : r.Inv readable)
    (hclosed : r.envelopes.canCloseOrEnqueue = false) :
    r.handledChunks readable = readable.received := by
  obtain ⟨hidle, -, -⟩ := hr.ended hclosed
  have hreads := hr.reads
  rw [hidle] at hreads
  have hle : readable.results.length ≤ readable.reads := Nat.le_add_right ..
  have hall : readable.results.take r.handled = readable.results :=
    List.take_of_length_le (by simp at hreads; omega)
  rw [handledChunks, hall]
  rfl

end EnvelopeReader
end Web
end BidiWeb
