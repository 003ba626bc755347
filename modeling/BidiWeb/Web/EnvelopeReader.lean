/-
  BidiWeb.Web.EnvelopeReader

  `createEnvelopeReadableStream(readable).getReader()` of
  `@connectrpc/connect`, by which a call reads its response: a second
  readable stream, whose `pull` takes one envelope off a byte buffer and
  reads the underlying readable while there is none.  One pull runs at a
  time.

  The package is not part of this repository, and what it does is a
  parameter, `ConnectPackage`: which envelope it takes off the buffer, what
  it makes of the end of the bytes and of a failed read, and how far it reads
  ahead.
-/

import BidiWeb.Core.Wire
import BidiWeb.Lib.ReadableStream
import BidiWeb.Wire.Splitter

namespace BidiWeb
namespace Web

open BidiWeb.Lib
open BidiWeb.Core (JsError Code)

/-- What the transports get from `@connectrpc/connect`. -/
class ConnectPackage where
  /-- The envelope that `createEnvelopeReadableStream` hands on next, and the
      bytes behind it. -/
  split : Bytes → Option (Envelope × Bytes)
  /-- Its error for the bytes left when there are no more; without one it
      closes. -/
  atEnd : Bytes → Option JsError
  /-- Its error for a read of the bytes that is rejected. -/
  onError : JsError → JsError
  highWaterMark : Nat
  /-- The messages that `runStreamingCall` returns forward `return` to the
      iterable they come from. -/
  forwardsReturn : Bool

namespace ConnectPackage

/-- The envelope stream hands on every complete envelope in order, closes if
    nothing is left, passes errors on, and reads ahead by one envelope. -/
class Lawful [ConnectPackage] : Prop where
  split_eq (buffer : Bytes) : split buffer = firstEnvelope buffer
  atEnd_nil : atEnd [] = none
  onError_eq (e : JsError) : onError e = e
  highWaterMark_eq : highWaterMark = 1

export Lawful (split_eq atEnd_nil onError_eq highWaterMark_eq)

attribute [simp] split_eq atEnd_nil onError_eq highWaterMark_eq

end ConnectPackage

namespace Connectrpc

def incompleteEnvelope : JsError :=
  .connectError "protocol error: incomplete envelope" Code.invalidArgument

def promisedBytes (length got : Nat) : JsError :=
  .connectError s!"protocol error: promised {length} bytes in enveloped message, got {got} bytes"
    Code.invalidArgument

/-- The head of an envelope is taken off the bytes before its payload is there:
    if nothing follows it, nothing is left. -/
def endOfBytes : Bytes → Option JsError
  | [] => none
  | _ :: l₀ :: l₁ :: l₂ :: l₃ :: data =>
      if data = [] then none
      else some (promisedBytes (Lib.getUint32 l₀ l₁ l₂ l₃).toNat data.length)
  | _ => some incompleteEnvelope

/-- The package as published. -/
scoped instance published : ConnectPackage where
  split := firstEnvelope
  atEnd := endOfBytes
  onError e := e
  highWaterMark := 1
  forwardsReturn := false

scoped instance : ConnectPackage.Lawful := ⟨fun _ => rfl, rfl, fun _ => rfl, rfl⟩

end Connectrpc

structure EnvelopeReader where
  /-- Bytes read and not yet part of an envelope handed on. -/
  buffer : Bytes := []
  /-- Settled reads of the underlying readable that pulls have handled. -/
  handled : Nat := 0
  /-- A pull awaits `reader.read()`. -/
  pulling : Bool := false
  /-- The stream of envelopes the consumer reads. -/
  envelopes : ReadableStream Envelope JsError := {}
deriving DecidableEq, Repr

namespace EnvelopeReader

variable (r : EnvelopeReader)

section

variable [ConnectPackage]

/-- `ReadableStreamDefaultControllerShouldCallPull`, and no pull running. -/
def shouldPull : Bool :=
  !r.pulling && r.envelopes.canCloseOrEnqueue &&
    (0 < r.envelopes.requests || r.envelopes.queue.length < ConnectPackage.highWaterMark)

/-- Hand on the next envelope of the buffer, or read on. -/
def advance (readable : ReadableStream Bytes JsError) :
    EnvelopeReader × ReadableStream Bytes JsError :=
  match ConnectPackage.split r.buffer with
  | some (e, rest) =>
      ({ r with
          buffer := rest
          pulling := false
          envelopes := (r.envelopes.enqueue e).getD r.envelopes }, readable)
  | none => ({ r with pulling := true }, readable.read)

/-- The stream calls `pull`. -/
def pull (readable : ReadableStream Bytes JsError) :
    Option (EnvelopeReader × ReadableStream Bytes JsError) :=
  if r.shouldPull then some (r.advance readable) else none

/-- The read a pull awaits settles. -/
def settle (readable : ReadableStream Bytes JsError) :
    Option (EnvelopeReader × ReadableStream Bytes JsError) :=
  match readable.results[r.handled]? with
  | none => none
  | some (.chunk c) =>
      some ({ r with buffer := r.buffer ++ c, handled := r.handled + 1 }.advance readable)
  | some .done =>
      some ({ r with
        handled := r.handled + 1
        pulling := false
        envelopes :=
          match ConnectPackage.atEnd r.buffer with
          | none => r.envelopes.close.getD r.envelopes
          | some e => r.envelopes.error e }, readable)
  | some (.rejected e) =>
      some ({ r with
        handled := r.handled + 1
        pulling := false
        envelopes := r.envelopes.error (ConnectPackage.onError e) }, readable)

end

/-- The envelopes the consumer has been given. -/
def consumed : List Envelope := r.envelopes.received

/-- The consumer has been given an error. -/
def SawError : Prop := ∃ e, .rejected e ∈ r.envelopes.results

end EnvelopeReader

-- ============================================================================
-- Nothing is lost between the two streams
-- ============================================================================

namespace EnvelopeReader

variable {r : EnvelopeReader} {readable readable' : ReadableStream Bytes JsError}

/-- The chunks of the readable that pulls have handled. -/
def handledChunks (r : EnvelopeReader) (readable : ReadableStream Bytes JsError) : List Bytes :=
  (readable.results.take r.handled).filterMap ReadableStream.chunk?

/-- Every envelope in the chunks handled so far has been handed on or is in
    the buffer, whatever bytes may still follow. -/
def Accounted (r : EnvelopeReader) (readable : ReadableStream Bytes JsError) : Prop :=
  ∀ more, completeEnvelopes ((r.handledChunks readable).flatten ++ more) =
    r.envelopes.received ++ r.envelopes.queue ++ completeEnvelopes (r.buffer ++ more)

/-- What a readable and the envelope reader on it keep: a pull has at most one
    read outstanding, no envelope is lost between the two streams, and the
    second stream ends only when nothing is left before its end. -/
structure Inv (r : EnvelopeReader) (readable : ReadableStream Bytes JsError) : Prop where
  reads : readable.reads = r.handled + r.pulling.toNat
  handled_le : r.handled ≤ readable.results.length
  account : r.Accounted readable
  pulling : r.pulling = true →
    r.envelopes.canCloseOrEnqueue = true ∧ r.envelopes.queue = [] ∧ firstEnvelope r.buffer = none
  ended : r.envelopes.canCloseOrEnqueue = false →
    r.pulling = false ∧ r.envelopes.queue = [] ∧ firstEnvelope r.buffer = none
  unrejected : r.envelopes.canCloseOrEnqueue = true → ¬ r.SawError

theorem inv_init : Inv {} {} where
  reads := rfl
  handled_le := Nat.le_refl 0
  account := fun more => rfl
  pulling := fun h => by cases h
  ended := fun h => by cases h
  unrejected := fun _ ⟨_, h⟩ => by cases h

theorem handledChunks_of_grown (hle : r.handled ≤ readable.results.length)
    (hpre : readable.results <+: readable'.results) :
    r.handledChunks readable' = r.handledChunks readable := by
  obtain ⟨more, hmore⟩ := hpre
  rw [handledChunks, handledChunks, ← hmore, List.take_append_of_le_length hle]

/-- The producer of the readable does not disturb its reader. -/
theorem Inv.of_grows (hr : r.Inv readable) (hgrows : readable.Grows readable') :
    r.Inv readable' where
  reads := hgrows.2.trans hr.reads
  handled_le := Nat.le_trans hr.handled_le hgrows.1.length_le
  account := by
    rw [Accounted, handledChunks_of_grown hr.handled_le hgrows.1]
    exact hr.account
  pulling := hr.pulling
  ended := hr.ended
  unrejected := hr.unrejected

section

variable [ConnectPackage] [ConnectPackage.Lawful]

/-- A pull starts on an open stream with no envelope queued. -/
theorem of_shouldPull (h : r.shouldPull = true) :
    r.pulling = false ∧ r.envelopes.canCloseOrEnqueue = true ∧ r.envelopes.queue = [] := by
  simp only [shouldPull, ConnectPackage.highWaterMark_eq, Bool.and_eq_true, Bool.or_eq_true,
    Bool.not_eq_true', decide_eq_true_eq] at h
  obtain ⟨⟨hidle, hopen⟩, hroom⟩ := h
  refine ⟨hidle, hopen, ?_⟩
  rcases hroom with hrequests | hempty
  · exact ReadableStream.queue_of_requests hrequests
  · exact List.length_eq_zero_iff.mp (Nat.lt_one_iff.mp hempty)

theorem shouldPull_of_idle (hidle : r.pulling = false)
    (hopen : r.envelopes.canCloseOrEnqueue = true)
    (hqueue : r.envelopes.queue = []) : r.shouldPull = true := by
  simp [shouldPull, hidle, hopen, hqueue]

/-- A pull that owes the stream an envelope takes one from the buffer or asks
    for the next chunk. -/
theorem inv_advance (hreads : readable.reads = r.handled)
    (hle : r.handled ≤ readable.results.length) (haccount : r.Accounted readable)
    (hopen : r.envelopes.canCloseOrEnqueue = true) (hqueue : r.envelopes.queue = [])
    (hunrejected : ¬ r.SawError) :
    (r.advance readable).1.Inv (r.advance readable).2 := by
  unfold advance
  rw [ConnectPackage.split_eq]
  cases hfirst : firstEnvelope r.buffer with
  | some p =>
      obtain ⟨e, rest⟩ := p
      obtain ⟨envelopes, henq⟩ := ReadableStream.exists_enqueue hopen e
      obtain ⟨hmoved, -, hrej⟩ := ReadableStream.received_queue_enqueue henq
      have hopen' := ReadableStream.canCloseOrEnqueue_of_enqueue henq
      simp only [henq, Option.getD_some]
      refine ⟨hreads, hle, ?_, ?_, ?_, ?_⟩
      · intro more
        have hmore := haccount more
        rw [completeEnvelopes_append hfirst] at hmore
        show completeEnvelopes ((r.handledChunks readable).flatten ++ more) =
          envelopes.received ++ envelopes.queue ++ completeEnvelopes (rest ++ more)
        rw [hmore, hmoved]
        simp
      · intro h
        cases h
      · intro h
        rw [hopen'] at h
        cases h
      · rintro - ⟨err, herr⟩
        exact hunrejected ⟨err, hrej err herr⟩
  | none =>
      have hpre := ReadableStream.results_prefix_read readable
      refine ⟨?_, Nat.le_trans hle hpre.length_le, ?_, fun _ => ⟨hopen, hqueue, hfirst⟩, ?_,
        fun _ => hunrejected⟩
      · simp [hreads]
      · intro more
        have hsame : r.handledChunks readable.read = r.handledChunks readable :=
          handledChunks_of_grown hle hpre
        show completeEnvelopes ((r.handledChunks readable.read).flatten ++ more) = _
        rw [hsame]
        exact haccount more
      · intro h
        rw [show r.envelopes.canCloseOrEnqueue = false from h] at hopen
        cases hopen

theorem Inv.pull (hr : r.Inv readable) {p : EnvelopeReader × ReadableStream Bytes JsError}
    (h : r.pull readable = some p) : p.1.Inv p.2 := by
  unfold EnvelopeReader.pull at h
  split at h
  · rename_i hshould
    cases h
    obtain ⟨hidle, hopen, hqueue⟩ := of_shouldPull hshould
    have hreads := hr.reads
    rw [hidle] at hreads
    exact inv_advance hreads hr.handled_le hr.account hopen hqueue (hr.unrejected hopen)
  · cases h

end

/-- A settled read the reader has not handled is the one its pull awaits. -/
theorem Inv.pulling_of_result (hr : r.Inv readable) {res : ReadResult Bytes JsError}
    (h : readable.results[r.handled]? = some res) :
    r.pulling = true ∧ readable.reads = r.handled + 1 ∧
      r.handled + 1 ≤ readable.results.length := by
  have hlt : r.handled < readable.results.length := (List.getElem?_eq_some_iff.mp h).1
  have hreads := hr.reads
  have hle : readable.results.length ≤ readable.reads := Nat.le_add_right ..
  cases hp : r.pulling with
  | true =>
      rw [hp] at hreads
      exact ⟨rfl, hreads, hlt⟩
  | false =>
      rw [hp] at hreads
      simp only [Bool.toNat_false, Nat.add_zero] at hreads
      omega

/-- A result that is still to be handled is one that a pull waits for. -/
theorem Inv.of_result (hr : r.Inv readable) {res : ReadResult Bytes JsError}
    (h : readable.results[r.handled]? = some res) :
    r.envelopes.canCloseOrEnqueue = true ∧ r.envelopes.queue = [] ∧
      firstEnvelope r.buffer = none := by
  obtain ⟨hpulling, -, -⟩ := hr.pulling_of_result h
  exact hr.pulling hpulling

theorem handledChunks_succ {res : ReadResult Bytes JsError}
    (h : readable.results[r.handled]? = some res) :
    (readable.results.take (r.handled + 1)).filterMap ReadableStream.chunk? =
      r.handledChunks readable ++ (ReadableStream.chunk? res).toList := by
  rw [handledChunks, List.take_add_one, h, List.filterMap_append]
  cases res <;> rfl

/-- The envelope stream ends: nothing was left to hand on. -/
theorem inv_ended (hr : r.Inv readable) {res : ReadResult Bytes JsError}
    (h : readable.results[r.handled]? = some res) (hres : ReadableStream.chunk? res = none)
    {envelopes : ReadableStream Envelope JsError}
    (hreceived : envelopes.received = r.envelopes.received)
    (hqueue : envelopes.queue = []) (hclosed : envelopes.canCloseOrEnqueue = false) :
    Inv { r with handled := r.handled + 1, pulling := false, envelopes } readable := by
  obtain ⟨hpulling, hreads, hle⟩ := hr.pulling_of_result h
  obtain ⟨-, hold, hfirst⟩ := hr.pulling hpulling
  refine ⟨hreads, hle, ?_, fun h => (by cases h), fun _ => ⟨rfl, hqueue, hfirst⟩, ?_⟩
  · intro more
    have hmore := hr.account more
    rw [hold] at hmore
    show completeEnvelopes (((readable.results.take (r.handled + 1)).filterMap
      ReadableStream.chunk?).flatten ++ more) = _
    rw [handledChunks_succ h, hres]
    simp only [Option.toList_none, List.append_nil, hreceived, hqueue]
    simpa using hmore
  · intro h
    rw [show envelopes.canCloseOrEnqueue = true from h] at hclosed
    cases hclosed

theorem Inv.settle [ConnectPackage] [ConnectPackage.Lawful] (hr : r.Inv readable)
    {p : EnvelopeReader × ReadableStream Bytes JsError}
    (h : r.settle readable = some p) : p.1.Inv p.2 := by
  unfold EnvelopeReader.settle at h
  split at h
  · cases h
  · rename_i c hc
    cases h
    obtain ⟨hpulling, hreads, hle⟩ := hr.pulling_of_result hc
    obtain ⟨hopen, hqueue, -⟩ := hr.pulling hpulling
    refine inv_advance hreads hle ?_ hopen hqueue (hr.unrejected hopen)
    intro more
    have hmore := hr.account (c ++ more)
    show completeEnvelopes (((readable.results.take (r.handled + 1)).filterMap
      ReadableStream.chunk?).flatten ++ more) =
        r.envelopes.received ++ r.envelopes.queue ++ completeEnvelopes (r.buffer ++ c ++ more)
    rw [handledChunks_succ hc]
    simpa using hmore
  · rename_i hdone
    cases h
    obtain ⟨hopen, hqueue, -⟩ := hr.of_result hdone
    cases ConnectPackage.atEnd r.buffer with
    | none =>
        obtain ⟨envelopes, hclose⟩ := ReadableStream.exists_close hopen
        obtain ⟨hrec, hq, -⟩ := ReadableStream.received_queue_close hclose
        simp only [hclose, Option.getD_some]
        exact inv_ended hr hdone rfl hrec (hq.trans hqueue)
          (ReadableStream.canCloseOrEnqueue_of_close hclose)
    | some e =>
        obtain ⟨hrec, hq, -⟩ := ReadableStream.received_error r.envelopes e
        exact inv_ended hr hdone rfl hrec hq
          (ReadableStream.canCloseOrEnqueue_of_hasEnded (ReadableStream.hasEnded_error _ _))
  · rename_i e he
    cases h
    obtain ⟨hrec, hq, -⟩ := ReadableStream.received_error r.envelopes (ConnectPackage.onError e)
    exact inv_ended hr he rfl hrec hq
      (ReadableStream.canCloseOrEnqueue_of_hasEnded (ReadableStream.hasEnded_error _ _))

/-- The consumer reading envelopes does not disturb the reader. -/
theorem Inv.read (hr : r.Inv readable) :
    Inv { r with envelopes := r.envelopes.read } readable where
  reads := hr.reads
  handled_le := hr.handled_le
  account := by
    intro more
    have hmoved := ReadableStream.received_queue_read r.envelopes
    show completeEnvelopes ((r.handledChunks readable).flatten ++ more) =
      r.envelopes.read.received ++ r.envelopes.read.queue ++ completeEnvelopes (r.buffer ++ more)
    rw [hmoved]
    exact hr.account more
  pulling := by
    intro h
    obtain ⟨hopen, hqueue, hfirst⟩ := hr.pulling h
    exact ⟨by simpa using hopen, ReadableStream.queue_read_of_nil hqueue, hfirst⟩
  ended := by
    intro h
    obtain ⟨hidle, hqueue, hfirst⟩ := hr.ended (by simpa using h)
    exact ⟨hidle, ReadableStream.queue_read_of_nil hqueue, hfirst⟩
  unrejected := by
    rintro h ⟨e, he⟩
    have hopen : r.envelopes.canCloseOrEnqueue = true := by simpa using h
    exact hr.unrejected hopen ⟨e, ReadableStream.rejected_read hopen he⟩

/-- Once the consumer has been given an error, it has been given every
    envelope of the chunks read from the readable. -/
theorem Inv.consumed_of_sawError (hr : r.Inv readable) (hsaw : r.SawError) :
    r.consumed = completeEnvelopes readable.received.flatten := by
  have hclosed : r.envelopes.canCloseOrEnqueue = false := by
    cases h : r.envelopes.canCloseOrEnqueue with
    | false => rfl
    | true => exact absurd hsaw (hr.unrejected h)
  obtain ⟨hidle, hqueue, hfirst⟩ := hr.ended hclosed
  have hreads := hr.reads
  rw [hidle] at hreads
  have hle : readable.results.length ≤ readable.reads := Nat.le_add_right ..
  have hall : readable.results.take r.handled = readable.results :=
    List.take_of_length_le (by simp at hreads; omega)
  have haccount := hr.account []
  rw [handledChunks, hall, hqueue, List.append_nil, List.append_nil, List.append_nil,
    completeEnvelopes_of_none hfirst, List.append_nil] at haccount
  exact haccount.symm

end EnvelopeReader
end Web
end BidiWeb
