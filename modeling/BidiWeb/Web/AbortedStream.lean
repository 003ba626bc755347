/-
  BidiWeb.Web.AbortedStream

  A stream that its own call has aborted.  `closeStream` closes the readable
  and leaves what waits in it to be read, so the envelope reader hands on
  every envelope that had been routed and then ends, without an error if the
  package has none for the bytes left over (`Stream.Aborted.result`).  And it
  does get there by its own steps (`Stream.Aborted.drains`).
-/

import BidiWeb.Web.ResponseDelivery

namespace BidiWeb
namespace Web

open BidiWeb.Lib
open BidiWeb.Core (JsError Code)

-- ============================================================================
-- No byte is lost between the two streams
-- ============================================================================

namespace EnvelopeReader

variable {connect : ConnectPackage} {r : EnvelopeReader}
  {readable readable' : ReadableStream Bytes JsError}

/-- The reader with a chunk it awaited. -/
def append (r : EnvelopeReader) (c : Bytes) : EnvelopeReader :=
  { r with buffer := r.buffer ++ c, handled := r.handled + 1 }

theorem settle_chunk {c : Bytes} (h : readable.results[r.handled]? = some (.chunk c)) :
    r.settle readable = some ((r.append c).advance readable) := by
  simp only [EnvelopeReader.settle, h]
  rfl

/-- The chunks handled are the envelopes handed on and what is in the buffer. -/
def Exact (r : EnvelopeReader) (readable : ReadableStream Bytes JsError) : Prop :=
  (r.handledChunks readable).flatten =
    encodeEnvelopes (r.envelopes.received ++ r.envelopes.queue) ++ r.buffer

theorem Exact.of_grows (he : r.Exact readable) (hr : r.Inv readable)
    (hgrows : readable.Grows readable') : r.Exact readable' := by
  unfold Exact
  rw [handledChunks_of_grown hr.handled_le hgrows.1]
  exact he

section

variable [ConnectPackage.Lawful]

theorem exact_advance (hle : r.handled ≤ readable.results.length) (he : r.Exact readable)
    (hopen : r.envelopes.canCloseOrEnqueue = true) :
    (r.advance readable).1.Exact (r.advance readable).2 := by
  unfold advance
  rw [ConnectPackage.split_eq]
  cases hfirst : firstEnvelope r.buffer with
  | some p =>
      obtain ⟨e, rest⟩ := p
      obtain ⟨envelopes, henq⟩ := ReadableStream.exists_enqueue hopen e
      obtain ⟨hmoved, -, -⟩ := ReadableStream.received_queue_enqueue henq
      obtain ⟨-, hbuffer⟩ := firstEnvelope_iff_encode.mp hfirst
      simp only [henq, Option.getD_some]
      show (r.handledChunks readable).flatten =
        encodeEnvelopes (envelopes.received ++ envelopes.queue) ++ rest
      rw [he, hmoved, hbuffer, encodeEnvelopes_append _ [e]]
      simp [encodeEnvelopes]
  | none =>
      have hpre := ReadableStream.results_prefix_read readable
      show (r.handledChunks readable.read).flatten = _
      rw [handledChunks_of_grown hle hpre]
      exact he

theorem Exact.pull (he : r.Exact readable) (hr : r.Inv readable)
    {p : EnvelopeReader × ReadableStream Bytes JsError} (h : r.pull readable = some p) :
    p.1.Exact p.2 := by
  unfold EnvelopeReader.pull at h
  split at h
  · rename_i hshould
    cases h
    obtain ⟨-, hopen, -⟩ := of_shouldPull hshould
    exact exact_advance hr.handled_le he hopen
  · cases h

end

/-- The end of the readable adds no bytes. -/
theorem Exact.ended (he : r.Exact readable) (hr : r.Inv readable) {res : ReadResult Bytes JsError}
    (h : readable.results[r.handled]? = some res) (hres : ReadableStream.chunk? res = none)
    {envelopes : ReadableStream Envelope JsError}
    (hreceived : envelopes.received = r.envelopes.received) (hqueue : envelopes.queue = []) :
    Exact { r with handled := r.handled + 1, pulling := false, envelopes } readable := by
  obtain ⟨-, hold, -⟩ := hr.of_result h
  show ((readable.results.take (r.handled + 1)).filterMap ReadableStream.chunk?).flatten =
    encodeEnvelopes (envelopes.received ++ envelopes.queue) ++ r.buffer
  rw [handledChunks_succ h, hres, hreceived, hqueue, ← hold, Option.toList_none, List.append_nil]
  exact he

theorem Exact.settle [ConnectPackage.Lawful] (he : r.Exact readable) (hr : r.Inv readable)
    {p : EnvelopeReader × ReadableStream Bytes JsError} (h : r.settle readable = some p) :
    p.1.Exact p.2 := by
  unfold EnvelopeReader.settle at h
  split at h
  · cases h
  · rename_i c hc
    cases h
    obtain ⟨hpulling, -, hle⟩ := hr.pulling_of_result hc
    obtain ⟨hopen, -, -⟩ := hr.pulling hpulling
    refine exact_advance hle ?_ hopen
    show ((readable.results.take (r.handled + 1)).filterMap ReadableStream.chunk?).flatten =
      encodeEnvelopes (r.envelopes.received ++ r.envelopes.queue) ++ (r.buffer ++ c)
    rw [handledChunks_succ hc, List.flatten_append, he]
    simp
  · rename_i hdone
    cases h
    obtain ⟨hopen, hqueue, -⟩ := hr.of_result hdone
    cases ConnectPackage.atEnd r.buffer with
    | none =>
        obtain ⟨envelopes, hclose⟩ := ReadableStream.exists_close hopen
        obtain ⟨hrec, hq, -⟩ := ReadableStream.received_queue_close hclose
        simp only [hclose, Option.getD_some]
        exact he.ended hr hdone rfl hrec (hq.trans hqueue)
    | some e =>
        obtain ⟨hrec, hq, -⟩ := ReadableStream.received_error r.envelopes e
        exact he.ended hr hdone rfl hrec hq
  · rename_i e hrejected
    cases h
    obtain ⟨hrec, hq, -⟩ := ReadableStream.received_error r.envelopes (ConnectPackage.onError e)
    exact he.ended hr hrejected rfl hrec hq

theorem Exact.read (he : r.Exact readable) :
    Exact { r with envelopes := r.envelopes.read } readable := by
  show (r.handledChunks readable).flatten =
    encodeEnvelopes (r.envelopes.read.received ++ r.envelopes.read.queue) ++ r.buffer
  rw [ReadableStream.received_queue_read]
  exact he

end EnvelopeReader

-- ============================================================================
-- One stream
-- ============================================================================

/-- What every stream keeps: both its readables hand on in order, no byte is
    lost between them, and the second is open as long as the first. -/
structure Stream.Tracked (s : Stream) : Prop where
  inv : s.Inv
  exact : s.response.Exact s.readable
  readable : s.readable.InOrder
  envelopes : s.response.envelopes.InOrder
  opened : s.readable.canCloseOrEnqueue = true →
    s.response.envelopes.canCloseOrEnqueue = true

namespace Stream

variable {connect : ConnectPackage} {s s' : Stream}

theorem tracked_new (k : Nat) : Tracked { socket := k } where
  inv := inv_new k
  exact := rfl
  readable := ReadableStream.inOrder_new
  envelopes := ReadableStream.inOrder_new
  opened := fun _ => rfl

theorem Tracked.fail (hs : s.Tracked) (cause : Cause) (reason : JsError) :
    (s.fail cause reason).Tracked where
  inv := hs.inv.fail cause reason
  exact := hs.exact.of_grows hs.inv.response (ReadableStream.received_error s.readable reason).2.2
  readable := hs.readable.error reason
  envelopes := hs.envelopes
  opened := by
    intro h
    have hended := ReadableStream.canCloseOrEnqueue_of_hasEnded
      (ReadableStream.hasEnded_error s.readable reason)
    rw [show (s.readable.error reason).canCloseOrEnqueue = true from h] at hended
    cases hended

theorem Tracked.route (hs : s.Tracked) (hreg : s.registered = true) (chunk : Bytes)
    (endStream : Bool) : (s.route chunk endStream).Tracked := by
  obtain ⟨hopen, -, -⟩ := hs.inv.registered hreg
  obtain ⟨readable, henq⟩ := ReadableStream.exists_enqueue hopen chunk
  have hreadable : (s.route chunk endStream).readable = readable := by simp [Stream.route, henq]
  obtain ⟨-, hgrows, -⟩ := ReadableStream.received_queue_enqueue henq
  refine ⟨hs.inv.route hreg chunk endStream, ?_, ?_, hs.envelopes, fun _ => hs.opened hopen⟩
  · rw [hreadable]
    exact hs.exact.of_grows hs.inv.response hgrows
  · rw [hreadable]
    exact hs.readable.enqueue henq

/-- `release` closes the readable of a registered stream. -/
theorem close_of_registered (hs : s.Inv) (hreg : s.registered = true) :
    ∃ readable, s.readable.close = some readable ∧ s.release.readable = readable := by
  obtain ⟨hopen, -, -⟩ := hs.registered hreg
  obtain ⟨readable, hclose⟩ := ReadableStream.exists_close hopen
  exact ⟨readable, hclose, by simp [Stream.release, hclose]⟩

theorem Tracked.release (hs : s.Tracked) (hreg : s.registered = true) : s.release.Tracked := by
  obtain ⟨readable, hclose, hreadable⟩ := close_of_registered hs.inv hreg
  obtain ⟨-, -, hgrows⟩ := ReadableStream.received_queue_close hclose
  refine ⟨hs.inv.release hreg, ?_, ?_, hs.envelopes, ?_⟩
  · rw [hreadable]
    exact hs.exact.of_grows hs.inv.response hgrows
  · rw [hreadable]
    exact hs.readable.close hclose
  · intro h
    rw [hreadable, ReadableStream.canCloseOrEnqueue_of_close hclose] at h
    cases h

/-- The envelope reader takes its turn. -/
theorem Tracked.ofReader (hs : s.Tracked) {p : EnvelopeReader × ReadableStream Bytes JsError}
    (hinv : p.1.Inv p.2) (hexact : p.1.Exact p.2)
    (hread : p.2 = s.readable ∨ p.2 = s.readable.read) (henvelopes : p.1.envelopes.InOrder)
    (hopened : s.readable.canCloseOrEnqueue = true → p.1.envelopes.canCloseOrEnqueue = true) :
    Tracked { s with response := p.1, readable := p.2 } := by
  refine ⟨hs.inv.ofReader hinv hread, hexact, ?_, henvelopes, ?_⟩
  · rcases hread with h | h
    · exact h ▸ hs.readable
    · exact h ▸ hs.readable.read
  · intro hopen
    apply hopened
    rcases hread with h | h
    · simpa only [h] using hopen
    · simpa only [h, ReadableStream.canCloseOrEnqueue_read] using hopen

/-- A pull that takes an envelope off the buffer enqueues it. -/
theorem envelopes_advance {r : EnvelopeReader} (readable : ReadableStream Bytes JsError)
    (hopen : r.envelopes.canCloseOrEnqueue = true) (horder : r.envelopes.InOrder) :
    (r.advance readable).1.envelopes.InOrder ∧
      (r.advance readable).1.envelopes.canCloseOrEnqueue = true := by
  unfold EnvelopeReader.advance
  split
  · rename_i e rest hfirst
    obtain ⟨envelopes, henq⟩ := ReadableStream.exists_enqueue hopen e
    simp only [henq, Option.getD_some]
    exact ⟨horder.enqueue henq, ReadableStream.canCloseOrEnqueue_of_enqueue henq⟩
  · exact ⟨horder, hopen⟩

section

variable [ConnectPackage.Lawful]

theorem Tracked.pull (hs : s.Tracked) {p : EnvelopeReader × ReadableStream Bytes JsError}
    (hp : s.response.pull s.readable = some p) :
    Tracked { s with response := p.1, readable := p.2 } := by
  have hboth : p.1.envelopes.InOrder ∧ p.1.envelopes.canCloseOrEnqueue = true := by
    have hpull := hp
    unfold EnvelopeReader.pull at hpull
    split at hpull
    · rename_i hshould
      cases hpull
      obtain ⟨-, hopen, -⟩ := EnvelopeReader.of_shouldPull hshould
      exact envelopes_advance s.readable hopen hs.envelopes
    · cases hpull
  exact hs.ofReader (hs.inv.response.pull hp) (hs.exact.pull hs.inv.response hp) (pull_readable hp)
    hboth.1 fun _ => hboth.2

theorem Tracked.settle (hs : s.Tracked) {p : EnvelopeReader × ReadableStream Bytes JsError}
    (hp : s.response.settle s.readable = some p) :
    Tracked { s with response := p.1, readable := p.2 } := by
  -- the reads of a readable that is still open have all given chunks
  have hchunk : ∀ {r}, s.readable.results[s.response.handled]? = some r →
      s.readable.canCloseOrEnqueue = true → ∃ c, r = .chunk c := by
    intro r hr hopen
    have hphase := ReadableStream.not_errored_of_canCloseOrEnqueue hopen
    rcases hs.readable.result hphase hr with ⟨c, rfl, -⟩ | ⟨-, hclosed, -⟩
    · exact ⟨c, rfl⟩
    · simp [ReadableStream.canCloseOrEnqueue, hclosed] at hopen
  apply hs.ofReader (hs.inv.response.settle hp) (hs.exact.settle hs.inv.response hp)
    (settle_readable hp)
  · unfold EnvelopeReader.settle at hp
    split at hp
    · cases hp
    · rename_i c hc
      cases hp
      obtain ⟨hopen, -, -⟩ := hs.inv.response.of_result hc
      exact (@envelopes_advance connect (s.response.append c) s.readable hopen hs.envelopes).1
    · cases hp
      cases ConnectPackage.atEnd s.response.buffer with
      | none =>
          cases hclose : s.response.envelopes.close with
          | none => exact hs.envelopes
          | some envelopes => exact hs.envelopes.close hclose
      | some e => exact hs.envelopes.error e
    · cases hp
      exact hs.envelopes.error _
  · intro hopen
    unfold EnvelopeReader.settle at hp
    split at hp
    · cases hp
    · rename_i c hc
      cases hp
      have hopen' : (s.response.append c).envelopes.canCloseOrEnqueue = true := hs.opened hopen
      exact (envelopes_advance s.readable hopen' hs.envelopes).2
    · rename_i hdone
      obtain ⟨c, hc⟩ := hchunk hdone hopen
      cases hc
    · rename_i e hrejected
      obtain ⟨c, hc⟩ := hchunk hrejected hopen
      cases hc

theorem Tracked.step {ends : Bool} (hs : s.Tracked) (hstep : StreamStep ends s s') :
    s'.Tracked := by
  cases hstep with
  | idle _ => exact hs
  | lost cause reason _ _ => exact hs.fail cause reason
  | reset k _ => exact hs.fail _ _
  | route chunk endStream hreg => exact hs.route hreg chunk endStream
  | release hreg => exact hs.release hreg
  | pull hp => exact hs.pull hp
  | settle hp => exact hs.settle hp
  | read =>
      exact ⟨hs.inv.read, hs.exact.read, hs.readable,
        hs.envelopes.read, fun hopen => by simpa using hs.opened hopen⟩

end

end Stream

-- ============================================================================
-- A stream closed by its own call
-- ============================================================================

/-- `closeStream` was called for the stream when the envelopes `es` had been
    routed to it, and behind them nothing that is an error of the envelope
    reader. -/
structure Stream.Aborted [ConnectPackage] (es : List Envelope) (s : Stream) : Prop where
  registered : s.registered = false
  closed : s.readable.canCloseOrEnqueue = false
  unerrored : ∀ e, s.readable.phase ≠ .errored e
  routed : completeEnvelopes (s.readable.received ++ s.readable.queue).flatten = es
  whole : ConnectPackage.atEnd (leftover (s.readable.received ++ s.readable.queue).flatten) = none
  intact : ∀ e, s.response.envelopes.phase ≠ .errored e
  complete : s.response.envelopes.canCloseOrEnqueue = false →
    s.response.envelopes.received = es

namespace Stream

variable {connect : ConnectPackage} {s s' : Stream} {es : List Envelope}

theorem Tracked.aborted (hs : s.Tracked) (hreg : s.registered = true)
    (hrouted : completeEnvelopes s.routed.flatten = es)
    (hwhole : ConnectPackage.atEnd (leftover s.routed.flatten) = none) :
    s.release.Aborted es := by
  obtain ⟨readable, hclose, hreadable⟩ := close_of_registered hs.inv hreg
  obtain ⟨hrec, hqueue, -⟩ := ReadableStream.received_queue_close hclose
  obtain ⟨hopen, -, hall⟩ := hs.inv.registered hreg
  have henvelopes := hs.opened hopen
  have hclosed := ReadableStream.canCloseOrEnqueue_of_close hclose
  refine ⟨rfl, by rw [hreadable, hclosed], ?_, ?_, ?_, ?_, ?_⟩
  · intro e herr
    rw [hreadable] at herr
    exact ReadableStream.phase_close hclose e herr
  · rw [hreadable, hrec, hqueue, hall]
    exact hrouted
  · rw [hreadable, hrec, hqueue, hall]
    exact hwhole
  · exact ReadableStream.not_errored_of_canCloseOrEnqueue henvelopes
  · intro hended
    rw [show s.response.envelopes.canCloseOrEnqueue = false from hended] at henvelopes
    cases henvelopes

/-- What has been handed on comes first among what was routed. -/
theorem Aborted.received_isFirst (ha : s.Aborted es) (hs : s.Tracked) :
    s.response.envelopes.received ++ s.response.envelopes.queue <+: es := by
  obtain ⟨more, hmore⟩ : ∃ more, (s.response.handledChunks s.readable).flatten ++ more =
      (s.readable.received ++ s.readable.queue).flatten := by
    refine ⟨((s.readable.results.drop s.response.handled).filterMap ReadableStream.chunk? ++
      s.readable.queue).flatten, ?_⟩
    rw [EnvelopeReader.handledChunks, ← List.flatten_append, ← List.append_assoc,
      ← List.filterMap_append, List.take_append_drop]
    rfl
  have haccount := hs.inv.response.account more
  rw [hmore, ha.routed] at haccount
  exact ⟨_, haccount.symm⟩

/-- A read of an aborted stream gives the next envelope, or the end behind
    the last. -/
theorem Aborted.result (ha : s.Aborted es) (hs : s.Tracked) {n : Nat}
    {r : ReadResult Envelope JsError} (hr : s.response.envelopes.results[n]? = some r) :
    (∃ env, r = .chunk env ∧ es[n]? = some env) ∨ r = .done ∧ es.length ≤ n := by
  rcases hs.envelopes.result ha.intact hr with ⟨env, rfl, henv⟩ | ⟨rfl, hclosed, hle⟩
  · left
    refine ⟨env, rfl, ?_⟩
    obtain ⟨more, hmore⟩ := ha.received_isFirst hs
    rw [← hmore, List.append_assoc]
    have hlt := (List.getElem?_eq_some_iff.mp henv).1
    rw [List.getElem?_append_left hlt]
    exact henv
  · right
    have hcomplete := ha.complete (by simp [ReadableStream.canCloseOrEnqueue, hclosed])
    rw [hcomplete] at hle
    exact ⟨rfl, hle⟩

/-- The envelope reader takes its turn on an aborted stream. -/
theorem Aborted.ofReader (ha : s.Aborted es) {p : EnvelopeReader × ReadableStream Bytes JsError}
    (hread : p.2 = s.readable ∨ p.2 = s.readable.read)
    (hintact : ∀ e, p.1.envelopes.phase ≠ .errored e)
    (hcomplete : p.1.envelopes.canCloseOrEnqueue = false → p.1.envelopes.received = es) :
    Aborted es { s with response := p.1, readable := p.2 } := by
  obtain ⟨response, readable⟩ := p
  rcases hread with rfl | rfl
  · exact ⟨ha.registered, ha.closed, ha.unerrored, ha.routed, ha.whole, hintact, hcomplete⟩
  · refine ⟨ha.registered, ?_, ?_, ?_, ?_, hintact, hcomplete⟩
    · simpa using ha.closed
    · intro e herr
      exact ha.unerrored e (ReadableStream.phase_read herr)
    · rw [ReadableStream.received_queue_read]
      exact ha.routed
    · rw [ReadableStream.received_queue_read]
      exact ha.whole

theorem Aborted.pull [ConnectPackage.Lawful] (ha : s.Aborted es) (hs : s.Tracked)
    {p : EnvelopeReader × ReadableStream Bytes JsError}
    (hp : s.response.pull s.readable = some p) :
    Aborted es { s with response := p.1, readable := p.2 } := by
  have hopen : p.1.envelopes.canCloseOrEnqueue = true := by
    have hpull := hp
    unfold EnvelopeReader.pull at hpull
    split at hpull
    · rename_i hshould
      cases hpull
      obtain ⟨-, hopen, -⟩ := EnvelopeReader.of_shouldPull hshould
      exact (envelopes_advance s.readable hopen hs.envelopes).2
    · cases hpull
  apply ha.ofReader (pull_readable hp) (ReadableStream.not_errored_of_canCloseOrEnqueue hopen)
  intro hended
  rw [hopen] at hended
  cases hended

/-- At the end of the readable of an aborted stream the reader has handed on
    all envelopes, and it has no error to make of the bytes it is left with. -/
theorem Aborted.at_end (ha : s.Aborted es) (hs : s.Tracked)
    (hdone : s.readable.results[s.response.handled]? = some .done) :
    s.response.envelopes.received = es ∧ ConnectPackage.atEnd s.response.buffer = none := by
  obtain ⟨-, hqueue, hfirst⟩ := hs.inv.response.of_result hdone
  -- the reads up to this one gave everything that was routed
  have hall : s.response.handledChunks s.readable = s.readable.received ++ s.readable.queue := by
    rcases hs.readable.result ha.unerrored hdone with ⟨c, hc, -⟩ | ⟨-, hclosed, hle⟩
    · cases hc
    · obtain ⟨d, hd⟩ : ∃ d, s.readable.results =
          s.readable.received.map .chunk ++ List.replicate d .done := by
        have horder := hs.readable
        unfold ReadableStream.InOrder at horder
        rw [hclosed] at horder
        exact horder
      have hnone : s.readable.queue = [] := by simp [ReadableStream.queue, hclosed]
      rw [hnone, List.append_nil, EnvelopeReader.handledChunks]
      have hdrop : (s.readable.results.drop s.response.handled).filterMap
          ReadableStream.chunk? = [] := by
        apply List.filterMap_eq_nil_iff.mpr
        intro r hr
        rw [hd, List.drop_append, List.drop_eq_nil_of_le (by simpa using hle),
          List.nil_append] at hr
        rw [List.eq_of_mem_replicate (List.mem_of_mem_drop hr)]
        rfl
      have hsplit : s.readable.received =
          (s.readable.results.take s.response.handled).filterMap ReadableStream.chunk? ++
            (s.readable.results.drop s.response.handled).filterMap ReadableStream.chunk? := by
        rw [← List.filterMap_append, List.take_append_drop]
        rfl
      rw [hsplit, hdrop, List.append_nil]
  have haccount := hs.inv.response.account []
  simp only [List.append_nil] at haccount
  rw [hall, ha.routed, hqueue, completeEnvelopes_of_none hfirst, List.append_nil,
    List.append_nil] at haccount
  refine ⟨haccount.symm, ?_⟩
  have hbuffer : leftover (s.readable.received ++ s.readable.queue).flatten =
      s.response.buffer := by
    have hexact := hs.exact
    unfold EnvelopeReader.Exact at hexact
    rw [hall, hqueue, List.append_nil, ← haccount, ← ha.routed] at hexact
    exact List.append_cancel_left ((eq_encode_leftover _).symm.trans hexact)
  rw [← hbuffer]
  exact ha.whole

theorem Aborted.settle [ConnectPackage.Lawful] (ha : s.Aborted es) (hs : s.Tracked)
    {p : EnvelopeReader × ReadableStream Bytes JsError}
    (hp : s.response.settle s.readable = some p) :
    Aborted es { s with response := p.1, readable := p.2 } := by
  have hread := settle_readable hp
  unfold EnvelopeReader.settle at hp
  split at hp
  · cases hp
  · rename_i c hc
    cases hp
    obtain ⟨hopen, -, -⟩ := hs.inv.response.of_result hc
    have hopen' := (@envelopes_advance connect (s.response.append c) s.readable hopen
      hs.envelopes).2
    apply ha.ofReader hread (ReadableStream.not_errored_of_canCloseOrEnqueue hopen')
    intro hended
    have hboth := hopen'.symm.trans hended
    cases hboth
  · rename_i hdone
    cases hp
    obtain ⟨hreceived, hbuffer⟩ := ha.at_end hs hdone
    obtain ⟨hopen, -, -⟩ := hs.inv.response.of_result hdone
    obtain ⟨envelopes, hclose⟩ := ReadableStream.exists_close hopen
    obtain ⟨hrec, -, -⟩ := ReadableStream.received_queue_close hclose
    simp only [hbuffer, hclose, Option.getD_some]
    exact @Aborted.ofReader _ _ _ ha (_, s.readable) (Or.inl rfl)
      (ReadableStream.phase_close hclose) fun _ => hrec.trans hreceived
  · rename_i e hrejected
    rcases hs.readable.result ha.unerrored hrejected with ⟨c, hc, -⟩ | ⟨hc, -, -⟩ <;> cases hc

theorem Aborted.read (ha : s.Aborted es) (hs : s.Tracked) :
    Aborted es
      { s with response := { s.response with envelopes := s.response.envelopes.read } } := by
  refine ⟨ha.registered, ha.closed, ha.unerrored, ha.routed, ha.whole, ?_, ?_⟩
  · intro e herr
    exact ha.intact e (ReadableStream.phase_read herr)
  · intro hended
    have hended' : s.response.envelopes.canCloseOrEnqueue = false := by simpa using hended
    obtain ⟨-, hqueue, -⟩ := hs.inv.response.ended hended'
    have hmoved := ReadableStream.received_queue_read s.response.envelopes
    rw [hqueue, ReadableStream.queue_read_of_nil hqueue, List.append_nil, List.append_nil] at hmoved
    exact hmoved.trans (ha.complete hended')

theorem Aborted.step [ConnectPackage.Lawful] {ends : Bool} (ha : s.Aborted es) (hs : s.Tracked)
    (hstep : StreamStep ends s s') : s'.Aborted es := by
  have hgone : s.registered = true → False := by
    intro hreg
    rw [ha.registered] at hreg
    cases hreg
  cases hstep with
  | idle _ => exact ha
  | lost cause reason hreg _ => exact (hgone hreg).elim
  | reset k hreg => exact (hgone hreg).elim
  | route chunk endStream hreg => exact (hgone hreg).elim
  | release hreg => exact (hgone hreg).elim
  | pull hp => exact ha.pull hs hp
  | settle hp => exact ha.settle hs hp
  | read => exact ha.read hs

end Stream

-- ============================================================================
-- The reader gets to what was routed
-- ============================================================================

/-- A turn of the envelope reader of a stream, or of the one who reads it. -/
inductive ReaderTurn where
  | pull
  | settle
  | read
deriving DecidableEq, Repr

def ReaderTurn.event (h : Nat) : ReaderTurn → MuxEvent
  | .pull => .pull h
  | .settle => .settle h
  | .read => .read h

namespace Stream

section

variable [ConnectPackage]

def turn (s : Stream) : ReaderTurn → Option Stream
  | .pull => (s.response.pull s.readable).map fun p => { s with response := p.1, readable := p.2 }
  | .settle =>
      (s.response.settle s.readable).map fun p => { s with response := p.1, readable := p.2 }
  | .read =>
      some { s with response := { s.response with envelopes := s.response.envelopes.read } }

/-- The reader of a stream, with no one else moving. -/
def reader : Machine Stream ReaderTurn where
  init := { socket := 0 }
  step s t := s.turn t

end

variable {connect : ConnectPackage} {s s' : Stream} {es : List Envelope}

theorem streamStep_of_turn {turn : ReaderTurn} (h : s.turn turn = some s') :
    StreamStep false s s' := by
  cases turn with
  | pull =>
      obtain ⟨p, hp, rfl⟩ := Option.map_eq_some_iff.mp h
      exact .pull hp
  | settle =>
      obtain ⟨p, hp, rfl⟩ := Option.map_eq_some_iff.mp h
      exact .settle hp
  | read =>
      cases h
      exact .read

/-- A turn of the reader as a step of the mux. -/
theorem step_of_turn {m : WebSocketMux} {h : Nat} {turn : ReaderTurn}
    (hs : m.streams[h]? = some s) (hturn : s.turn turn = some s') :
    m.step (turn.event h) = some (m.setStream h s') := by
  cases turn with
  | pull =>
      obtain ⟨p, hp, rfl⟩ := Option.map_eq_some_iff.mp hturn
      simp [ReaderTurn.event, WebSocketMux.step, WebSocketMux.onStream, hs, hp]
  | settle =>
      obtain ⟨p, hp, rfl⟩ := Option.map_eq_some_iff.mp hturn
      simp [ReaderTurn.event, WebSocketMux.step, WebSocketMux.onStream, hs, hp]
  | read =>
      cases hturn
      simp [ReaderTurn.event, WebSocketMux.step, WebSocketMux.onStream, hs]

/-- The consumer has been given a result. -/
def Answered (s : Stream) : Prop := s.response.envelopes.results ≠ []

/-- The stream gets to a result by turns of its reader. -/
def Drains [ConnectPackage] (s : Stream) : Prop :=
  ∃ turns s', reader.exec s turns = some s' ∧ s'.Answered

theorem Drains.of_turn {turn : ReaderTurn} (hturn : s.turn turn = some s') (hs' : s'.Drains) :
    s.Drains := by
  obtain ⟨turns, s'', hexec, hanswered⟩ := hs'
  exact ⟨turn :: turns, s'', (Machine.exec_cons _).mpr ⟨s', hturn, hexec⟩, hanswered⟩

/-- A pull with a read waiting for it gives an envelope or reads on. -/
theorem advance_waiting {r : EnvelopeReader} (readable : ReadableStream Bytes JsError) {n : Nat}
    (hphase : r.envelopes.phase = .waiting (n + 1)) :
    (r.advance readable).1.envelopes.results ≠ [] ∨
      (r.advance readable).1 = { r with pulling := true } ∧
        (r.advance readable).2 = readable.read := by
  unfold EnvelopeReader.advance
  split
  · left
    simp [ReadableStream.enqueue, hphase]
  · exact Or.inr ⟨rfl, rfl⟩

/-- The chunks that the reader has still to handle. -/
def unhandled (s : Stream) : Nat :=
  (s.readable.received ++ s.readable.queue).length -
    (s.response.handledChunks s.readable).length

theorem handledChunks_le (r : EnvelopeReader) (readable : ReadableStream Bytes JsError) :
    (r.handledChunks readable).length ≤ readable.received.length := by
  obtain ⟨more, hmore⟩ : ∃ more, r.handledChunks readable ++ more = readable.received := by
    refine ⟨(readable.results.drop r.handled).filterMap ReadableStream.chunk?, ?_⟩
    rw [EnvelopeReader.handledChunks, ← List.filterMap_append, List.take_append_drop]
    rfl
  rw [← hmore, List.length_append]
  omega

section

variable [ConnectPackage.Lawful]

theorem Aborted.drains_of_pulling (hne : es ≠ []) {n : Nat} :
    ∀ {s : Stream}, s.Aborted es → s.Tracked →
      s.response.envelopes.phase = .waiting (n + 1) → s.response.pulling = true → s.Drains := by
  intro s
  induction hk : s.unhandled using Nat.strongRecOn generalizing s with
  | _ k ih =>
  intro ha hs hphase hpulling
  -- the readable has closed, so the read that the pull awaits has settled
  obtain ⟨r, hr⟩ : ∃ r, s.readable.results[s.response.handled]? = some r := by
    have hreads := hs.inv.response.reads
    have hnone : s.readable.requests = 0 := by
      have hclosed := ha.closed
      unfold ReadableStream.canCloseOrEnqueue at hclosed
      unfold ReadableStream.requests
      split at hclosed <;> simp_all
    rw [hpulling, Bool.toNat_true, ReadableStream.reads, hnone] at hreads
    exact ⟨_, List.getElem?_eq_getElem (by omega)⟩
  rcases hs.readable.result ha.unerrored hr with ⟨c, rfl, -⟩ | ⟨rfl, -, -⟩
  · have hturn : s.turn .settle = some { s with
        response := ((s.response.append c).advance s.readable).1
        readable := ((s.response.append c).advance s.readable).2 } := by
      simp only [turn, EnvelopeReader.settle_chunk hr, Option.map_some]
    apply Drains.of_turn hturn
    have hstep := streamStep_of_turn hturn
    rcases advance_waiting (r := s.response.append c) s.readable hphase with
      hanswered | ⟨hresponse, hreadable⟩
    · exact ⟨[], _, rfl, hanswered⟩
    · rw [hresponse, hreadable] at hstep ⊢
      apply ih _ _ rfl (ha.step hs hstep) (hs.step hstep) hphase rfl
      -- one more chunk has been handled
      have hhandled : ((s.response.append c).handledChunks s.readable.read).length =
          (s.response.handledChunks s.readable).length + 1 := by
        have hle := (hs.inv.response.pulling_of_result hr).2.2
        have hpre := ReadableStream.results_prefix_read s.readable
        rw [EnvelopeReader.handledChunks_of_grown (r := s.response.append c) hle hpre]
        show ((s.readable.results.take (s.response.handled + 1)).filterMap
          ReadableStream.chunk?).length = _
        rw [EnvelopeReader.handledChunks_succ hr]
        simp
      have hbound := handledChunks_le (s.response.append c) s.readable.read
      have hmoved := ReadableStream.received_queue_read s.readable
      have htotal := congrArg List.length hmoved
      rw [List.length_append, List.length_append] at htotal
      rw [← hk]
      show (s.readable.read.received ++ s.readable.read.queue).length -
        ((s.response.append c).handledChunks s.readable.read).length < s.unhandled
      rw [hmoved, hhandled, unhandled, List.length_append]
      omega
  · obtain ⟨hreceived, -⟩ := ha.at_end hs hr
    refine ⟨[], s, rfl, ?_⟩
    intro hnil
    apply hne
    rw [← hreceived, ReadableStream.received, hnil]
    rfl

theorem Aborted.drains_of_waiting (ha : s.Aborted es) (hs : s.Tracked) (hne : es ≠ []) {n : Nat}
    (hphase : s.response.envelopes.phase = .waiting (n + 1)) : s.Drains := by
  cases hpulling : s.response.pulling with
  | true => exact Aborted.drains_of_pulling hne ha hs hphase hpulling
  | false =>
      have hshould : s.response.shouldPull = true :=
        EnvelopeReader.shouldPull_of_idle hpulling
          (by simp [ReadableStream.canCloseOrEnqueue, hphase])
          (by simp [ReadableStream.queue, hphase])
      have hturn : s.turn .pull = some { s with
          response := (s.response.advance s.readable).1
          readable := (s.response.advance s.readable).2 } := by
        simp [turn, EnvelopeReader.pull, hshould]
      apply Drains.of_turn hturn
      have hstep := streamStep_of_turn hturn
      rcases advance_waiting s.readable hphase with hanswered | ⟨hresponse, hreadable⟩
      · exact ⟨[], _, rfl, hanswered⟩
      · rw [hresponse, hreadable] at hstep ⊢
        exact Aborted.drains_of_pulling hne (ha.step hs hstep) (hs.step hstep) hphase rfl

/-- An aborted stream that was routed an envelope gives its consumer a result. -/
theorem Aborted.drains (ha : s.Aborted es) (hs : s.Tracked) (hne : es ≠ []) : s.Drains := by
  have hturn : s.turn .read = some { s with
      response := { s.response with envelopes := s.response.envelopes.read } } := rfl
  have hstep := streamStep_of_turn hturn
  apply Drains.of_turn hturn
  cases hphase : s.response.envelopes.phase with
  | waiting n =>
      have hwaiting : s.response.envelopes.read.phase = .waiting (n + 1) := by
        simp [ReadableStream.read, hphase]
      exact (ha.step hs hstep).drains_of_waiting (hs.step hstep) hne hwaiting
  | buffered x xs =>
      refine ⟨[], _, rfl, ?_⟩
      cases xs <;> simp [Answered, ReadableStream.read, hphase]
  | closing x xs =>
      refine ⟨[], _, rfl, ?_⟩
      cases xs <;> simp [Answered, ReadableStream.read, hphase]
  | closed =>
      refine ⟨[], _, rfl, ?_⟩
      simp [Answered, ReadableStream.read, hphase]
  | errored e => exact absurd hphase (ha.intact e)

end

end Stream

end Web
end BidiWeb
