/-
  BidiWeb.Lib.ReadableStream

  A readable stream of the Streams standard with a default controller and
  one default reader, as far as its producer and its consumer can tell.

  The standard keeps `[[state]]`, `[[closeRequested]]`, `[[queue]]` and the
  reader's `[[readRequests]]` as four independent slots of which few
  combinations occur; `Phase` has one constructor for each that does:

    * `waiting n`      -- readable, queue empty, `n` read requests pending
    * `buffered h t`   -- readable, chunks `h :: t` queued
    * `closing h t`    -- close requested, chunks `h :: t` still queued
    * `closed`, `errored e`

  `enqueue` and `close` return `none` where the controller throws a
  `TypeError`; `error` discards the chunks still queued.
-/

namespace BidiWeb
namespace Lib

/-- What a settled `read()` promise carries. -/
inductive ReadResult (α ε : Type) where
  | chunk (c : α)
  | done
  | rejected (e : ε)
deriving DecidableEq, Repr

/-- The slots of a readable stream and its reader that occur together. -/
inductive Phase (α ε : Type) where
  | waiting (requests : Nat)
  | buffered (head : α) (tail : List α)
  | closing (head : α) (tail : List α)
  | closed
  | errored (e : ε)
deriving DecidableEq, Repr

/-- A stream: its phase, and the `read()` promises settled so far, oldest
    first. -/
structure ReadableStream (α ε : Type) where
  phase : Phase α ε := .waiting 0
  results : List (ReadResult α ε) := []
deriving DecidableEq, Repr

namespace ReadableStream

variable {α ε : Type}

-- ============================================================================
-- Views
-- ============================================================================

/-- The chunks queued and not yet read. -/
def queue (s : ReadableStream α ε) : List α :=
  match s.phase with
  | .buffered h t | .closing h t => h :: t
  | .waiting _ | .closed | .errored _ => []

/-- `ReadableStreamDefaultControllerCanCloseOrEnqueue`. -/
def canCloseOrEnqueue (s : ReadableStream α ε) : Bool :=
  match s.phase with
  | .waiting _ | .buffered .. => true
  | .closing .. | .closed | .errored _ => false

/-- `[[state]]` is "closed" or "errored". -/
def hasEnded (s : ReadableStream α ε) : Bool :=
  match s.phase with
  | .closed | .errored _ => true
  | .waiting _ | .buffered .. | .closing .. => false

/-- The chunk a settled read carries, if it carries one. -/
def chunk? : ReadResult α ε → Option α
  | .chunk c => some c
  | .done | .rejected _ => none

/-- The chunks the consumer has been given, oldest first. -/
def received (s : ReadableStream α ε) : List α := s.results.filterMap chunk?

/-- Read requests pending. -/
def requests (s : ReadableStream α ε) : Nat :=
  match s.phase with
  | .waiting n => n
  | .buffered .. | .closing .. | .closed | .errored _ => 0

/-- How often `read()` has been called. -/
def reads (s : ReadableStream α ε) : Nat := s.results.length + s.requests

-- ============================================================================
-- The controller's operations
-- ============================================================================

/-- `controller.enqueue(c)`: a pending read request takes the chunk directly,
    otherwise it is queued. -/
def enqueue (s : ReadableStream α ε) (c : α) : Option (ReadableStream α ε) :=
  match s.phase with
  | .waiting 0 => some { s with phase := .buffered c [] }
  | .waiting (n + 1) => some { phase := .waiting n, results := s.results ++ [.chunk c] }
  | .buffered h t => some { s with phase := .buffered h (t ++ [c]) }
  | .closing .. | .closed | .errored _ => none

/-- `controller.close()`: pending reads end; queued chunks can still be read. -/
def close (s : ReadableStream α ε) : Option (ReadableStream α ε) :=
  match s.phase with
  | .waiting n => some { phase := .closed, results := s.results ++ List.replicate n .done }
  | .buffered h t => some { s with phase := .closing h t }
  | .closing .. | .closed | .errored _ => none

/-- `controller.error(e)`: never throws, does nothing once the stream has
    closed or errored, and otherwise rejects the pending reads and discards
    the queue. -/
def error (s : ReadableStream α ε) (e : ε) : ReadableStream α ε :=
  match s.phase with
  | .waiting n =>
      { phase := .errored e, results := s.results ++ List.replicate n (.rejected e) }
  | .buffered .. | .closing .. => { s with phase := .errored e }
  | .closed | .errored _ => s

-- ============================================================================
-- The consumer's operations
-- ============================================================================

/-- `reader.cancel()`: the stream after it, and whether the underlying source's
    cancel algorithm runs (only while the stream is neither closed nor
    errored). -/
def cancel (s : ReadableStream α ε) : ReadableStream α ε × Bool :=
  match s.phase with
  | .waiting n =>
      ({ phase := .closed, results := s.results ++ List.replicate n .done }, true)
  | .buffered .. | .closing .. => ({ s with phase := .closed }, true)
  | .closed | .errored _ => (s, false)

/-- `reader.read()`: takes the oldest queued chunk, or settles at once on a
    closed or errored stream, or leaves a read request pending. -/
def read (s : ReadableStream α ε) : ReadableStream α ε :=
  match s.phase with
  | .waiting n => { s with phase := .waiting (n + 1) }
  | .buffered h [] => { phase := .waiting 0, results := s.results ++ [.chunk h] }
  | .buffered h (x :: xs) => { phase := .buffered x xs, results := s.results ++ [.chunk h] }
  | .closing h [] => { phase := .closed, results := s.results ++ [.chunk h] }
  | .closing h (x :: xs) => { phase := .closing x xs, results := s.results ++ [.chunk h] }
  | .closed => { s with results := s.results ++ [.done] }
  | .errored e => { s with results := s.results ++ [.rejected e] }

-- ============================================================================
-- When the operations throw, and what they leave
-- ============================================================================

theorem enqueue_eq_none {s : ReadableStream α ε} {c : α} :
    s.enqueue c = none ↔ s.canCloseOrEnqueue = false := by
  obtain ⟨phase, results⟩ := s
  cases phase with
  | waiting n => cases n <;> simp [enqueue, canCloseOrEnqueue]
  | buffered h t => simp [enqueue, canCloseOrEnqueue]
  | closing h t => simp [enqueue, canCloseOrEnqueue]
  | closed => simp [enqueue, canCloseOrEnqueue]
  | errored e => simp [enqueue, canCloseOrEnqueue]

theorem close_eq_none {s : ReadableStream α ε} :
    s.close = none ↔ s.canCloseOrEnqueue = false := by
  obtain ⟨phase, results⟩ := s
  cases phase <;> simp [close, canCloseOrEnqueue]

/-- A stream that is open takes another chunk, or closes. -/
theorem exists_enqueue {s : ReadableStream α ε} (h : s.canCloseOrEnqueue = true) (c : α) :
    ∃ s', s.enqueue c = some s' := by
  apply Option.ne_none_iff_exists'.mp
  simp [enqueue_eq_none, h]

theorem exists_close {s : ReadableStream α ε} (h : s.canCloseOrEnqueue = true) :
    ∃ s', s.close = some s' := by
  apply Option.ne_none_iff_exists'.mp
  simp [close_eq_none, h]

/-- A stream that took a chunk takes the next one too. -/
theorem canCloseOrEnqueue_of_enqueue {s s' : ReadableStream α ε} {c : α}
    (h : s.enqueue c = some s') : s'.canCloseOrEnqueue = true := by
  obtain ⟨phase, results⟩ := s
  cases phase with
  | waiting n =>
      cases n <;>
        · simp only [enqueue, Option.some.injEq] at h
          subst h
          rfl
  | buffered h' t =>
      simp only [enqueue, Option.some.injEq] at h
      subst h
      rfl
  | closing h' t => simp [enqueue] at h
  | closed => simp [enqueue] at h
  | errored e => simp [enqueue] at h

/-- A stream with a read request pending has nothing queued. -/
theorem queue_of_requests {s : ReadableStream α ε} (h : 0 < s.requests) : s.queue = [] := by
  obtain ⟨phase, results⟩ := s
  cases phase with
  | waiting n => rfl
  | buffered h' t => cases h
  | closing h' t => cases h
  | closed => cases h
  | errored e => cases h

theorem canCloseOrEnqueue_of_hasEnded {s : ReadableStream α ε} (h : s.hasEnded = true) :
    s.canCloseOrEnqueue = false := by
  obtain ⟨phase, results⟩ := s
  cases phase <;> simp_all [hasEnded, canCloseOrEnqueue]

@[simp] theorem hasEnded_error (s : ReadableStream α ε) (e : ε) :
    (s.error e).hasEnded = true := by
  obtain ⟨phase, results⟩ := s
  cases phase <;> rfl

@[simp] theorem hasEnded_cancel (s : ReadableStream α ε) : s.cancel.1.hasEnded = true := by
  obtain ⟨phase, results⟩ := s
  cases phase <;> rfl

/-- An error that meets an open stream is the one it ends with. -/
theorem phase_error {s : ReadableStream α ε} (h : s.canCloseOrEnqueue = true) (e : ε) :
    ∃ e', (s.error e).phase = .errored e' := by
  obtain ⟨phase, results⟩ := s
  cases phase with
  | waiting n => exact ⟨e, rfl⟩
  | buffered h' t => exact ⟨e, rfl⟩
  | closing h' t => cases h
  | closed => cases h
  | errored e' => cases h

theorem enqueue_of_errored {s : ReadableStream α ε} {e : ε} (h : s.phase = .errored e) (c : α) :
    s.enqueue c = none := by
  simp [enqueue, h]

theorem phase_read_of_errored {s : ReadableStream α ε} {e : ε} (h : s.phase = .errored e) :
    s.read.phase = .errored e := by
  simp [read, h]

theorem not_errored_of_canCloseOrEnqueue {s : ReadableStream α ε}
    (h : s.canCloseOrEnqueue = true) (e : ε) : s.phase ≠ .errored e := by
  intro herr
  simp [canCloseOrEnqueue, herr] at h

/-- Reading does not error a stream. -/
theorem phase_read {s : ReadableStream α ε} {e : ε} (h : s.read.phase = .errored e) :
    s.phase = .errored e := by
  obtain ⟨phase, results⟩ := s
  cases phase with
  | buffered h' t => cases t <;> cases h
  | closing h' t => cases t <;> cases h
  | waiting n => cases h
  | closed => cases h
  | errored e' => exact h

theorem error_of_hasEnded {s : ReadableStream α ε} (h : s.hasEnded = true) (e : ε) :
    s.error e = s := by
  obtain ⟨phase, results⟩ := s
  cases phase <;> simp_all [hasEnded, error]

theorem cancel_of_hasEnded {s : ReadableStream α ε} (h : s.hasEnded = true) :
    s.cancel = (s, false) := by
  obtain ⟨phase, results⟩ := s
  cases phase <;> simp_all [hasEnded, cancel]

/-- The cancel algorithm runs exactly while the stream has not ended. -/
theorem cancel_snd (s : ReadableStream α ε) : s.cancel.2 = !s.hasEnded := by
  obtain ⟨phase, results⟩ := s
  cases phase <;> rfl

theorem hasEnded_read_of_hasEnded {s : ReadableStream α ε} (h : s.hasEnded = true) :
    s.read.hasEnded = true := by
  obtain ⟨phase, results⟩ := s
  cases phase <;> simp_all [hasEnded, read]

theorem cancel_snd_of_canCloseOrEnqueue {s : ReadableStream α ε}
    (h : s.canCloseOrEnqueue = true) : s.cancel.2 = true := by
  obtain ⟨phase, results⟩ := s
  cases phase <;> simp_all [canCloseOrEnqueue, cancel]

@[simp] theorem canCloseOrEnqueue_read (s : ReadableStream α ε) :
    s.read.canCloseOrEnqueue = s.canCloseOrEnqueue := by
  obtain ⟨phase, results⟩ := s
  cases phase with
  | waiting n => rfl
  | buffered h t => cases t <;> rfl
  | closing h t => cases t <;> rfl
  | closed => rfl
  | errored e => rfl

-- ============================================================================
-- What passes through
-- ============================================================================

@[simp] theorem chunk?_chunk (c : α) : chunk? (.chunk c : ReadResult α ε) = some c := rfl

@[simp] theorem chunk?_done : chunk? (.done : ReadResult α ε) = none := rfl

@[simp] theorem chunk?_rejected (e : ε) : chunk? (.rejected e : ReadResult α ε) = none := rfl

/-- What the producer does adds to the results and calls no `read`. -/
def Grows (s s' : ReadableStream α ε) : Prop := s.results <+: s'.results ∧ s'.reads = s.reads

/-- A chunk enters behind everything read or queued before it. -/
theorem received_queue_enqueue {s s' : ReadableStream α ε} {c : α} (h : s.enqueue c = some s') :
    s'.received ++ s'.queue = s.received ++ s.queue ++ [c] ∧ Grows s s' ∧
      ∀ e, .rejected e ∈ s'.results → .rejected e ∈ s.results := by
  obtain ⟨phase, results⟩ := s
  cases phase with
  | waiting n =>
      cases n with
      | zero =>
          simp only [enqueue, Option.some.injEq] at h
          subst h
          simp [received, queue, Grows, reads, requests]
      | succ n =>
          simp only [enqueue, Option.some.injEq] at h
          subst h
          refine ⟨by simp [received, queue], ⟨List.prefix_append .., ?_⟩, by simp⟩
          simp only [reads, requests, List.length_append, List.length_singleton]
          omega
  | buffered h' t =>
      simp only [enqueue, Option.some.injEq] at h
      subst h
      simp [received, queue, Grows, reads, requests]
  | closing h' t => simp [enqueue] at h
  | closed => simp [enqueue] at h
  | errored e => simp [enqueue] at h

/-- Closing lets the queue drain. -/
theorem received_queue_close {s s' : ReadableStream α ε} (h : s.close = some s') :
    s'.received = s.received ∧ s'.queue = s.queue ∧ Grows s s' := by
  obtain ⟨phase, results⟩ := s
  cases phase with
  | waiting n =>
      simp only [close, Option.some.injEq] at h
      subst h
      simp [received, queue, Grows, reads, requests]
  | buffered h' t =>
      simp only [close, Option.some.injEq] at h
      subst h
      exact ⟨rfl, rfl, List.prefix_rfl, rfl⟩
  | closing h' t => simp [close] at h
  | closed => simp [close] at h
  | errored e => simp [close] at h

theorem canCloseOrEnqueue_of_close {s s' : ReadableStream α ε} (h : s.close = some s') :
    s'.canCloseOrEnqueue = false := by
  obtain ⟨phase, results⟩ := s
  cases phase <;> simp only [close, Option.some.injEq, reduceCtorEq] at h <;> subst h <;> rfl

theorem phase_close {s s' : ReadableStream α ε} (h : s.close = some s') (e : ε) :
    s'.phase ≠ .errored e := by
  obtain ⟨phase, results⟩ := s
  cases phase <;> simp only [close, Option.some.injEq, reduceCtorEq] at h <;> subst h <;> simp

/-- An error keeps what has been read and drops the queue. -/
theorem received_error (s : ReadableStream α ε) (e : ε) :
    (s.error e).received = s.received ∧ (s.error e).queue = [] ∧ Grows s (s.error e) := by
  obtain ⟨phase, results⟩ := s
  cases phase <;> simp [error, received, queue, Grows, reads, requests]

/-- Reading moves chunks from the queue to the consumer and loses none. -/
theorem received_queue_read (s : ReadableStream α ε) :
    s.read.received ++ s.read.queue = s.received ++ s.queue := by
  obtain ⟨phase, results⟩ := s
  cases phase with
  | waiting n => rfl
  | buffered h t => cases t <;> simp [read, received, queue]
  | closing h t => cases t <;> simp [read, received, queue]
  | closed => simp [read, received, queue]
  | errored e => simp [read, received, queue]

/-- A read of a stream that has ended gives nothing. -/
theorem received_read_of_hasEnded {s : ReadableStream α ε} (h : s.hasEnded = true) :
    s.read.received = s.received := by
  obtain ⟨phase, results⟩ := s
  cases phase <;> simp_all [hasEnded, read, received]

theorem received_cancel (s : ReadableStream α ε) : s.cancel.1.received = s.received := by
  obtain ⟨phase, results⟩ := s
  cases phase <;> simp [cancel, received]

/-- Cancelling drops the queue. -/
theorem queue_cancel (s : ReadableStream α ε) : s.cancel.1.queue = [] := by
  obtain ⟨phase, results⟩ := s
  cases phase <;> rfl

@[simp] theorem reads_read (s : ReadableStream α ε) : s.read.reads = s.reads + 1 := by
  obtain ⟨phase, results⟩ := s
  cases phase with
  | waiting n => rfl
  | buffered h t => cases t <;> simp [read, reads, requests]
  | closing h t => cases t <;> simp [read, reads, requests]
  | closed => simp [read, reads, requests]
  | errored e => simp [read, reads, requests]

theorem results_prefix_read (s : ReadableStream α ε) : s.results <+: s.read.results := by
  obtain ⟨phase, results⟩ := s
  cases phase with
  | waiting n => exact List.prefix_rfl
  | buffered h t => cases t <;> exact List.prefix_append ..
  | closing h t => cases t <;> exact List.prefix_append ..
  | closed => exact List.prefix_append ..
  | errored e => exact List.prefix_append ..

theorem queue_read_of_nil {s : ReadableStream α ε} (h : s.queue = []) : s.read.queue = [] := by
  obtain ⟨phase, results⟩ := s
  cases phase <;> simp_all [queue, read]

/-- While a stream is open its reads are not rejected. -/
theorem rejected_read {s : ReadableStream α ε} (h : s.canCloseOrEnqueue = true) {e : ε}
    (he : .rejected e ∈ s.read.results) : .rejected e ∈ s.results := by
  obtain ⟨phase, results⟩ := s
  cases phase with
  | waiting n => exact he
  | buffered h' t => cases t <;> simpa [read] using he
  | closing h' t => cases h
  | closed => cases h
  | errored e' => cases h

-- ============================================================================
-- The order of what is read
-- ============================================================================

/-- Unless the stream errors, its reads give chunks first, and the end only
    once it has closed. -/
def InOrder (s : ReadableStream α ε) : Prop :=
  match s.phase with
  | .waiting _ | .buffered .. | .closing .. => s.results = s.received.map .chunk
  | .closed => ∃ n, s.results = s.received.map .chunk ++ List.replicate n .done
  | .errored _ => True

theorem inOrder_new : InOrder ({} : ReadableStream α ε) := rfl

theorem InOrder.enqueue {s s' : ReadableStream α ε} (hs : s.InOrder) {c : α}
    (h : s.enqueue c = some s') : s'.InOrder := by
  obtain ⟨phase, results⟩ := s
  cases phase with
  | waiting n =>
      cases n with
      | zero =>
          simp only [ReadableStream.enqueue, Option.some.injEq] at h
          subst h
          exact hs
      | succ n =>
          simp only [ReadableStream.enqueue, Option.some.injEq] at h
          subst h
          simp only [InOrder, received] at hs ⊢
          simp [← hs]
  | buffered h' t =>
      simp only [ReadableStream.enqueue, Option.some.injEq] at h
      subst h
      exact hs
  | closing h' t => simp [ReadableStream.enqueue] at h
  | closed => simp [ReadableStream.enqueue] at h
  | errored e => simp [ReadableStream.enqueue] at h

theorem InOrder.close {s s' : ReadableStream α ε} (hs : s.InOrder) (h : s.close = some s') :
    s'.InOrder := by
  obtain ⟨phase, results⟩ := s
  cases phase with
  | waiting n =>
      simp only [ReadableStream.close, Option.some.injEq] at h
      subst h
      simp only [InOrder, received] at hs ⊢
      exact ⟨n, by simp [← hs]⟩
  | buffered h' t =>
      simp only [ReadableStream.close, Option.some.injEq] at h
      subst h
      exact hs
  | closing h' t => simp [ReadableStream.close] at h
  | closed => simp [ReadableStream.close] at h
  | errored e => simp [ReadableStream.close] at h

theorem InOrder.error {s : ReadableStream α ε} (hs : s.InOrder) (e : ε) : (s.error e).InOrder := by
  obtain ⟨phase, results⟩ := s
  cases phase with
  | closed => exact hs
  | _ => trivial

theorem InOrder.read {s : ReadableStream α ε} (hs : s.InOrder) : s.read.InOrder := by
  obtain ⟨phase, results⟩ := s
  cases phase with
  | waiting n => exact hs
  | buffered h t =>
      cases t <;>
        · simp only [InOrder, received, ReadableStream.read] at hs ⊢
          simp [← hs]
  | closing h t =>
      cases t with
      | nil =>
          simp only [InOrder, received, ReadableStream.read] at hs ⊢
          exact ⟨0, by simp [← hs]⟩
      | cons x xs =>
          simp only [InOrder, received, ReadableStream.read] at hs ⊢
          simp [← hs]
  | closed =>
      simp only [InOrder, received, ReadableStream.read] at hs ⊢
      obtain ⟨n, hn⟩ := hs
      have hsame : (results ++ [ReadResult.done]).filterMap chunk? =
          results.filterMap chunk? := by simp
      exact ⟨n + 1, by rw [hsame, List.replicate_succ', ← List.append_assoc, ← hn]⟩
  | errored e => trivial

/-- A read is a chunk, in its place, or the end behind all of them. -/
theorem InOrder.result {s : ReadableStream α ε} (hs : s.InOrder)
    (hphase : ∀ e, s.phase ≠ .errored e)
    {n : Nat} {r : ReadResult α ε} (hr : s.results[n]? = some r) :
    (∃ c, r = .chunk c ∧ s.received[n]? = some c) ∨
      r = .done ∧ s.phase = .closed ∧ s.received.length ≤ n := by
  have hchunk : s.results = s.received.map .chunk →
      ∃ c, r = .chunk c ∧ s.received[n]? = some c := by
    intro heq
    rw [heq, List.getElem?_map] at hr
    obtain ⟨c, hc, rfl⟩ := Option.map_eq_some_iff.mp hr
    exact ⟨c, rfl, hc⟩
  unfold InOrder at hs
  split at hs
  · exact Or.inl (hchunk hs)
  · exact Or.inl (hchunk hs)
  · exact Or.inl (hchunk hs)
  · rename_i hclosed
    obtain ⟨d, hd⟩ := hs
    rw [hd] at hr
    by_cases hlt : n < s.received.length
    · rw [List.getElem?_append_left (by simpa using hlt), List.getElem?_map] at hr
      obtain ⟨c, hc, rfl⟩ := Option.map_eq_some_iff.mp hr
      exact Or.inl ⟨c, rfl, hc⟩
    · rw [List.getElem?_append_right (by simpa using hlt)] at hr
      have hdone := List.eq_of_mem_replicate (List.mem_of_getElem? hr)
      exact Or.inr ⟨hdone, hclosed, Nat.le_of_not_lt hlt⟩
  · rename_i e herr
    exact absurd herr (hphase e)

-- ============================================================================
-- How a stream has ended
-- ============================================================================

variable {s s' : ReadableStream α ε}

/-- A read that gives no chunk tells how the stream has ended. -/
structure Told (s : ReadableStream α ε) : Prop where
  done : .done ∈ s.results → s.phase = .closed
  rejected : ∀ e, .rejected e ∈ s.results → s.phase = .errored e

theorem told_new : Told ({} : ReadableStream α ε) where
  done := fun h => by cases h
  rejected := fun _ h => by cases h

/-- Nothing has been told of a stream that is open. -/
theorem Told.not_mem (hs : s.Told) (h : s.canCloseOrEnqueue = true) :
    .done ∉ s.results ∧ ∀ e, .rejected e ∉ s.results := by
  refine ⟨fun hdone => ?_, fun e he => ?_⟩
  · simp [canCloseOrEnqueue, hs.done hdone] at h
  · simp [canCloseOrEnqueue, hs.rejected e he] at h

theorem Told.enqueue (hs : s.Told) {c : α} (h : s.enqueue c = some s') : s'.Told := by
  have hopen : s.canCloseOrEnqueue = true := by
    cases hclosed : s.canCloseOrEnqueue with
    | true => rfl
    | false =>
        rw [enqueue_eq_none.mpr hclosed] at h
        cases h
  obtain ⟨hdone, hrejected⟩ := hs.not_mem hopen
  obtain ⟨phase, results⟩ := s
  have hresults : ∀ r ∈ s'.results, r ∈ results ∨ ∃ c, r = .chunk c := by
    intro r hr
    cases phase with
    | waiting n =>
        cases n with
        | zero =>
            cases h
            exact .inl hr
        | succ n =>
            cases h
            exact (List.mem_append.mp hr).imp_right fun h => ⟨c, List.mem_singleton.mp h⟩
    | buffered h' t =>
        cases h
        exact .inl hr
    | closing h' t => cases h
    | closed => cases h
    | errored e => cases h
  refine ⟨fun hmem => ?_, fun e hmem => ?_⟩
  · rcases hresults _ hmem with hold | ⟨c, hc⟩
    · exact absurd hold hdone
    · cases hc
  · rcases hresults _ hmem with hold | ⟨c, hc⟩
    · exact absurd hold (hrejected e)
    · cases hc

theorem Told.close (hs : s.Told) (h : s.close = some s') : s'.Told := by
  obtain ⟨phase, results⟩ := s
  cases phase with
  | waiting n =>
      obtain ⟨-, hrejected⟩ := hs.not_mem rfl
      cases h
      refine ⟨fun _ => rfl, fun e he => ?_⟩
      rcases List.mem_append.mp he with hold | hnew
      · exact absurd hold (hrejected e)
      · cases List.eq_of_mem_replicate hnew
  | buffered h' t =>
      obtain ⟨hdone, hrejected⟩ := hs.not_mem rfl
      cases h
      exact ⟨fun hmem => absurd hmem hdone, fun e he => absurd he (hrejected e)⟩
  | closing h' t => cases h
  | closed => cases h
  | errored e => cases h

theorem Told.error (hs : s.Told) (e : ε) : (s.error e).Told := by
  obtain ⟨phase, results⟩ := s
  cases phase with
  | waiting n =>
      obtain ⟨hdone, hrejected⟩ := hs.not_mem rfl
      refine ⟨fun hmem => ?_, fun e' he => ?_⟩
      · rcases List.mem_append.mp hmem with hold | hnew
        · exact absurd hold hdone
        · cases List.eq_of_mem_replicate hnew
      · rcases List.mem_append.mp he with hold | hnew
        · exact absurd hold (hrejected e')
        · cases List.eq_of_mem_replicate hnew
          rfl
  | buffered h t =>
      obtain ⟨hdone, hrejected⟩ := hs.not_mem rfl
      exact ⟨fun hmem => absurd hmem hdone, fun e' he => absurd he (hrejected e')⟩
  | closing h t =>
      exact ⟨fun hmem => (by cases hs.done hmem), fun e' he => (by cases hs.rejected e' he)⟩
  | closed => exact hs
  | errored e' => exact hs

theorem Told.read (hs : s.Told) : s.read.Told := by
  obtain ⟨phase, results⟩ := s
  obtain ⟨hdone, hrejected⟩ := hs
  -- while there are chunks, or none yet, a read tells nothing
  have hnone : phase ≠ .closed → (∀ e, phase ≠ .errored e) →
      .done ∉ results ∧ ∀ e, .rejected e ∉ results :=
    fun hclosed herrored => ⟨fun h => hclosed (hdone h), fun e h => herrored e (hrejected e h)⟩
  cases phase with
  | waiting n =>
      obtain ⟨hd, hr⟩ := hnone nofun nofun
      exact ⟨fun h => absurd h hd, fun e h => absurd h (hr e)⟩
  | buffered h t =>
      obtain ⟨hd, hr⟩ := hnone nofun nofun
      cases t <;> exact ⟨fun h => (by simp [ReadableStream.read, hd] at h),
        fun e h => (by simp [ReadableStream.read, hr e] at h)⟩
  | closing h t =>
      obtain ⟨hd, hr⟩ := hnone nofun nofun
      cases t <;> exact ⟨fun h => (by simp [ReadableStream.read, hd] at h),
        fun e h => (by simp [ReadableStream.read, hr e] at h)⟩
  | closed =>
      refine ⟨fun _ => rfl, fun e h => ?_⟩
      rcases List.mem_append.mp h with hold | hnew
      · cases hrejected e hold
      · cases List.mem_singleton.mp hnew
  | errored e =>
      refine ⟨fun h => ?_, fun e' h => ?_⟩
      · rcases List.mem_append.mp h with hold | hnew
        · cases hdone hold
        · cases List.mem_singleton.mp hnew
      · rcases List.mem_append.mp h with hold | hnew
        · exact hrejected e' hold
        · cases List.mem_singleton.mp hnew
          rfl

end ReadableStream

end Lib
end BidiWeb
