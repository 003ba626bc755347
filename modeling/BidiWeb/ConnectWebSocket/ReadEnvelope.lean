/-
  BidiWeb.ConnectWebSocket.ReadEnvelope

  `muxStream.ReadEnvelope` against the read loop: does the consumer get what
  was delivered before the stream was terminated?

  The function polls the inbox and then waits on the inbox and on
  `terminated` together.  Between the two selects the read loop may both
  deliver and terminate; the second select then has two ready cases and Go
  picks either.  A consumer that is already blocked in the second select is
  handed the next envelope by `deliver` itself and cannot miss it.

  The stream's context is not cancelled here, so that the third case of the
  second select is never ready.
-/

import BidiWeb.ConnectWebSocket.MuxStream
import BidiWeb.Lib.Machine

namespace BidiWeb
namespace ConnectWebSocket

open BidiWeb.Lib

-- ============================================================================
-- One stream, its read loop and its consumer
-- ============================================================================

/-- Where the consumer is. -/
inductive ReadPc where
  /-- Not in `ReadEnvelope`. -/
  | idle
  /-- The first select has taken its default case. -/
  | between
  /-- Blocked in the second select. -/
  | blocked
deriving DecidableEq, Repr

structure ReadState where
  stream : MuxStream
  pc : ReadPc := .idle
  /-- What the `ReadEnvelope` calls have returned, in order. -/
  returned : List (Except GoError Envelope) := []
  /-- How many envelopes at the front of the inbox were put there before the
      stream was terminated. -/
  early : Nat := 0

inductive ReadEvent where
  /-- The read loop delivers an envelope. -/
  | deliver (env : Envelope)
  /-- The read loop drops an envelope for a terminated stream. -/
  | drop (env : Envelope)
  /-- `terminate`, from the read loop, `terminateAll` or `Close`. -/
  | terminate (err : GoError)
  /-- `ReadEnvelope` is called and runs its first select. -/
  | poll
  /-- The second select picks the inbox. -/
  | selectInbox
  /-- The second select picks `terminated`. -/
  | selectTerminated
  /-- The second select has no ready case. -/
  | block
deriving DecidableEq, Repr

namespace ReadState

variable (s : ReadState)

def finish (result : Except GoError Envelope) : ReadState :=
  { s with pc := .idle, returned := s.returned ++ [result] }

/-- An envelope is put in the inbox; whether it counts as early is decided by
    whether the stream has been terminated. -/
def put (stream : MuxStream) : ReadState :=
  { s with stream, early := if s.stream.terminated then s.early else s.early + 1 }

/-- Take the oldest envelope of the inbox and return it. -/
def take : Option ReadState :=
  s.stream.receive.map fun p =>
    { s with stream := p.2, early := s.early - 1 }.finish (.ok p.1)

def step (ev : ReadEvent) : Option ReadState :=
  match ev with
  | .deliver env =>
      match s.pc with
      | .blocked =>
          -- handed to the waiting receiver
          some ({ s with stream := s.stream.acceptEnvelope env }.finish (.ok env))
      | .idle | .between => (s.stream.deliverSend env).map s.put
  | .drop _ => s.stream.deliverDrop.map fun stream => { s with stream }
  | .terminate err =>
      let stream := s.stream.terminate err
      match s.pc with
      | .blocked =>
          -- closing `terminated` wakes the waiting receiver
          some ({ s with stream }.finish (.error err))
      | .idle | .between => some { s with stream }
  | .poll =>
      match s.pc with
      | .idle => if s.stream.inbox = [] then some { s with pc := .between } else s.take
      | .between | .blocked => none
  | .selectInbox =>
      match s.pc with
      | .between => s.take
      | .idle | .blocked => none
  | .selectTerminated =>
      match s.pc, s.stream.terminalErr with
      | .between, some err => some (s.finish (.error err))
      | _, _ => none
  | .block =>
      match s.pc with
      | .between =>
          if s.stream.inbox = [] ∧ s.stream.terminated = false then some { s with pc := .blocked }
          else none
      | .idle | .blocked => none

end ReadState

/-- A fresh client stream and its consumer. -/
def readEnvelope (id : UInt32) : Machine ReadState ReadEvent where
  init := { stream := { id } }
  step := ReadState.step

-- ============================================================================
-- Nothing delivered before termination is lost
-- ============================================================================

/-- Once the terminal error has been returned, no envelope that was put in the
    inbox before termination is left unread. -/
def NothingLost (s : ReadState) : Prop := (∃ err, .error err ∈ s.returned) → s.early = 0

/-- The stream is not terminated while its consumer is between its two selects
    with an envelope in the inbox. -/
def TerminatesClear (s : ReadState) (ev : ReadEvent) : Prop :=
  ∀ err, ev = .terminate err → s.stream.terminated = false → s.pc = .between →
    s.stream.inbox = []

instance (s : ReadState) (ev : ReadEvent) : Decidable (TerminatesClear s ev) :=
  match ev with
  | .terminate err =>
      decidable_of_iff (s.stream.terminated = false → s.pc = .between → s.stream.inbox = [])
        ⟨fun h _ _ => h, fun h => h err rfl⟩
  | .deliver _ | .drop _ | .poll | .selectInbox | .selectTerminated | .block =>
      isTrue fun _ h => by cases h

namespace ReadState

structure Inv (s : ReadState) : Prop where
  early_le : s.early ≤ s.stream.inbox.length
  /-- Before termination everything in the inbox is early. -/
  running : s.stream.terminated = false → s.early = s.stream.inbox.length
  blocked : s.pc = .blocked → s.stream.inbox = [] ∧ s.stream.terminated = false
  failed : (∃ err, .error err ∈ s.returned) → s.stream.terminated = true ∧ s.early = 0
  /-- A consumer that may still be told of the termination has read all that
      came before it. -/
  between : s.pc = .between → s.stream.terminated = true → s.early = 0

theorem inv_init (id : UInt32) : Inv (readEnvelope id).init where
  early_le := Nat.le_refl 0
  running := fun _ => rfl
  blocked := fun h => by cases h
  failed := fun ⟨_, h⟩ => by cases h
  between := fun h => by cases h

variable {s s' : ReadState}

theorem mem_error_of_ok {results : List (Except GoError Envelope)} {env : Envelope}
    (h : ∃ err, .error err ∈ results ++ [.ok env]) : ∃ err, .error err ∈ results := by
  obtain ⟨err, herr⟩ := h
  exact ⟨err, by simpa using herr⟩

/-- Taking the oldest envelope keeps the invariant, wherever the consumer was. -/
theorem Inv.take (hs : s.Inv) (h : s.take = some s') : s'.Inv := by
  obtain ⟨⟨env, stream⟩, hreceive, rfl⟩ := Option.map_eq_some_iff.mp h
  obtain ⟨hinbox, hterm⟩ := s.stream.receive_eq_some hreceive
  have hlen : s.stream.inbox.length = stream.inbox.length + 1 := by
    rw [hinbox]
    rfl
  have hsame : stream.terminated = s.stream.terminated := by
    rw [MuxStream.terminated, MuxStream.terminated, hterm]
  have hle := hs.early_le
  refine ⟨?_, ?_, fun h => (by cases h), ?_, fun h => (by cases h)⟩
  · show s.early - 1 ≤ stream.inbox.length
    omega
  · intro hrun
    have hall := hs.running (hsame.symm.trans hrun)
    show s.early - 1 = stream.inbox.length
    omega
  · intro herr
    obtain ⟨hdone, hzero⟩ := hs.failed (mem_error_of_ok herr)
    refine ⟨hsame.trans hdone, ?_⟩
    show s.early - 1 = 0
    omega

theorem Inv.put (hs : s.Inv) (hpc : s.pc ≠ .blocked) {env : Envelope} {stream : MuxStream}
    (h : s.stream.deliverSend env = some stream) : (s.put stream).Inv := by
  unfold MuxStream.deliverSend at h
  split at h
  · cases h
    have hle := hs.early_le
    have hlen : (s.stream.inbox ++ [env]).length = s.stream.inbox.length + 1 := by simp
    cases hterm : s.stream.terminated with
    | false =>
        have hearly := hs.running hterm
        simp only [ReadState.put, hterm, Bool.false_eq_true, if_false]
        refine ⟨?_, ?_, fun h => absurd h hpc, ?_, ?_⟩
        · show s.early + 1 ≤ (s.stream.inbox ++ [env]).length
          omega
        · intro _
          show s.early + 1 = (s.stream.inbox ++ [env]).length
          omega
        · intro herr
          rw [(hs.failed herr).1] at hterm
          cases hterm
        · intro _ hrun
          rw [show s.stream.terminated = true from hrun] at hterm
          cases hterm
    | true =>
        simp only [ReadState.put, hterm, if_true]
        refine ⟨?_, ?_, fun h => absurd h hpc, hs.failed, hs.between⟩
        · show s.early ≤ (s.stream.inbox ++ [env]).length
          omega
        · intro hrun
          rw [show s.stream.terminated = false from hrun] at hterm
          cases hterm
  · cases h

theorem Inv.terminate (hs : s.Inv) {err : GoError} (hclear : TerminatesClear s (.terminate err))
    (h : s.step (.terminate err) = some s') : s'.Inv := by
  have hle := hs.early_le
  simp only [step] at h
  split at h
  · -- the blocked consumer is woken with the error; its inbox is empty
    rename_i hpc
    cases h
    obtain ⟨hempty, -⟩ := hs.blocked hpc
    have hearly : s.early = 0 := by
      rw [hempty] at hle
      exact Nat.le_zero.mp hle
    refine ⟨?_, ?_, fun h => (by cases h), fun _ => ⟨?_, hearly⟩, fun h => (by cases h)⟩
    · show s.early ≤ (s.stream.terminate err).inbox.length
      omega
    · intro hrun
      have hdone := s.stream.terminated_terminate err
      rw [show (s.stream.terminate err).terminated = false from hrun] at hdone
      cases hdone
    · exact s.stream.terminated_terminate err
  all_goals
    rename_i hpc
    cases h
    have hdone := s.stream.terminated_terminate err
    refine ⟨?_, ?_, ?_, fun herr => ⟨hdone, (hs.failed herr).2⟩, ?_⟩
    · show s.early ≤ (s.stream.terminate err).inbox.length
      rw [MuxStream.terminate_inbox]
      exact hle
    · intro hrun
      rw [show (s.stream.terminate err).terminated = false from hrun] at hdone
      cases hdone
    · intro hblocked
      rw [show s.pc = .blocked from hblocked] at hpc
      cases hpc
    · intro hbetween _
      cases hterm : s.stream.terminated with
      | true => exact hs.between hbetween hterm
      | false =>
          have hempty := hclear err rfl hterm hbetween
          have hearly := hs.running hterm
          show s.early = 0
          rw [hearly, hempty]
          rfl

theorem Inv.step (hs : s.Inv) {ev : ReadEvent} (hclear : TerminatesClear s ev)
    (h : s.step ev = some s') : s'.Inv := by
  cases ev with
  | deliver env =>
      simp only [ReadState.step] at h
      split at h
      · rename_i hpc
        cases h
        obtain ⟨hempty, hrun⟩ := hs.blocked hpc
        refine ⟨hs.early_le, hs.running, fun h => (by cases h), ?_, fun h => (by cases h)⟩
        exact fun herr => hs.failed (mem_error_of_ok herr)
      all_goals
        rename_i hpc
        obtain ⟨stream, hstream, rfl⟩ := Option.map_eq_some_iff.mp h
        exact hs.put (by simp [hpc]) hstream
  | drop env =>
      obtain ⟨stream, hstream, rfl⟩ := Option.map_eq_some_iff.mp h
      unfold MuxStream.deliverDrop at hstream
      split at hstream
      · cases hstream
        exact hs
      · cases hstream
  | terminate err => exact hs.terminate hclear h
  | poll =>
      simp only [ReadState.step] at h
      split at h
      · split at h
        · rename_i hempty
          cases h
          have hle := hs.early_le
          rw [hempty] at hle
          exact ⟨hs.early_le, hs.running, fun h => (by cases h), hs.failed,
            fun _ _ => Nat.le_zero.mp hle⟩
        · exact hs.take h
      · cases h
      · cases h
  | selectInbox =>
      simp only [ReadState.step] at h
      split at h
      · exact hs.take h
      · cases h
      · cases h
  | selectTerminated =>
      simp only [ReadState.step] at h
      split at h
      · rename_i err hpc herr
        cases h
        have hterm : s.stream.terminated = true := by simp [MuxStream.terminated, herr]
        exact ⟨hs.early_le, hs.running, fun h => (by cases h),
          fun _ => ⟨hterm, hs.between hpc hterm⟩, fun h => (by cases h)⟩
      · cases h
  | block =>
      simp only [ReadState.step] at h
      split at h
      · split at h
        · rename_i hready
          cases h
          exact ⟨hs.early_le, hs.running, fun _ => hready, hs.failed, fun h => (by cases h)⟩
        · cases h
      · cases h
      · cases h

end ReadState

-- ============================================================================
-- Whole runs
-- ============================================================================

/-- In every interleaving in which the stream is not terminated while its
    consumer is between its two selects with an envelope in the inbox, the
    terminal error is returned only after everything that came before it. -/
theorem nothing_lost_of_terminates_clear (id : UInt32) (evs : List ReadEvent) {s : ReadState}
    (hrun : (readEnvelope id).run evs = some s)
    (hclear : (readEnvelope id).Meets TerminatesClear (readEnvelope id).init evs) :
    NothingLost s := by
  have hinv : s.Inv := Machine.exec_invariant_of_meets (I := ReadState.Inv) _
    (fun _ _ _ hs hG hstep => hs.step hG hstep) (ReadState.inv_init id) hclear hrun
  exact fun herr => (hinv.failed herr).2

/-- The end-stream is delivered and the stream terminated while the consumer
    is blocked, and while it is not reading. -/
theorem end_stream_before_error :
    ∃ s, (readEnvelope 1).run
        [.poll, .block, .deliver ⟨flagEnvelopeHeaders, []⟩,
          .deliver ⟨flagEnvelopeEndStream, []⟩, .terminate .eof, .poll, .poll,
          .selectTerminated] = some s ∧ NothingLost s :=
  ⟨_, rfl, nothing_lost_of_terminates_clear 1
    [.poll, .block, .deliver ⟨flagEnvelopeHeaders, []⟩,
      .deliver ⟨flagEnvelopeEndStream, []⟩, .terminate .eof, .poll, .poll,
      .selectTerminated] rfl (by decide)⟩

/-- Any run that has met the condition and then breaks it can go on to lose
    an envelope: the second select picks `terminated`. -/
theorem lost_between_selects (id : UInt32) {evs : List ReadEvent} {s : ReadState}
    (hrun : (readEnvelope id).run evs = some s)
    (hclear : (readEnvelope id).Meets TerminatesClear (readEnvelope id).init evs) {err : GoError}
    (hbad : ¬ TerminatesClear s (.terminate err)) :
    ∃ s', (readEnvelope id).run (evs ++ [.terminate err, .selectTerminated]) = some s' ∧
      ¬ NothingLost s' := by
  have hinv : s.Inv := Machine.exec_invariant_of_meets (I := ReadState.Inv) _
    (fun _ _ _ hs hG hstep => hs.step hG hstep) (ReadState.inv_init id) hclear hrun
  obtain ⟨hterm, hpc, hinbox⟩ :
      s.stream.terminated = false ∧ s.pc = .between ∧ s.stream.inbox ≠ [] := by
    refine ⟨?_, ?_, fun hempty => hbad fun _ _ _ _ => hempty⟩
    · cases h : s.stream.terminated with
      | false => rfl
      | true => exact absurd (fun _ _ hrunning => by rw [h] at hrunning; cases hrunning) hbad
    · cases h : s.pc with
      | between => rfl
      | idle => exact absurd (fun _ _ _ hpc => by rw [h] at hpc; cases hpc) hbad
      | blocked => exact absurd (fun _ _ _ hpc => by rw [h] at hpc; cases hpc) hbad
  have hstep₁ : s.step (.terminate err) = some { s with stream := s.stream.terminate err } := by
    simp [ReadState.step, hpc]
  have hnone : s.stream.terminalErr = none := by
    simpa [MuxStream.terminated] using hterm
  have hstep₂ : ReadState.step { s with stream := s.stream.terminate err } .selectTerminated =
      some ({ s with stream := s.stream.terminate err }.finish (.error err)) := by
    simp [ReadState.step, hpc, MuxStream.terminate, hnone]
  refine ⟨_, (Machine.exec_append _).mpr ⟨s, hrun, (Machine.exec_cons _).mpr
    ⟨_, hstep₁, (Machine.exec_cons _).mpr ⟨_, hstep₂, rfl⟩⟩⟩, ?_⟩
  intro hnothing
  have hzero : s.early = 0 := hnothing ⟨err, List.mem_append_right _ (List.mem_singleton.mpr rfl)⟩
  rw [hinv.running hterm] at hzero
  exact hinbox (List.eq_nil_of_length_eq_zero hzero)

/-- The read loop delivers an end-stream and terminates between the two
    selects; the second one picks `terminated`. -/
theorem end_stream_lost_between_selects :
    ¬ ∀ id evs s, (readEnvelope id).run evs = some s → NothingLost s := by
  intro h
  have hlost := h 1 [.poll, .deliver ⟨flagEnvelopeEndStream, []⟩, .terminate .eof,
    .selectTerminated] _ rfl
  have hzero := hlost ⟨.eof, List.mem_singleton.mpr rfl⟩
  cases hzero

end ConnectWebSocket
end BidiWeb
