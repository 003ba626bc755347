/-
  BidiWeb.Web.RequestFailure

  What a caller is told whose request iterator throws.

  The detached task aborts its writer, which closes the response under the
  reader of the call.  `runWebTransportCall` reads that end as a response
  without headers, and does not look at `writePromise`; `iterate()` does, but
  only behind what the response still has to give.  So the error gets through
  if the headers had arrived and nothing but messages behind them, with no
  bytes left over that the envelope reader takes for an error.
-/

import BidiWeb.Web.AbortedStream
import BidiWeb.Web.ReleasedStreams
import BidiWeb.Web.StreamFrames

namespace BidiWeb
namespace Web

open BidiWeb.Lib
open BidiWeb.Core (JsError Code)

variable {M : Type*} (parse : Bytes → Except JsError M)
  (endStreamFromJson : Bytes → Except JsError EndStream)

-- ============================================================================
-- What the caller is told
-- ============================================================================

namespace Transport

/-- The request iterator of call `h` has thrown, and the call has not ended. -/
def RequestThrew (t : Transport) (h : Nat) : Prop :=
  t.calls.writers[h]? = some .aborted ∧ ∃ stage, t.stages[h]? = some stage ∧ stage.hasEnded = false

end Transport

/-- A step that ends a call whose request iterator has thrown throws what that
    one threw, unless the consumer stopped asking. -/
def RethrowsRequestError [ConnectPackage] (t : Transport) (ev : TransportEvent) : Prop :=
  ∀ t' h outcome, t.step parse endStreamFromJson ev = some t' → t.RequestThrew h →
    t'.stages[h]? = some (.ended outcome) → outcome = .requestFailed ∨ outcome = .left

/-- What call `h` and its consumer do themselves. -/
def TransportEvent.ofReader (h : Nat) : TransportEvent → Bool
  | .call (.mux (.pull j)) | .call (.mux (.settle j)) | .call (.mux (.read j)) => j = h
  | .respond j | .iterate j | .raced j => j = h
  | _ => false

-- ============================================================================
-- The condition
-- ============================================================================

/-- What was routed to a stream are response headers and then messages, and
    the bytes left over are no error at their end. -/
def Stream.readableSoFar [ConnectPackage] (s : Stream) : Bool :=
  match completeEnvelopes s.routed.flatten with
  | env :: rest =>
      firstRead (.chunk env) = .returned && rest.all (isReadable parse endStreamFromJson) &&
        (ConnectPackage.atEnd (leftover s.routed.flatten)).isNone
  | [] => false

/-- A request iterator that throws before its call has ended finds the stream
    registered and what was routed to it readable. -/
def ThrowsReadable [ConnectPackage] (t : Transport) : TransportEvent → Prop
  | .call (.fail h) => t.hasEnded h = false →
      ∀ s ∈ t.mux.streams[h]?, s.registered = true ∧
        s.readableSoFar parse endStreamFromJson = true
  | _ => True

instance [ConnectPackage] (t : Transport) (ev : TransportEvent) :
    Decidable (ThrowsReadable parse endStreamFromJson t ev) := by
  unfold ThrowsReadable
  split <;> infer_instance

-- ============================================================================
-- The writers
-- ============================================================================

namespace Calls

variable {c c' : Calls}

theorem length_writers {ev : CallEvent} (hstepped : c.Stepped ev c')
    (hlength : c.writers.length = c.mux.streams.length) :
    c'.writers.length = c'.mux.streams.length := by
  cases hstepped with
  | quiet hquiet _ => exact hlength.trans hquiet.kept.length.symm
  | resumed hk => simp [WebSocketMux.resume, hlength]
  | wrote hev hw hs hwrites =>
      have hkept := WebSocketMux.kept_sendOn c.mux
      exact List.length_set.trans (hlength.trans (hkept _ _ _).length.symm)
  | failed hw =>
      have hkept := WebSocketMux.kept_closeStream c.mux
      exact List.length_set.trans (hlength.trans (hkept _).length.symm)
  | released hw hstarted =>
      exact hlength.trans (WebSocketMux.kept_closeStream c.mux _).length.symm

/-- A writer is aborted when its iterator throws. -/
theorem aborted_of_stepped {ev : CallEvent} (hstepped : c.Stepped ev c') {h : Nat}
    (hw : c'.writers[h]? = some .aborted) : c.writers[h]? = some .aborted ∨
      ev = .fail h ∧ c'.mux = c.mux.closeStream h := by
  cases hstepped with
  | quiet hquiet _ => exact Or.inl hw
  | resumed hk =>
      rcases Store.getElem?_concat.mp hw with hold | ⟨-, hnew⟩
      · exact Or.inl hold
      · cases hnew
  | @wrote ev j s before after flag data hev hbefore hs hwrites =>
      rw [List.getElem?_set] at hw
      split at hw
      · split at hw
        · obtain rfl := Option.some.inj hw
          cases hwrites
        · cases hw
      · exact Or.inl hw
  | @failed j hbefore =>
      rw [List.getElem?_set] at hw
      split at hw
      · rename_i hjh
        subst hjh
        exact Or.inr ⟨rfl, rfl⟩
      · exact Or.inl hw
  | released hbefore hstarted => exact Or.inl hw

end Calls

theorem WebSocketMux.getElem?_closeStream_self {m : WebSocketMux} {h : Nat} {s : Stream}
    (hs : m.streams[h]? = some s) (hreg : s.registered = true) :
    (m.closeStream h).streams[h]? = some s.release := by
  unfold closeStream
  simp only [hs, hreg, if_true, streams_closeIdle, streams_sendReset]
  exact Store.getElem?_modify.mpr (by simp [hs])

-- ============================================================================
-- The streams of the calls whose request has failed
-- ============================================================================

/-- The stream was aborted with readable envelopes routed to it. -/
def Stream.AbortedReadable [ConnectPackage] (s : Stream) : Prop :=
  ∃ env rest, s.Aborted (env :: rest) ∧ firstRead (.chunk env) = .returned ∧
    ∀ e ∈ rest, isReadable parse endStreamFromJson e = true

/-- What holds of the calls as long as their request iterators throw behind a
    readable response. -/
structure Transport.Failing [ConnectPackage] (t : Transport) : Prop where
  stages : t.stages.length = t.mux.streams.length
  writers : t.calls.writers.length = t.mux.streams.length
  tracked : ∀ (h : Nat) (s : Stream), t.mux.streams[h]? = some s → s.Tracked
  iterating : ∀ (h taken : Nat), t.stages[h]? = some (.iterating taken) → 1 ≤ taken
  aborted : ∀ (h : Nat) (s : Stream), t.RequestThrew h → t.mux.streams[h]? = some s →
    s.AbortedReadable parse endStreamFromJson

section Invariant

variable {connect : ConnectPackage} {parse endStreamFromJson} {t t' : Transport} {s s' : Stream}

theorem Stream.AbortedReadable.step [ConnectPackage.Lawful]
    (ha : s.AbortedReadable parse endStreamFromJson)
    (hs : s.Tracked) {ends : Bool} (hstep : StreamStep ends s s') :
    s'.AbortedReadable parse endStreamFromJson := by
  obtain ⟨env, rest, haborted, hfirst, hrest⟩ := ha
  exact ⟨env, rest, haborted.step hs hstep, hfirst, hrest⟩

/-- The first read of the response gives its headers. -/
theorem Stream.AbortedReadable.first (ha : s.AbortedReadable parse endStreamFromJson)
    (hs : s.Tracked) {r : ReadResult Envelope JsError}
    (hr : s.response.envelopes.results[0]? = some r) : firstRead r = .returned := by
  obtain ⟨env, rest, haborted, hfirst, -⟩ := ha
  rcases haborted.result hs hr with ⟨e, rfl, he⟩ | ⟨-, hle⟩
  · obtain rfl : env = e := Option.some.inj he
    exact hfirst
  · cases hle

/-- A further one gives a message, or the error of the request. -/
theorem Stream.AbortedReadable.next (ha : s.AbortedReadable parse endStreamFromJson)
    (hs : s.Tracked) {taken : Nat} (htaken : 1 ≤ taken) {r : ReadResult Envelope JsError}
    (hr : s.response.envelopes.results[taken]? = some r) :
    nextRead parse endStreamFromJson taken .aborted r = some (.iterating (taken + 1)) ∨
      nextRead parse endStreamFromJson taken .aborted r = some (.ended .requestFailed) := by
  obtain ⟨env, rest, haborted, -, hrest⟩ := ha
  rcases haborted.result hs hr with ⟨e, rfl, he⟩ | ⟨rfl, -⟩
  · left
    obtain ⟨n, rfl⟩ : ∃ n, taken = n + 1 := ⟨taken - 1, by omega⟩
    have hreadable := hrest e (List.mem_of_getElem? (by simpa using he))
    unfold isReadable at hreadable
    split at hreadable
    · rename_i m hm
      simp [nextRead, hm]
    · cases hreadable
  · exact Or.inr rfl

namespace Transport

theorem failing_init (closeWhenIdle : Bool) :
    Failing parse endStreamFromJson (transport parse endStreamFromJson closeWhenIdle).init where
  stages := rfl
  writers := rfl
  tracked := fun _ _ h => by cases h
  iterating := fun _ _ h => by cases h
  aborted := fun _ _ _ h => by cases h

/-- A step of the mux carries the streams on. -/
theorem Failing.tracked_of_streamsStep [ConnectPackage.Lawful]
    (ht : t.Failing parse endStreamFromJson) {ends : Bool}
    {streams : List Stream} (hstep : StreamsStep ends t.mux.streams streams) (h : Nat) (s' : Stream)
    (hs' : streams[h]? = some s') : s'.Tracked := by
  cases hs : t.mux.streams[h]? with
  | none =>
      obtain ⟨k, rfl⟩ := hstep.2 h s' hs' hs
      exact Stream.tracked_new k
  | some s =>
      obtain ⟨u, hu, hstream⟩ := hstep.1 h s hs
      obtain rfl : s' = u := Option.some.inj (hs'.symm.trans hu)
      exact (ht.tracked h s hs).step hstream

/-- The streams of calls whose request had failed go on as they were. -/
theorem Failing.aborted_of_streamsStep [ConnectPackage.Lawful]
    (ht : t.Failing parse endStreamFromJson) {ends : Bool}
    {streams : List Stream} (hstep : StreamsStep ends t.mux.streams streams) {h : Nat}
    (hthrew : t.RequestThrew h) (s' : Stream) (hs' : streams[h]? = some s') :
    s'.AbortedReadable parse endStreamFromJson := by
  obtain ⟨stage, hstage, -⟩ := hthrew.2
  cases hs : t.mux.streams[h]? with
  | none =>
      have hlt := (List.getElem?_eq_some_iff.mp hstage).1
      have := List.getElem?_eq_none_iff.mp hs
      have := ht.stages
      omega
  | some s =>
      obtain ⟨u, hu, hstream⟩ := hstep.1 h s hs
      obtain rfl : s' = u := Option.some.inj (hs'.symm.trans hu)
      exact (ht.aborted h s hthrew hs).step (ht.tracked h s hs) hstream

theorem Failing.call [ConnectPackage.Lawful] (ht : t.Failing parse endStreamFromJson)
    {ev : CallEvent} {calls : Calls} (hG : ThrowsReadable parse endStreamFromJson t (.call ev))
    (hcalls : t.calls.step ev = some calls) :
    Failing parse endStreamFromJson { calls, stages := t.started ev } := by
  have hstreams := WebSocketMux.streamsStep_of_step (Calls.mux_step hcalls)
  have hstepped := Calls.stepped hcalls
  -- a stage there is not the one of a new call was there before
  have hstage : ∀ {h : Nat} {stage : Stage}, (t.started ev)[h]? = some stage →
      t.stages[h]? = some stage ∨ h = t.stages.length ∧ stage = .starting := by
    intro h stage hnew
    unfold started at hnew
    split at hnew
    · exact Store.getElem?_concat.mp hnew
    · exact Or.inl hnew
  refine ⟨(streams_call hcalls).1 ht.stages, Calls.length_writers hstepped ht.writers,
    ht.tracked_of_streamsStep hstreams, ?_, ?_⟩
  · intro h taken hiter
    rcases hstage hiter with hold | ⟨-, hnew⟩
    · exact ht.iterating h taken hold
    · cases hnew
  · intro h s' ⟨hwriter, stage, hnew, hopen⟩ hs'
    rcases Calls.aborted_of_stepped hstepped hwriter with hold | ⟨rfl, hmux⟩
    · have hthrew : t.RequestThrew h := by
        rcases hstage hnew with hbefore | ⟨heq, -⟩
        · exact ⟨hold, stage, hbefore, hopen⟩
        · have := (List.getElem?_eq_some_iff.mp hold).1
          have := ht.stages
          have := ht.writers
          omega
      exact ht.aborted_of_streamsStep hstreams hthrew s' hs'
    · -- the iterator throws now
      have hended : t.hasEnded h = false := by
        have hsame : t.stages[h]? = some stage := hnew
        simp [hasEnded, hsame, hopen]
      rw [show calls.mux = t.calls.mux.closeStream h from hmux] at hstreams
      have hnow : (t.mux.closeStream h).streams[h]? = some s' := by
        rw [← hs', show Transport.mux { calls, stages := t.started (.fail h) } = calls.mux from rfl,
          hmux]
        rfl
      cases hs : t.mux.streams[h]? with
      | none =>
          have hlen := (WebSocketMux.kept_closeStream t.mux h).length
          have hlt := (List.getElem?_eq_some_iff.mp hnow).1
          have hle := List.getElem?_eq_none_iff.mp hs
          omega
      | some s =>
          obtain ⟨hreg, hreadable⟩ := hG hended s hs
          rw [WebSocketMux.getElem?_closeStream_self hs hreg] at hnow
          obtain rfl := Option.some.inj hnow
          unfold Stream.readableSoFar at hreadable
          split at hreadable
          · rename_i env rest hrouted
            simp only [Bool.and_eq_true, decide_eq_true_eq, List.all_eq_true,
              Option.isNone_iff_eq_none] at hreadable
            obtain ⟨hmessages, hwhole⟩ := hreadable
            exact ⟨env, rest, (ht.tracked h s hs).aborted hreg hrouted hwhole, hmessages⟩
          · cases hreadable

theorem Failing.setStage (ht : t.Failing parse endStreamFromJson) {h : Nat}
    {before after : Stage} (hbefore : t.stages[h]? = some before)
    (hopen : before.hasEnded = false) (hiter : ∀ taken, after = .iterating taken → 1 ≤ taken) :
    Failing parse endStreamFromJson (t.setStage h after) := by
  refine ⟨List.length_set.trans ht.stages, ht.writers, ht.tracked, ?_, ?_⟩
  · intro j taken hj
    rw [Transport.setStage, List.getElem?_set] at hj
    split at hj
    · split at hj
      · exact hiter taken (Option.some.inj hj)
      · cases hj
    · exact ht.iterating j taken hj
  · intro j s ⟨hwriter, stage, hj, hjopen⟩ hs
    rw [Transport.setStage, List.getElem?_set] at hj
    split at hj
    · rename_i hhj
      subst hhj
      exact ht.aborted h s ⟨hwriter, before, hbefore, hopen⟩ hs
    · exact ht.aborted j s ⟨hwriter, stage, hj, hjopen⟩ hs

theorem Failing.finish [ConnectPackage.Lawful] (ht : t.Failing parse endStreamFromJson) (h : Nat)
    (outcome : Outcome) :
    Failing parse endStreamFromJson (t.finish h outcome) := by
  have hstreams := @WebSocketMux.streamsStep_closeStream connect t.mux h
  have hlength := (WebSocketMux.kept_closeStream t.mux h).length
  have hstage : ∀ {j : Nat} {stage : Stage}, (t.finish h outcome).stages[j]? = some stage →
      stage.hasEnded = false → t.stages[j]? = some stage := by
    intro j stage hj hopen
    rw [Transport.finish, List.getElem?_set] at hj
    split at hj
    · split at hj
      · obtain rfl := Option.some.inj hj
        cases hopen
      · cases hj
    · exact hj
  refine ⟨List.length_set.trans (ht.stages.trans hlength.symm), ht.writers.trans hlength.symm,
    ht.tracked_of_streamsStep hstreams, ?_, ?_⟩
  · intro j taken hj
    exact ht.iterating j taken (hstage hj rfl)
  · intro j s ⟨hwriter, stage, hj, hjopen⟩ hs
    exact ht.aborted_of_streamsStep hstreams ⟨hwriter, stage, hstage hj hjopen, hjopen⟩ s hs

theorem Failing.step [ConnectPackage.Lawful] (ht : t.Failing parse endStreamFromJson)
    {ev : TransportEvent} (hG : ThrowsReadable parse endStreamFromJson t ev)
    (hstep : t.step parse endStreamFromJson ev = some t') :
    t'.Failing parse endStreamFromJson := by
  cases stepped hstep with
  | call hpermits hcalls => exact ht.call hG hcalls
  | stage hbefore hs hopen hiter habandons hconcludes => exact ht.setStage hbefore hopen hiter
  | finished outcome hbefore hs habandons hconcludes => exact ht.finish _ outcome

-- ============================================================================
-- One step of a call whose request has failed
-- ============================================================================

/-- Only the call that moves can end. -/
theorem stage_setStage {h j : Nat} {stage : Stage} {outcome : Outcome}
    (hend : (t.setStage h stage).stages[j]? = some (.ended outcome))
    (hopen : t.hasEnded j = false) :
    j = h ∧ stage = .ended outcome := by
  rw [setStage, List.getElem?_set] at hend
  split at hend
  · rename_i hhj
    split at hend
    · exact ⟨hhj.symm, Option.some.inj hend⟩
    · cases hend
  · rw [hasEnded_iff.mpr ⟨outcome, hend⟩] at hopen
    cases hopen

theorem stages_proceed (t : Transport) (h : Nat) (stage : Stage) :
    (t.proceed h stage).stages = (t.setStage h stage).stages := by
  cases stage <;> rfl

theorem Failing.rethrows (ht : t.Failing parse endStreamFromJson) (ev : TransportEvent) :
    RethrowsRequestError parse endStreamFromJson t ev := by
  intro t' h outcome hstep hthrew hend
  obtain ⟨hwriter, stage₀, hstage₀, hopen₀⟩ := id hthrew
  have hopen : t.hasEnded h = false := by simp [hasEnded, hstage₀, hopen₀]
  cases ev with
  | call ev =>
      simp only [Transport.step] at hstep
      split at hstep
      · obtain ⟨calls, hcalls, rfl⟩ := Option.map_eq_some_iff.mp hstep
        rw [ended_started (hasEnded_iff.mpr ⟨outcome, hend⟩)] at hopen
        cases hopen
      · cases hstep
  | headersFail j reason =>
      obtain ⟨stage, writer, s, hstage, hw, hs, hf⟩ := onCall_eq_some hstep
      split at hf
      · rename_i hboth
        cases hf
        obtain ⟨rfl, -⟩ := stage_setStage hend hopen
        rw [hwriter, hboth.2] at hw
        cases hw
      · cases hf
  | respond j =>
      obtain ⟨stage, writer, s, hstage, hw, hs, hf⟩ := onCall_eq_some hstep
      split at hf
      · obtain ⟨r, hr, rfl⟩ := Option.map_eq_some_iff.mp hf
        obtain ⟨rfl, hended⟩ := stage_setStage hend hopen
        rw [List.head?_eq_getElem?] at hr
        rw [(ht.aborted h s hthrew hs).first (ht.tracked h s hs) hr] at hended
        cases hended
      · cases hf
  | iterate j =>
      obtain ⟨stage, writer, s, hstage, hw, hs, hf⟩ := onCall_eq_some hstep
      split at hf
      · cases hf
        obtain ⟨-, hended⟩ := stage_setStage hend hopen
        cases hended
      · cases hf
  | next j =>
      obtain ⟨stage, writer, s, hstage, hw, hs, hf⟩ := onCall_eq_some hstep
      split at hf
      · rename_i taken
        obtain ⟨after, hread, rfl⟩ := Option.map_eq_some_iff.mp hf
        obtain ⟨r, hr, hnext⟩ := Option.bind_eq_some_iff.mp hread
        rw [stages_proceed] at hend
        obtain ⟨rfl, rfl⟩ := stage_setStage hend hopen
        obtain rfl : .aborted = writer := Option.some.inj (hwriter.symm.trans hw)
        have htaken := ht.iterating h taken hstage
        rcases (ht.aborted h s hthrew hs).next (ht.tracked h s hs) htaken hr with hmore | hthrow
        · rw [hnext] at hmore
          cases hmore
        · rw [hnext] at hthrow
          cases hthrow
          exact Or.inl rfl
      · cases hf
  | raced j =>
      obtain ⟨stage, writer, s, hstage, hw, hs, hf⟩ := onCall_eq_some hstep
      split at hf
      · cases hf
        obtain ⟨-, hended⟩ := stage_setStage hend hopen
        cases hended
        exact Or.inl rfl
      · cases hf
  | leave j =>
      obtain ⟨stage, writer, s, hstage, hw, hs, hf⟩ := onCall_eq_some hstep
      split at hf
      · split at hf
        · -- with its `finally` run or not, the call has been left
          have hleft : (t.setStage j (.ended .left)).stages[h]? = some (.ended outcome) := by
            split at hf <;> cases hf <;> exact hend
          obtain ⟨-, hended⟩ := stage_setStage hleft hopen
          cases hended
          exact Or.inr rfl
        · cases hf
      · cases hf
  | abandon j =>
      obtain ⟨stage, writer, s, hstage, hw, hs, hf⟩ := onCall_eq_some hstep
      split at hf
      · cases hf
        obtain ⟨-, hended⟩ := stage_setStage hend hopen
        cases hended
        exact Or.inr rfl
      · cases hf

-- ============================================================================
-- It gets there
-- ============================================================================

section Progress

variable (parse endStreamFromJson) (closeWhenIdle : Bool)

/-- The turns of the reader of one stream are steps of the calls. -/
theorem exec_turns {h : Nat} (turns : List ReaderTurn) :
    ∀ {t : Transport} {s : Stream}, t.mux.streams[h]? = some s →
      Stream.reader.exec s turns = some s' →
      ∃ t', (transport parse endStreamFromJson closeWhenIdle).exec t
          (turns.map fun turn => .call (.mux (turn.event h))) = some t' ∧
        t'.stages = t.stages ∧ t'.calls.writers = t.calls.writers ∧
        t'.mux.streams[h]? = some s' := by
  induction turns with
  | nil =>
      intro t s hs hexec
      cases hexec
      exact ⟨t, rfl, rfl, rfl, hs⟩
  | cons turn turns ih =>
      intro t s hs hexec
      obtain ⟨s₁, hturn, hrest⟩ := (Machine.exec_cons _).mp hexec
      have hmux := Stream.step_of_turn hs hturn
      have hstep : t.step parse endStreamFromJson (.call (.mux (turn.event h))) =
          some { t with calls := { t.calls with mux := t.mux.setStream h s₁ } } := by
        have hcalls : t.calls.step (.mux (turn.event h)) =
            some { t.calls with mux := t.mux.setStream h s₁ } := by
          cases turn <;>
            · simp only [ReaderTurn.event] at hmux
              simp only [ReaderTurn.event, Calls.step, MuxEvent.ofCall]
              rw [show t.calls.mux = t.mux from rfl, hmux]
              rfl
        cases turn <;> simp only [ReaderTurn.event] at hcalls <;>
          simp [Transport.step, permits, started, ReaderTurn.event, hcalls]
      have hs₁ : (t.mux.setStream h s₁).streams[h]? = some s₁ :=
        Store.getElem?_modify.mpr (by simp [hs])
      obtain ⟨t', hexec', hstages, hwriters, hs'⟩ :=
        ih (t := { t with calls := { t.calls with mux := t.mux.setStream h s₁ } }) hs₁ hrest
      exact ⟨t', (Machine.exec_cons _).mpr ⟨_, hstep, hexec'⟩, hstages, hwriters, hs'⟩

/-- A call in its loop is told by the race. -/
theorem rethrown_of_iterating {h taken : Nat} {s : Stream}
    (hstage : t.stages[h]? = some (.iterating taken))
    (hwriter : t.calls.writers[h]? = some .aborted) (hs : t.mux.streams[h]? = some s) :
    ∃ t', (transport parse endStreamFromJson closeWhenIdle).exec t [.raced h] = some t' ∧
      t'.stages[h]? = some (.ended .requestFailed) := by
  have hlt := (List.getElem?_eq_some_iff.mp hstage).1
  refine ⟨t.finish h .requestFailed, ?_, ?_⟩
  · refine (Machine.exec_cons _).mpr ⟨_, ?_, rfl⟩
    show t.step parse endStreamFromJson (.raced h) = _
    simp [Transport.step, onCall, hstage, hwriter, hs]
  · rw [Transport.finish, List.getElem?_set]
    simp [hlt]

theorem rethrown_of_returned {h : Nat} {s : Stream}
    (hstage : t.stages[h]? = some .returned)
    (hwriter : t.calls.writers[h]? = some .aborted) (hs : t.mux.streams[h]? = some s) :
    ∃ t', (transport parse endStreamFromJson closeWhenIdle).exec t [.iterate h, .raced h] =
        some t' ∧ t'.stages[h]? = some (.ended .requestFailed) := by
  have hlt := (List.getElem?_eq_some_iff.mp hstage).1
  have hiterating : (t.setStage h (.iterating 1)).stages[h]? = some (.iterating 1) := by
    rw [Transport.setStage, List.getElem?_set]
    simp [hlt]
  obtain ⟨t', hexec, hended⟩ :=
    rethrown_of_iterating parse endStreamFromJson closeWhenIdle hiterating hwriter hs
  refine ⟨t', (Machine.exec_cons _).mpr ⟨_, ?_, hexec⟩, hended⟩
  show t.step parse endStreamFromJson (.iterate h) = _
  simp [Transport.step, onCall, hstage, hwriter, hs]

end Progress

theorem ofReader_event (h : Nat) (turn : ReaderTurn) :
    TransportEvent.ofReader h (.call (.mux (turn.event h))) = true := by
  cases turn <;> simp [ReaderTurn.event, TransportEvent.ofReader]

/-- By what the call and its consumer do themselves it comes to throw what the
    request iterator threw. -/
theorem Failing.gets_there [ConnectPackage.Lawful] (ht : t.Failing parse endStreamFromJson)
    (closeWhenIdle : Bool) {h : Nat}
    (hthrew : t.RequestThrew h) :
    ∃ evs t', (∀ ev ∈ evs, TransportEvent.ofReader h ev = true) ∧
      (transport parse endStreamFromJson closeWhenIdle).exec t evs = some t' ∧
      t'.stages[h]? = some (.ended .requestFailed) := by
  obtain ⟨hwriter, stage, hstage, hopen⟩ := id hthrew
  obtain ⟨s, hs⟩ : ∃ s, t.mux.streams[h]? = some s := by
    have hlt := (List.getElem?_eq_some_iff.mp hstage).1
    have := ht.stages
    exact ⟨_, List.getElem?_eq_getElem (by omega)⟩
  cases stage with
  | ended outcome => cases hopen
  | iterating taken =>
      obtain ⟨t', hexec, hended⟩ :=
        rethrown_of_iterating parse endStreamFromJson closeWhenIdle hstage hwriter hs
      exact ⟨_, t', by simp [TransportEvent.ofReader], hexec, hended⟩
  | returned =>
      obtain ⟨t', hexec, hended⟩ :=
        rethrown_of_returned parse endStreamFromJson closeWhenIdle hstage hwriter hs
      exact ⟨_, t', by simp [TransportEvent.ofReader], hexec, hended⟩
  | starting =>
      obtain ⟨env, rest, haborted, -, -⟩ := ht.aborted h s hthrew hs
      obtain ⟨turns, s₁, hturns, hanswered⟩ := haborted.drains (ht.tracked h s hs) (by simp)
      -- the reader hands on what had been routed
      have hkept : s₁.Tracked ∧ s₁.AbortedReadable parse endStreamFromJson := by
        refine Machine.exec_invariant (I := fun u : Stream =>
          u.Tracked ∧ u.AbortedReadable parse endStreamFromJson) Stream.reader ?_
          ⟨ht.tracked h s hs, ht.aborted h s hthrew hs⟩ hturns
        intro u turn v ⟨hu, hua⟩ hstep
        have hstream := Stream.streamStep_of_turn hstep
        exact ⟨hu.step hstream, hua.step hu hstream⟩
      obtain ⟨t₁, hexec₁, hstages₁, hwriters₁, hs₁⟩ :=
        exec_turns parse endStreamFromJson closeWhenIdle turns hs hturns
      obtain ⟨r, hr⟩ : ∃ r, s₁.response.envelopes.results[0]? = some r :=
        ⟨_, List.getElem?_eq_getElem (List.length_pos_iff.mpr hanswered)⟩
      have hfirst := hkept.2.first hkept.1 hr
      have hstage₁ : t₁.stages[h]? = some .starting := by rw [hstages₁, hstage]
      have hwriter₁ : t₁.calls.writers[h]? = some .aborted := by rw [hwriters₁, hwriter]
      have hrespond : (transport parse endStreamFromJson closeWhenIdle).step t₁ (.respond h) =
          some (t₁.setStage h .returned) := by
        show t₁.step parse endStreamFromJson (.respond h) = _
        rw [← List.head?_eq_getElem?] at hr
        simp [Transport.step, onCall, hstage₁, hwriter₁, hs₁, hr, hfirst]
      have hreturned : (t₁.setStage h .returned).stages[h]? = some .returned := by
        have hlt := (List.getElem?_eq_some_iff.mp hstage₁).1
        rw [Transport.setStage, List.getElem?_set]
        simp [hlt]
      obtain ⟨t', hexec, hended⟩ :=
        rethrown_of_returned parse endStreamFromJson closeWhenIdle hreturned hwriter₁ hs₁
      refine ⟨_, t', ?_, (Machine.exec_append _).mpr ⟨t₁, hexec₁,
        (Machine.exec_cons _).mpr ⟨_, hrespond, hexec⟩⟩, hended⟩
      intro ev hev
      rcases List.mem_append.mp hev with hturn | hlast
      · obtain ⟨turn, -, rfl⟩ := List.mem_map.mp hturn
        exact ofReader_event h turn
      · simp only [List.mem_cons, List.not_mem_nil, or_false] at hlast
        rcases hlast with rfl | rfl | rfl <;> simp [TransportEvent.ofReader]

end Transport

end Invariant

-- ============================================================================
-- Whole runs
-- ============================================================================

/-- In every run in which the request iterators that throw do so behind a
    readable response, each call whose request has failed comes to throw what
    that one threw, and ends in no other way unless its consumer leaves. -/
theorem request_errors_rethrown [ConnectPackage] [ConnectPackage.Lawful] (closeWhenIdle : Bool)
    (evs : List TransportEvent) {t : Transport}
    (hrun : (transport parse endStreamFromJson closeWhenIdle).run evs = some t)
    (hG : (transport parse endStreamFromJson closeWhenIdle).Meets
      (ThrowsReadable parse endStreamFromJson)
      (transport parse endStreamFromJson closeWhenIdle).init evs) :
    (transport parse endStreamFromJson closeWhenIdle).Meets
        (RethrowsRequestError parse endStreamFromJson)
        (transport parse endStreamFromJson closeWhenIdle).init evs ∧
      ∀ h, t.RequestThrew h → ∃ evs' t', (∀ ev ∈ evs', TransportEvent.ofReader h ev = true) ∧
        (transport parse endStreamFromJson closeWhenIdle).exec t evs' = some t' ∧
        t'.stages[h]? = some (.ended .requestFailed) := by
  have hinit : Transport.Failing parse endStreamFromJson
      (transport parse endStreamFromJson closeWhenIdle).init := Transport.failing_init closeWhenIdle
  constructor
  · exact Machine.meets_of_invariant _ (fun _ _ _ ht hthrow hstep => ht.step hthrow hstep)
      (fun t ev ht _ => ht.rethrows ev) hinit hG
  · intro h hthrew
    have ht := Machine.exec_invariant_of_meets
      (I := Transport.Failing parse endStreamFromJson) _
      (fun _ _ _ ht hthrow hstep => ht.step hthrow hstep) hinit hG hrun
    exact ht.gets_there closeWhenIdle hthrew

/-- A call that has opened its stream and written its request headers. -/
def requestStarted : List TransportEvent :=
  [.call (.mux .openStream), .call (.mux (.onopen 0)), .call (.mux (.resume 0)),
    .call (.headers 0 [])]

/-- The response headers have arrived when the request iterator throws. -/
def failsBehindHeaders : List TransportEvent :=
  requestStarted ++
    [.call (.mux (.onmessage 0 [0, 0, 0, 1, 6, 0, 0, 0, 2, 123, 125])), .call (.fail 0)]

open Connectrpc in
theorem error_behind_headers_rethrown :
    ∃ t, (transport (fun _ => .ok ()) (fun _ => .ok {}) false).run failsBehindHeaders = some t ∧
      t.RequestThrew 0 ∧
      ∃ evs t', (transport (fun _ => .ok ()) (fun _ => .ok {}) false).exec t evs = some t' ∧
        t'.stages[0]? = some (.ended .requestFailed) := by
  refine ⟨_, rfl, ⟨rfl, .starting, rfl, rfl⟩, ?_⟩
  obtain ⟨evs, t', -, hexec, hended⟩ := (request_errors_rethrown (fun _ => .ok ()) (fun _ => .ok {})
    false failsBehindHeaders rfl (by decide)).2 0 ⟨rfl, .starting, rfl, rfl⟩
  exact ⟨evs, t', hexec, hended⟩

open Connectrpc in
/-- The request iterator throws before any response: the call tells its caller
    of missing response headers. -/
theorem early_error_not_rethrown :
    ¬ ∀ (parse : Bytes → Except JsError Unit) (endStreamFromJson : Bytes → Except JsError EndStream)
      (closeWhenIdle : Bool) (evs : List TransportEvent),
      (transport parse endStreamFromJson closeWhenIdle).Meets
        (RethrowsRequestError parse endStreamFromJson)
        (transport parse endStreamFromJson closeWhenIdle).init evs := by
  intro h
  have hmeets := h (fun _ => .ok ()) (fun _ => .ok {}) false ((requestStarted ++
    [.call (.fail 0), .call (.mux (.read 0)), .call (.mux (.pull 0)), .call (.mux (.settle 0))]) ++
      [.respond 0])
  have hstep := Machine.guard_of_meets _ hmeets rfl
  have houtcome := hstep _ 0 _ rfl ⟨rfl, .starting, rfl, rfl⟩ rfl
  rcases houtcome with hrethrown | hleft
  · cases hrethrown
  · cases hleft

end Web
end BidiWeb
