/-
  BidiWeb.Web.TransportCall

  `stream` of `connect-websocket-transport.ts` from the return of `openStream`
  on: `next` hands the stream to `runWebTransportCall`, which answers with the
  response headers or throws, and returns `iterate()`, a generator that runs
  when its consumer asks for a message.

  Only `iterate()` releases the stream, in its `finally`: a generator that was
  never asked has not entered its `try`, and one that its consumer leaves is
  told so only if `runStreamingCall` of `@connectrpc/connect` forwards
  `return` (`ConnectPackage.forwardsReturn`).  A dedicated mux is made by the
  call that opens its one stream, and only the shared one is closed by the
  page.
-/

import BidiWeb.Core.HeadersFrame
import BidiWeb.Web.RequestWriter
import BidiWeb.Web.ResponseBody

namespace BidiWeb
namespace Web

open BidiWeb.Lib
open BidiWeb.Core (JsError Code)

-- ============================================================================
-- State
-- ============================================================================

/-- How a call ends. -/
inductive Outcome where
  | completed
  /-- It throws what the request iterator threw. -/
  | requestFailed
  | failed (error : ResponseError)
  /-- The consumer asks for no more messages. -/
  | left
deriving DecidableEq

/-- How far a call that has opened its stream is. -/
inductive Stage where
  /-- `runWebTransportCall` runs. -/
  | starting
  /-- `iterate()` has been returned and not been asked for a message. -/
  | returned
  /-- The loop of `iterate()` has taken so many results of the envelope stream,
      that of `runWebTransportCall` included. -/
  | iterating (taken : Nat)
  | ended (outcome : Outcome)
deriving DecidableEq

def Stage.hasEnded : Stage → Bool
  | .ended _ => true
  | .starting | .returned | .iterating _ => false

/-- The calls on a mux, and the stage of each. -/
structure Transport where
  calls : Calls := {}
  stages : List Stage := []
deriving DecidableEq

inductive TransportEvent where
  /-- The mux or the request writer of a call moves. -/
  | call (ev : CallEvent)
  /-- `encodeHeadersFrame` throws, or the write of the headers rejects. -/
  | headersFail (h : Nat) (reason : JsError)
  /-- The first read of the response settles. -/
  | respond (h : Nat)
  /-- The consumer asks `iterate()` for its first message. -/
  | iterate (h : Nat)
  /-- The next read of the response settles. -/
  | next (h : Nat)
  /-- `writePromise` has rejected and wins the race against that read. -/
  | raced (h : Nat)
  /-- The consumer stops at a message. -/
  | leave (h : Nat)
  /-- The consumer never asks for a message. -/
  | abandon (h : Nat)
deriving DecidableEq

-- ============================================================================
-- What a settled read comes to
-- ============================================================================

def missingResponseHeaders : JsError :=
  .connectError "protocol error: missing response headers" Code.internal

def expectedHeaders (flags : UInt8) : JsError :=
  .connectError ("protocol error: expected headers envelope, got 0x" ++ toString16 flags)
    Code.internal

/-- A throw. -/
def Stage.throw (reason : JsError) : Stage := .ended (.failed { reason })

/-- `runWebTransportCall` after its first `await envReader.read()`. -/
def firstRead : ReadResult Envelope JsError → Stage
  | .done => .throw missingResponseHeaders
  | .rejected e => .throw e
  | .chunk env =>
      if env.flag ≠ flagEnvelopeHeaders then .throw (expectedHeaders env.flag)
      else
        match Core.decodeHeadersFrame env.payload with
        | .error reason => .throw reason
        | .ok _ => .returned

section Loop

variable {M : Type*} (parse : Bytes → Except JsError M)
  (endStreamFromJson : Bytes → Except JsError EndStream)

/-- The loop of `iterate()` after the read that follows `taken` others; `none`
    where it goes on to wait for the request. -/
def nextRead (taken : Nat) (writer : Writer) : ReadResult Envelope JsError → Option Stage
  | .chunk env =>
      match item parse endStreamFromJson env with
      | .message _ => some (.iterating (taken + 1))
      | .fault reason => some (.throw reason)
      | .failure _ error => some (.ended (.failed error))
      | .success _ => some (.ended .completed)
  | .done =>
      -- `await writePromise`
      match writer with
      | .headers | .messages => none
      | .closed => some (.ended .completed)
      | .aborted => some (.ended .requestFailed)
  | .rejected e => some (.throw e)

-- ============================================================================
-- Steps
-- ============================================================================

namespace Transport

variable (t : Transport)

def mux : WebSocketMux := t.calls.mux

/-- Call `h` has ended. -/
def hasEnded (h : Nat) : Bool := t.stages[h]?.any Stage.hasEnded

/-- The moves of mux and writers that leave the end of a call to the call. -/
def permits : CallEvent → Bool
  | .mux .openStream => !t.mux.closeWhenIdle || t.mux.sockets.isEmpty
  | .mux .close => !t.mux.closeWhenIdle
  | .headers h _ => t.stages[h]? = some .starting
  | .release _ => false
  | _ => true

/-- A call whose `openStream` resumes is starting. -/
def started : CallEvent → List Stage
  | .mux (.resume _) => t.stages ++ [.starting]
  | _ => t.stages

def onCall (h : Nat) (f : Stage → Writer → Stream → Option Transport) : Option Transport :=
  match t.stages[h]?, t.calls.writers[h]?, t.mux.streams[h]? with
  | some stage, some writer, some s => f stage writer s
  | _, _, _ => none

def setStage (h : Nat) (stage : Stage) : Transport :=
  { t with stages := t.stages.set h stage }

/-- `iterate()` is over: its `finally` block. -/
def finish (h : Nat) (outcome : Outcome) : Transport :=
  { calls := { t.calls with mux := t.mux.closeStream h }
    stages := t.stages.set h (.ended outcome) }

/-- `iterate()` goes on at a stage. -/
def proceed (h : Nat) : Stage → Transport
  | .ended outcome => t.finish h outcome
  | stage => t.setStage h stage

def step [connect : ConnectPackage] (ev : TransportEvent) : Option Transport :=
  match ev with
  | .call ev =>
      if t.permits ev then
        (t.calls.step ev).map fun calls => { calls, stages := t.started ev }
      else none
  | .headersFail h reason =>
      t.onCall h fun stage writer _ =>
        if stage = .starting ∧ writer = .headers then some (t.setStage h (.throw reason)) else none
  | .respond h =>
      t.onCall h fun stage writer s =>
        if stage = .starting ∧ writer ≠ .headers then
          s.response.envelopes.results.head?.map fun r => t.setStage h (firstRead r)
        else none
  | .iterate h =>
      t.onCall h fun stage _ _ =>
        if stage = .returned then some (t.setStage h (.iterating 1)) else none
  | .next h =>
      t.onCall h fun stage writer s =>
        match stage with
        | .iterating taken =>
            (s.response.envelopes.results[taken]?.bind
              (nextRead parse endStreamFromJson taken writer)).map (t.proceed h)
        | _ => none
  | .raced h =>
      t.onCall h fun stage writer _ =>
        match stage, writer with
        | .iterating _, .aborted => some (t.finish h .requestFailed)
        | _, _ => none
  | .leave h =>
      t.onCall h fun stage _ _ =>
        match stage with
        | .iterating taken =>
            if 2 ≤ taken then
              -- `iterate()` hears of it only if its `return` is called
              if connect.forwardsReturn then some (t.finish h .left)
              else some (t.setStage h (.ended .left))
            else none
        | _ => none
  | .abandon h =>
      t.onCall h fun stage _ _ =>
        if stage = .returned then some (t.setStage h (.ended .left)) else none

/-- The first result of the response is a headers envelope that decodes. -/
def hasHeaders (h : Nat) : Bool :=
  match t.mux.streams[h]? with
  | some s => s.response.envelopes.results.head?.any fun r => firstRead r = .returned
  | none => false

/-- The next result that `iterate()` takes is a message that parses. -/
def hasMessage (h : Nat) : Bool :=
  match t.stages[h]?, t.mux.streams[h]? with
  | some (.iterating taken), some s =>
      match s.response.envelopes.results[taken]? with
      | some (.chunk env) => isReadable parse endStreamFromJson env
      | _ => false
  | _, _ => false

/-- The call that ends outside `iterate()`, or leaves it suspended. -/
def abandons [connect : ConnectPackage] : TransportEvent → Option Nat
  | .headersFail h _ | .abandon h => some h
  | .respond h => if t.hasHeaders h then none else some h
  | .leave h => if connect.forwardsReturn then none else some h
  | .call _ | .iterate _ | .next _ | .raced _ => none

/-- The call whose `iterate()` ends. -/
def concludes [connect : ConnectPackage] : TransportEvent → Option Nat
  | .next h => if t.hasMessage parse endStreamFromJson h then none else some h
  | .raced h => some h
  | .leave h => if connect.forwardsReturn then some h else none
  | .call _ | .iterate _ | .headersFail _ _ | .abandon _ | .respond _ => none

end Transport

/-- The calls of one mux, the shared one or, with `closeWhenIdle`, that of one
    call. -/
def transport [ConnectPackage] (closeWhenIdle : Bool) : Machine Transport TransportEvent where
  init := { calls := { mux := { closeWhenIdle } } }
  step t ev := t.step parse endStreamFromJson ev

end Loop

-- ============================================================================
-- What a step does to mux and writers
-- ============================================================================

/-- What the mux sees of a move. -/
def CallEvent.onMux : CallEvent → MuxEvent
  | .mux ev => ev
  | .headers h headersBytes =>
      .write h (Core.encodeEnvelope flagEnvelopeHeaders headersBytes)
  | .message h msg => .write h (Core.encodeEnvelope flagEnvelopeData msg)
  | .finish h => .closeWriter h
  | .fail h | .release h => .closeStream h

theorem Calls.mux_step [ConnectPackage] {c c' : Calls} {ev : CallEvent}
    (hstep : c.step ev = some c') :
    c.mux.step ev.onMux = some c'.mux := by
  have hwrite : ∀ {h before after mev}, c.write h before after mev = some c' →
      c.mux.step mev = some c'.mux := by
    intro h before after mev hw
    unfold Calls.write at hw
    split at hw
    · obtain ⟨mux, hmux, rfl⟩ := Option.map_eq_some_iff.mp hw
      exact hmux
    · cases hw
  cases ev with
  | mux ev =>
      unfold Calls.step at hstep
      split at hstep
      · rename_i i heq
        cases heq
        obtain ⟨mux, hmux, rfl⟩ := Option.map_eq_some_iff.mp hstep
        exact hmux
      · rename_i heq
        cases heq
        split at hstep
        · cases hstep
        · obtain ⟨mux, hmux, rfl⟩ := Option.map_eq_some_iff.mp hstep
          exact hmux
      all_goals rename_i heq; cases heq
  | headers h headersBytes => exact hwrite hstep
  | message h msg => exact hwrite hstep
  | finish h => exact hwrite hstep
  | fail h => exact hwrite hstep
  | release h =>
      simp only [Calls.step] at hstep
      split at hstep
      · cases hstep
        rfl
      · cases hstep

namespace Transport

variable {connect : ConnectPackage} {M : Type*} {parse : Bytes → Except JsError M}
  {endStreamFromJson : Bytes → Except JsError EndStream} {t t' : Transport}

theorem firstRead_ne_iterating (r : ReadResult Envelope JsError) (taken : Nat) :
    firstRead r ≠ .iterating taken := by
  unfold firstRead
  split
  · simp [Stage.throw]
  · simp [Stage.throw]
  · split
    · simp [Stage.throw]
    · split <;> simp [Stage.throw]

theorem firstRead_cases (r : ReadResult Envelope JsError) :
    firstRead r = .returned ∨ ∃ outcome, firstRead r = .ended outcome := by
  unfold firstRead
  split
  · exact .inr ⟨_, rfl⟩
  · exact .inr ⟨_, rfl⟩
  · split
    · exact .inr ⟨_, rfl⟩
    · split
      · exact .inr ⟨_, rfl⟩
      · exact .inl rfl

/-- The loop goes on with a message, and ends with anything else. -/
theorem nextRead_cases {taken : Nat} {writer : Writer} {r : ReadResult Envelope JsError}
    {after : Stage} (h : nextRead parse endStreamFromJson taken writer r = some after) :
    (∃ env, r = .chunk env ∧ isReadable parse endStreamFromJson env = true ∧
      after = .iterating (taken + 1)) ∨
    ∃ outcome, after = .ended outcome ∧
      ∀ env, r = .chunk env → isReadable parse endStreamFromJson env = false := by
  cases r with
  | chunk env =>
      simp only [nextRead] at h
      cases hitem : item parse endStreamFromJson env with
      | message m =>
          rw [hitem] at h
          exact .inl ⟨env, rfl, by simp [isReadable, hitem], (Option.some.inj h).symm⟩
      | fault reason | failure metadata error | success metadata =>
          rw [hitem] at h
          refine .inr ⟨_, (Option.some.inj h).symm, ?_⟩
          rintro _ ⟨⟩
          simp [isReadable, hitem]
  | done =>
      simp only [nextRead] at h
      split at h
      · cases h
      · cases h
      · exact .inr ⟨_, (Option.some.inj h).symm, fun _ h => by cases h⟩
      · exact .inr ⟨_, (Option.some.inj h).symm, fun _ h => by cases h⟩
  | rejected e => exact .inr ⟨_, (Option.some.inj h).symm, fun _ h => by cases h⟩

theorem hasEnded_iff {h : Nat} :
    t.hasEnded h = true ↔ ∃ outcome, t.stages[h]? = some (.ended outcome) := by
  unfold hasEnded
  cases hstage : t.stages[h]? with
  | none => simp
  | some stage => cases stage <;> simp [Stage.hasEnded]

theorem onCall_eq_some {h : Nat} {f : Stage → Writer → Stream → Option Transport}
    (hf : t.onCall h f = some t') :
    ∃ stage writer s, t.stages[h]? = some stage ∧ t.calls.writers[h]? = some writer ∧
      t.mux.streams[h]? = some s ∧ f stage writer s = some t' := by
  unfold onCall at hf
  split at hf
  · rename_i stage writer s hstage hwriter hs
    exact ⟨stage, writer, s, hstage, hwriter, hs, hf⟩
  · cases hf

/-- The ways a step goes: the mux or a writer moves, a call that is still open
    gets to a stage, or one that was in `iterate()` ends there. -/
inductive Stepped [ConnectPackage] (parse : Bytes → Except JsError M)
    (endStreamFromJson : Bytes → Except JsError EndStream) (t : Transport) :
    TransportEvent → Transport → Prop
  | call {ev : CallEvent} {calls : Calls} (hpermits : t.permits ev = true)
      (hcalls : t.calls.step ev = some calls) :
      Stepped parse endStreamFromJson t (.call ev) { calls, stages := t.started ev }
  | stage {ev : TransportEvent} {h : Nat} {before after : Stage} {s : Stream}
      (hbefore : t.stages[h]? = some before)
      (hs : t.mux.streams[h]? = some s) (hopen : before.hasEnded = false)
      (hiter : ∀ taken, after = .iterating taken → 1 ≤ taken)
      (habandons : t.abandons ev = if after.hasEnded then some h else none)
      (hconcludes : t.concludes parse endStreamFromJson ev = none) :
      Stepped parse endStreamFromJson t ev (t.setStage h after)
  | finished {ev : TransportEvent} {h taken : Nat} {s : Stream} (outcome : Outcome)
      (hbefore : t.stages[h]? = some (.iterating taken)) (hs : t.mux.streams[h]? = some s)
      (habandons : t.abandons ev = none)
      (hconcludes : t.concludes parse endStreamFromJson ev = some h) :
      Stepped parse endStreamFromJson t ev (t.finish h outcome)

theorem stepped {ev : TransportEvent} (hstep : t.step parse endStreamFromJson ev = some t') :
    t.Stepped parse endStreamFromJson ev t' := by
  cases ev with
  | call ev =>
      simp only [step] at hstep
      split at hstep
      · obtain ⟨calls, hcalls, rfl⟩ := Option.map_eq_some_iff.mp hstep
        exact .call ‹_› hcalls
      · cases hstep
  | headersFail h reason =>
      obtain ⟨stage, writer, s, hstage, -, hs, hf⟩ := onCall_eq_some hstep
      split at hf
      · rename_i hboth
        cases hf
        exact .stage hstage hs (by rw [hboth.1]; rfl) (fun taken h => by cases h) rfl rfl
      · cases hf
  | respond h =>
      obtain ⟨stage, writer, s, hstage, hwriter, hs, hf⟩ := onCall_eq_some hstep
      split at hf
      · rename_i hboth
        obtain ⟨r, hr, rfl⟩ := Option.map_eq_some_iff.mp hf
        obtain rfl := hboth.1
        refine .stage hstage hs rfl ?_ ?_ rfl
        · intro taken h
          exact absurd h (firstRead_ne_iterating r taken)
        · rcases firstRead_cases r with hreturned | ⟨outcome, hended⟩
          · simp [abandons, hasHeaders, hs, hr, hreturned, Stage.hasEnded]
          · simp [abandons, hasHeaders, hs, hr, hended, Stage.hasEnded]
      · cases hf
  | iterate h =>
      obtain ⟨stage, writer, s, hstage, -, hs, hf⟩ := onCall_eq_some hstep
      split at hf
      · rename_i hreturned
        cases hf
        refine .stage hstage hs (by rw [hreturned]; rfl) ?_ rfl rfl
        intro taken h
        cases h
        exact Nat.le_refl 1
      · cases hf
  | next h =>
      obtain ⟨stage, writer, s, hstage, hwriter, hs, hf⟩ := onCall_eq_some hstep
      split at hf
      · rename_i taken
        obtain ⟨after, hread, rfl⟩ := Option.map_eq_some_iff.mp hf
        obtain ⟨r, hr, hnext⟩ := Option.bind_eq_some_iff.mp hread
        rcases nextRead_cases hnext with ⟨env, rfl, hreadable, rfl⟩ | ⟨outcome, rfl, hnot⟩
        · refine .stage hstage hs rfl ?_ rfl ?_
          · intro n h
            cases h
            omega
          · simp [concludes, hasMessage, hstage, hs, hr, hreadable]
        · refine .finished outcome hstage hs rfl ?_
          cases r with
          | chunk env => simp [concludes, hasMessage, hstage, hs, hr, hnot env rfl]
          | done => simp [concludes, hasMessage, hstage, hs, hr]
          | rejected e => simp [concludes, hasMessage, hstage, hs, hr]
      · cases hf
  | raced h =>
      obtain ⟨stage, writer, s, hstage, -, hs, hf⟩ := onCall_eq_some hstep
      split at hf
      · cases hf
        exact .finished _ hstage hs rfl rfl
      · cases hf
  | leave h =>
      obtain ⟨stage, writer, s, hstage, -, hs, hf⟩ := onCall_eq_some hstep
      split at hf
      · split at hf
        · split at hf
          · rename_i hforwards
            cases hf
            exact .finished _ hstage hs (by simp [abandons, hforwards])
              (by simp [concludes, hforwards])
          · rename_i hforwards
            cases hf
            exact .stage hstage hs rfl (fun taken h => by cases h)
              (by simp [abandons, hforwards, Stage.hasEnded]) (by simp [concludes, hforwards])
        · cases hf
      · cases hf
  | abandon h =>
      obtain ⟨stage, writer, s, hstage, -, hs, hf⟩ := onCall_eq_some hstep
      split at hf
      · rename_i hreturned
        cases hf
        exact .stage hstage hs (by rw [hreturned]; rfl) (fun taken h => by cases h) rfl rfl
      · cases hf

end Transport

end Web
end BidiWeb
