/-
  BidiWeb.ConnectWebSocket.ServerStreams

  The server end of a connection on its own: `ServeHTTP` against any sequence
  of frames and any interleaving of its handlers.

  Two invariants.  `Table` is about the read loop and the map: only the loop
  adds entries, so what `lookup` has found or missed is still there or still
  missing, apart from an entry that a handler has deregistered.  `Exiting` is
  about the handlers: a handler that has returned has yet to terminate its
  stream, or has terminated it.
-/

import BidiWeb.ConnectWebSocket.MuxConn
import Mathlib.Data.List.Perm.Basic

namespace BidiWeb
namespace ConnectWebSocket

open BidiWeb.Lib

/-- `ServeHTTP` on an accepted connection. -/
def serveHTTP : Machine MuxConn ConnEvent where
  init := { role := .server }
  step := MuxConn.step

namespace MuxConn

variable {c c' : MuxConn}

-- ============================================================================
-- The read loop and the map
-- ============================================================================

structure Table (c : MuxConn) : Prop where
  role : c.role = .server
  /-- A registered ID is that of its stream. -/
  streams : ∀ id h, c.streams id = some h → c.idOf h = some id
  found : ∀ h f, c.loop = .found h f →
    c.idOf h = some f.id ∧ ∀ j, c.streams f.id = some j → j = h
  missing : ∀ f, c.loop = .missing f → c.streams f.id = none
  resetting : ∀ h, c.loop = .resetting h → ∀ id, c.streams id ≠ some h
  closed : c.closed = true → c.loop = .stopped
  stopped : c.loop = .stopped → ∀ id, c.streams id = none

theorem table_init : Table serveHTTP.init where
  role := rfl
  streams := fun _ _ h => by cases h
  found := fun _ _ h => by cases h
  missing := fun _ h => by cases h
  resetting := fun _ h => by cases h
  closed := fun h => by cases h
  stopped := fun h => by cases h

/-- Streams change, tasks come and go, entries leave the map. -/
theorem Table.of_streams (hc : c.Table) (hrole : c'.role = c.role) (hloop : c'.loop = c.loop)
    (hclosed : c'.closed = c.closed) (hids : ∀ h, c'.idOf h = c.idOf h)
    (hstreams : ∀ id j, c'.streams id = some j → c.streams id = some j) : c'.Table := by
  have hnone : ∀ {id}, c.streams id = none → c'.streams id = none := by
    intro id hid
    cases hj : c'.streams id with
    | none => rfl
    | some j =>
        rw [hstreams _ _ hj] at hid
        cases hid
  refine
    { role := hrole.trans hc.role
      streams := fun id h hreg => (hids h).trans (hc.streams id h (hstreams _ _ hreg))
      found := ?_
      missing := fun f hl => hnone (hc.missing f (hloop ▸ hl))
      resetting := fun h hl id hreg => hc.resetting h (hloop ▸ hl) id (hstreams _ _ hreg)
      closed := fun h => hloop.trans (hc.closed (hclosed ▸ h))
      stopped := fun hl id => hnone (hc.stopped (hloop ▸ hl) id) }
  intro h f hl
  obtain ⟨hid, huniq⟩ := hc.found h f (hloop ▸ hl)
  exact ⟨(hids h).trans hid, fun j hj => huniq j (hstreams _ _ hj)⟩

/-- The loop, which runs, goes on at `loop`. -/
theorem Table.goesOn (hc : c.Table) (hrun : c.loop ≠ .stopped) {loop : Loop} {seen : List Frame}
    (hnext : loop ≠ .stopped) (hfound : ∀ h f, loop = .found h f → c.streams f.id = some h)
    (hmissing : ∀ f, loop = .missing f → c.streams f.id = none)
    (hresetting : ∀ h, loop = .resetting h → ∀ id, c.streams id ≠ some h) :
    { c with loop, seen }.Table where
  role := hc.role
  streams := hc.streams
  found := fun h f hl =>
    have hreg := hfound h f hl
    ⟨hc.streams _ _ hreg, fun _ hj => Option.some.inj (hj.symm.trans hreg)⟩
  missing := hmissing
  resetting := hresetting
  closed := fun h => absurd (hc.closed h) hrun
  stopped := fun h => absurd h hnext

/-- The loop goes back to `readFrame`. -/
theorem Table.read (hc : c.Table) (hl : c.loop ≠ .stopped) : { c with loop := .reading }.Table :=
  hc.goesOn hl (fun h => by cases h) (fun _ _ h => by cases h) (fun _ h => by cases h)
    fun _ h => by cases h

theorem Table.modify (hc : c.Table) {h : Nat} {f : StreamObject → StreamObject}
    (hf : ∀ o, (f o).stream.id = o.stream.id) : (c.modify h f).Table :=
  hc.of_streams rfl rfl rfl (idOf_modify hf) fun _ _ hreg => hreg

theorem Table.terminate (hc : c.Table) (h : Nat) (err : GoError) : (c.terminate h err).Table :=
  hc.modify fun o => o.stream.terminate_id err

theorem Table.deregister (hc : c.Table) (id : UInt32) : (c.deregister id).Table :=
  hc.of_streams rfl rfl rfl (fun _ => rfl) fun _ _ hreg => (deregister_streams.mp hreg).2

theorem Table.start (hc : c.Table) {f : Frame} (hl : c.loop = .missing f) :
    { c.startStream f with loop := .reading }.Table := by
  have hrun : c.loop ≠ .stopped := by
    rw [hl]
    exact fun h => by cases h
  rcases c.startStream_cases f with hrefused | ⟨-, -, hinsert⟩
  · rw [hrefused]
    exact hc.read hrun
  · rw [hinsert]
    refine
      { role := hc.role
        streams := fun id h hreg => ?_
        found := fun _ _ h => by cases h
        missing := fun _ h => by cases h
        resetting := fun _ h => by cases h
        closed := fun h => absurd (hc.closed h) hrun
        stopped := fun h => by cases h }
    rcases insert_streams.mp hreg with ⟨rfl, rfl⟩ | ⟨-, hold⟩
    · exact idOf_eq_some.mpr ⟨_, Store.getElem?_concat.mpr (.inr ⟨rfl, rfl⟩), rfl⟩
    · exact idOf_insert (hc.streams id h hold)

/-- Receiving from an inbox keeps the IDs. -/
theorem idOf_read {h : Nat} {o : StreamObject} (ho : c.objs[h]? = some o) {env : Envelope}
    {stream : MuxStream} (hreceive : o.stream.receive = some (env, stream)) (j : Nat) :
    (c.modify h fun o => { o with stream, returned := o.returned ++ [env] }).idOf j = c.idOf j := by
  simp only [idOf, MuxConn.modify, List.getElem?_modify]
  by_cases hhj : h = j
  · subst hhj
    simp [ho, o.stream.receive_id hreceive]
  · simp [hhj]

/-- `lookup` returns the stream of a reset frame, which is deregistered. -/
theorem Table.resets (hc : c.Table) {h : Nat} {f : Frame} (hl : c.loop = .found h f) :
    { c.deregister f.id with loop := .resetting h }.Table := by
  have hrun : (c.deregister f.id).loop ≠ .stopped := by
    rw [show (c.deregister f.id).loop = c.loop from rfl, hl]
    exact fun h => by cases h
  refine (hc.deregister f.id).goesOn hrun (fun h => by cases h) (fun _ _ h => by cases h)
    (fun _ h => by cases h) fun h' heq id hreg => ?_
  obtain rfl : h = h' := by simpa using heq
  obtain ⟨hne, hold⟩ := deregister_streams.mp hreg
  have hid := (hc.found h f hl).1
  exact hne (Option.some.inj ((hc.streams id h hold).symm.trans hid))

theorem Table.step (hc : c.Table) {ev : ConnEvent} (hstep : Stepped c ev c') : c'.Table := by
  have hrun : ∀ {loop : Loop}, c.loop = loop → loop ≠ .stopped → c.loop ≠ .stopped :=
    fun hl hne => hl ▸ hne
  cases hstep with
  | recv f hl =>
      exact hc.goesOn (hrun hl fun h => by cases h) (fun h => by cases h) (fun _ _ h => by cases h)
        (fun _ h => by cases h) fun _ h => by cases h
  | recvFails err hl =>
      exact
        { role := hc.role
          streams := fun _ _ h => by cases h
          found := fun _ _ h => by cases h
          missing := fun _ h => by cases h
          resetting := fun _ h => by cases h
          closed := fun _ => rfl
          stopped := fun _ _ => rfl }
  | found h f hl hreg =>
      refine hc.goesOn (hrun hl fun h => by cases h) (fun h => by cases h) (fun h' f' heq => ?_)
        (fun _ h => by cases h) fun _ h => by cases h
      obtain ⟨rfl, rfl⟩ : h = h' ∧ f = f' := by simpa using heq
      exact hreg
  | missing f hl hnone =>
      refine hc.goesOn (hrun hl fun h => by cases h) (fun h => by cases h) (fun _ _ h => by cases h)
        (fun f' heq => ?_) fun _ h => by cases h
      obtain rfl : f = f' := by simpa using heq
      exact hnone
  | start f hl => exact hc.start hl
  | skip f hl => exact hc.read (hrun hl fun h => by cases h)
  | reset h f hl => exact hc.resets hl
  | deliver h f o hl =>
      exact (hc.modify (h := h) (f := (StreamObject.push · f.env)) fun _ => rfl).read
        (hrun hl fun h => by cases h)
  | resetTerminate h hl => exact (hc.terminate h _).read (hrun hl fun h => by cases h)
  | drop h f o hl => exact hc.read (hrun hl fun h => by cases h)
  | newStream _ hrole | close _ _ hrole | shutdown hrole =>
      rw [hc.role] at hrole
      cases hrole
  | writeRefused => exact hc
  | writeChecked | taskClose | taskReset | taskClosed | writeFails | resetFails =>
      exact hc.of_streams rfl rfl rfl (fun _ => rfl) fun _ _ hreg => hreg
  | read h o env stream ho _ hreceive =>
      exact hc.of_streams rfl rfl rfl (idOf_read ho hreceive) fun _ _ hreg => hreg
  | cancel h err => exact hc.modify fun _ => rfl
  | handlerReturn h o =>
      have hdone := hc.modify (h := h) (f := fun o => { o with handlerDone := true }) fun _ => rfl
      exact hdone.of_streams rfl rfl rfl (fun _ => rfl) fun _ _ hreg => hreg
  | taskWrite k h env o =>
      exact (hc.modify (h := h) (f := (StreamObject.write · env)) fun _ => rfl).of_streams
        rfl rfl rfl (fun _ => rfl) fun _ _ hreg => hreg
  | taskTerminate k h t rest err =>
      exact (hc.terminate h err).of_streams rfl rfl rfl (fun _ => rfl) fun _ _ hreg => hreg
  | taskDeregister k h o =>
      exact (hc.deregister o.stream.id).of_streams rfl rfl rfl (fun _ => rfl) fun _ _ hreg => hreg

-- ============================================================================
-- The handlers
-- ============================================================================

theorem countP_setTask {k : Nat} {t : Task} (hk : c.tasks[k]? = some t) (rest : List Task)
    (p : Task → Bool) :
    (c.setTask k rest).tasks.countP p + (if p t then 1 else 0) =
      c.tasks.countP p + rest.countP p := by
  obtain ⟨hlt, ht⟩ := List.getElem?_eq_some_iff.mp hk
  have hperm := (List.getElem_cons_eraseIdx_perm hlt).countP_eq p
  rw [List.countP_cons, ht] at hperm
  show (c.tasks.eraseIdx k ++ rest).countP p + _ = _
  rw [List.countP_append]
  omega

/-- What has happened to a stream whose task of this kind is pending. -/
def TaskOk (c : MuxConn) : Task → Prop
  | .write .. => True
  -- `Close` is for clients
  | .close _ | .closeTerminate .. | .closeReset .. => False
  | .exit h => ∃ o : StreamObject, c.objs[h]? = some o ∧ o.handlerDone = true
  | .exitDeregister h => ∃ o : StreamObject, c.objs[h]? = some o ∧ o.handlerDone = true ∧
      o.stream.terminated = true
  | .terminate .. => c.loop = .stopped

structure Exiting (c : MuxConn) : Prop where
  /-- Terminating a stream cancels its handler. -/
  cancelled : ∀ (h : Nat) (o : StreamObject), c.objs[h]? = some o →
    o.stream.cancel = true ∧ (o.stream.terminated = true → o.stream.ctxErr.isSome = true)
  /-- A handler that has returned terminates its stream. -/
  done : ∀ (h : Nat) (o : StreamObject), c.objs[h]? = some o → o.handlerDone = true →
    o.stream.terminated = true ∨ .exit h ∈ c.tasks
  tasks : ∀ t ∈ c.tasks, c.TaskOk t

theorem exiting_init : Exiting serveHTTP.init where
  cancelled := fun _ _ h => by cases h
  done := fun _ _ h => by cases h
  tasks := fun _ h => by cases h

/-- How a stream may change while the tasks stay. -/
structure Evolves (o o' : StreamObject) : Prop where
  cancel : o'.stream.cancel = o.stream.cancel
  terminated : o.stream.terminated = true → o'.stream.terminated = true
  done : o'.handlerDone = o.handlerDone
  cancelled : o.stream.cancel = true →
    (o.stream.terminated = true → o.stream.ctxErr.isSome = true) →
      o'.stream.terminated = true → o'.stream.ctxErr.isSome = true

theorem TaskOk.of_objs {t : Task} (ht : c.TaskOk t) (hloop : c.loop = .stopped → c'.loop = .stopped)
    (hobjs : ∀ (h : Nat) (o : StreamObject), c.objs[h]? = some o → ∃ o' : StreamObject,
      c'.objs[h]? = some o' ∧ (o.handlerDone = true → o'.handlerDone = true) ∧
        (o.stream.terminated = true → o'.stream.terminated = true)) : c'.TaskOk t := by
  cases t with
  | write => trivial
  | close | closeTerminate | closeReset => exact ht
  | exit h =>
      obtain ⟨o, ho, hdone⟩ := ht
      obtain ⟨o', ho', hkeep, -⟩ := hobjs h o ho
      exact ⟨o', ho', hkeep hdone⟩
  | exitDeregister h =>
      obtain ⟨o, ho, hdone, hterm⟩ := ht
      obtain ⟨o', ho', hkeep, hkeepTerm⟩ := hobjs h o ho
      exact ⟨o', ho', hkeep hdone, hkeepTerm hterm⟩
  | terminate h err => exact hloop ht

theorem Exiting.of_same (hc : c.Exiting) (hobjs : c'.objs = c.objs) (htasks : c'.tasks = c.tasks)
    (hloop : c.loop = .stopped → c'.loop = .stopped) : c'.Exiting where
  cancelled := by
    rw [hobjs]
    exact hc.cancelled
  done := by
    rw [hobjs, htasks]
    exact hc.done
  tasks := fun t ht => (hc.tasks t (htasks ▸ ht)).of_objs hloop fun h o ho =>
    ⟨o, hobjs ▸ ho, fun h => h, fun h => h⟩

theorem Exiting.modify (hc : c.Exiting) {h : Nat} {f : StreamObject → StreamObject}
    (hf : ∀ o, c.objs[h]? = some o → Evolves o (f o)) : (c.modify h f).Exiting where
  cancelled := by
    refine Store.forall_modify (P := fun _ (o : StreamObject) => o.stream.cancel = true ∧
      (o.stream.terminated = true → o.stream.ctxErr.isSome = true)) hc.cancelled fun o ho => ?_
    obtain ⟨hcancel, hctx⟩ := hc.cancelled h o ho
    exact ⟨(hf o ho).cancel.trans hcancel, (hf o ho).cancelled hcancel hctx⟩
  done := by
    refine Store.forall_modify (P := fun j (o : StreamObject) => o.handlerDone = true →
      o.stream.terminated = true ∨ .exit j ∈ c.tasks) hc.done fun o ho hdone => ?_
    exact (hc.done h o ho ((hf o ho).done ▸ hdone)).imp_left (hf o ho).terminated
  tasks := fun t ht => (hc.tasks t ht).of_objs (fun hl => hl) fun j o ho => by
    simp only [MuxConn.modify, Store.getElem?_modify]
    by_cases hhj : h = j
    · subst hhj
      exact ⟨f o, by simp [ho], fun hdone => (hf o ho).done.trans hdone, (hf o ho).terminated⟩
    · exact ⟨o, by simp [hhj, ho], fun h => h, fun h => h⟩

theorem evolves_terminate (o : StreamObject) (err : GoError) :
    Evolves o { o with stream := o.stream.terminate err } where
  cancel := by
    show (o.stream.terminate err).cancel = _
    unfold MuxStream.terminate
    split <;> rfl
  terminated := fun _ => o.stream.terminated_terminate err
  done := rfl
  cancelled := fun hcancel hctx _ => by
    show (o.stream.terminate err).ctxErr.isSome = true
    unfold MuxStream.terminate
    split
    · rename_i err' herr
      exact hctx (by simp [MuxStream.terminated, herr])
    · simp only [hcancel, if_true]
      cases o.stream.ctxErr <;> rfl

/-- A change that terminates and returns nothing. -/
theorem evolves_of_same {o o' : StreamObject} (hcancel : o'.stream.cancel = o.stream.cancel)
    (hterm : o'.stream.terminalErr = o.stream.terminalErr) (hdone : o'.handlerDone = o.handlerDone)
    (hctx : o.stream.ctxErr.isSome = true → o'.stream.ctxErr.isSome = true) : Evolves o o' where
  cancel := hcancel
  terminated := fun h => by
    rw [MuxStream.terminated, hterm]
    exact h
  done := hdone
  cancelled := fun _ hold h => hctx (hold (by
    rw [MuxStream.terminated, hterm] at h
    exact h))

theorem Exiting.terminate (hc : c.Exiting) (h : Nat) (err : GoError) :
    (c.terminate h err).Exiting :=
  hc.modify fun o _ => evolves_terminate o err

theorem Exiting.addTasks (hc : c.Exiting) {ts : List Task} (hts : ∀ t ∈ ts, c.TaskOk t) :
    { c with tasks := c.tasks ++ ts }.Exiting where
  cancelled := hc.cancelled
  done := fun h o ho hdone => (hc.done h o ho hdone).imp_right (List.mem_append_left _)
  tasks := fun t ht => (List.mem_append.mp ht).elim (hc.tasks t) (hts t)

/-- A task takes its next step. -/
theorem Exiting.setTask (hc : c.Exiting) {k : Nat} {t : Task} (ht : c.tasks[k]? = some t)
    {rest : List Task} (hrest : ∀ t' ∈ rest, c.TaskOk t')
    (hexit : ∀ h o, t = .exit h → c.objs[h]? = some o → o.stream.terminated = true) :
    (c.setTask k rest).Exiting where
  cancelled := hc.cancelled
  done := by
    intro h o ho hdone
    rcases hc.done h o ho hdone with hterm | hmem
    · exact .inl hterm
    · by_cases heq : t = .exit h
      · exact .inl (hexit h o heq ho)
      · obtain ⟨i, hi⟩ := List.getElem?_of_mem hmem
        refine .inr (List.mem_append_left _ (List.mem_eraseIdx_iff_getElem?.mpr ⟨i, ?_, hi⟩))
        rintro rfl
        exact heq (Option.some.inj (ht.symm.trans hi))
  tasks := fun t' ht' => (List.mem_append.mp ht').elim
    (fun hold => hc.tasks t' (List.mem_of_mem_eraseIdx hold)) (hrest t')

theorem Exiting.insert (hc : c.Exiting) {o : StreamObject} (hcancel : o.stream.cancel = true)
    (hterm : o.stream.terminated = false) (hdone : o.handlerDone = false) :
    (c.insert o).Exiting where
  cancelled := by
    refine Store.forall_concat (P := fun _ (o : StreamObject) => o.stream.cancel = true ∧
      (o.stream.terminated = true → o.stream.ctxErr.isSome = true)) hc.cancelled ⟨hcancel, ?_⟩
    intro h
    rw [hterm] at h
    cases h
  done := by
    refine Store.forall_concat (P := fun j (o : StreamObject) => o.handlerDone = true →
      o.stream.terminated = true ∨ .exit j ∈ c.tasks) hc.done ?_
    intro h
    rw [hdone] at h
    cases h
  tasks := fun t ht => (hc.tasks t ht).of_objs (fun hl => hl) fun _ o' ho' =>
    ⟨o', Store.getElem?_concat.mpr (.inl ho'), fun h => h, fun h => h⟩

/-- The handler of stream `h` returns. -/
theorem Exiting.handlerReturn (hc : c.Exiting) {h : Nat} {o : StreamObject}
    (ho : c.objs[h]? = some o) :
    { c.modify h fun o => { o with handlerDone := true } with
      tasks := c.tasks ++ [Task.exit h] }.Exiting where
  cancelled := Store.forall_modify (P := fun _ (o : StreamObject) => o.stream.cancel = true ∧
    (o.stream.terminated = true → o.stream.ctxErr.isSome = true)) hc.cancelled fun o ho =>
      hc.cancelled h o ho
  done := by
    refine Store.forall_modify (P := fun j (o : StreamObject) => o.handlerDone = true →
      o.stream.terminated = true ∨ Task.exit j ∈ c.tasks ++ [.exit h]) ?_ ?_
    · exact fun j o ho hdone => (hc.done j o ho hdone).imp_right (List.mem_append_left _)
    · exact fun _ _ _ => .inr (List.mem_append_right _ (List.mem_singleton_self _))
  tasks := by
    intro t ht
    rcases List.mem_append.mp ht with hold | hnew
    · refine (hc.tasks t hold).of_objs (fun hl => hl) fun j o' ho' => ?_
      simp only [MuxConn.modify, Store.getElem?_modify]
      by_cases hhj : h = j
      · subst hhj
        exact ⟨{ o' with handlerDone := true }, by simp [ho'], fun _ => rfl, fun h => h⟩
      · exact ⟨o', by simp [hhj, ho'], fun h => h, fun h => h⟩
    · obtain rfl := List.mem_singleton.mp hnew
      exact ⟨{ o with handlerDone := true }, by simp [MuxConn.modify, ho], rfl⟩

/-- The stream a task terminates is terminated, and what is left of the task
    fits that. -/
theorem Exiting.taskTerminate (hc : c.Exiting) {k h : Nat} {t : Task} {rest : List Task}
    {err : GoError} (hk : c.tasks[k]? = some t) (ht : t.terminates = some (h, rest, err)) :
    ((c.setTask k rest).terminate h err).Exiting := by
  have hok := hc.tasks t (List.mem_of_getElem? hk)
  have hterm : ∀ o : StreamObject, (c.terminate h err).objs[h]? = some o →
      o.stream.terminated = true := by
    intro o ho
    obtain ⟨o₀, -, rfl⟩ := by
      simpa [MuxConn.terminate, MuxConn.modify, Store.getElem?_modify] using ho
    exact o₀.stream.terminated_terminate err
  refine (hc.terminate h err).setTask (k := k) (t := t) hk ?_ ?_
  · intro t' ht'
    cases t with
    | exit j =>
        obtain ⟨rfl, rfl, rfl⟩ : j = h ∧ [.exitDeregister j] = rest ∧ errStreamClosed = err := by
          simpa [Task.terminates] using ht
        obtain rfl := List.mem_singleton.mp ht'
        obtain ⟨o, ho, hdone⟩ := hok
        refine ⟨{ o with stream := o.stream.terminate errStreamClosed }, ?_, hdone,
          o.stream.terminated_terminate _⟩
        simp [MuxConn.terminate, MuxConn.modify, ho]
    | terminate j e =>
        obtain ⟨rfl, rfl, rfl⟩ : j = h ∧ [] = rest ∧ e = err := by
          simpa [Task.terminates] using ht
        cases ht'
    | closeTerminate j finished => exact hok.elim
    | write j e => cases ht
    | close j => cases ht
    | closeReset j finished => cases ht
    | exitDeregister j => cases ht
  · rintro j o rfl ho
    obtain ⟨rfl, -⟩ : j = h ∧ _ := by simpa [Task.terminates] using ht
    exact hterm o ho

theorem Exiting.step (hc : c.Exiting) (htable : c.Table) {ev : ConnEvent}
    (hstep : Stepped c ev c') : c'.Exiting := by
  -- the loop has not stopped in a step that it takes
  have hrun : ∀ {l}, c.loop = l → l ≠ .stopped → ∀ {P : Prop}, c.loop = .stopped → P :=
    fun hl hne _ hstopped => absurd (hl.symm.trans hstopped) hne
  cases hstep with
  | recv f hl => exact hc.of_same rfl rfl (hrun hl fun h => by cases h)
  | recvFails err hl =>
      have hstopped : { c with
          closed := true
          closeErr := if c.closed then c.closeErr else some err
          streams := fun _ => none
          loop := .stopped }.Exiting := hc.of_same rfl rfl fun _ => rfl
      refine hstopped.addTasks fun t ht => ?_
      obtain ⟨h, -, rfl⟩ := List.mem_map.mp ht
      rfl
  | found h f hl => exact hc.of_same rfl rfl (hrun hl fun h => by cases h)
  | missing f hl => exact hc.of_same rfl rfl (hrun hl fun h => by cases h)
  | start f hl =>
      rcases c.startStream_cases f with hrefused | ⟨-, -, hinsert⟩
      · rw [hrefused]
        exact hc.of_same rfl rfl (hrun hl fun h => by cases h)
      · rw [hinsert]
        refine Exiting.of_same (c := c.insert _) (hc.insert rfl rfl rfl) rfl rfl ?_
        exact hrun hl fun h => by cases h
  | skip f hl => exact hc.of_same rfl rfl (hrun hl fun h => by cases h)
  | reset h f hl => exact hc.of_same rfl rfl (hrun hl fun h => by cases h)
  | deliver h f o hl =>
      refine Exiting.of_same (c := c.modify h (StreamObject.push · f.env)) ?_ rfl rfl ?_
      · exact hc.modify fun o _ => evolves_of_same rfl rfl rfl fun h => h
      · exact hrun hl fun h => by cases h
  | resetTerminate h hl =>
      exact (hc.terminate h _).of_same rfl rfl (hrun hl fun h => by cases h)
  | drop h f o hl => exact hc.of_same rfl rfl (hrun hl fun h => by cases h)
  | newStream _ hrole | close _ _ hrole | shutdown hrole =>
      rw [htable.role] at hrole
      cases hrole
  | writeRefused => exact hc
  | writeChecked h env =>
      refine hc.addTasks fun t ht => ?_
      obtain rfl := List.mem_singleton.mp ht
      trivial
  | read h o env stream ho _ hreceive =>
      refine hc.modify fun o' ho' => ?_
      obtain rfl : o = o' := Option.some.inj (ho.symm.trans ho')
      obtain ⟨hcancel, hctx, hterm⟩ := o.stream.receive_frame hreceive
      exact evolves_of_same hcancel hterm rfl fun h => hctx ▸ h
  | cancel h err =>
      refine hc.modify fun o _ => evolves_of_same rfl rfl rfl fun h => ?_
      show (o.stream.ctxErr.or (some err)).isSome = true
      cases o.stream.ctxErr <;> rfl
  | handlerReturn h o _ ho => exact hc.handlerReturn ho
  | taskWrite k h env o hk =>
      have hdone : (c.setTask k []).Exiting :=
        hc.setTask hk (fun _ h => by cases h) fun _ _ h => by cases h
      have hwritten : ((c.setTask k []).writeFrame ⟨o.stream.id, env⟩).Exiting :=
        hdone.of_same rfl rfl fun h => h
      exact hwritten.modify fun o _ => evolves_of_same rfl rfl rfl fun h => h
  | taskTerminate k h t rest err hk ht => exact hc.taskTerminate hk ht
  | taskClose k h o hk => exact (hc.tasks _ (List.mem_of_getElem? hk)).elim
  | taskReset k h finished o hk => exact (hc.tasks _ (List.mem_of_getElem? hk)).elim
  | taskClosed k h finished o hk => exact (hc.tasks _ (List.mem_of_getElem? hk)).elim
  | resetFails k h finished hk => exact (hc.tasks _ (List.mem_of_getElem? hk)).elim
  | taskDeregister k h o hk =>
      have hdone : (c.setTask k []).Exiting :=
        hc.setTask hk (fun _ h => by cases h) fun _ _ h => by cases h
      exact hdone.of_same rfl rfl fun h => h
  | writeFails k h env hk =>
      exact hc.setTask hk (fun _ h => by cases h) fun _ _ h => by cases h

end MuxConn
end ConnectWebSocket
end BidiWeb
