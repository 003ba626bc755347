/-
  BidiWeb.ConnectWebSocket.RunningHandlers

  The handlers `handlers.Wait` waits for, against the entries of `mc.streams`.

  A handler that exits deregisters its stream by ID.  A client that resets a
  stream and opens it again while the first handler is still running loses
  the entry of the second stream to the exit of the first: nothing terminates
  it then, and `ServeHTTP` waits for its handler.
-/

import BidiWeb.ConnectWebSocket.ServerStreams

namespace BidiWeb
namespace ConnectWebSocket

open BidiWeb.Lib

-- ============================================================================
-- Supervision
-- ============================================================================

/-- The handler has not returned. -/
def StreamObject.Running (o : StreamObject) : Prop := o.handlerDone = false

namespace MuxConn

/-- The read loop has taken stream `h` out of the map and terminates it before
    it reads or returns. -/
def Terminating (c : MuxConn) (h : Nat) : Prop :=
  c.loop = .resetting h ∨ ∃ err, .terminate h err ∈ c.tasks

/-- The stream of every running handler is registered under its ID or
    terminated, or the read loop is terminating it. -/
def NoOrphan (c : MuxConn) : Prop :=
  ∀ (h : Nat) (o : StreamObject), c.objs[h]? = some o → o.Running →
    c.streams o.stream.id = some h ∨ o.stream.terminated = true ∨ c.Terminating h

/-- No running handler is orphaned; so `handlers.Wait`, once `terminateAll`
    has returned, waits for handlers that have been cancelled. -/
structure Supervised (c : MuxConn) : Prop where
  noOrphan : c.NoOrphan
  waits : c.loop = .stopped → (∀ h err, .terminate h err ∉ c.tasks) →
    ∀ (h : Nat) (o : StreamObject), c.objs[h]? = some o → o.Running → o.stream.ctxErr.isSome = true

/-- What the exit of a handler deregisters is the stream of a handler that has
    returned, its own for one, or a terminated stream, or nothing. -/
def DeregistersOwn (c : MuxConn) (ev : ConnEvent) : Prop :=
  ∀ (k h : Nat) (o : StreamObject), ev = .task k → c.tasks[k]? = some (.exitDeregister h) →
    c.objs[h]? = some o → ∀ (j : Nat) (o' : StreamObject), c.streams o.stream.id = some j →
      c.objs[j]? = some o' → o'.Running → o'.stream.terminated = true

/-- `NoOrphan` for the streams with IDs of one kind. -/
def NoOrphanOf (S : UInt32 → Prop) (c : MuxConn) : Prop :=
  ∀ (h : Nat) (o : StreamObject), c.objs[h]? = some o → S o.stream.id → o.Running →
    c.streams o.stream.id = some h ∨ o.stream.terminated = true ∨ c.Terminating h

/-- `DeregistersOwn` for the streams with IDs of one kind. -/
def DeregistersOwnOf (S : UInt32 → Prop) (c : MuxConn) (ev : ConnEvent) : Prop :=
  ∀ (k h : Nat) (o : StreamObject), ev = .task k → c.tasks[k]? = some (.exitDeregister h) →
    c.objs[h]? = some o → S o.stream.id → ∀ (j : Nat) (o' : StreamObject),
      c.streams o.stream.id = some j → c.objs[j]? = some o' → o'.Running →
        o'.stream.terminated = true

variable {S : UInt32 → Prop} {c c' : MuxConn}

theorem noOrphan_iff : c.NoOrphan ↔ c.NoOrphanOf fun _ => True :=
  ⟨fun hc h o ho _ hrun => hc h o ho hrun, fun hc h o ho hrun => hc h o ho trivial hrun⟩

-- ============================================================================
-- One step
-- ============================================================================

theorem NoOrphanOf.of_streams (hc : c.NoOrphanOf S) (hobjs : c'.objs = c.objs)
    (hterm : ∀ h, c.Terminating h → c'.Terminating h)
    (hstreams : ∀ (h : Nat) (o : StreamObject), c.objs[h]? = some o → S o.stream.id → o.Running →
      c.streams o.stream.id = some h →
        c'.streams o.stream.id = some h ∨ o.stream.terminated = true ∨ c'.Terminating h) :
    c'.NoOrphanOf S := by
  intro h o ho hid hrun
  rw [hobjs] at ho
  rcases hc h o ho hid hrun with hreg | hdone | hsoon
  · exact hstreams h o ho hid hrun hreg
  · exact .inr (.inl hdone)
  · exact .inr (.inr (hterm h hsoon))

/-- The loop moves on, tasks are added. -/
theorem NoOrphanOf.of_same (hc : c.NoOrphanOf S) (hobjs : c'.objs = c.objs)
    (hstreams : c'.streams = c.streams)
    (hloop : ∀ h, c.loop = .resetting h → c'.loop = .resetting h)
    (htasks : ∀ h err, .terminate h err ∈ c.tasks → .terminate h err ∈ c'.tasks) :
    c'.NoOrphanOf S :=
  hc.of_streams hobjs (fun h => Or.imp (hloop h) fun ⟨err, hmem⟩ => ⟨err, htasks h err hmem⟩)
    fun _ _ _ _ _ hreg => .inl (hstreams ▸ hreg)

theorem NoOrphanOf.modify (hc : c.NoOrphanOf S) {h : Nat} {f : StreamObject → StreamObject}
    (hid : ∀ o, c.objs[h]? = some o → (f o).stream.id = o.stream.id)
    (hrun : ∀ o, (f o).Running → o.Running)
    (hterm : ∀ o, c.objs[h]? = some o → o.stream.terminated = true →
      (f o).stream.terminated = true) : (c.modify h f).NoOrphanOf S := by
  refine Store.forall_modify (P := fun j (o : StreamObject) => S o.stream.id → o.Running →
    c.streams o.stream.id = some j ∨ o.stream.terminated = true ∨ c.Terminating j) hc
      fun o ho hs hrunning => ?_
  rw [hid o ho] at hs ⊢
  exact (hc h o ho hs (hrun o hrunning)).imp_right (Or.imp_left (hterm o ho))

theorem NoOrphanOf.terminate (hc : c.NoOrphanOf S) (h : Nat) (err : GoError) :
    (c.terminate h err).NoOrphanOf S :=
  hc.modify (fun o _ => o.stream.terminate_id err) (fun _ hrun => hrun)
    fun o _ _ => o.stream.terminated_terminate err

theorem terminated_of_terminate {h : Nat} {err : GoError} {o : StreamObject}
    (ho : (c.terminate h err).objs[h]? = some o) : o.stream.terminated = true := by
  obtain ⟨o₀, -, rfl⟩ := by
    simpa [MuxConn.terminate, MuxConn.modify, Store.getElem?_modify] using ho
  exact o₀.stream.terminated_terminate err

/-- A stream that has been terminated need not be terminated any more. -/
theorem NoOrphanOf.of_terminate {h : Nat} {err : GoError} (hc : (c.terminate h err).NoOrphanOf S)
    (hobjs : c'.objs = (c.terminate h err).objs) (hstreams : c'.streams = c.streams)
    (hterm : ∀ j, j ≠ h → c.Terminating j → c'.Terminating j) : c'.NoOrphanOf S := by
  intro j o ho hs hrun
  rw [hobjs] at ho
  by_cases hjh : j = h
  · exact .inr (.inl (terminated_of_terminate (hjh ▸ ho)))
  · rw [hstreams]
    exact (hc j o ho hs hrun).imp_right (Or.imp_right (hterm j hjh))

theorem NoOrphanOf.insert (hc : c.NoOrphanOf S) {o : StreamObject}
    (hfree : c.streams o.stream.id = none) : (c.insert o).NoOrphanOf S := by
  refine Store.forall_concat
    (P := fun j (o' : StreamObject) => S o'.stream.id → o'.Running →
      (c.insert o).streams o'.stream.id = some j ∨ o'.stream.terminated = true ∨
        c.Terminating j) ?_ ?_
  · intro j o' ho' hs hrun
    refine (hc j o' ho' hs hrun).imp_left fun hreg => insert_streams.mpr (.inr ⟨?_, hreg⟩)
    intro heq
    rw [heq, hfree] at hreg
    cases hreg
  · exact fun _ _ => .inl (insert_streams.mpr (.inl ⟨rfl, rfl⟩))

theorem NoOrphanOf.terminateAll (hc : c.NoOrphanOf S) (hl : c.loop = .reading)
    (err : GoError) : { c.terminateAll err with loop := .stopped }.NoOrphanOf S := by
  refine hc.of_streams rfl ?_ fun h o ho _ _ hreg => ?_
  · rintro h (hreset | ⟨e, hmem⟩)
    · rw [hl] at hreset
      cases hreset
    · exact .inr ⟨e, List.mem_append_left _ hmem⟩
  · have hmem : h ∈ c.registered := mem_registered.mpr ⟨_, idOf_of_get ho, hreg⟩
    exact .inr (.inr (.inr ⟨err, List.mem_append_right _ (List.mem_map_of_mem hmem)⟩))

theorem NoOrphanOf.setTask (hc : c.NoOrphanOf S) {k : Nat} {t : Task} (hk : c.tasks[k]? = some t)
    (hother : ∀ h err, t ≠ .terminate h err) (rest : List Task) :
    (c.setTask k rest).NoOrphanOf S := by
  refine hc.of_same rfl rfl (fun _ h => h) fun h err hmem => ?_
  obtain ⟨i, hi⟩ := List.getElem?_of_mem hmem
  refine List.mem_append_left _ (List.mem_eraseIdx_iff_getElem?.mpr ⟨i, ?_, hi⟩)
  rintro rfl
  exact hother h err (Option.some.inj (hk.symm.trans hi))

theorem NoOrphanOf.step (hc : c.NoOrphanOf S) (htable : c.Table) (hexit : c.Exiting)
    {ev : ConnEvent}
    (hown : DeregistersOwnOf S c ev) (hstep : Stepped c ev c') : c'.NoOrphanOf S := by
  have hmoves : ∀ {l}, c.loop = l → (∀ h, l ≠ .resetting h) → ∀ {l' : Loop} (h : Nat),
      c.loop = .resetting h → l' = .resetting h :=
    fun hl hne _ h hreset => absurd (hl.symm.trans hreset) (hne h)
  cases hstep with
  | recv f hl => exact hc.of_same rfl rfl (hmoves hl fun _ h => by cases h) fun _ _ h => h
  | recvFails err hl => exact hc.terminateAll hl err
  | found h f hl => exact hc.of_same rfl rfl (hmoves hl fun _ h => by cases h) fun _ _ h => h
  | missing f hl => exact hc.of_same rfl rfl (hmoves hl fun _ h => by cases h) fun _ _ h => h
  | start f hl =>
      have hmove : ∀ h, c.loop = .resetting h → Loop.reading = .resetting h :=
        hmoves hl fun _ h => by cases h
      rcases c.startStream_cases f with hrefused | ⟨-, -, hinsert⟩
      · rw [hrefused]
        exact hc.of_same rfl rfl hmove fun _ _ h => h
      · rw [hinsert]
        exact NoOrphanOf.of_same (c := c.insert _) (hc.insert (htable.missing f hl)) rfl rfl hmove
          fun _ _ h => h
  | skip f hl => exact hc.of_same rfl rfl (hmoves hl fun _ h => by cases h) fun _ _ h => h
  | reset h f hl =>
      refine hc.of_streams rfl ?_ fun j o ho _ _ hreg => ?_
      · rintro j (hreset | hmem)
        · rw [hl] at hreset
          cases hreset
        · exact .inr hmem
      · by_cases hid : o.stream.id = f.id
        · -- the entry that goes is the one that the loop has found
          obtain rfl := (htable.found h f hl).2 j (hid ▸ hreg)
          exact .inr (.inr (.inl rfl))
        · exact .inl (deregister_streams.mpr ⟨hid, hreg⟩)
  | deliver h f o hl =>
      refine NoOrphanOf.of_same (c := c.modify h (StreamObject.push · f.env)) ?_ rfl rfl
        (hmoves hl fun _ h => by cases h) fun _ _ h => h
      exact hc.modify (fun _ _ => rfl) (fun _ hrun => hrun) fun _ _ hterm => hterm
  | resetTerminate h hl =>
      refine (hc.terminate h _).of_terminate rfl rfl ?_
      rintro j hjh (hreset | hmem)
      · rw [hl] at hreset
        exact absurd (by simpa using hreset.symm) hjh
      · exact .inr hmem
  | drop h f o hl => exact hc.of_same rfl rfl (hmoves hl fun _ h => by cases h) fun _ _ h => h
  | newStream _ hrole | close _ _ hrole | shutdown hrole =>
      rw [htable.role] at hrole
      cases hrole
  | writeRefused => exact hc
  | writeChecked => exact hc.of_same rfl rfl (fun _ h => h) fun _ _ h => List.mem_append_left _ h
  | read h o env stream ho _ hreceive =>
      have hframe := o.stream.receive_frame hreceive
      refine hc.modify (fun o' ho' => ?_) (fun _ hrun => hrun) fun o' ho' hterm => ?_
      · obtain rfl : o = o' := Option.some.inj (ho.symm.trans ho')
        exact o.stream.receive_id hreceive
      · obtain rfl : o = o' := Option.some.inj (ho.symm.trans ho')
        rw [MuxStream.terminated, hframe.2.2]
        exact hterm
  | cancel h err => exact hc.modify (fun _ _ => rfl) (fun _ hrun => hrun) fun _ _ hterm => hterm
  | handlerReturn h o =>
      refine NoOrphanOf.of_same (c := c.modify h fun o => { o with handlerDone := true }) ?_ rfl rfl
        (fun _ h => h) fun _ _ h => List.mem_append_left _ h
      exact hc.modify (fun _ _ => rfl) (fun _ hrun => by cases hrun) fun _ _ hterm => hterm
  | taskWrite k h env o hk =>
      have hdone := hc.setTask hk (fun _ _ h => by cases h) []
      have hwritten : ((c.setTask k []).writeFrame ⟨o.stream.id, env⟩).NoOrphanOf S :=
        hdone.of_same rfl rfl (fun _ h => h) fun _ _ h => h
      exact hwritten.modify (fun _ _ => rfl) (fun _ hrun => hrun) fun _ _ hterm => hterm
  | taskTerminate k h t rest err hk ht =>
      refine (hc.terminate h err).of_terminate rfl rfl ?_
      rintro j hjh (hreset | ⟨e, hmem⟩)
      · exact .inl hreset
      · obtain ⟨i, hi⟩ := List.getElem?_of_mem hmem
        refine .inr ⟨e, List.mem_append_left _ (List.mem_eraseIdx_iff_getElem?.mpr ⟨i, ?_, hi⟩)⟩
        rintro rfl
        obtain rfl := Option.some.inj (hi.symm.trans hk)
        exact hjh (by simpa [Task.terminates] using congrArg (Option.map (·.1)) ht)
  | taskClose k h o hk => exact (hexit.tasks _ (List.mem_of_getElem? hk)).elim
  | taskReset k h finished o hk => exact (hexit.tasks _ (List.mem_of_getElem? hk)).elim
  | taskClosed k h finished o hk => exact (hexit.tasks _ (List.mem_of_getElem? hk)).elim
  | resetFails k h finished hk => exact (hexit.tasks _ (List.mem_of_getElem? hk)).elim
  | taskDeregister k h o hk ho =>
      refine (hc.setTask hk (fun _ _ h => by cases h) []).of_streams rfl (fun _ h => h)
        fun j o' ho' hs hrun hreg => ?_
      by_cases hid : o'.stream.id = o.stream.id
      · exact .inr (.inl (hown k h o rfl hk ho (hid ▸ hs) j o' (hid ▸ hreg) ho' hrun))
      · exact .inl (deregister_streams.mpr ⟨hid, hreg⟩)
  | writeFails k h env hk => exact hc.setTask hk (fun _ _ h => by cases h) []

/-- A handler whose exit deregisters the live stream of another one orphans
    that. -/
theorem deregistersOwn_of_noOrphan (htable : c.Table) (hexit : c.Exiting) {ev : ConnEvent}
    (hnext : ∀ c', c.step ev = some c' → c'.NoOrphan) : DeregistersOwn c ev := by
  rintro k h o rfl hk ho j o' hreg ho' hrun
  have hid : o'.stream.id = o.stream.id :=
    Option.some.inj ((idOf_of_get ho').symm.trans (htable.streams _ j hreg))
  have hstep : c.step (.task k) = some ((c.setTask k []).deregister o.stream.id) := by
    simp [MuxConn.step, runTask, hk, ho]
  rcases hnext _ hstep j o' ho' hrun with hreg' | hterm | hreset | ⟨err, hmem⟩
  · exact absurd hid (deregister_streams.mp hreg').1
  · exact hterm
  · exact absurd hreg (htable.resetting j hreset _)
  · -- a stream of `terminateAll` is registered no more
    have hmem : .terminate j err ∈ c.tasks.eraseIdx k ++ [] := hmem
    have hold : .terminate j err ∈ c.tasks :=
      List.mem_of_mem_eraseIdx ((List.mem_append.mp hmem).resolve_right fun h => by cases h)
    have hstopped : c.loop = .stopped := hexit.tasks _ hold
    rw [htable.stopped hstopped] at hreg
    cases hreg

theorem NoOrphan.step (hc : c.NoOrphan) (htable : c.Table) (hexit : c.Exiting) {ev : ConnEvent}
    (hown : DeregistersOwn c ev) (hstep : Stepped c ev c') : c'.NoOrphan :=
  noOrphan_iff.mpr ((noOrphan_iff.mp hc).step htable hexit
    (fun k h o hev hk ho _ => hown k h o hev hk ho) hstep)

theorem NoOrphan.supervised (hc : c.NoOrphan) (htable : c.Table) (hexit : c.Exiting) :
    c.Supervised where
  noOrphan := hc
  waits := by
    intro hstopped hnone h o ho hrun
    rcases hc h o ho hrun with hreg | hterm | hreset | ⟨err, hmem⟩
    · rw [htable.stopped hstopped] at hreg
      cases hreg
    · exact (hexit.cancelled h o ho).2 hterm
    · rw [hstopped] at hreset
      cases hreset
    · exact absurd hmem (hnone h err)

end MuxConn

-- ============================================================================
-- Whole runs
-- ============================================================================

/-- Whatever the frames and the interleaving, every running handler is
    supervised in every state reached exactly if no handler that exits
    deregisters the live stream of another one that is running. -/
theorem handlers_supervised_iff (evs : List ConnEvent) :
    serveHTTP.Always MuxConn.Supervised serveHTTP.init evs ↔
      serveHTTP.Meets MuxConn.DeregistersOwn serveHTTP.init evs := by
  refine Machine.always_iff_meets (I := fun c => c.Table ∧ c.Exiting ∧ c.NoOrphan) _ ?_ ?_ ?_ ?_ evs
  · rintro c ev c' ⟨htable, hexit, hc⟩ hown hstep
    have hstepped := MuxConn.stepped hstep
    exact ⟨htable.step hstepped, hexit.step htable hstepped, hc.step htable hexit hown hstepped⟩
  · exact fun c ⟨htable, hexit, hc⟩ => hc.supervised htable hexit
  · exact fun c ev ⟨htable, hexit, _⟩ hnext =>
      MuxConn.deregistersOwn_of_noOrphan htable hexit fun c' hstep => (hnext c' hstep).noOrphan
  · exact ⟨MuxConn.table_init, MuxConn.exiting_init, fun _ _ h => by cases h⟩

/-- A client resets a stream and opens it again while its handler is running;
    that handler then returns and deregisters the second stream, and the end
    of the connection leaves the second handler running. -/
theorem reopened_stream_orphans_handler :
    ¬ ∀ evs, serveHTTP.Always MuxConn.Supervised serveHTTP.init evs := by
  intro h
  have hrun := h [
    .recv ⟨1, ⟨flagEnvelopeHeaders, []⟩⟩, .advance, .advance,
    .recv ⟨1, ⟨flagEnvelopeReset, []⟩⟩, .advance, .advance, .advance,
    .recv ⟨1, ⟨flagEnvelopeHeaders, []⟩⟩, .advance, .advance,
    .handlerReturn 0, .task 0, .task 0, .recvFails .eof]
  have hreopened := (((((((((hrun.2 _ rfl).2 _ rfl).2 _ rfl).2 _ rfl).2 _ rfl).2 _ rfl).2 _ rfl).2 _
    rfl).2 _ rfl).2 _ rfl
  have hlast := (((hreopened.2 _ rfl).2 _ rfl).2 _ rfl).2 _ rfl
  have hcancelled := hlast.waits rfl (fun _ _ h => by cases h) 1 _ rfl rfl
  cases hcancelled

end ConnectWebSocket
end BidiWeb
