/-
  BidiWeb.ConnectWebSocket.ResetLast

  What a client stream still puts on the connection once `Close` has reset
  it.

  `WriteEnvelope` checks for termination before it takes the write lock, and
  each `Close` loads `rxEnd` for itself.  A write past its check and a second
  `Close` are both unaffected by a reset already written, so the invariant
  needs two conditions on the schedule, and they are all it needs.
-/

import BidiWeb.ConnectWebSocket.Written

namespace BidiWeb
namespace ConnectWebSocket

open BidiWeb.Lib

-- ============================================================================
-- Frames
-- ============================================================================

/-- With the ID `id` there is at most one reset, and no frame after it. -/
def ResetLast (id : UInt32) (fs : List Frame) : Prop :=
  fs.Pairwise fun f g => f.id = id → f.env.isReset = true → g.id ≠ id

def HasReset (id : UInt32) (fs : List Frame) : Prop :=
  ∃ f ∈ fs, f.id = id ∧ f.env.isReset = true

instance (id : UInt32) (fs : List Frame) : Decidable (ResetLast id fs) :=
  inferInstanceAs (Decidable (fs.Pairwise fun f g => f.id = id → f.env.isReset = true → g.id ≠ id))

instance (id : UInt32) (fs : List Frame) : Decidable (HasReset id fs) :=
  inferInstanceAs (Decidable (∃ f ∈ fs, f.id = id ∧ f.env.isReset = true))

variable {id : UInt32} {fs gs : List Frame} {g : Frame}

theorem resetLast_concat :
    ResetLast id (fs ++ [g]) ↔ ResetLast id fs ∧ (HasReset id fs → g.id ≠ id) := by
  simp only [ResetLast, List.pairwise_append, List.pairwise_singleton, List.mem_singleton, true_and,
    forall_eq, HasReset]
  constructor
  · rintro ⟨hfs, hall⟩
    exact ⟨hfs, fun ⟨f, hf, hid, hreset⟩ => hall f hf hid hreset⟩
  · rintro ⟨hfs, hnew⟩
    exact ⟨hfs, fun f hf hid hreset => hnew ⟨f, hf, hid, hreset⟩⟩

theorem ResetLast.mono (h : ResetLast id gs) (hpre : fs <+: gs) : ResetLast id fs :=
  h.sublist hpre.sublist

theorem HasReset.mono (h : HasReset id fs) (hsub : fs ⊆ gs) : HasReset id gs :=
  let ⟨f, hf, hid⟩ := h
  ⟨f, hsub hf, hid⟩

theorem hasReset_concat :
    HasReset id (fs ++ [g]) ↔ HasReset id fs ∨ g.id = id ∧ g.env.isReset = true := by
  constructor
  · rintro ⟨f, hf, hid⟩
    rcases List.mem_append.mp hf with hold | hlast
    · exact .inl ⟨f, hold, hid⟩
    · exact .inr (List.mem_singleton.mp hlast ▸ hid)
  · rintro (hold | hlast)
    · exact hold.mono (List.subset_append_left _ _)
    · exact ⟨g, List.mem_append_right _ (List.mem_singleton_self g), hlast⟩

/-- A stream with no frame yet. -/
theorem resetLast_of_absent (h : ∀ f ∈ fs, f.id ≠ id) : ResetLast id fs ∧ ¬ HasReset id fs :=
  ⟨List.pairwise_iff_forall_sublist.mpr fun hsub hid =>
      absurd hid (h _ (hsub.subset List.mem_cons_self)),
    fun ⟨f, hf, hid, _⟩ => h f hf hid⟩

-- ============================================================================
-- What a step keeps of a stream
-- ============================================================================

structure Kept (o o' : StreamObject) : Prop where
  id : o'.stream.id = o.stream.id
  dedicated : o'.stream.dedicated = o.stream.dedicated
  terminated : o.stream.terminated = true → o'.stream.terminated = true
  rxEnd : o.stream.rxEnd = true → o'.stream.rxEnd = true
  done : o.handlerDone = true → o'.handlerDone = true

theorem Kept.refl (o : StreamObject) : Kept o o :=
  ⟨rfl, rfl, fun h => h, fun h => h, fun h => h⟩

theorem kept_terminate (o : StreamObject) (err : GoError) :
    Kept o { o with stream := o.stream.terminate err } where
  id := o.stream.terminate_id err
  dedicated := by
    unfold MuxStream.terminate
    split <;> rfl
  terminated := fun _ => o.stream.terminated_terminate err
  rxEnd := fun h => by
    unfold MuxStream.terminate
    split <;> exact h
  done := fun h => h

theorem kept_receive {o : StreamObject} {env : Envelope} {s : MuxStream} {returned : List Envelope}
    (h : o.stream.receive = some (env, s)) : Kept o { o with stream := s, returned } := by
  unfold MuxStream.receive at h
  split at h
  · cases h
    exact ⟨rfl, rfl, fun h => h, fun h => by simp [MuxStream.acceptEnvelope, h], fun h => h⟩
  · cases h

-- ============================================================================
-- Writers
-- ============================================================================

/-- The task puts a frame of stream `h` on the connection. -/
def Task.writes (h : Nat) : Task → Bool
  | .write j _ | .closeTerminate j false | .closeReset j false => j = h
  | .close _ | .closeTerminate _ true | .closeReset _ true | .exit _ | .exitDeregister _
  | .terminate .. => false

/-- The task is a `Close` of stream `h` that has not returned. -/
def Task.closes (h : Nat) : Task → Bool
  | .close j | .closeTerminate j _ | .closeReset j _ => j = h
  | .write .. | .exit _ | .exitDeregister _ | .terminate .. => false

namespace MuxConn

/-- What `Close` of stream `h` has to find: no reset of the stream when it
    loads `rxEnd` as unset, and nobody else about to write on the stream when
    it writes its own. -/
def ResetsAlone (h : Nat) (c : MuxConn) : ConnEvent → Prop
  | .task k =>
      (c.tasks[k]? = some (.close h) → ∀ o ∈ c.objs[h]?, o.stream.rxEnd = false →
        ¬ HasReset o.stream.id c.sent) ∧
      (c.tasks[k]? = some (.closeReset h false) → ∀ t ∈ c.tasks.eraseIdx k, t.writes h = false)
  | .recv _ | .recvFails _ | .advance | .drop | .newStream _ | .write .. | .read _ | .cancel ..
  | .close _ | .shutdown | .handlerReturn _ | .writeFails _ => True

instance (h : Nat) (c : MuxConn) : DecidablePred (ResetsAlone h c)
  | .task k =>
      inferInstanceAs (Decidable ((c.tasks[k]? = some (.close h) → ∀ o ∈ c.objs[h]?,
        o.stream.rxEnd = false → ¬ HasReset o.stream.id c.sent) ∧
        (c.tasks[k]? = some (.closeReset h false) → ∀ t ∈ c.tasks.eraseIdx k, t.writes h = false)))
  | .recv _ | .recvFails _ | .advance | .drop | .newStream _ | .write .. | .read _ | .cancel ..
  | .close _ | .shutdown | .handlerReturn _ | .writeFails _ => isTrue trivial

variable {c c' : MuxConn} {h : Nat} {o o' : StreamObject} {ev : ConnEvent}

theorem kept_modify {j : Nat} {f : StreamObject → StreamObject}
    (hf : ∀ o, c.objs[j]? = some o → Kept o (f o)) (hobjs : c'.objs = c.objs.modify j f)
    (ho : c.objs[h]? = some o) : ∃ o', c'.objs[h]? = some o' ∧ Kept o o' := by
  rw [hobjs]
  by_cases hjh : j = h
  · subst hjh
    exact ⟨f o, Store.getElem?_modify.mpr (by simp [ho]), hf o ho⟩
  · exact ⟨o, Store.getElem?_modify.mpr (by simp [hjh, ho]), Kept.refl o⟩

theorem kept_same (hobjs : c'.objs = c.objs) (ho : c.objs[h]? = some o) :
    ∃ o', c'.objs[h]? = some o' ∧ Kept o o' := ⟨o, hobjs ▸ ho, Kept.refl o⟩

theorem kept_insert (s : StreamObject) (hobjs : c'.objs = c.objs ++ [s])
    (ho : c.objs[h]? = some o) : ∃ o', c'.objs[h]? = some o' ∧ Kept o o' :=
  ⟨o, hobjs ▸ Store.getElem?_concat.mpr (.inl ho), Kept.refl o⟩

theorem kept_step (hstep : Stepped c ev c') (ho : c.objs[h]? = some o) :
    ∃ o', c'.objs[h]? = some o' ∧ Kept o o' := by
  cases hstep with
  | start f =>
      rcases c.startStream_cases f with hrefused | ⟨-, -, hinsert⟩
      · rw [hrefused]
        exact kept_same rfl ho
      · rw [hinsert]
        exact kept_insert _ rfl ho
  | newStream dedicated =>
      rcases c.newStream_cases dedicated with ⟨next, hnone⟩ | ⟨-, id, -, hinsert⟩
      · rw [hnone]
        exact kept_same rfl ho
      · rw [hinsert]
        exact kept_insert _ rfl ho
  | deliver j f =>
      refine kept_modify (fun _ _ => ?_) rfl ho
      exact ⟨rfl, rfl, fun h => h, fun h => h, fun h => h⟩
  | resetTerminate j => exact kept_modify (fun o _ => kept_terminate o _) rfl ho
  | read j s env stream hs _ hreceive =>
      refine kept_modify (fun o' ho' => ?_) rfl ho
      obtain rfl : s = o' := Option.some.inj (hs.symm.trans ho')
      exact kept_receive hreceive
  | cancel j =>
      refine kept_modify (fun _ _ => ?_) rfl ho
      exact ⟨rfl, rfl, fun h => h, fun h => h, fun h => h⟩
  | handlerReturn j =>
      refine kept_modify (fun _ _ => ?_) rfl ho
      exact ⟨rfl, rfl, fun h => h, fun h => h, fun _ => rfl⟩
  | taskWrite k j env =>
      refine kept_modify (fun _ _ => ?_) rfl ho
      exact ⟨rfl, rfl, fun h => h, fun h => h, fun h => h⟩
  | taskTerminate k j t rest err => exact kept_modify (fun o _ => kept_terminate o err) rfl ho
  | recv | recvFails | found | missing | skip | reset | drop | writeRefused | writeChecked | close
  | shutdown | taskClose | taskReset | taskClosed | taskDeregister | writeFails | resetFails =>
      exact kept_same rfl ho

/-- A stream after a step was there before, or is the one created. -/
theorem kept_back (hstep : c.step ev = some c') (ho' : c'.objs[h]? = some o') :
    (∃ o, c.objs[h]? = some o ∧ Kept o o') ∨ c'.objs = c.objs ++ [o'] ∧ c'.sent = c.sent := by
  cases ho : c.objs[h]? with
  | some o =>
      obtain ⟨o₁, ho₁, hkept⟩ := kept_step (stepped hstep) ho
      obtain rfl : o₁ = o' := Option.some.inj (ho₁.symm.trans ho')
      exact .inl ⟨o, rfl, hkept⟩
  | none =>
      have hlt : h < c'.objs.length := (List.getElem?_eq_some_iff.mp ho').1
      have hge : c.objs.length ≤ h := List.getElem?_eq_none_iff.mp ho
      cases wrote_step hstep with
      | created s hobjs _ hsent _ =>
          rw [hobjs, List.getElem?_append_right hge] at ho'
          obtain rfl : s = o' := List.mem_singleton.mp (List.mem_of_getElem? ho') |>.symm
          exact .inr ⟨hobjs, hsent⟩
      | nothing hsig _ =>
          have hlen := congrArg List.length hsig
          rw [List.length_map, List.length_map] at hlen
          omega
      | reset _ _ _ hobjs _ =>
          rw [hobjs] at hlt
          omega
      | envelope _ _ _ _ hobjs _ =>
          rw [hobjs, List.length_modify] at hlt
          omega

-- ============================================================================
-- The invariant of one stream
-- ============================================================================

/-- Once a reset is written the stream is terminated and has no writer left. -/
structure Quiet (c : MuxConn) (h : Nat) (o : StreamObject) : Prop where
  last : ResetLast o.stream.id c.sent
  silent : HasReset o.stream.id c.sent → o.stream.terminated = true ∧
    ∀ t ∈ c.tasks, t.writes h = false

/-- While a task has yet to write, no reset has been sent. -/
theorem Quiet.not_hasReset {c : MuxConn} {h : Nat} {o : StreamObject} (hq : c.Quiet h o) {t : Task}
    (ht : t ∈ c.tasks) (hwrites : t.writes h = true) : ¬ HasReset o.stream.id c.sent := by
  intro hreset
  rw [(hq.silent hreset).2 t ht] at hwrites
  cases hwrites

/-- The tasks of a client. -/
structure ClientTasks (c : MuxConn) : Prop where
  role : c.role = .client
  /-- `Send` and `CloseSend` write no resets. -/
  plain : ∀ j env, .write j env ∈ c.tasks → env.isReset = false
  /-- `Close` resets a stream that it has terminated. -/
  closing : ∀ t ∈ c.tasks, ∀ j, t.closes j = true → ∃ o : StreamObject, c.objs[j]? = some o ∧
    ∀ finished, t = .closeReset j finished → o.stream.terminated = true

theorem mem_setTask {k : Nat} {rest : List Task} {t : Task} (ht : t ∈ (c.setTask k rest).tasks) :
    t ∈ c.tasks ∨ t ∈ rest :=
  (List.mem_append.mp ht).imp_left List.mem_of_mem_eraseIdx

theorem ClientTasks.of_tasks (hc : c.ClientTasks) (hrole : c'.role = c.role)
    (hobjs : ∀ (j : Nat) (o : StreamObject), c.objs[j]? = some o →
      ∃ o', c'.objs[j]? = some o' ∧ Kept o o')
    (htasks : ∀ t ∈ c'.tasks, t ∈ c.tasks ∨ (∀ j env, t = .write j env → env.isReset = false) ∧
      ∀ j, t.closes j = true → ∃ o : StreamObject, c'.objs[j]? = some o ∧
        ∀ finished, t = .closeReset j finished → o.stream.terminated = true) :
    c'.ClientTasks where
  role := hrole.trans hc.role
  plain := fun j env ht => (htasks _ ht).elim (hc.plain j env) fun hnew => hnew.1 j env rfl
  closing := fun t ht j hj => by
    rcases htasks t ht with hold | hnew
    · obtain ⟨o, ho, hterm⟩ := hc.closing t hold j hj
      obtain ⟨o', ho', hkept⟩ := hobjs j o ho
      exact ⟨o', ho', fun finished heq => hkept.terminated (hterm finished heq)⟩
    · exact hnew.2 j hj

/-- A task that neither writes nor closes. -/
theorem other_ok {t : Task} (hwrite : ∀ j env, t ≠ .write j env)
    (hclose : ∀ j, t.closes j = false) :
    (∀ j env, t = .write j env → env.isReset = false) ∧
      ∀ j, t.closes j = true → ∃ o : StreamObject, c.objs[j]? = some o ∧
        ∀ finished, t = .closeReset j finished → o.stream.terminated = true :=
  ⟨fun j env heq => absurd heq (hwrite j env), fun j hj => by
    rw [hclose j] at hj
    cases hj⟩

theorem ClientTasks.terminateAll (hc : c.ClientTasks) (err : GoError) :
    (c.terminateAll err).ClientTasks := by
  refine hc.of_tasks rfl (fun _ o ho => ⟨o, ho, Kept.refl o⟩) fun t ht => ?_
  refine (List.mem_append.mp ht).imp_right fun hnew => ?_
  obtain ⟨i, -, rfl⟩ := List.mem_map.mp hnew
  exact other_ok (fun _ _ h => by cases h) fun _ => rfl

theorem ClientTasks.step (hc : c.ClientTasks) (hstep : Stepped c ev c')
    (hplain : ∀ j env, ev = .write j env → env.isReset = false) : c'.ClientTasks := by
  have hobjs : ∀ (j : Nat) (o : StreamObject), c.objs[j]? = some o →
      ∃ o', c'.objs[j]? = some o' ∧ Kept o o' := fun _ _ ho => kept_step hstep ho
  cases hstep with
  | writeChecked j env =>
      refine hc.of_tasks rfl hobjs fun t ht => (List.mem_append.mp ht).imp_right fun hnew => ?_
      obtain rfl := List.mem_singleton.mp hnew
      refine ⟨fun i e heq => ?_, fun i hi => by cases hi⟩
      obtain ⟨rfl, rfl⟩ : j = i ∧ env = e := by simpa using heq
      exact hplain j env rfl
  | recvFails err =>
      have hdown := hc.terminateAll err
      exact ⟨hdown.role, hdown.plain, hdown.closing⟩
  | shutdown => exact hc.terminateAll _
  | close j o _ ho =>
      refine hc.of_tasks rfl hobjs fun t ht => (List.mem_append.mp ht).imp_right fun hnew => ?_
      obtain rfl := List.mem_singleton.mp hnew
      refine ⟨fun _ _ h => (by cases h), fun i hi => ?_⟩
      obtain rfl : j = i := by simpa [Task.closes] using hi
      exact ⟨o, ho, fun _ h => by cases h⟩
  | taskClose k j o _ ho =>
      refine hc.of_tasks rfl hobjs fun t ht => (mem_setTask ht).imp_right fun hnew => ?_
      obtain rfl := List.mem_singleton.mp hnew
      refine ⟨fun _ _ h => (by cases h), fun i hi => ?_⟩
      obtain rfl : j = i := by simpa [Task.closes] using hi
      exact ⟨o, ho, fun _ h => by cases h⟩
  | taskTerminate k j t rest err hk hrest =>
      refine hc.of_tasks rfl hobjs fun t' ht' => (mem_setTask (c := c) ht').imp_right fun hnew => ?_
      cases t with
      | closeTerminate i finished =>
          obtain ⟨rfl, rfl, rfl⟩ := by simpa [Task.terminates] using hrest
          obtain rfl := List.mem_singleton.mp hnew
          refine ⟨fun _ _ h => (by cases h), fun i' hi' => ?_⟩
          obtain rfl : i = i' := by simpa [Task.closes] using hi'
          obtain ⟨o, ho, -⟩ := hc.closing _ (List.mem_of_getElem? hk) i (by simp [Task.closes])
          refine ⟨{ o with stream := o.stream.terminate errStreamClosed }, ?_,
            fun _ _ => o.stream.terminated_terminate _⟩
          simp [MuxConn.terminate, MuxConn.modify, MuxConn.setTask, ho]
      | exit i =>
          obtain ⟨rfl, rfl, rfl⟩ := by simpa [Task.terminates] using hrest
          obtain rfl := List.mem_singleton.mp hnew
          exact other_ok (fun _ _ h => by cases h) fun _ => rfl
      | terminate i e =>
          obtain ⟨rfl, rfl, rfl⟩ := by simpa [Task.terminates] using hrest
          cases hnew
      | write => cases hrest
      | close => cases hrest
      | closeReset => cases hrest
      | exitDeregister => cases hrest
  | taskWrite | taskReset | taskClosed | taskDeregister | writeFails | resetFails =>
      exact hc.of_tasks rfl hobjs fun t ht => (mem_setTask (c := c) ht).imp_right fun h => by
        cases h
  | start f _ hrole | handlerReturn j o hrole =>
      rw [hc.role] at hrole
      cases hrole
  | newStream dedicated =>
      refine hc.of_tasks (newStream_role dedicated) hobjs fun t ht => .inl ?_
      rwa [newStream_tasks] at ht
  | recv | found | missing | skip | reset | deliver | resetTerminate | drop | writeRefused | read
  | cancel => exact hc.of_tasks rfl hobjs fun t ht => .inl ht

-- ============================================================================
-- The invariant of one stream: steps
-- ============================================================================

/-- Nothing is written, and no writer comes. -/
theorem Quiet.of_sent (hq : c.Quiet h o) (hkept : Kept o o') (hsent : c'.sent = c.sent)
    (htasks : HasReset o.stream.id c.sent → (∀ t ∈ c.tasks, t.writes h = false) →
      ∀ t ∈ c'.tasks, t.writes h = false) : c'.Quiet h o' where
  last := by
    rw [hkept.id, hsent]
    exact hq.last
  silent := by
    rw [hkept.id, hsent]
    intro hreset
    obtain ⟨hterm, hall⟩ := hq.silent hreset
    exact ⟨hkept.terminated hterm, htasks hreset hall⟩

theorem Quiet.of_tasks (hq : c.Quiet h o) (hkept : Kept o o') (hsent : c'.sent = c.sent)
    (htasks : ∀ t ∈ c'.tasks, t ∈ c.tasks ∨ t.writes h = false) : c'.Quiet h o' :=
  hq.of_sent hkept hsent fun _ hall t ht => (htasks t ht).elim (hall t) fun hnew => hnew

/-- A frame of another stream is written. -/
theorem Quiet.of_other (hq : c.Quiet h o) (hkept : Kept o o') {f : Frame} (hne : f.id ≠ o.stream.id)
    (hsent : c'.sent = c.sent ++ [f]) (htasks : ∀ t ∈ c'.tasks, t ∈ c.tasks) : c'.Quiet h o' where
  last := by
    rw [hkept.id, hsent]
    exact resetLast_concat.mpr ⟨hq.last, fun _ => hne⟩
  silent := by
    rw [hkept.id, hsent]
    intro hreset
    have hold := (hasReset_concat.mp hreset).resolve_right fun hnew => hne hnew.1
    obtain ⟨hterm, hall⟩ := hq.silent hold
    exact ⟨hkept.terminated hterm, fun t ht => hall t (htasks t ht)⟩

/-- The one stream with its ID. -/
theorem stream_unique (hcount : c.ids.count o.stream.id ≤ 1) (ho : c.objs[h]? = some o) {j : Nat}
    (ho' : c.objs[j]? = some o') (hid : o'.stream.id = o.stream.id) : h = j := by
  have hat : ∀ {k : Nat} {s : StreamObject}, c.objs[k]? = some s → c.ids[k]? = some s.stream.id :=
    fun hs => by simp [ids, hs]
  have honce : c.ids.countP (· == o.stream.id) ≤ 1 := hcount
  exact Store.index_unique honce (hat ho) (hat ho') (by simp) (by simp [hid])

/-- `Close` has loaded `rxEnd`. -/
theorem Quiet.taskClose (hq : c.Quiet h o) (ho : c.objs[h]? = some o) (hkept : Kept o o')
    {k j : Nat} {s : StreamObject} (halone : ResetsAlone h c (.task k))
    (hk : c.tasks[k]? = some (.close j)) (hs : c.objs[j]? = some s) :
    (c.setTask k [.closeTerminate j s.stream.rxEnd]).Quiet h o' := by
  refine hq.of_sent hkept rfl fun hreset hall t ht => ?_
  rcases mem_setTask ht with hold | hnew
  · exact hall t hold
  · obtain rfl := List.mem_singleton.mp hnew
    cases hrx : s.stream.rxEnd with
    | true => rfl
    | false =>
        by_cases hjh : j = h
        · subst hjh
          obtain rfl : o = s := Option.some.inj (ho.symm.trans hs)
          exact absurd hreset (halone.1 hk o ho hrx)
        · simp [Task.writes, hjh]

/-- What a task becomes when it terminates a stream writes on no other stream
    than it did. -/
theorem writes_of_terminates {t t' : Task} {j : Nat} {rest : List Task} {err : GoError}
    (hrest : t.terminates = some (j, rest, err)) (ht' : t' ∈ rest) (hwrites : t.writes h = false) :
    t'.writes h = false := by
  cases t with
  | closeTerminate i finished =>
      obtain ⟨rfl, rfl, rfl⟩ := by simpa [Task.terminates] using hrest
      obtain rfl := List.mem_singleton.mp ht'
      cases finished with
      | true => rfl
      | false => exact hwrites
  | exit i =>
      obtain ⟨rfl, rfl, rfl⟩ := by simpa [Task.terminates] using hrest
      obtain rfl := List.mem_singleton.mp ht'
      rfl
  | terminate i e =>
      obtain ⟨rfl, rfl, rfl⟩ := by simpa [Task.terminates] using hrest
      cases ht'
  | write | close | closeReset | exitDeregister => cases hrest

/-- A `WriteEnvelope` of the stream, begun before any reset, writes none. -/
theorem Quiet.taskWrite (hq : c.Quiet h o) (hc : c.ClientTasks) (hkept : Kept o o') {k : Nat}
    {env : Envelope} (hk : c.tasks[k]? = some (.write h env)) {id : UInt32}
    (hsent : c'.sent = c.sent ++ [⟨id, env⟩]) : c'.Quiet h o' := by
  have hmem := List.mem_of_getElem? hk
  have hnone := hq.not_hasReset hmem (by simp [Task.writes])
  have hplain := hc.plain _ _ hmem
  refine ⟨?_, fun hreset => absurd hreset ?_⟩
  · rw [hkept.id, hsent]
    exact resetLast_concat.mpr ⟨hq.last, fun hreset => absurd hreset hnone⟩
  · rw [hkept.id, hsent]
    intro hreset
    rcases hasReset_concat.mp hreset with hold | ⟨-, hnew⟩
    · exact hnone hold
    · rw [hplain] at hnew
      cases hnew

/-- `Close` resets the stream, which it has terminated. -/
theorem Quiet.taskReset (hq : c.Quiet h o) (hc : c.ClientTasks) (ho : c.objs[h]? = some o)
    (hkept : Kept o o') {k : Nat} (halone : ResetsAlone h c (.task k))
    (hk : c.tasks[k]? = some (.closeReset h false)) {f : Frame}
    (hsent : c'.sent = c.sent ++ [f]) (htasks : c'.tasks = c.tasks.eraseIdx k) :
    c'.Quiet h o' := by
  have hmem := List.mem_of_getElem? hk
  have hnone := hq.not_hasReset hmem (by simp [Task.writes])
  refine ⟨?_, fun _ => ⟨?_, fun t ht => ?_⟩⟩
  · rw [hkept.id, hsent]
    exact resetLast_concat.mpr ⟨hq.last, fun hreset => absurd hreset hnone⟩
  · obtain ⟨s, hs, hterm⟩ := hc.closing _ hmem h (by simp [Task.closes])
    obtain rfl : o = s := Option.some.inj (ho.symm.trans hs)
    exact hkept.terminated (hterm false rfl)
  · exact halone.2 hk t (htasks ▸ ht)

theorem Quiet.step (hq : c.Quiet h o) (hc : c.ClientTasks) (hcount : c.ids.count o.stream.id ≤ 1)
    (ho : c.objs[h]? = some o) (hstep : Stepped c ev c') (halone : ResetsAlone h c ev)
    (ho' : c'.objs[h]? = some o') (hkept : Kept o o') : c'.Quiet h o' := by
  cases hstep with
  | writeChecked j env s hs hopen =>
      refine hq.of_sent hkept rfl fun hreset hall t ht => ?_
      rcases List.mem_append.mp ht with hold | hnew
      · exact hall t hold
      · obtain rfl := List.mem_singleton.mp hnew
        by_cases hjh : j = h
        · subst hjh
          obtain rfl : o = s := Option.some.inj (ho.symm.trans hs)
          have hterm := (hq.silent hreset).1
          simp [hterm] at hopen
        · simp [Task.writes, hjh]
  | recvFails err =>
      refine hq.of_tasks hkept rfl fun t ht => (List.mem_append.mp ht).imp_right fun hnew => ?_
      obtain ⟨i, -, rfl⟩ := List.mem_map.mp hnew
      rfl
  | shutdown =>
      refine hq.of_tasks hkept rfl fun t ht => (List.mem_append.mp ht).imp_right fun hnew => ?_
      obtain ⟨i, -, rfl⟩ := List.mem_map.mp hnew
      rfl
  | close j s =>
      refine hq.of_tasks hkept rfl fun t ht => (List.mem_append.mp ht).imp_right fun hnew => ?_
      obtain rfl := List.mem_singleton.mp hnew
      rfl
  | taskClose k j s hk hs => exact hq.taskClose ho hkept halone hk hs
  | taskTerminate k j t rest err hk hrest =>
      refine hq.of_sent hkept rfl fun _ hall t' ht' => ?_
      rcases mem_setTask (c := c) ht' with hold | hnew
      · exact hall t' hold
      · exact writes_of_terminates hrest hnew (hall t (List.mem_of_getElem? hk))
  | taskWrite k j env s hk hs =>
      have htasks : ∀ t ∈ (c.setTask k []).tasks, t ∈ c.tasks := fun t ht =>
        (mem_setTask ht).resolve_right fun h => by cases h
      by_cases hid : s.stream.id = o.stream.id
      · obtain rfl : h = j := stream_unique hcount ho hs hid
        exact hq.taskWrite hc hkept hk rfl
      · exact hq.of_other hkept (f := ⟨s.stream.id, env⟩) hid rfl htasks
  | taskReset k j finished s hk hs hclosed =>
      have htasks : ∀ t ∈ (c.setTask k []).tasks, t ∈ c.tasks := fun t ht =>
        (mem_setTask ht).resolve_right fun h => by cases h
      obtain ⟨-, rfl⟩ := Bool.or_eq_false_iff.mp hclosed
      by_cases hid : s.stream.id = o.stream.id
      · obtain rfl : h = j := stream_unique hcount ho hs hid
        exact hq.taskReset hc ho hkept halone hk rfl (List.append_nil _)
      · exact hq.of_other hkept (f := ⟨s.stream.id, _⟩) hid rfl htasks
  | start f _ hrole | handlerReturn j s hrole =>
      rw [hc.role] at hrole
      cases hrole
  | newStream dedicated =>
      exact hq.of_tasks hkept (newStream_sent dedicated) fun t ht =>
        .inl (newStream_tasks dedicated ▸ ht)
  | taskClosed | taskDeregister | writeFails | resetFails =>
      exact hq.of_tasks hkept rfl fun t ht => (mem_setTask (c := c) ht).imp_right fun h => by
        cases h
  | recv | found | missing | skip | reset | deliver | resetTerminate | drop | writeRefused | read
  | cancel => exact hq.of_tasks hkept rfl fun t ht => .inl ht

/-- The invariant of a client and one of its streams. -/
structure QuietClient (c : MuxConn) (h : Nat) : Prop where
  tasks : c.ClientTasks
  sent : c.Sent
  quiet : ∀ o : StreamObject, c.objs[h]? = some o → c.ids.count o.stream.id ≤ 1 → c.Quiet h o

theorem quietClient_init (h : Nat) : QuietClient { role := .client } h where
  tasks := ⟨rfl, fun _ _ h => (by cases h), fun _ h => by cases h⟩
  sent := sent_init .client
  quiet := fun _ h => by cases h

theorem QuietClient.step (hc : c.QuietClient h) (hstep : c.step ev = some c')
    (halone : ResetsAlone h c ev) (hplain : ∀ j env, ev = .write j env → env.isReset = false) :
    c'.QuietClient h where
  tasks := hc.tasks.step (stepped hstep) hplain
  sent := hc.sent.step (wrote_step hstep)
  quiet := by
    intro o' ho' hcount
    have hgrow := (wrote_step hstep).ids_grow.sublist.count_le o'.stream.id
    rcases kept_back hstep ho' with ⟨o, ho, hkept⟩ | ⟨hobjs, hsent⟩
    · have hold : c.ids.count o.stream.id ≤ 1 := by
        rw [← hkept.id]
        omega
      exact (hc.quiet o ho hold).step hc.tasks hold ho (stepped hstep) halone ho' hkept
    · -- nothing has been written under a new ID
      have hfresh : o'.stream.id ∉ c.ids := by
        have hids : c'.ids = c.ids ++ [o'.stream.id] := by simp [ids, hobjs]
        rw [hids, List.count_append, List.count_singleton_self] at hcount
        exact List.count_eq_zero.mp (by omega)
      have habsent : ∀ f ∈ c'.sent, f.id ≠ o'.stream.id := fun f hf heq =>
        hfresh (heq ▸ hc.sent.owner f (hsent ▸ hf))
      obtain ⟨hlast, hnone⟩ := resetLast_of_absent habsent
      exact ⟨hlast, fun hreset => absurd hreset hnone⟩

-- ============================================================================
-- A `Close` in progress
-- ============================================================================

/-- A `Close` of stream `h` has yet to write its reset, or it has, or it need
    not. -/
def Closing (c : MuxConn) (h : Nat) (o : StreamObject) : Prop :=
  (∃ t ∈ c.tasks, t = .close h ∨ t = .closeTerminate h false ∨ t = .closeReset h false) ∨
    HasReset o.stream.id c.sent ∨ o.stream.rxEnd = true ∨ o.stream.dedicated = true

/-- What a task leaves pending. -/
theorem mem_of_setTask {k : Nat} {t t₀ : Task} {rest : List Task} (hk : c.tasks[k]? = some t₀)
    (ht : t ∈ c.tasks) : t = t₀ ∨ t ∈ (c.setTask k rest).tasks := by
  obtain ⟨i, hi⟩ := List.getElem?_of_mem ht
  by_cases hik : i = k
  · subst hik
    exact .inl (Option.some.inj (hi.symm.trans hk))
  · exact .inr (List.mem_append_left _ (List.mem_eraseIdx_iff_getElem?.mpr ⟨i, hik, hi⟩))

theorem Closing.of_tasks (hc : c.Closing h o) (hkept : Kept o o') (hsent : c.sent <+: c'.sent)
    (htasks : ∀ t ∈ c.tasks, t = .close h ∨ t = .closeTerminate h false ∨ t = .closeReset h false →
      (∃ t' ∈ c'.tasks, t' = .close h ∨ t' = .closeTerminate h false ∨ t' = .closeReset h false) ∨
        HasReset o'.stream.id c'.sent ∨ o'.stream.rxEnd = true ∨ o'.stream.dedicated = true) :
    c'.Closing h o' := by
  rcases hc with ⟨t, ht, hclose⟩ | hreset | hrx | hdedicated
  · exact htasks t ht hclose
  · refine .inr (.inl ?_)
    rw [hkept.id]
    exact hreset.mono hsent.subset
  · exact .inr (.inr (.inl (hkept.rxEnd hrx)))
  · exact .inr (.inr (.inr (hkept.dedicated.trans hdedicated)))

theorem Closing.of_mem (hc : c.Closing h o) (hkept : Kept o o') (hsent : c.sent <+: c'.sent)
    (htasks : c.tasks ⊆ c'.tasks) : c'.Closing h o' :=
  hc.of_tasks hkept hsent fun t ht hclose => .inl ⟨t, htasks ht, hclose⟩

/-- A task that is no `Close` of stream `h` takes its next step. -/
theorem Closing.of_setTask (hc : c.Closing h o) (hkept : Kept o o') (hsent : c.sent <+: c'.sent)
    {k : Nat} {t₀ : Task} {rest : List Task} (hk : c.tasks[k]? = some t₀)
    (hother : t₀ ≠ .close h ∧ t₀ ≠ .closeTerminate h false ∧ t₀ ≠ .closeReset h false)
    (htasks : c'.tasks = (c.setTask k rest).tasks) : c'.Closing h o' := by
  refine hc.of_tasks hkept hsent fun t ht hclose => .inl ⟨t, ?_, hclose⟩
  rw [htasks]
  refine (mem_of_setTask hk ht).resolve_left fun heq => ?_
  subst heq
  rcases hclose with rfl | rfl | rfl
  · exact hother.1 rfl
  · exact hother.2.1 rfl
  · exact hother.2.2 rfl

theorem Closing.step (hc : c.Closing h o) (ho : c.objs[h]? = some o) (hstep : c.step ev = some c')
    (hkept : Kept o o') (hfails : ∀ k, ev ≠ .writeFails k) : c'.Closing h o' := by
  have hsent := (wrote_step hstep).sent_grow
  cases stepped hstep with
  | taskClose k j s hk hs =>
      by_cases hjh : j = h
      · subst hjh
        obtain rfl : o = s := Option.some.inj (ho.symm.trans hs)
        cases hrx : o.stream.rxEnd with
        | true => exact .inr (.inr (.inl (hkept.rxEnd hrx)))
        | false =>
            refine .inl ⟨.closeTerminate j false, ?_, .inr (.inl rfl)⟩
            exact List.mem_append_right _ (List.mem_singleton_self _)
      · exact hc.of_setTask hkept hsent hk ⟨by simp [hjh], nofun, nofun⟩ rfl
  | taskTerminate k j t rest err hk hrest =>
      by_cases hclose : t = .closeTerminate h false
      · subst hclose
        obtain ⟨rfl, rfl, rfl⟩ := by simpa [Task.terminates] using hrest
        refine .inl ⟨.closeReset h false, ?_, .inr (.inr rfl)⟩
        exact List.mem_append_right _ (List.mem_singleton_self _)
      · have hother : t ≠ .close h ∧ t ≠ .closeReset h false := by
          constructor
          · rintro rfl
            cases hrest
          · rintro rfl
            cases hrest
        exact hc.of_setTask hkept hsent hk ⟨hother.1, hclose, hother.2⟩ rfl
  | taskWrite k j env s hk => exact hc.of_setTask hkept hsent hk ⟨nofun, nofun, nofun⟩ rfl
  | taskReset k j finished s hk hs hclosed =>
      by_cases hjh : j = h
      · subst hjh
        obtain rfl : o = s := Option.some.inj (ho.symm.trans hs)
        refine .inr
          (.inl ⟨_, List.mem_append_right _ (List.mem_singleton_self _), hkept.id.symm, rfl⟩)
      · exact hc.of_setTask hkept hsent hk ⟨nofun, nofun, by simp [hjh]⟩ rfl
  | taskClosed k j finished s hk hs hclosed =>
      by_cases hmine : Task.closeReset j finished = .closeReset h false
      · obtain ⟨rfl, rfl⟩ : j = h ∧ finished = false := by simpa using hmine
        obtain rfl : o = s := Option.some.inj (ho.symm.trans hs)
        refine .inr (.inr (.inr (hkept.dedicated.trans ?_)))
        simpa using hclosed
      · exact hc.of_setTask hkept hsent hk ⟨nofun, nofun, hmine⟩ rfl
  | taskDeregister k j s hk => exact hc.of_setTask hkept hsent hk ⟨nofun, nofun, nofun⟩ rfl
  | writeFails k | resetFails k => exact absurd rfl (hfails k)
  | start f =>
      refine hc.of_mem hkept hsent fun t ht => ?_
      rwa [startStream_tasks]
  | newStream dedicated =>
      refine hc.of_mem hkept hsent fun t ht => ?_
      rwa [newStream_tasks]
  | recvFails | writeChecked | close | shutdown | handlerReturn =>
      exact hc.of_mem hkept hsent (List.subset_append_left _ _)
  | recv | found | missing | skip | reset | deliver | resetTerminate | drop | writeRefused | read
  | cancel => exact hc.of_mem hkept hsent fun _ ht => ht

/-- Once `Close` has returned without the end-stream the reset is written. -/
theorem Closing.reset_sent (hc : c.Closing h o) (hdone : ∀ t ∈ c.tasks, t.closes h = false)
    (hrx : o.stream.rxEnd = false) (hdedicated : o.stream.dedicated = false) :
    HasReset o.stream.id c.sent := by
  rcases hc with ⟨t, ht, hclose⟩ | hreset | hend | hown
  · have hnone := hdone t ht
    rcases hclose with rfl | rfl | rfl <;> simp [Task.closes] at hnone
  · exact hreset
  · rw [hrx] at hend
    cases hend
  · rw [hdedicated] at hown
    cases hown

end MuxConn
end ConnectWebSocket
end BidiWeb
