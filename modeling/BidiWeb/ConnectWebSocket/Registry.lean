/-
  BidiWeb.ConnectWebSocket.Registry

  The stream map of a connection of either role against the streams that have
  been handed out.

  A stream leaves the map in one step and is terminated in another, by four
  different operations: the reset of the peer, `Close`, the exit of a handler
  and `terminateAll`.  In between the operation has the stream in hand, and
  nothing but its own steps takes the stream out of it.  As long as no ID is
  issued twice, what an operation deregisters is the stream it has in hand
  and no other.
-/

import BidiWeb.ConnectWebSocket.Received
import BidiWeb.ConnectWebSocket.ServerStreams
import BidiWeb.ConnectWebSocket.Written

namespace BidiWeb
namespace ConnectWebSocket

open BidiWeb.Lib

/-- A connection, of the client transport or of the server handler. -/
def muxConn (role : Role) : Machine MuxConn ConnEvent where
  init := { role }
  step := MuxConn.step

/-- The second select of `ReadEnvelope` has no ready case. -/
def MuxStream.Blocks (s : MuxStream) : Prop :=
  s.inbox = [] ∧ s.terminated = false ∧ s.ctxErr = none

namespace MuxConn

/-- Stream `h` has been terminated. -/
def Ended (c : MuxConn) (h : Nat) : Prop :=
  ∃ o : StreamObject, c.objs[h]? = some o ∧ o.stream.terminated = true

/-- An operation in progress has stream `h` in hand; with the steps it has
    still to take up to the one that terminates the stream. -/
inductive Holds (c : MuxConn) (h : Nat) : List ConnEvent → Prop where
  | reset : c.loop = .resetting h → Holds c h [.advance]
  | terminates (k : Nat) (t : Task) (rest : List Task) (err : GoError) : c.tasks[k]? = some t →
      t.terminates = some (h, rest, err) → Holds c h [.task k]
  /-- `rxEnd` is loaded first. -/
  | close (k : Nat) : c.tasks[k]? = some (.close h) →
      Holds c h [.task k, .task (c.tasks.length - 1)]

/-- Some operation in progress has stream `h` in hand. -/
def Held (c : MuxConn) (h : Nat) : Prop :=
  c.loop = .resetting h ∨ ∃ t ∈ c.tasks, t.victim = some h

/-- Where a stream that has been handed out can be. -/
inductive Accounted (c : MuxConn) (h : Nat) (o : StreamObject) : Prop where
  | registered : c.closed = false → c.streams o.stream.id = some h → Accounted c h o
  | terminated : o.stream.terminated = true → Accounted c h o
  | held (steps : List ConnEvent) (c' : MuxConn) : c.Holds h steps →
      (muxConn c.role).exec c steps = some c' → c'.Ended h → Accounted c h o

variable {c c' : MuxConn}

-- ============================================================================
-- A closed connection
-- ============================================================================

/-- The map of a closed connection is empty. -/
def ClosedEmpty (c : MuxConn) : Prop := c.closed = true → ∀ id, c.streams id = none

/-- No step opens a closed connection, adds to its map or hands out a stream. -/
structure StaysClosed (c c' : MuxConn) : Prop where
  closed : c.closed = true → c'.closed = true
  empty : c.ClosedEmpty → c'.ClosedEmpty
  ids : c.closed = true → c'.ids = c.ids

theorem StaysClosed.of_streams (hclosed : c'.closed = c.closed) (hids : c'.ids = c.ids)
    (hstreams : ∀ id, c.streams id = none → c'.streams id = none) : StaysClosed c c' where
  closed := fun h => hclosed.trans h
  empty := fun h hc' id => hstreams id (h (hclosed.symm.trans hc') id)
  ids := fun _ => hids

theorem StaysClosed.insert (hopen : c.closed = false) {o : StreamObject} (next : UInt32)
    (loop : Loop) : StaysClosed c { { c with nextID := next }.insert o with loop } where
  closed := fun h => absurd (h.symm.trans hopen) (by simp)
  empty := fun _ h => absurd (Eq.trans h.symm hopen) (by simp)
  ids := fun h => absurd (h.symm.trans hopen) (by simp)

theorem ids_modify {h : Nat} {f : StreamObject → StreamObject}
    (hf : ∀ o, c.objs[h]? = some o → (f o).stream.id = o.stream.id) :
    (c.modify h f).ids = c.ids := Store.map_modify_of_eq hf

theorem ids_terminate (h : Nat) (err : GoError) : (c.terminate h err).ids = c.ids :=
  ids_modify fun o _ => o.stream.terminate_id err

theorem deregister_none {id j : UInt32} (hj : c.streams j = none) :
    (c.deregister id).streams j = none := by
  by_cases hji : j = id <;> simp [MuxConn.deregister, hji, hj]

theorem StaysClosed.step {ev : ConnEvent} (hstep : Stepped c ev c') : StaysClosed c c' := by
  have hsame : ∀ {id}, c.streams id = none → c.streams id = none := fun h => h
  cases hstep with
  | recv | found | missing | skip | drop | writeRefused | writeChecked | taskClose | taskReset
  | taskClosed | writeFails | resetFails => exact .of_streams rfl rfl fun _ => hsame
  | recvFails | shutdown => exact ⟨fun _ => rfl, fun _ _ _ => rfl, fun _ => rfl⟩
  | reset | close | taskDeregister => exact .of_streams rfl rfl fun _ => deregister_none
  | start f =>
      rcases c.startStream_cases f with hrefused | ⟨hopen, -, hinsert⟩
      · rw [hrefused]
        exact .of_streams rfl rfl fun _ => hsame
      · rw [hinsert]
        exact .insert hopen c.nextID .reading
  | newStream dedicated =>
      rcases c.newStream_cases dedicated with ⟨next, hnone⟩ | ⟨hopen, id, -, hinsert⟩
      · rw [hnone]
        exact .of_streams rfl rfl fun _ => hsame
      · rw [hinsert]
        exact .insert hopen id c.loop
  | deliver h | cancel h | handlerReturn h =>
      exact .of_streams rfl (ids_modify fun _ _ => rfl) fun _ => hsame
  | taskWrite k h env =>
      exact .of_streams rfl (ids_modify_write h env rfl) fun _ => hsame
  | resetTerminate h => exact .of_streams rfl (ids_terminate h _) fun _ => hsame
  | taskTerminate k h t rest err => exact .of_streams rfl (ids_terminate h err) fun _ => hsame
  | read h o env stream ho _ hreceive =>
      refine .of_streams rfl (ids_modify fun o' ho' => ?_) fun _ => hsame
      obtain rfl : o = o' := Option.some.inj (ho.symm.trans ho')
      exact o.stream.receive_id hreceive

-- ============================================================================
-- The streams handed out
-- ============================================================================

/-- The map, the read loop and the operations in progress against the streams
    handed out. -/
structure Registry (c : MuxConn) : Prop where
  closed : c.ClosedEmpty
  /-- A registered ID is that of its stream. -/
  streams : ∀ id h, c.streams id = some h → c.idOf h = some id
  found : ∀ h f, c.loop = .found h f → c.idOf h = some f.id
  /-- A handler terminates its stream before it deregisters it. -/
  exited : ∀ h, .exitDeregister h ∈ c.tasks → c.Ended h
  hands : ∀ h, c.Held h → ∃ id, c.idOf h = some id
  /-- No stream is lost. -/
  kept : ∀ h id, c.idOf h = some id → c.Ended h ∨ c.Held h ∨ c.streams id = some h

theorem registry_init (role : Role) : Registry { role } where
  closed := fun _ _ => rfl
  streams := fun _ _ h => by cases h
  found := fun _ _ h => by cases h
  exited := fun _ h => by cases h
  hands := fun _ h => by rcases h with h | ⟨_, h, -⟩ <;> cases h
  kept := fun _ _ h => by cases h

/-- A step that hands out no stream and registers none. -/
structure Moves (c c' : MuxConn) : Prop where
  ids : ∀ h, c'.idOf h = c.idOf h
  ended : ∀ h, c.Ended h → c'.Ended h
  streams : ∀ id h, c'.streams id = some h → c.streams id = some h
  found : ∀ h f, c'.loop = .found h f → c.loop = .found h f ∨ c.streams f.id = some h
  exited : ∀ h, .exitDeregister h ∈ c'.tasks → .exitDeregister h ∈ c.tasks ∨ c'.Ended h
  hands : ∀ h, c'.Held h → c.Held h ∨ ∃ id, c.idOf h = some id
  /-- What is in hand stays in hand until it is terminated. -/
  held : ∀ h, c.Held h → c'.Ended h ∨ c'.Held h
  /-- What leaves the map is terminated or in hand. -/
  removed : ∀ h id, c.idOf h = some id → c.streams id = some h →
    c'.Ended h ∨ c'.Held h ∨ c'.streams id = some h

theorem Moves.registry (hm : Moves c c') (hc : c.Registry) (hclosed : c'.ClosedEmpty) :
    c'.Registry where
  closed := hclosed
  streams := fun id h hreg => (hm.ids h).trans (hc.streams id h (hm.streams id h hreg))
  found := fun h f hl => by
    rw [hm.ids]
    exact (hm.found h f hl).elim (hc.found h f) (hc.streams f.id h)
  exited := fun h hmem => (hm.exited h hmem).elim (fun hold => hm.ended h (hc.exited h hold)) id
  hands := fun h hheld => by
    simp only [hm.ids]
    exact (hm.hands h hheld).elim (hc.hands h) id
  kept := fun h id hid => by
    rw [hm.ids] at hid
    rcases hc.kept h id hid with hended | hheld | hreg
    · exact .inl (hm.ended h hended)
    · exact (hm.held h hheld).imp_right .inl
    · exact hm.removed h id hid hreg

theorem Moves.trans {c₁ c₂ : MuxConn} (h₁ : Moves c c₁) (h₂ : Moves c₁ c₂)
    (hloop : ∀ h f, c₂.loop = .found h f → c₁.loop = .found h f) : Moves c c₂ where
  ids := fun h => (h₂.ids h).trans (h₁.ids h)
  ended := fun h hended => h₂.ended h (h₁.ended h hended)
  streams := fun id h hreg => h₁.streams id h (h₂.streams id h hreg)
  found := fun h f hl => h₁.found h f (hloop h f hl)
  exited := fun h hmem => by
    rcases h₂.exited h hmem with hmem | hended
    · exact (h₁.exited h hmem).imp_right (h₂.ended h)
    · exact .inr hended
  hands := fun h hheld => by
    rcases h₂.hands h hheld with hheld | ⟨id, hid⟩
    · exact h₁.hands h hheld
    · exact .inr ⟨id, (h₁.ids h).symm.trans hid⟩
  held := fun h hheld => (h₁.held h hheld).elim (fun hended => .inl (h₂.ended h hended)) (h₂.held h)
  removed := fun h id hid hreg => by
    have hid₁ : c₁.idOf h = some id := (h₁.ids h).trans hid
    rcases h₁.removed h id hid hreg with hended | hheld | hreg
    · exact .inl (h₂.ended h hended)
    · exact (h₂.held h hheld).imp_right .inl
    · exact h₂.removed h id hid₁ hreg

theorem Moves.writeFrame (hm : Moves c c') (frame : Frame) : Moves c (c'.writeFrame frame) :=
  ⟨hm.ids, hm.ended, hm.streams, hm.found, hm.exited, hm.hands, hm.held, hm.removed⟩

theorem Held.mono {h : Nat} (hheld : c.Held h)
    (hloop : c.loop = .resetting h → c'.loop = .resetting h)
    (htasks : ∀ t ∈ c.tasks, t.victim = some h → t ∈ c'.tasks) : c'.Held h :=
  hheld.imp hloop fun ⟨t, hmem, hvictim⟩ => ⟨t, htasks t hmem hvictim, hvictim⟩

/-- Only the read loop moves, without a stream in hand. -/
theorem Moves.of_loop {loop : Loop} (seen : List Frame) (hloop : ∀ h, c.loop ≠ .resetting h)
    (hloop' : ∀ h, loop ≠ .resetting h)
    (hfound : ∀ h f, loop = .found h f → c.streams f.id = some h) :
    Moves c { c with loop, seen } where
  ids := fun _ => rfl
  ended := fun _ hended => hended
  streams := fun _ _ hreg => hreg
  found := fun h f hl => .inr (hfound h f hl)
  exited := fun _ hmem => .inl hmem
  hands := fun h hheld => .inl (hheld.mono (fun hl => absurd hl (hloop' h)) fun _ hmem _ => hmem)
  held := fun h hheld => .inr (hheld.mono (fun hl => absurd hl (hloop h)) fun _ hmem _ => hmem)
  removed := fun _ _ _ hreg => .inr (.inr hreg)

theorem Held.addTask {t : Task} {h : Nat} (hheld : Held { c with tasks := c.tasks ++ [t] } h) :
    c.Held h ∨ t.victim = some h := by
  rcases hheld with hreset | ⟨t', hmem, hvictim⟩
  · exact .inl (.inl hreset)
  · rcases List.mem_append.mp hmem with hold | hnew
    · exact .inl (.inr ⟨t', hold, hvictim⟩)
    · obtain rfl := List.mem_singleton.mp hnew
      exact .inr hvictim

/-- An operation begins. -/
theorem Moves.addTask {t : Task} (hexit : ∀ h, t ≠ .exitDeregister h)
    (hvictim : ∀ h, t.victim = some h → ∃ id, c.idOf h = some id) :
    Moves c { c with tasks := c.tasks ++ [t] } where
  ids := fun _ => rfl
  ended := fun _ hended => hended
  streams := fun _ _ hreg => hreg
  found := fun _ _ hl => .inl hl
  exited := fun h hmem => by
    rcases List.mem_append.mp hmem with hold | hnew
    · exact .inl hold
    · exact absurd (List.mem_singleton.mp hnew).symm (hexit h)
  hands := fun h hheld => hheld.addTask.imp_right (hvictim h)
  held := fun _ hheld =>
    .inr (hheld.mono (fun hl => hl) fun _ hmem _ => List.mem_append_left _ hmem)
  removed := fun _ _ _ hreg => .inr (.inr hreg)

/-- An operation goes on, with the stream it has in hand. -/
theorem Moves.setTask {k : Nat} {t : Task} {rest : List Task} (hk : c.tasks[k]? = some t)
    (hexit : ∀ h, .exitDeregister h ∈ rest → c.Ended h)
    (hrest : ∀ t' ∈ rest, ∀ h, t'.victim = some h → t.victim = some h)
    (hvictim : ∀ h, t.victim = some h → c.Ended h ∨ ∃ t' ∈ rest, t'.victim = some h) :
    Moves c (c.setTask k rest) where
  ids := fun _ => rfl
  ended := fun _ hended => hended
  streams := fun _ _ hreg => hreg
  found := fun _ _ hl => .inl hl
  exited := fun h hmem => by
    rcases List.mem_append.mp hmem with hold | hnew
    · exact .inl (List.mem_of_mem_eraseIdx hold)
    · exact .inr (hexit h hnew)
  hands := fun h hheld => by
    rcases hheld with hreset | ⟨t', hmem, ht'⟩
    · exact .inl (.inl hreset)
    · rcases List.mem_append.mp hmem with hold | hnew
      · exact .inl (.inr ⟨t', List.mem_of_mem_eraseIdx hold, ht'⟩)
      · exact .inl (.inr ⟨t, List.mem_of_getElem? hk, hrest t' hnew h ht'⟩)
  held := fun h hheld => by
    rcases hheld with hreset | ⟨t', hmem, ht'⟩
    · exact .inr (.inl hreset)
    · obtain ⟨i, hi⟩ := List.getElem?_of_mem hmem
      by_cases hik : i = k
      · subst hik
        obtain rfl := Option.some.inj (hk.symm.trans hi)
        refine (hvictim h ht').imp_right fun ⟨t'', hnew, ht''⟩ => ?_
        exact .inr ⟨t'', List.mem_append_right _ hnew, ht''⟩
      · have hkept : t' ∈ c.tasks.eraseIdx k := List.mem_eraseIdx_iff_getElem?.mpr ⟨i, hik, hi⟩
        exact .inr (.inr ⟨t', List.mem_append_left _ hkept, ht'⟩)
  removed := fun _ _ _ hreg => .inr (.inr hreg)

/-- An operation goes on that has no stream in hand. -/
theorem Moves.doneTask {k : Nat} {t : Task} (hk : c.tasks[k]? = some t) (hnone : t.victim = none) :
    Moves c (c.setTask k []) :=
  .setTask hk (fun _ h => by cases h) (fun _ h => by cases h)
    fun h hvictim => by
      rw [hnone] at hvictim
      cases hvictim

/-- One stream changes, and keeps its ID. -/
theorem Moves.modify {h : Nat} {f : StreamObject → StreamObject}
    (hid : ∀ o, c.objs[h]? = some o → (f o).stream.id = o.stream.id)
    (hterm : ∀ o, c.objs[h]? = some o → o.stream.terminated = true →
      (f o).stream.terminated = true) : Moves c (c.modify h f) where
  ids := fun j => by
    simp only [idOf, MuxConn.modify, List.getElem?_modify]
    by_cases hhj : h = j
    · subst hhj
      cases ho : c.objs[h]? with
      | none => rfl
      | some o => simp [hid o ho]
    · simp [hhj]
  ended := fun j ⟨o, ho, hended⟩ => by
    by_cases hhj : h = j
    · subst hhj
      exact ⟨f o, Store.getElem?_modify.mpr (by simpa using ⟨o, ho, rfl⟩), hterm o ho hended⟩
    · exact ⟨o, Store.getElem?_modify.mpr (by simpa [hhj] using ho), hended⟩
  streams := fun _ _ hreg => hreg
  found := fun _ _ hl => .inl hl
  exited := fun _ hmem => .inl hmem
  hands := fun _ hheld => .inl hheld
  held := fun _ hheld => .inr hheld
  removed := fun _ _ _ hreg => .inr (.inr hreg)

theorem Moves.terminate (h : Nat) (err : GoError) : Moves c (c.terminate h err) :=
  .modify (fun o _ => o.stream.terminate_id err) fun o _ _ => o.stream.terminated_terminate err

theorem ended_terminate {h : Nat} {id : UInt32} (hid : c.idOf h = some id) (err : GoError) :
    (c.terminate h err).Ended h := by
  obtain ⟨o, ho, -⟩ := idOf_eq_some.mp hid
  refine ⟨{ o with stream := o.stream.terminate err }, ?_, o.stream.terminated_terminate err⟩
  refine Store.getElem?_modify.mpr ?_
  rw [if_pos rfl]
  exact ⟨o, ho, rfl⟩

/-- The entry that an operation deregisters is the one of the stream it has in
    hand. -/
theorem idOf_unique (hids : c.ids.Nodup) {h j : Nat} {id : UInt32} (hh : c.idOf h = some id)
    (hj : c.idOf j = some id) : h = j := by
  have hget : ∀ i, c.ids[i]? = c.idOf i := fun i => List.getElem?_map
  have hlt : h < c.ids.length := by
    obtain ⟨hlt, -⟩ := List.getElem?_eq_some_iff.mp ((hget h).trans hh)
    exact hlt
  exact (List.getElem?_inj hlt hids).mp (by rw [hget, hget, hh, hj])

/-- The stream in hand is deregistered. -/
theorem Moves.deregister (hids : c.ids.Nodup) {h : Nat} {id : UInt32} (hid : c.idOf h = some id)
    {loop : Loop} {tasks : List Task} (hfound : ∀ h f, loop = .found h f → c.loop = .found h f)
    (hexited : ∀ h, .exitDeregister h ∈ tasks → .exitDeregister h ∈ c.tasks)
    (hhands : ∀ j, Held { c with loop, tasks } j → c.Held j ∨ j = h)
    (hheld : ∀ j, c.Held j → Held { c with loop, tasks } j)
    (hhand : c.Ended h ∨ Held { c with loop, tasks } h) :
    Moves c { c.deregister id with loop, tasks } where
  ids := fun _ => rfl
  ended := fun _ hended => hended
  streams := fun _ _ hreg => (deregister_streams.mp hreg).2
  found := fun h f hl => .inl (hfound h f hl)
  exited := fun h hmem => .inl (hexited h hmem)
  hands := fun j hj => by
    rcases hhands j hj with hold | rfl
    · exact .inl hold
    · exact .inr ⟨id, hid⟩
  held := fun j hj => .inr (hheld j hj)
  removed := fun j i hj hreg => by
    by_cases hi : i = id
    · obtain rfl : j = h := idOf_unique hids hj (hi ▸ hid)
      exact hhand.imp_right .inl
    · exact .inr (.inr (deregister_streams.mpr ⟨hi, hreg⟩))

theorem Moves.terminateAll (err : GoError) {loop : Loop}
    (hfound : ∀ h f, loop = .found h f → c.loop = .found h f)
    (hloop : ∀ h, c.loop = .resetting h ↔ loop = .resetting h) :
    Moves c { c.terminateAll err with loop } where
  ids := fun _ => rfl
  ended := fun _ hended => hended
  streams := fun _ _ hreg => by cases hreg
  found := fun h f hl => .inl (hfound h f hl)
  exited := fun h hmem => by
    rcases List.mem_append.mp hmem with hold | hnew
    · exact .inl hold
    · obtain ⟨j, -, hj⟩ := List.mem_map.mp hnew
      cases hj
  hands := fun h hheld => by
    rcases hheld with hreset | ⟨t, hmem, ht⟩
    · exact .inl (.inl ((hloop h).mpr hreset))
    · rcases List.mem_append.mp hmem with hold | hnew
      · exact .inl (.inr ⟨t, hold, ht⟩)
      · obtain ⟨j, hj, rfl⟩ := List.mem_map.mp hnew
        obtain rfl : j = h := Option.some.inj ht
        obtain ⟨id, hid, -⟩ := mem_registered.mp hj
        exact .inr ⟨id, hid⟩
  held := fun h hheld =>
    .inr (hheld.mono (hloop h).mp fun _ hmem _ => List.mem_append_left _ hmem)
  removed := fun h id hid hreg => by
    have hmem : h ∈ c.registered := mem_registered.mpr ⟨id, hid, hreg⟩
    have htask : Task.terminate h err ∈ (c.terminateAll err).tasks :=
      List.mem_append_right _ (List.mem_map_of_mem hmem)
    exact .inr (.inl (.inr ⟨_, htask, rfl⟩))

/-- A stream is handed out and registered. -/
theorem Registry.insert (hc : c.Registry) (hopen : c.closed = false) {o : StreamObject}
    (hfree : c.streams o.stream.id = none) (next : UInt32) {loop : Loop}
    (hreset : ∀ h, c.loop = .resetting h ↔ loop = .resetting h)
    (hfound : ∀ h f, loop = .found h f → c.loop = .found h f) :
    { { c with nextID := next }.insert o with loop }.Registry where
  closed := fun hclosed => absurd (hopen.symm.trans hclosed) (by simp)
  streams := fun id h hreg => by
    rcases insert_streams.mp hreg with ⟨rfl, rfl⟩ | ⟨-, hold⟩
    · exact idOf_eq_some.mpr ⟨o, Store.getElem?_concat.mpr (.inr ⟨rfl, rfl⟩), rfl⟩
    · exact idOf_insert (hc.streams id h hold)
  found := fun h f hl => idOf_insert (hc.found h f (hfound h f hl))
  exited := fun h hmem => by
    obtain ⟨o₀, ho₀, hended⟩ := hc.exited h hmem
    exact ⟨o₀, Store.getElem?_concat.mpr (.inl ho₀), hended⟩
  hands := fun h hheld => by
    obtain ⟨id, hid⟩ := hc.hands h (hheld.mono (hreset h).mpr fun _ hmem _ => hmem)
    exact ⟨id, idOf_insert hid⟩
  kept := fun h id hid => by
    obtain ⟨o', ho', rfl⟩ := idOf_eq_some.mp hid
    rcases Store.getElem?_concat.mp ho' with hold | ⟨rfl, rfl⟩
    · rcases hc.kept h _ (idOf_of_get hold) with ⟨o₀, ho₀, hended⟩ | hheld | hreg
      · exact .inl ⟨o₀, Store.getElem?_concat.mpr (.inl ho₀), hended⟩
      · exact .inr (.inl (hheld.mono (hreset h).mp fun _ hmem _ => hmem))
      · refine .inr (.inr (insert_streams.mpr (.inr ⟨?_, hreg⟩)))
        intro heq
        have hfree : c.streams o.stream.id = none := hfree
        rw [← heq, hreg] at hfree
        cases hfree
    · exact .inr (.inr (insert_streams.mpr (.inl ⟨rfl, rfl⟩)))

/-- What a task that terminates its stream has in hand, and what it has left to
    do then. -/
theorem terminates_frame {t : Task} {h : Nat} {rest : List Task} {err : GoError}
    (ht : t.terminates = some (h, rest, err)) :
    t.victim = some h ∧ (∀ t' ∈ rest, t'.victim = none) ∧
      ∀ j, .exitDeregister j ∈ rest → j = h := by
  cases t with
  | closeTerminate | exit | terminate =>
      simp only [Task.terminates, Option.some.injEq, Prod.mk.injEq] at ht
      obtain ⟨rfl, rfl, -⟩ := ht
      simp [Task.victim]
  | write | close | closeReset | exitDeregister => cases ht

theorem Moves.taskTerminate {k h : Nat} {t : Task} {rest : List Task} {err : GoError}
    (hk : c.tasks[k]? = some t) (ht : t.terminates = some (h, rest, err)) {id : UInt32}
    (hid : c.idOf h = some id) : Moves c ((c.setTask k rest).terminate h err) := by
  have hended : (c.terminate h err).Ended h := ended_terminate hid err
  obtain ⟨hvictim, hrest, hexit⟩ := terminates_frame ht
  have hmoves : Moves (c.terminate h err) ((c.terminate h err).setTask k rest) := by
    refine .setTask hk (fun j hmem => ?_) (fun t' hmem j hj => ?_) fun j hj => ?_
    · obtain rfl := hexit j hmem
      exact hended
    · rw [hrest t' hmem] at hj
      cases hj
    · obtain rfl : h = j := Option.some.inj (hvictim.symm.trans hj)
      exact .inl hended
  exact (Moves.terminate h err).trans hmoves fun _ _ hl => hl

-- ============================================================================
-- Each kind of step
-- ============================================================================

/-- The loop takes a stream that has been reset out of the map. -/
theorem Moves.reset (hc : c.Registry) (hids : c.ids.Nodup) {h : Nat} {f : Frame}
    (hl : c.loop = .found h f) : Moves c { c.deregister f.id with loop := .resetting h } := by
  refine .deregister hids (hc.found h f hl) (fun _ _ h => by cases h) (fun _ hmem => hmem)
    (fun j hj => ?_) (fun j hj => hj.mono (fun hreset => ?_) fun _ hmem _ => hmem) (.inr (.inl rfl))
  · rcases hj with hreset | htask
    · exact .inr (Loop.resetting.inj hreset).symm
    · exact .inl (.inr htask)
  · rw [hl] at hreset
    cases hreset

/-- And terminates it. -/
theorem Moves.resetTerminate (hc : c.Registry) {h : Nat} (hl : c.loop = .resetting h)
    (err : GoError) : Moves c { c.terminate h err with loop := .reading } := by
  obtain ⟨id, hid⟩ := hc.hands h (.inl hl)
  have hended := ended_terminate hid err
  refine
    { Moves.terminate h err with
      found := fun _ _ h => by cases h
      hands := fun j hj => .inl (hj.mono (fun h => by cases h) fun _ hmem _ => hmem)
      held := fun j hj => ?_
      removed := fun _ _ _ hreg => .inr (.inr hreg) }
  rcases hj with hreset | htask
  · obtain rfl : h = j := Loop.resetting.inj (hl.symm.trans hreset)
    exact .inl hended
  · exact .inr (.inr htask)

theorem Moves.deliver {h : Nat} {f : Frame} (hl : c.loop = .found h f) :
    Moves c { c.modify h (StreamObject.push · f.env) with loop := .reading } := by
  have hpush : Moves c (c.modify h (StreamObject.push · f.env)) :=
    .modify (fun _ _ => rfl) fun _ _ hterm => hterm
  have hread : Moves (c.modify h (StreamObject.push · f.env))
      { c.modify h (StreamObject.push · f.env) with loop := .reading } := by
    refine .of_loop c.seen (fun j hreset => ?_) (fun _ h => by cases h) fun _ _ h => by cases h
    cases hl.symm.trans hreset
  exact hpush.trans hread fun _ _ h => by cases h

/-- A stream is closed: its terminator has it in hand. -/
theorem Moves.close (hids : c.ids.Nodup) {h : Nat} {o : StreamObject} (ho : c.objs[h]? = some o) :
    Moves c { c.deregister o.stream.id with tasks := c.tasks ++ [.close h] } := by
  refine .deregister hids (idOf_of_get ho) (fun _ _ hl => hl) (fun j hmem => ?_)
    (fun j hj => ?_) (fun j hj => ?_) (.inr ?_)
  · rcases List.mem_append.mp hmem with hold | hnew
    · exact hold
    · cases List.mem_singleton.mp hnew
  · exact hj.addTask.imp_right fun hvictim => (Option.some.inj hvictim).symm
  · exact hj.mono (fun hl => hl) fun _ hmem _ => List.mem_append_left _ hmem
  · exact .inr ⟨.close h, List.mem_append_right _ (List.mem_singleton.mpr rfl), rfl⟩

theorem Moves.handlerReturn {h : Nat} {o : StreamObject} (ho : c.objs[h]? = some o) :
    Moves c { c.modify h fun o => { o with handlerDone := true } with
      tasks := c.tasks ++ [.exit h] } := by
  have hreturned : Moves c (c.modify h fun o => { o with handlerDone := true }) :=
    .modify (fun _ _ => rfl) fun _ _ hterm => hterm
  refine hreturned.trans (.addTask (fun _ h => by cases h) fun j hj => ?_) fun _ _ hl => hl
  obtain rfl : h = j := Option.some.inj hj
  exact ⟨o.stream.id, (hreturned.ids h).trans (idOf_of_get ho)⟩

theorem Moves.taskDeregister (hc : c.Registry) (hids : c.ids.Nodup) {k h : Nat} {o : StreamObject}
    (hk : c.tasks[k]? = some (.exitDeregister h)) (ho : c.objs[h]? = some o) :
    Moves c ((c.setTask k []).deregister o.stream.id) := by
  have hended : c.Ended h := hc.exited h (List.mem_of_getElem? hk)
  have hremoved : Moves (c.setTask k []) ((c.setTask k []).deregister o.stream.id) :=
    .deregister (c := c.setTask k []) hids (idOf_of_get ho) (fun _ _ hl => hl)
      (fun _ hmem => hmem) (fun _ hj => .inl hj) (fun _ hj => hj) (.inl hended)
  exact (Moves.doneTask hk rfl).trans hremoved fun _ _ hl => hl

/-- As long as no ID has been issued twice, a step loses no stream. -/
theorem Registry.step (hc : c.Registry) (hids : c.ids.Nodup) {ev : ConnEvent}
    (hstep : Stepped c ev c') : c'.Registry := by
  have hmoves : Moves c c' → c'.Registry :=
    fun hm => hm.registry hc ((StaysClosed.step hstep).empty hc.closed)
  have hloop : ∀ {l}, c.loop = l → (∀ h, l ≠ .resetting h) → ∀ h, c.loop ≠ .resetting h :=
    fun hl hne h hreset => hne h (hl.symm.trans hreset)
  cases hstep with
  | recv f hl =>
      exact hmoves (.of_loop _ (hloop hl fun _ h => by cases h) (fun _ h => by cases h)
        fun _ _ h => by cases h)
  | recvFails err hl =>
      refine hmoves (.terminateAll err (fun _ _ h => by cases h) fun h => ?_)
      rw [hl]
      simp
  | found h f hl hreg =>
      refine hmoves (.of_loop c.seen (hloop hl fun _ h => by cases h) (fun _ h => by cases h) ?_)
      rintro _ _ ⟨⟩
      exact hreg
  | missing f hl | skip f hl | drop h f o hl =>
      exact hmoves (.of_loop c.seen (hloop hl fun _ h => by cases h) (fun _ h => by cases h)
        fun _ _ h => by cases h)
  | start f hl =>
      rcases c.startStream_cases f with hrefused | ⟨hopen, hfree, hinsert⟩
      · rw [hrefused]
        exact (Moves.of_loop c.seen (hloop hl fun _ h => by cases h) (fun _ h => by cases h)
          fun _ _ h => by cases h).registry hc hc.closed
      · rw [hinsert]
        refine hc.insert hopen hfree c.nextID (fun h => ?_) fun _ _ h => by cases h
        rw [hl]
        simp
  | reset h f hl => exact hmoves (.reset hc hids hl)
  | deliver h f o hl => exact hmoves (.deliver hl)
  | resetTerminate h hl => exact hmoves (.resetTerminate hc hl _)
  | newStream dedicated =>
      rcases c.newStream_cases dedicated with ⟨next, hnone⟩ | ⟨hopen, id, hfree, hinsert⟩
      · rw [hnone]
        exact ⟨hc.closed, hc.streams, hc.found, hc.exited, hc.hands, hc.kept⟩
      · rw [hinsert]
        exact hc.insert hopen hfree id (fun _ => Iff.rfl) fun _ _ h => h
  | writeRefused => exact hc
  | writeChecked h env => exact hmoves (.addTask (fun _ h => by cases h) fun _ h => by cases h)
  | read h o env stream ho _ hreceive =>
      refine hmoves (.modify (fun o' ho' => ?_) fun o' ho' hterm => ?_)
      · obtain rfl : o = o' := Option.some.inj (ho.symm.trans ho')
        exact o.stream.receive_id hreceive
      · obtain rfl : o = o' := Option.some.inj (ho.symm.trans ho')
        rw [MuxStream.terminated, (o.stream.receive_frame hreceive).2.2]
        exact hterm
  | cancel h err => exact hmoves (.modify (fun _ _ => rfl) fun _ _ hterm => hterm)
  | close h o _ ho => exact hmoves (.close hids ho)
  | shutdown => exact hmoves (.terminateAll _ (fun _ _ hl => hl) fun _ => Iff.rfl)
  | handlerReturn h o _ ho => exact hmoves (.handlerReturn ho)
  | taskWrite k h env o hk =>
      have hdone := (Moves.doneTask hk rfl).writeFrame ⟨o.stream.id, env⟩
      exact hmoves (hdone.trans (.modify (fun _ _ => rfl) fun _ _ hterm => hterm) fun _ _ hl => hl)
  | taskClose k h o hk =>
      refine hmoves (.setTask hk (fun _ hmem => ?_) (fun t' hmem j hj => ?_) fun j hj => ?_)
      · cases List.mem_singleton.mp hmem
      · obtain rfl := List.mem_singleton.mp hmem
        exact hj
      · exact .inr ⟨_, List.mem_singleton.mpr rfl, hj⟩
  | taskTerminate k h t rest err hk ht =>
      obtain ⟨hvictim, -⟩ := terminates_frame ht
      obtain ⟨id, hid⟩ := hc.hands h (.inr ⟨t, List.mem_of_getElem? hk, hvictim⟩)
      exact hmoves (.taskTerminate hk ht hid)
  | taskReset k h finished o hk => exact hmoves ((Moves.doneTask hk rfl).writeFrame _)
  | taskClosed k h finished o hk => exact hmoves (.doneTask hk rfl)
  | writeFails k h env hk => exact hmoves (.doneTask hk rfl)
  | resetFails k h finished hk => exact hmoves (.doneTask hk rfl)
  | taskDeregister k h o hk ho => exact hmoves (.taskDeregister hc hids hk ho)

theorem victim_cases {t : Task} {h : Nat} (ht : t.victim = some h) :
    t = .close h ∨ ∃ rest err, t.terminates = some (h, rest, err) := by
  cases t with
  | close j =>
      obtain rfl : j = h := Option.some.inj ht
      exact .inl rfl
  | closeTerminate | exit | terminate =>
      obtain rfl := Option.some.inj ht
      exact .inr ⟨_, _, rfl⟩
  | write | closeReset | exitDeregister => cases ht

theorem step_terminates {k h : Nat} {t : Task} {rest : List Task} {err : GoError}
    (hk : c.tasks[k]? = some t) (ht : t.terminates = some (h, rest, err)) :
    c.step (.task k) = some ((c.setTask k rest).terminate h err) := by
  cases t with
  | closeTerminate | exit | terminate =>
      simp only [Task.terminates, Option.some.injEq, Prod.mk.injEq] at ht
      obtain ⟨rfl, rfl, rfl⟩ := ht
      simp only [MuxConn.step, runTask, hk]
  | write | close | closeReset | exitDeregister => cases ht

/-- An operation that has a stream in hand can take its steps, and they
    terminate it. -/
theorem Held.accounted {h : Nat} {o : StreamObject} (ho : c.objs[h]? = some o) (hheld : c.Held h) :
    c.Accounted h o := by
  have hid : c.idOf h = some o.stream.id := idOf_of_get ho
  rcases hheld with hreset | ⟨t, hmem, hvictim⟩
  · have hstep : c.step .advance =
        some { c.terminate h (resetErr c.role) with loop := .reading } := by
      simp only [MuxConn.step, advance, hreset]
    have hended : (c.terminate h (resetErr c.role)).Ended h := ended_terminate hid _
    exact .held [.advance] _ (.reset hreset) ((Machine.exec_cons _).mpr ⟨_, hstep, rfl⟩) hended
  · obtain ⟨k, hk⟩ := List.getElem?_of_mem hmem
    rcases victim_cases hvictim with rfl | ⟨rest, err, ht⟩
    · let d := c.setTask k [.closeTerminate h o.stream.rxEnd]
      have hload : c.step (.task k) = some d := by simp [MuxConn.step, runTask, hk, ho, d]
      obtain ⟨hlt, -⟩ := List.getElem?_eq_some_iff.mp hk
      -- what is left of `Close` is the last task
      have hlen : (c.tasks.eraseIdx k).length = c.tasks.length - 1 := List.length_eraseIdx_of_lt hlt
      have hlast : d.tasks[c.tasks.length - 1]? = some (.closeTerminate h o.stream.rxEnd) := by
        simp [d, MuxConn.setTask, ← hlen]
      have hterm := step_terminates hlast rfl
      exact .held _ _ (.close k hk)
        ((Machine.exec_cons _).mpr ⟨d, hload, (Machine.exec_cons _).mpr ⟨_, hterm, rfl⟩⟩)
        (ended_terminate (c := d.setTask _ _) hid _)
    · exact .held _ _ (.terminates k t rest err hk ht)
        ((Machine.exec_cons _).mpr ⟨_, step_terminates hk ht, rfl⟩)
        (ended_terminate (c := c.setTask k rest) hid err)

theorem Registry.accounted (hc : c.Registry) {h : Nat} {o : StreamObject}
    (ho : c.objs[h]? = some o) : c.Accounted h o := by
  rcases hc.kept h _ (idOf_of_get ho) with ⟨o', ho', hended⟩ | hheld | hreg
  · obtain rfl : o = o' := Option.some.inj (ho.symm.trans ho')
    exact .terminated hended
  · exact hheld.accounted ho
  · refine .registered ?_ hreg
    by_contra hclosed
    rw [hc.closed (Bool.not_eq_false _ ▸ hclosed)] at hreg
    cases hreg

end MuxConn

-- ============================================================================
-- Whole runs
-- ============================================================================

theorem registry_of_run (role : Role) {evs : List ConnEvent} {c : MuxConn}
    (hrun : (muxConn role).run evs = some c) (hids : c.ids.Nodup) : c.Registry := by
  refine (muxConn role).exec_invariant (I := fun c => c.ids.Nodup → c.Registry) ?_
    (fun _ => MuxConn.registry_init role) hrun hids
  intro s ev s' hs hstep hids'
  have hids : s.ids.Nodup := hids'.sublist (MuxConn.wrote_step hstep).ids_grow.sublist
  exact (hs hids).step hids (MuxConn.stepped hstep)

/-- Once closed, a connection stays closed and hands out no stream. -/
theorem stays_closed (role : Role) {evs : List ConnEvent} {c c' : MuxConn}
    (hrun : (muxConn role).exec c evs = some c') (hclosed : c.closed = true)
    (hempty : c.ClosedEmpty) :
    c'.closed = true ∧ c'.ClosedEmpty ∧ c'.ids = c.ids := by
  refine (muxConn role).exec_invariant
    (I := fun d => d.closed = true ∧ d.ClosedEmpty ∧ d.ids = c.ids) ?_ ⟨hclosed, hempty, rfl⟩ hrun
  rintro s ev s' ⟨hs, hse, hsi⟩ hstep
  have hstays := MuxConn.StaysClosed.step (MuxConn.stepped hstep)
  exact ⟨hstays.closed hs, hstays.empty hse, (hstays.ids hs).trans hsi⟩

/-- Whatever the interleaving: the map of a closed connection is empty and
    stays so, every stream handed out is registered on an open connection,
    terminated, or about to be terminated by the operation that has it in hand;
    and when no operation has one, no `ReadEnvelope` blocks on a stream of a
    closed connection. -/
theorem streams_accounted (role : Role) {evs : List ConnEvent} {c : MuxConn}
    (hrun : (muxConn role).run evs = some c) (hids : c.ids.Nodup) :
    (c.closed = true → (∀ id, c.streams id = none) ∧
      ∀ (more : List ConnEvent) (c' : MuxConn), (muxConn role).exec c more = some c' →
        c'.closed = true ∧ (∀ id, c'.streams id = none) ∧ c'.ids = c.ids) ∧
    (∀ (h : Nat) (o : StreamObject), c.objs[h]? = some o → c.Accounted h o) ∧
    (c.closed = true → (∀ h, ¬ c.Held h) →
      ∀ (h : Nat) (o : StreamObject), c.objs[h]? = some o → ¬ o.stream.Blocks) := by
  have hc := registry_of_run role hrun hids
  refine ⟨fun hclosed => ⟨hc.closed hclosed, fun more c' hmore => ?_⟩,
    fun h o ho => hc.accounted ho,
    fun hclosed hidle h o ho hblocks => ?_⟩
  · obtain ⟨hclosed', hempty', hids'⟩ := stays_closed role hmore hclosed hc.closed
    exact ⟨hclosed', hempty' hclosed', hids'⟩
  · rcases hc.kept h _ (MuxConn.idOf_of_get ho) with ⟨o', ho', hended⟩ | hheld | hreg
    · obtain rfl : o = o' := Option.some.inj (ho.symm.trans ho')
      rw [hblocks.2.1] at hended
      cases hended
    · exact hidle h hheld
    · rw [hc.closed hclosed] at hreg
      cases hreg

/-- A client shuts the connection down while one of its two streams is being
    closed. -/
theorem shutdown_during_close :
    ∃ c, (muxConn .client).run [.newStream false, .newStream false, .close 0, .shutdown, .task 1,
        .task 0, .task 0, .task 0] = some c ∧
      c.closed = true ∧ ∀ (h : Nat) (o : StreamObject), c.objs[h]? = some o →
        ¬ o.stream.Blocks := by
  have hrun :
      (muxConn .client).run [.newStream false, .newStream false, .close 0, .shutdown, .task 1,
    .task 0, .task 0, .task 0] = some _ := rfl
  refine ⟨_, hrun, rfl, (streams_accounted .client hrun (by decide)).2.2 rfl ?_⟩
  rintro h (hreset | ⟨t, hmem, -⟩)
  · cases hreset
  · cases hmem

end ConnectWebSocket
end BidiWeb
