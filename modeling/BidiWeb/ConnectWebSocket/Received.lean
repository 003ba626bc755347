/-
  BidiWeb.ConnectWebSocket.Received

  One end of a connection: what its streams have received of the frames its
  read loop has seen.

  A frame can be dropped because its stream is unknown, terminated or reset.
  The drops leave no gap because of two orders the code keeps: a stream is
  deregistered before it is terminated (except when its handler has already
  returned), and it is never registered again.  So the first frame dropped
  for a stream finds it deregistered, and every later one is dropped by
  `lookup`.
-/

import BidiWeb.ConnectWebSocket.MuxConn
import Mathlib.Data.List.Infix

namespace BidiWeb
namespace ConnectWebSocket

open BidiWeb.Lib

-- ============================================================================
-- The envelopes of one stream
-- ============================================================================

/-- The envelopes with the stream ID `id` among the frames, resets aside. -/
def envelopesOf (id : UInt32) (fs : List Frame) : List Envelope :=
  (fs.filter fun f => f.id = id && !f.env.isReset).map (·.env)

theorem envelopesOf_append (id : UInt32) (fs gs : List Frame) :
    envelopesOf id (fs ++ gs) = envelopesOf id fs ++ envelopesOf id gs := by
  simp [envelopesOf]

theorem envelopesOf_single_of_ne {id : UInt32} {f : Frame} (h : f.id ≠ id) :
    envelopesOf id [f] = [] := by
  simp [envelopesOf, h]

theorem envelopesOf_single_reset {id : UInt32} {f : Frame} (h : f.env.isReset = true) :
    envelopesOf id [f] = [] := by
  simp [envelopesOf, h]

theorem envelopesOf_single {f : Frame} (h : f.env.isReset = false) :
    envelopesOf f.id [f] = [f.env] := by
  simp [envelopesOf, h]

theorem envelopesOf_mono {id : UInt32} {fs gs : List Frame} (h : fs <+: gs) :
    envelopesOf id fs <+: envelopesOf id gs := by
  obtain ⟨more, rfl⟩ := h
  rw [envelopesOf_append]
  exact List.prefix_append ..

/-- What a stream has been given: read already, or still in its inbox. -/
def StreamObject.delivered (o : StreamObject) : List Envelope := o.returned ++ o.stream.inbox

theorem StreamObject.delivered_push (o : StreamObject) (env : Envelope) :
    (o.push env).delivered = o.delivered ++ [env] := by
  simp [StreamObject.delivered, StreamObject.push, MuxStream.push]

/-- The envelope of stream `id` in the read loop's hand. -/
def Loop.hand (loop : Loop) (id : UInt32) : List Envelope := envelopesOf id loop.frame.toList

/-- The stream a task may terminate. -/
def Task.victim : Task → Option Nat
  | .close h | .closeTerminate h _ | .exit h | .terminate h _ => some h
  | .write .. | .closeReset .. | .exitDeregister _ => none

-- ============================================================================
-- The invariant
-- ============================================================================

namespace MuxConn

variable {G : UInt32 → Prop} {c c' : MuxConn}

/-- Terminating stream `h` makes no one miss a frame: its handler has
    returned, or it is deregistered. -/
def Dead (c : MuxConn) (h : Nat) : Prop :=
  ∃ o : StreamObject, c.objs[h]? = some o ∧
    (o.handlerDone = true ∨ c.streams o.stream.id ≠ some h)

/-- The invariant of one end, for the stream IDs in `G`. -/
structure Received (G : UInt32 → Prop) (c : MuxConn) : Prop where
  returned : ∀ (h : Nat) (o : StreamObject), c.objs[h]? = some o → G o.stream.id →
    o.returned <+: envelopesOf o.stream.id c.seen
  delivered : ∀ (h : Nat) (o : StreamObject), c.objs[h]? = some o → G o.stream.id →
    o.handlerDone = false → o.delivered <+: envelopesOf o.stream.id c.seen
  /-- A registered stream has everything but what the loop has in hand. -/
  registered : ∀ (h : Nat) (o : StreamObject), c.objs[h]? = some o → G o.stream.id →
    o.handlerDone = false → c.streams o.stream.id = some h →
      o.stream.terminated = false ∧
        o.delivered ++ c.loop.hand o.stream.id = envelopesOf o.stream.id c.seen
  streams : ∀ (id : UInt32) (h : Nat), c.streams id = some h →
    ∃ o : StreamObject, c.objs[h]? = some o ∧ o.stream.id = id
  hand : ∀ f, c.loop.frame = some f → ∃ fs, c.seen = fs ++ [f]
  found : ∀ h f, c.loop = .found h f → ∃ o : StreamObject,
    c.objs[h]? = some o ∧ o.stream.id = f.id ∧ (∀ j, c.streams f.id = some j → j = h) ∧
      (G f.id → o.handlerDone = false →
        o.delivered ++ envelopesOf f.id [f] = envelopesOf f.id c.seen)
  missing : ∀ f, c.loop = .missing f → f.env.isReset = false → G f.id → c.streams f.id = none
  resetting : ∀ h, c.loop = .resetting h → c.Dead h
  tasks : ∀ t ∈ c.tasks, ∀ h, t.victim = some h → c.Dead h

theorem received_init (G : UInt32 → Prop) (role : Role) : Received G { role } where
  returned := fun _ _ h => by cases h
  delivered := fun _ _ h => by cases h
  registered := fun _ _ h => by cases h
  streams := fun _ _ h => by cases h
  hand := fun _ h => by cases h
  found := fun _ _ h => by cases h
  missing := fun _ h => by cases h
  resetting := fun _ h => by cases h
  tasks := fun _ h => by cases h

/-- The fewer the IDs, the weaker the invariant. -/
theorem Received.mono (hc : Received G c) {G' : UInt32 → Prop} (hG : ∀ id, G' id → G id) :
    Received G' c where
  returned := fun h o ho hg => hc.returned h o ho (hG _ hg)
  delivered := fun h o ho hg => hc.delivered h o ho (hG _ hg)
  registered := fun h o ho hg => hc.registered h o ho (hG _ hg)
  streams := hc.streams
  hand := hc.hand
  found := fun h f hl => by
    obtain ⟨o, ho, hid, huniq, hall⟩ := hc.found h f hl
    exact ⟨o, ho, hid, huniq, fun hg => hall (hG _ hg)⟩
  missing := fun f hl hreset hg => hc.missing f hl hreset (hG _ hg)
  resetting := hc.resetting
  tasks := hc.tasks

-- ============================================================================
-- Changing one stream
-- ============================================================================

/-- What may happen to stream `h` while the loop has no business with it. -/
structure Keeps (c : MuxConn) (h : Nat) (o o' : StreamObject) : Prop where
  id : o'.stream.id = o.stream.id
  done : o'.handlerDone = false → o.handlerDone = false
  delivered : o'.delivered = o.delivered
  returned : o'.returned = o.returned ∨ o.handlerDone = false ∧ o'.returned <+: o.delivered
  terminated : o'.stream.terminated = true → o.stream.terminated = false → c.Dead h

theorem dead_modify {h j : Nat} {f : StreamObject → StreamObject}
    (hf : ∀ o, c.objs[h]? = some o → (f o).stream.id = o.stream.id ∧
      ((f o).handlerDone = false → o.handlerDone = false)) (hd : c.Dead j) :
    (c.modify h f).Dead j := by
  obtain ⟨o, ho, hdead⟩ := hd
  by_cases hhj : h = j
  · subst hhj
    obtain ⟨hid, hdone⟩ := hf o ho
    refine ⟨f o, Store.getElem?_modify.mpr (by simp [ho]), ?_⟩
    rw [hid]
    rcases hdead with h | h
    · refine Or.inl ?_
      cases hd : (f o).handlerDone with
      | true => rfl
      | false =>
          rw [hdone hd] at h
          cases h
    · exact Or.inr h
  · exact ⟨o, Store.getElem?_modify.mpr (by simp [hhj, ho]), hdead⟩

theorem Received.modify (hc : Received G c) {h : Nat} {f : StreamObject → StreamObject}
    (hf : ∀ o, c.objs[h]? = some o → Keeps c h o (f o)) : Received G (c.modify h f) := by
  have hdead : ∀ {j}, c.Dead j → (c.modify h f).Dead j :=
    dead_modify fun o ho => ⟨(hf o ho).id, (hf o ho).done⟩
  -- every stream after the change is one before it, changed or not
  have hback : ∀ {j o'}, (c.modify h f).objs[j]? = some o' →
      ∃ o, c.objs[j]? = some o ∧ (o' = o ∨ h = j ∧ o' = f o) := by
    intro j o' ho'
    rw [MuxConn.modify, Store.getElem?_modify] at ho'
    by_cases hhj : h = j
    · rw [if_pos hhj] at ho'
      obtain ⟨o, ho, rfl⟩ := ho'
      exact ⟨o, ho, Or.inr ⟨hhj, rfl⟩⟩
    · rw [if_neg hhj] at ho'
      exact ⟨o', ho', Or.inl rfl⟩
  have hforth : ∀ {j o}, c.objs[j]? = some o →
      (c.modify h f).objs[j]? = some (if h = j then f o else o) := by
    intro j o ho
    rw [MuxConn.modify, Store.getElem?_modify]
    by_cases hhj : h = j
    · simp [hhj, ho]
    · simp [hhj, ho]
  refine ⟨?_, ?_, ?_, ?_, hc.hand, ?_, hc.missing, fun j hj => hdead (hc.resetting j hj),
    fun t ht j hj => hdead (hc.tasks t ht j hj)⟩
  · intro j o' ho' hg
    obtain ⟨o, ho, rfl | ⟨rfl, rfl⟩⟩ := hback ho'
    · exact hc.returned j o' ho hg
    · have hk := hf o ho
      rw [hk.id] at hg ⊢
      rcases hk.returned with hsame | ⟨halive, hpre⟩
      · rw [hsame]
        exact hc.returned h o ho hg
      · exact hpre.trans (hc.delivered h o ho hg halive)
  · intro j o' ho' hg halive
    obtain ⟨o, ho, rfl | ⟨rfl, rfl⟩⟩ := hback ho'
    · exact hc.delivered j o' ho hg halive
    · have hk := hf o ho
      rw [hk.id] at hg ⊢
      rw [hk.delivered]
      exact hc.delivered h o ho hg (hk.done halive)
  · intro j o' ho' hg halive hreg
    obtain ⟨o, ho, rfl | ⟨rfl, rfl⟩⟩ := hback ho'
    · exact hc.registered j o' ho hg halive hreg
    · have hk := hf o ho
      rw [hk.id] at hg hreg ⊢
      obtain ⟨hrun, hall⟩ := hc.registered h o ho hg (hk.done halive) hreg
      rw [hk.delivered]
      refine ⟨?_, hall⟩
      cases hterm : (f o).stream.terminated with
      | false => rfl
      | true =>
          -- it would be dead, and it is registered and running
          obtain ⟨o₂, ho₂, hdone | hunreg⟩ := hk.terminated hterm hrun
          · obtain rfl : o = o₂ := Option.some.inj (ho.symm.trans ho₂)
            rw [hk.done halive] at hdone
            cases hdone
          · obtain rfl : o = o₂ := Option.some.inj (ho.symm.trans ho₂)
            exact absurd hreg hunreg
  · intro id j hj
    obtain ⟨o, ho, hid⟩ := hc.streams id j hj
    refine ⟨_, hforth ho, ?_⟩
    by_cases hhj : h = j
    · subst hhj
      simp [(hf o ho).id, hid]
    · simp [hhj, hid]
  · intro j fr hl
    obtain ⟨o, ho, hid, huniq, hall⟩ := hc.found j fr hl
    refine ⟨_, hforth ho, ?_, huniq, ?_⟩
    · by_cases hhj : h = j
      · subst hhj
        simp [(hf o ho).id, hid]
      · simp [hhj, hid]
    · intro hg halive
      by_cases hhj : h = j
      · subst hhj
        simp only [if_true] at halive ⊢
        rw [(hf o ho).delivered]
        exact hall hg ((hf o ho).done halive)
      · simp only [hhj, if_false] at halive ⊢
        exact hall hg halive

theorem Received.terminate (hc : Received G c) {h : Nat} (hdead : c.Dead h) (err : GoError) :
    Received G (c.terminate h err) := by
  refine hc.modify fun o _ => ⟨?_, fun h => h, ?_, Or.inl rfl, fun _ _ => hdead⟩
  · show (o.stream.terminate err).id = o.stream.id
    unfold MuxStream.terminate
    split <;> rfl
  · show o.returned ++ (o.stream.terminate err).inbox = o.returned ++ o.stream.inbox
    rw [MuxStream.terminate_inbox]

-- ============================================================================
-- The map and the tasks
-- ============================================================================

/-- Taking entries out of the map kills no one and frees no one. -/
theorem dead_of_streams {h : Nat} (hobjs : c'.objs = c.objs)
    (hstreams : ∀ id j, c'.streams id = some j → c.streams id = some j) (hd : c.Dead h) :
    c'.Dead h := by
  obtain ⟨o, ho, hdead⟩ := hd
  refine ⟨o, hobjs ▸ ho, ?_⟩
  rcases hdead with hdone | hunreg
  · exact Or.inl hdone
  · exact Or.inr fun hreg => hunreg (hstreams _ _ hreg)

/-- Entries leave the map, tasks come and go, frames are written. -/
theorem Received.of_streams (hc : Received G c) (hobjs : c'.objs = c.objs)
    (hloop : c'.loop = c.loop) (hseen : c'.seen = c.seen)
    (hstreams : ∀ id j, c'.streams id = some j → c.streams id = some j)
    (htasks : ∀ t ∈ c'.tasks, t ∈ c.tasks ∨ ∀ h, t.victim = some h → c'.Dead h) :
    Received G c' := by
  have hdead : ∀ {h}, c.Dead h → c'.Dead h := fun hd => dead_of_streams hobjs hstreams hd
  refine
    { returned := ?_
      delivered := ?_
      registered := ?_
      streams := ?_
      hand := ?_
      found := ?_
      missing := ?_
      resetting := ?_
      tasks := ?_ }
  · rw [hobjs, hseen]
    exact hc.returned
  · rw [hobjs, hseen]
    exact hc.delivered
  · intro h o ho hg halive hreg
    rw [hobjs] at ho
    rw [hloop, hseen]
    exact hc.registered h o ho hg halive (hstreams _ _ hreg)
  · intro id h hreg
    rw [hobjs]
    exact hc.streams id h (hstreams _ _ hreg)
  · rw [hloop, hseen]
    exact hc.hand
  · intro h f hl
    rw [hloop] at hl
    rw [hobjs, hseen]
    obtain ⟨o, ho, hid, huniq, hall⟩ := hc.found h f hl
    exact ⟨o, ho, hid, fun j hj => huniq j (hstreams _ _ hj), hall⟩
  · intro f hl hreset hg
    rw [hloop] at hl
    have hnone := hc.missing f hl hreset hg
    cases hs : c'.streams f.id with
    | none => rfl
    | some j =>
        rw [hstreams _ _ hs] at hnone
        cases hnone
  · intro h hl
    rw [hloop] at hl
    exact hdead (hc.resetting h hl)
  · intro t ht h hv
    rcases htasks t ht with hold | hnew
    · exact hdead (hc.tasks t hold h hv)
    · exact hnew h hv

theorem Received.deregister (hc : Received G c) (id : UInt32) : Received G (c.deregister id) :=
  hc.of_streams rfl rfl rfl (fun _ _ h => (deregister_streams.mp h).2) fun _ ht => Or.inl ht

theorem Received.setTask (hc : Received G c) (k : Nat) {rest : List Task}
    (hrest : ∀ t ∈ rest, ∀ h, t.victim = some h → c.Dead h) : Received G (c.setTask k rest) := by
  refine hc.of_streams rfl rfl rfl (fun _ _ h => h) fun t ht => ?_
  rcases List.mem_append.mp ht with hold | hnew
  · exact Or.inl (List.mem_of_mem_eraseIdx hold)
  · exact Or.inr (hrest t hnew)

theorem Received.addTask (hc : Received G c) {t : Task}
    (ht : ∀ h, t.victim = some h → c.Dead h) :
    Received G { c with tasks := c.tasks ++ [t] } := by
  refine hc.of_streams rfl rfl rfl (fun _ _ h => h) fun t' ht' => ?_
  rcases List.mem_append.mp ht' with hold | hnew
  · exact Or.inl hold
  · obtain rfl : t' = t := by simpa using hnew
    exact Or.inr ht

theorem Received.writeFrame (hc : Received G c) (frame : Frame) :
    Received G (c.writeFrame frame) :=
  hc.of_streams rfl rfl rfl (fun _ _ h => h) fun _ ht => Or.inl ht

/-- The critical section of `terminateAll` empties the map first. -/
theorem Received.terminateAll (hc : Received G c) (err : GoError) :
    Received G (c.terminateAll err) := by
  refine hc.of_streams rfl rfl rfl (fun _ _ h => by cases h) fun t ht => ?_
  rcases List.mem_append.mp ht with hold | hnew
  · exact Or.inl hold
  · obtain ⟨h, hmem, rfl⟩ := List.mem_map.mp hnew
    obtain ⟨id, hid, -⟩ := mem_registered.mp hmem
    obtain ⟨o, ho, -⟩ := idOf_eq_some.mp hid
    refine Or.inr fun j hj => ?_
    obtain rfl : h = j := Option.some.inj hj
    exact ⟨o, ho, Or.inr fun hreg => by cases hreg⟩

/-- A deregistered stream is dead. -/
theorem dead_deregister {h : Nat} {o : StreamObject} (ho : c.objs[h]? = some o) :
    (c.deregister o.stream.id).Dead h :=
  ⟨o, ho, Or.inr fun hreg => (deregister_streams.mp hreg).1 rfl⟩

-- ============================================================================
-- The read loop
-- ============================================================================

theorem hand_of_frame {loop : Loop} {f : Frame} (h : loop.frame = some f) (id : UInt32) :
    loop.hand id = envelopesOf id [f] := by
  rw [Loop.hand, h]
  rfl

theorem hand_of_none {loop : Loop} (h : loop.frame = none) (id : UInt32) :
    loop.hand id = [] := by
  rw [Loop.hand, h]
  rfl

/-- A frame is read: it is in the loop's hand and in no inbox. -/
theorem Received.recv (hc : Received G c) (hloop : c.loop = .reading) (f : Frame) :
    Received G { c with loop := .got f, seen := c.seen ++ [f] } := by
  have hpre : ∀ id, envelopesOf id c.seen <+: envelopesOf id (c.seen ++ [f]) :=
    fun id => envelopesOf_mono (List.prefix_append ..)
  refine
    { returned := fun h o ho hg => (hc.returned h o ho hg).trans (hpre _)
      delivered := fun h o ho hg halive => (hc.delivered h o ho hg halive).trans (hpre _)
      registered := ?_
      streams := hc.streams
      hand := ?_
      found := fun _ _ hl => by cases hl
      missing := fun _ hl => by cases hl
      resetting := fun _ hl => by cases hl
      tasks := hc.tasks }
  · intro h o ho hg halive hreg
    obtain ⟨hrun, hall⟩ := hc.registered h o ho hg halive hreg
    refine ⟨hrun, ?_⟩
    rw [hand_of_none (by rw [hloop]; rfl), List.append_nil] at hall
    show o.delivered ++ Loop.hand (.got f) o.stream.id = envelopesOf o.stream.id (c.seen ++ [f])
    rw [hand_of_frame (f := f) rfl, envelopesOf_append, hall]
  · intro f' hf'
    obtain rfl : f = f' := Option.some.inj hf'
    exact ⟨c.seen, rfl⟩

/-- The loop moves on without a frame in its hand having been delivered: no
    registered stream was waiting for it. -/
theorem Received.setLoop (hc : Received G c) {loop : Loop}
    (hhand : ∀ h o, c.objs[h]? = some o → G o.stream.id → o.handlerDone = false →
      c.streams o.stream.id = some h → loop.hand o.stream.id = c.loop.hand o.stream.id)
    (hframe : ∀ f, loop.frame = some f → c.loop.frame = some f)
    (hfound : ∀ h f, loop = .found h f → ∃ o : StreamObject,
      c.objs[h]? = some o ∧ o.stream.id = f.id ∧ (∀ j, c.streams f.id = some j → j = h) ∧
        (G f.id → o.handlerDone = false →
          o.delivered ++ envelopesOf f.id [f] = envelopesOf f.id c.seen))
    (hmissing : ∀ f, loop = .missing f → c.streams f.id = none)
    (hresetting : ∀ h, loop = .resetting h → c.Dead h) :
    Received G { c with loop := loop } where
  returned := hc.returned
  delivered := hc.delivered
  registered := by
    intro h o ho hg halive hreg
    obtain ⟨hrun, hall⟩ := hc.registered h o ho hg halive hreg
    refine ⟨hrun, ?_⟩
    show o.delivered ++ loop.hand o.stream.id = _
    rw [hhand h o ho hg halive hreg]
    exact hall
  streams := hc.streams
  hand := fun f hf => hc.hand f (hframe f hf)
  found := hfound
  missing := fun f hl _ _ => hmissing f hl
  resetting := hresetting
  tasks := hc.tasks

/-- `lookup` -/
theorem Received.lookup (hc : Received G c) {f : Frame} (hloop : c.loop = .got f) :
    Received G { c with loop := match c.streams f.id with
      | some h => .found h f
      | none => .missing f } := by
  have hframe : c.loop.frame = some f := by rw [hloop]; rfl
  cases hs : c.streams f.id with
  | none =>
      refine hc.setLoop ?_ ?_ (fun _ _ h => by cases h) ?_ fun _ h => by cases h
      · intro h o _ _ _ _
        rw [hand_of_frame (f := f) rfl, hand_of_frame hframe]
      · intro f' hf'
        rw [hframe]
        exact hf'
      · intro f' hf'
        cases hf'
        exact hs
  | some h =>
      refine hc.setLoop ?_ ?_ ?_ (fun _ h => by cases h) fun _ h => by cases h
      · intro j o _ _ _ _
        rw [hand_of_frame (f := f) rfl, hand_of_frame hframe]
      · intro f' hf'
        rw [hframe]
        exact hf'
      · intro j f' hf'
        cases hf'
        obtain ⟨o, ho, hid⟩ := hc.streams f.id h hs
        refine ⟨o, ho, hid, fun j hj => Option.some.inj (hj.symm.trans hs), fun hg halive => ?_⟩
        rw [← hid] at hg hs
        have hall := (hc.registered h o ho hg halive hs).2
        rw [hand_of_frame hframe, hid] at hall
        exact hall

/-- `deliver` into the inbox. -/
theorem Received.deliver (hc : Received G c) {h : Nat} {f : Frame} (hloop : c.loop = .found h f)
    (hreset : f.env.isReset = false) :
    Received G { c.modify h (StreamObject.push · f.env) with loop := .reading } := by
  have hframe : c.loop.frame = some f := by rw [hloop]; rfl
  obtain ⟨o, ho, hid, huniq, hall⟩ := hc.found h f hloop
  -- the one stream that changes now has everything seen
  have hnow : G f.id → o.handlerDone = false →
      (o.push f.env).delivered = envelopesOf f.id c.seen := by
    intro hg halive
    have := hall hg halive
    rw [envelopesOf_single hreset] at this
    rw [StreamObject.delivered_push]
    exact this
  have hback : ∀ {j o'}, (c.objs.modify h (StreamObject.push · f.env))[j]? = some o' →
      (h = j ∧ o' = o.push f.env) ∨ (h ≠ j ∧ c.objs[j]? = some o') := by
    intro j o' ho'
    rw [Store.getElem?_modify] at ho'
    by_cases hhj : h = j
    · subst hhj
      obtain ⟨o₂, ho₂, rfl⟩ := by simpa using ho'
      obtain rfl : o = o₂ := Option.some.inj (ho.symm.trans ho₂)
      exact Or.inl ⟨rfl, rfl⟩
    · rw [if_neg hhj] at ho'
      exact Or.inr ⟨hhj, ho'⟩
  refine
    { returned := ?_
      delivered := ?_
      registered := ?_
      streams := ?_
      hand := fun _ hf => by cases hf
      found := fun _ _ hl => by cases hl
      missing := fun _ hl => by cases hl
      resetting := fun _ hl => by cases hl
      tasks := ?_ }
  · intro j o' ho' hg
    rcases hback ho' with ⟨rfl, rfl⟩ | ⟨-, hold⟩
    · exact hc.returned h o ho hg
    · exact hc.returned j o' hold hg
  · intro j o' ho' hg halive
    rcases hback ho' with ⟨rfl, rfl⟩ | ⟨-, hold⟩
    · have hsame : (o.push f.env).stream.id = f.id := hid
      rw [hsame] at hg ⊢
      rw [hnow hg halive]
      exact List.prefix_rfl
    · exact hc.delivered j o' hold hg halive
  · intro j o' ho' hg halive hreg
    rcases hback ho' with ⟨rfl, rfl⟩ | ⟨hne, hold⟩
    · have hrun := (hc.registered h o ho hg halive hreg).1
      have hsame : (o.push f.env).stream.id = f.id := hid
      rw [hsame] at hg ⊢
      refine ⟨hrun, ?_⟩
      rw [hand_of_none rfl, List.append_nil]
      exact hnow hg halive
    · obtain ⟨hrun, hrest⟩ := hc.registered j o' hold hg halive hreg
      refine ⟨hrun, ?_⟩
      have hother : f.id ≠ o'.stream.id := by
        intro heq
        refine hne (huniq j ?_).symm
        rw [heq]
        exact hreg
      rw [hand_of_frame hframe, envelopesOf_single_of_ne hother] at hrest
      rw [hand_of_none rfl]
      exact hrest
  · intro id j hj
    obtain ⟨o', ho', hid'⟩ := hc.streams id j hj
    by_cases hhj : h = j
    · subst hhj
      exact ⟨o'.push f.env, Store.getElem?_modify.mpr (by simp [ho']), hid'⟩
    · exact ⟨o', Store.getElem?_modify.mpr (by simp [hhj, ho']), hid'⟩
  · intro t ht j hj
    exact dead_modify (fun _ _ => ⟨rfl, fun h => h⟩) (hc.tasks t ht j hj)

/-- `deliver` drops the frame of a terminated stream: it is not registered. -/
theorem Received.drop (hc : Received G c) {h : Nat} {f : Frame} (hloop : c.loop = .found h f)
    {o : StreamObject} (ho : c.objs[h]? = some o) (hterm : o.stream.terminated = true) :
    Received G { c with loop := .reading } := by
  have hframe : c.loop.frame = some f := by rw [hloop]; rfl
  obtain ⟨o₁, ho₁, hid, huniq, -⟩ := hc.found h f hloop
  obtain rfl : o = o₁ := Option.some.inj (ho.symm.trans ho₁)
  refine hc.setLoop ?_ (fun _ hf => by cases hf) (fun _ _ hl => by cases hl)
    (fun _ hl => by cases hl) fun _ hl => by cases hl
  intro j o' ho' hg halive hreg
  rw [hand_of_none rfl, hand_of_frame hframe]
  by_cases heq : f.id = o'.stream.id
  · rw [← heq] at hreg
    obtain rfl : j = h := huniq j hreg
    obtain rfl : o = o' := Option.some.inj (ho.symm.trans ho')
    rw [heq] at hreg
    have hrun := (hc.registered j o ho hg halive hreg).1
    rw [hterm] at hrun
    cases hrun
  · rw [envelopesOf_single_of_ne heq]

/-- A reset frame deregisters its stream. -/
theorem Received.reset (hc : Received G c) {h : Nat} {f : Frame} (hloop : c.loop = .found h f)
    (hreset : f.env.isReset = true) :
    Received G { c.deregister f.id with loop := .resetting h } := by
  have hframe : c.loop.frame = some f := by rw [hloop]; rfl
  obtain ⟨o, ho, hid, -, -⟩ := hc.found h f hloop
  refine (hc.deregister f.id).setLoop ?_ (fun _ hf => by cases hf) (fun _ _ hl => by cases hl)
    (fun _ hl => by cases hl) ?_
  · intro j o' _ _ _ _
    show [] = c.loop.hand o'.stream.id
    rw [hand_of_frame hframe, envelopesOf_single_reset hreset]
  · intro j hj
    cases hj
    rw [← hid]
    exact dead_deregister ho

-- ============================================================================
-- New streams
-- ============================================================================

/-- What a stream must be created with: an ID no stream of this end has, and
    in its inbox all that the loop has seen with that ID. -/
structure Fresh (G : UInt32 → Prop) (c : MuxConn) (o : StreamObject) : Prop where
  /-- The loop has found no other stream of that ID. -/
  unfound : ∀ h f, c.loop = .found h f → f.id ≠ o.stream.id
  seen : G o.stream.id → envelopesOf o.stream.id c.seen = o.stream.inbox

theorem dead_insert {o : StreamObject} {h : Nat} (hd : c.Dead h) : (c.insert o).Dead h := by
  obtain ⟨o', ho', hdead⟩ := hd
  refine ⟨o', Store.getElem?_concat.mpr (.inl ho'), ?_⟩
  rcases hdead with hdone | hunreg
  · exact Or.inl hdone
  · refine Or.inr fun hreg => ?_
    rcases insert_streams.mp hreg with ⟨-, hlast⟩ | ⟨-, hold⟩
    · have hlt := (List.getElem?_eq_some_iff.mp ho').1
      omega
    · exact hunreg hold

/-- What the loop has in hand is the last it has seen. -/
theorem Received.hand_nil (hc : Received G c) {id : UInt32} (h : envelopesOf id c.seen = []) :
    c.loop.hand id = [] := by
  cases hframe : c.loop.frame with
  | none => exact hand_of_none hframe id
  | some f =>
      obtain ⟨fs, hseen⟩ := hc.hand f hframe
      rw [hseen, envelopesOf_append] at h
      rw [hand_of_frame hframe]
      exact (List.append_eq_nil_iff.mp h).2

theorem Received.insert (hc : Received G c) {o : StreamObject} (hfresh : Fresh G c o)
    (hhand : G o.stream.id → c.loop.hand o.stream.id = [])
    (hnew : o.returned = [] ∧ o.stream.terminated = false) : Received G (c.insert o) := by
  obtain ⟨hreturned, hrun⟩ := hnew
  have hdelivered : o.delivered = o.stream.inbox := by
    rw [StreamObject.delivered, hreturned]
    rfl
  refine
    { returned := ?_
      delivered := ?_
      registered := ?_
      streams := ?_
      hand := hc.hand
      found := ?_
      missing := ?_
      resetting := fun h hl => dead_insert (hc.resetting h hl)
      tasks := fun t ht h hv => dead_insert (hc.tasks t ht h hv) }
  · intro h o' ho' hg
    rcases Store.getElem?_concat.mp ho' with hold | ⟨-, rfl⟩
    · exact hc.returned h o' hold hg
    · rw [hreturned]
      exact List.nil_prefix
  · intro h o' ho' hg halive
    rcases Store.getElem?_concat.mp ho' with hold | ⟨-, rfl⟩
    · exact hc.delivered h o' hold hg halive
    · rw [hdelivered]
      show o'.stream.inbox <+: envelopesOf o'.stream.id c.seen
      rw [hfresh.seen hg]
  · intro h o' ho' hg halive hreg
    rcases Store.getElem?_concat.mp ho' with hold | ⟨-, rfl⟩
    · rcases insert_streams.mp hreg with ⟨-, hlast⟩ | ⟨-, hreg'⟩
      · have hlt := (List.getElem?_eq_some_iff.mp hold).1
        omega
      · exact hc.registered h o' hold hg halive hreg'
    · refine ⟨hrun, ?_⟩
      rw [hdelivered]
      show o'.stream.inbox ++ c.loop.hand o'.stream.id = envelopesOf o'.stream.id c.seen
      rw [hhand hg, List.append_nil, hfresh.seen hg]
  · intro id h hreg
    rcases insert_streams.mp hreg with ⟨rfl, rfl⟩ | ⟨-, hold⟩
    · exact ⟨o, Store.getElem?_concat.mpr (.inr ⟨rfl, rfl⟩), rfl⟩
    · obtain ⟨o', ho', hid⟩ := hc.streams id h hold
      exact ⟨o', Store.getElem?_concat.mpr (.inl ho'), hid⟩
  · intro h f hl
    obtain ⟨o', ho', hid, huniq, hall⟩ := hc.found h f hl
    refine ⟨o', Store.getElem?_concat.mpr (.inl ho'), hid, fun j hj => ?_, hall⟩
    rcases insert_streams.mp hj with ⟨heq, -⟩ | ⟨-, hold⟩
    · exact absurd heq (hfresh.unfound h f hl)
    · exact huniq j hold
  · intro f hl hreset hg
    have hne : f.id ≠ o.stream.id := by
      intro heq
      have hnil := hhand (heq ▸ hg)
      have hframe : c.loop.frame = some f := by
        rw [show c.loop = .missing f from hl]
        rfl
      rw [hand_of_frame hframe, ← heq, envelopesOf_single hreset] at hnil
      cases hnil
    show Function.update c.streams o.stream.id _ f.id = none
    rw [Function.update_of_ne hne]
    exact hc.missing f hl hreset hg

-- ============================================================================
-- One step
-- ============================================================================

/-- A stream that a step creates is fresh. -/
def CreatesFresh (G : UInt32 → Prop) (c c' : MuxConn) : Prop :=
  ∀ o, c'.objs = c.objs ++ [o] → Fresh G c o

theorem Received.newStream (hc : Received G c) (dedicated : Bool)
    (hfresh : CreatesFresh G c (c.newStream dedicated)) : Received G (c.newStream dedicated) := by
  have hnext : ∀ next, Received G { c with nextID := next } := fun next =>
    hc.of_streams rfl rfl rfl (fun _ _ h => h) fun _ ht => Or.inl ht
  rcases c.newStream_cases dedicated with ⟨next, hnone⟩ | ⟨-, id, -, hinsert⟩
  · rw [hnone]
    exact hnext next
  · rw [hinsert] at hfresh ⊢
    have hf := hfresh _ rfl
    exact (hnext id).insert ⟨hf.unfound, hf.seen⟩ (fun hg => hc.hand_nil (hf.seen hg)) ⟨rfl, rfl⟩

/-- A frame for an unknown stream is skipped: no registered stream was
    waiting for it. -/
theorem Received.skip (hc : Received G c) {f : Frame} (hloop : c.loop = .missing f) :
    Received G { c with loop := .reading } := by
  have hframe : c.loop.frame = some f := by rw [hloop]; rfl
  refine hc.setLoop ?_ (fun _ hf => by cases hf) (fun _ _ hl => by cases hl)
    (fun _ hl => by cases hl) fun _ hl => by cases hl
  intro h o ho hg halive hreg
  rw [hand_of_none rfl, hand_of_frame hframe]
  by_cases hid : f.id = o.stream.id
  · cases hreset : f.env.isReset with
    | true => exact (envelopesOf_single_reset hreset).symm
    | false =>
        have hnone := hc.missing f hloop hreset (hid ▸ hg)
        rw [hid, hreg] at hnone
        cases hnone
  · exact (envelopesOf_single_of_ne hid).symm

/-- `startStream` -/
theorem Received.start (hc : Received G c) {f : Frame} (hloop : c.loop = .missing f)
    (hfresh : CreatesFresh G c { c.startStream f with loop := .reading }) :
    Received G { c.startStream f with loop := .reading } := by
  have hread := hc.skip hloop
  rcases c.startStream_cases f with hrefused | ⟨-, -, hinsert⟩
  · rw [hrefused]
    exact hread
  · rw [hinsert] at hfresh ⊢
    have hf := hfresh _ rfl
    exact hread.insert ⟨fun _ _ hl => (by cases hl), hf.seen⟩ (fun _ => rfl) ⟨rfl, rfl⟩

/-- A stream reset by the peer is terminated once it is deregistered. -/
theorem Received.resetTerminate (hc : Received G c) {h : Nat} (hloop : c.loop = .resetting h) :
    Received G { c.terminate h (resetErr c.role) with loop := .reading } := by
  have hdead := hc.resetting h hloop
  refine (hc.terminate hdead _).setLoop ?_ (fun _ hf => by cases hf) (fun _ _ hl => by cases hl)
    (fun _ hl => by cases hl) fun _ hl => by cases hl
  intro j o _ _ _ _
  rw [hand_of_none rfl]
  exact (hand_of_none (by show c.loop.frame = none; rw [hloop]; rfl) _).symm

/-- The read loop ends. -/
theorem Received.stop (hc : Received G c) (err : GoError) :
    Received G { c.terminateAll err with loop := .stopped } := by
  refine (hc.terminateAll err).setLoop ?_ (fun _ hf => by cases hf) (fun _ _ hl => by cases hl)
    (fun _ hl => by cases hl) fun _ hl => by cases hl
  intro h o _ _ _ hreg
  cases hreg

/-- A call on a stream that neither receives nor terminates. -/
theorem Received.call (hc : Received G c) {h : Nat} {f : StreamObject → StreamObject}
    (hid : ∀ o, (f o).stream.id = o.stream.id)
    (hdone : ∀ o, (f o).handlerDone = false → o.handlerDone = false)
    (hdelivered : ∀ o, (f o).delivered = o.delivered)
    (hreturned : ∀ o, (f o).returned = o.returned)
    (hterm : ∀ o, (f o).stream.terminated = o.stream.terminated) :
    Received G (c.modify h f) := by
  refine hc.modify fun o _ => ⟨hid o, hdone o, hdelivered o, Or.inl (hreturned o), ?_⟩
  intro hnow hbefore
  rw [hterm o, hbefore] at hnow
  cases hnow

/-- `ReadEnvelope` moves an envelope from the inbox to what it has returned. -/
theorem Received.read (hc : Received G c) {h : Nat} {o : StreamObject} {env : Envelope}
    {stream : MuxStream} (ho : c.objs[h]? = some o) (halive : o.handlerDone = false)
    (hreceive : o.stream.receive = some (env, stream)) :
    Received G (c.modify h fun o => { o with stream, returned := o.returned ++ [env] }) := by
  obtain ⟨hinbox, hterm⟩ := o.stream.receive_eq_some hreceive
  refine hc.modify fun o₂ ho₂ => ?_
  obtain rfl : o = o₂ := Option.some.inj (ho.symm.trans ho₂)
  have hmoved : (o.returned ++ [env]) ++ stream.inbox = o.returned ++ o.stream.inbox := by
    rw [hinbox]
    simp
  refine ⟨o.stream.receive_id hreceive, fun h => h, hmoved, Or.inr ⟨halive, ?_⟩, fun ht hf => ?_⟩
  · exact ⟨stream.inbox, hmoved⟩
  · have hsame : stream.terminated = o.stream.terminated := by
      rw [MuxStream.terminated, MuxStream.terminated, hterm]
    rw [← hsame, show stream.terminated = true from ht] at hf
    cases hf

/-- A task that terminates its stream has one that is dead. -/
theorem Received.dead_of_task (hc : Received G c) {k : Nat} {t : Task} (hk : c.tasks[k]? = some t)
    {h : Nat} (hv : t.victim = some h) : c.Dead h :=
  hc.tasks t (List.mem_of_getElem? hk) h hv

theorem victim_of_terminates {t : Task} {h : Nat} {rest : List Task} {err : GoError}
    (ht : t.terminates = some (h, rest, err)) :
    t.victim = some h ∧ ∀ t' ∈ rest, t'.victim = none := by
  cases t with
  | closeTerminate j finished =>
      cases ht
      simp [Task.victim]
  | exit j =>
      cases ht
      simp [Task.victim]
  | terminate j err =>
      cases ht
      simp [Task.victim]
  | write j env => cases ht
  | close j => cases ht
  | closeReset j finished => cases ht
  | exitDeregister j => cases ht

/-- A task that terminates its stream: the stream is dead. -/
theorem Received.taskTerminate (hc : Received G c) {k h : Nat} {t : Task} {rest : List Task}
    {err : GoError} (hk : c.tasks[k]? = some t) (ht : t.terminates = some (h, rest, err)) :
    Received G ((c.setTask k rest).terminate h err) := by
  obtain ⟨hv, hrest⟩ := victim_of_terminates ht
  have hdead := hc.dead_of_task hk hv
  refine (hc.setTask k fun t' ht' j hj => ?_).terminate hdead err
  rw [hrest t' ht'] at hj
  cases hj

/-- The handler of a stream returns, and has still to terminate it. -/
theorem Received.handlerReturn (hc : Received G c) {h : Nat} {o : StreamObject}
    (ho : c.objs[h]? = some o) :
    Received G { c.modify h fun o => { o with handlerDone := true } with
      tasks := c.tasks ++ [.exit h] } := by
  have hdone : Received G (c.modify h fun o => { o with handlerDone := true }) :=
    hc.call (fun _ => rfl) (fun _ h => by cases h) (fun _ => rfl) (fun _ => rfl) fun _ => rfl
  refine hdone.addTask fun j hj => ?_
  obtain rfl : h = j := Option.some.inj hj
  exact ⟨{ o with handlerDone := true }, Store.getElem?_modify.mpr (by simp [ho]), Or.inl rfl⟩

/-- Every step of one end keeps the invariant, if what it creates is fresh. -/
theorem Received.step (hc : Received G c) {ev : ConnEvent} (hstep : c.step ev = some c')
    (hfresh : CreatesFresh G c c') : Received G c' := by
  have hdone : ∀ k, Received G (c.setTask k []) := fun k => hc.setTask k fun _ ht => by cases ht
  cases stepped hstep with
  | recv f hloop => exact hc.recv hloop f
  | recvFails err => exact hc.stop err
  | found h f hloop hs =>
      have hlookup := hc.lookup hloop
      rw [hs] at hlookup
      exact hlookup
  | missing f hloop hs =>
      have hlookup := hc.lookup hloop
      rw [hs] at hlookup
      exact hlookup
  | start f hloop => exact hc.start hloop hfresh
  | skip f hloop => exact hc.skip hloop
  | reset h f hloop hreset => exact hc.reset hloop hreset
  | deliver h f o hloop hreset => exact hc.deliver hloop hreset
  | resetTerminate h hloop => exact hc.resetTerminate hloop
  | drop h f o hloop _ ho hdrop => exact hc.drop hloop ho (o.stream.terminated_of_drop hdrop)
  | newStream dedicated => exact hc.newStream dedicated hfresh
  | writeRefused h env o => exact hc
  | writeChecked h env o => exact hc.addTask fun _ hv => by cases hv
  | read h o env stream ho halive hreceive => exact hc.read ho halive hreceive
  | cancel h err =>
      exact hc.call (fun _ => rfl) (fun _ h => h) (fun _ => rfl) (fun _ => rfl) fun _ => rfl
  | close h o _ ho =>
      refine (hc.deregister o.stream.id).addTask fun j hj => ?_
      obtain rfl : h = j := Option.some.inj hj
      exact dead_deregister ho
  | shutdown => exact hc.terminateAll _
  | handlerReturn h o _ ho => exact hc.handlerReturn ho
  | taskWrite k h env o =>
      exact ((hdone k).writeFrame _).call (fun _ => rfl) (fun _ h => h) (fun _ => rfl)
        (fun _ => rfl) fun _ => rfl
  | taskClose k h o hk =>
      refine hc.setTask k fun t ht j hj => ?_
      obtain rfl : t = .closeTerminate h o.stream.rxEnd := by simpa using ht
      exact hc.dead_of_task hk hj
  | taskTerminate k h t rest err hk ht => exact hc.taskTerminate hk ht
  | taskReset k h finished o => exact (hdone k).writeFrame _
  | taskClosed k => exact hdone k
  | taskDeregister k h o => exact (hdone k).deregister _
  | writeFails k => exact hdone k
  | resetFails k => exact hdone k

end MuxConn
end ConnectWebSocket
end BidiWeb
