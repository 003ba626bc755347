/-
  BidiWeb.ConnectWebSocket.Abandoned

  What the server makes of a stream that its client has abandoned.

  As long as no frame of the stream follows its reset, the ID is not opened
  again, so a handler that exits finds its own entry in the map or none; then
  the reset, or the end of the connection, reaches every handler of the
  stream that still runs.
-/

import BidiWeb.ConnectWebSocket.ResetLast
import BidiWeb.ConnectWebSocket.RunningHandlers
import BidiWeb.ConnectWebSocket.StreamOrder

namespace BidiWeb
namespace ConnectWebSocket

open BidiWeb.Lib

/-- The handler of stream `h` has returned and its deferred calls have not. -/
def Task.exits (h : Nat) : Task → Bool
  | .exit j | .exitDeregister j => j = h
  | .write .. | .close _ | .closeTerminate .. | .closeReset .. | .terminate .. => false

namespace MuxConn

variable {c c' : MuxConn} {ev : ConnEvent} {id : UInt32} {h : Nat}

-- ============================================================================
-- The frames the read loop is done with
-- ============================================================================

def past (c : MuxConn) : List Frame :=
  match c.loop.frame with
  | some _ => c.seen.dropLast
  | none => c.seen

/-- The frame in hand is the last one read. -/
def Hand (c : MuxConn) : Prop := ∀ f, c.loop.frame = some f → c.seen = c.past ++ [f]

theorem past_of_idle (hnone : c.loop.frame = none) : c.past = c.seen := by
  simp [past, hnone]

theorem Hand.step (hc : c.Hand) (hloop : Looped ev c c') :
    c'.Hand ∧ (c'.past = c.past ∨ ∃ f, c.loop.frame = some f ∧ c'.past = c.past ++ [f]) := by
  cases hloop with
  | same hseen hframe =>
      have hpast : c'.past = c.past := by simp [past, hframe, hseen]
      exact ⟨fun f hf => by rw [hseen, hpast, hc f (hframe ▸ hf)], .inl hpast⟩
  | done hseen hframe =>
      refine ⟨fun f hf => ?_, ?_⟩
      · rw [hframe] at hf
        cases hf
      · rw [past_of_idle hframe, hseen]
        cases hhand : c.loop.frame with
        | none => exact .inl (past_of_idle hhand).symm
        | some f => exact .inr ⟨f, rfl, hc f hhand⟩
  | took f _ hseen hnone hframe =>
      have hpast : c'.past = c.past := by
        rw [past_of_idle hnone]
        simp [past, hframe, hseen]
      refine ⟨fun g hg => ?_, .inl hpast⟩
      obtain rfl : f = g := Option.some.inj (hframe.symm.trans hg)
      rw [hpast, hseen, past_of_idle hnone]

-- ============================================================================
-- The exits of handlers
-- ============================================================================

/-- A handler returns once. -/
def ExitsOnce (c : MuxConn) : Prop := ∀ h, c.tasks.countP (Task.exits h) ≤ 1

theorem countP_terminateAll (err : GoError) :
    (c.terminateAll err).tasks.countP (Task.exits h) = c.tasks.countP (Task.exits h) := by
  have hnone : (c.registered.map (Task.terminate · err)).countP (Task.exits h) = 0 := by
    refine List.countP_eq_zero.mpr fun t ht => ?_
    obtain ⟨j, -, rfl⟩ := List.mem_map.mp ht
    exact Bool.false_ne_true
  show (c.tasks ++ c.registered.map (Task.terminate · err)).countP _ = _
  rw [List.countP_append, hnone, Nat.add_zero]

theorem exits_none_of_running (hexit : c.Exiting) {o : StreamObject} (ho : c.objs[h]? = some o)
    (hrun : o.Running) : ∀ t ∈ c.tasks, t.exits h = false := by
  have hdone : ∀ s : StreamObject, c.objs[h]? = some s → s.handlerDone ≠ true := by
    intro s hs
    obtain rfl : o = s := Option.some.inj (ho.symm.trans hs)
    rw [hrun]
    exact Bool.false_ne_true
  intro t ht
  have hok := hexit.tasks t ht
  cases t with
  | exit j =>
      obtain ⟨s, hs, hret⟩ := hok
      refine decide_eq_false fun heq => ?_
      exact hdone s (heq ▸ hs) hret
  | exitDeregister j =>
      obtain ⟨s, hs, hret, -⟩ := hok
      refine decide_eq_false fun heq => ?_
      exact hdone s (heq ▸ hs) hret
  | write | close | closeTerminate | closeReset | terminate => rfl

/-- The effect of a step on the handlers that are exiting. -/
theorem exits_step (hstep : Stepped c ev c') :
    c'.tasks.countP (Task.exits h) ≤ c.tasks.countP (Task.exits h) ∨
      (∃ o : StreamObject, c.objs[h]? = some o ∧ o.Running) ∧
        c'.tasks.countP (Task.exits h) = c.tasks.countP (Task.exits h) + 1 := by
  have hdone : ∀ {k t}, c.tasks[k]? = some t → ∀ rest : List Task,
      rest.countP (Task.exits h) ≤ (if t.exits h then 1 else 0) →
        (c.setTask k rest).tasks.countP (Task.exits h) ≤ c.tasks.countP (Task.exits h) :=
    fun hk rest hle => by
      have := countP_setTask hk rest (Task.exits h)
      omega
  cases hstep with
  | handlerReturn j o _ ho hrun =>
      by_cases hjh : j = h
      · subst hjh
        refine .inr ⟨⟨o, ho, hrun⟩, ?_⟩
        show (c.tasks ++ [Task.exit j]).countP _ = _
        simp [Task.exits]
      · refine .inl ?_
        show (c.tasks ++ [Task.exit j]).countP _ ≤ _
        simp [Task.exits, hjh]
  | recvFails err => exact .inl (Nat.le_of_eq (countP_terminateAll err))
  | shutdown => exact .inl (Nat.le_of_eq (countP_terminateAll _))
  | writeChecked j env =>
      refine .inl ?_
      show (c.tasks ++ [Task.write j env]).countP _ ≤ _
      simp [Task.exits]
  | close j o =>
      refine .inl ?_
      show (c.tasks ++ [Task.close j]).countP _ ≤ _
      simp [Task.exits]
  | taskTerminate k j t rest err hk hrest =>
      refine .inl (hdone hk rest ?_)
      cases t with
      | exit i =>
          obtain ⟨rfl, rfl, rfl⟩ := by simpa [Task.terminates] using hrest
          simp [Task.exits]
      | closeTerminate i finished =>
          obtain ⟨rfl, rfl, rfl⟩ := by simpa [Task.terminates] using hrest
          simp [Task.exits]
      | terminate i e =>
          obtain ⟨rfl, rfl, rfl⟩ := by simpa [Task.terminates] using hrest
          simp
      | write => cases hrest
      | close => cases hrest
      | closeReset => cases hrest
      | exitDeregister => cases hrest
  | taskClose k j o hk => exact .inl (hdone hk _ (by simp [Task.exits]))
  | taskWrite k j env o hk => exact .inl (hdone hk [] (Nat.zero_le _))
  | taskReset k j finished o hk => exact .inl (hdone hk [] (Nat.zero_le _))
  | taskClosed k j finished o hk => exact .inl (hdone hk [] (Nat.zero_le _))
  | taskDeregister k j o hk => exact .inl (hdone hk [] (Nat.zero_le _))
  | writeFails k j env hk => exact .inl (hdone hk [] (Nat.zero_le _))
  | resetFails k j finished hk => exact .inl (hdone hk [] (Nat.zero_le _))
  | start f => exact .inl (by rw [startStream_tasks])
  | newStream => exact .inl (by rw [newStream_tasks])
  | recv | found | missing | skip | reset | deliver | resetTerminate | drop | writeRefused | read
  | cancel => exact .inl (Nat.le_refl _)

theorem ExitsOnce.step (hc : c.ExitsOnce) (hexit : c.Exiting) (hstep : Stepped c ev c') :
    c'.ExitsOnce := by
  intro h
  rcases exits_step (h := h) hstep with hle | ⟨⟨o, ho, hrun⟩, heq⟩
  · exact hle.trans (hc h)
  · have hnone : c.tasks.countP (Task.exits h) = 0 :=
      List.countP_eq_zero.mpr fun t ht => by simp [exits_none_of_running hexit ho hrun t ht]
    omega

-- ============================================================================
-- One stream ID
-- ============================================================================

/-- A reset with the ID has been handled, or the connection has ended. -/
def Late (id : UInt32) (c : MuxConn) : Prop := HasReset id c.past ∨ c.loop = .stopped

/-- The handler of stream `h` runs, or is exiting. -/
def Busy (c : MuxConn) (h : Nat) (o : StreamObject) : Prop :=
  o.Running ∨ ∃ t ∈ c.tasks, t.exits h = true

/-- The streams of the server with the ID `id`. -/
structure Settling (id : UInt32) (c : MuxConn) : Prop where
  /-- A busy handler has the entry of the ID, until the stream is reset. -/
  own : ∀ (h : Nat) (o : StreamObject), c.objs[h]? = some o → o.stream.id = id → c.Busy h o →
    c.streams id = some h ∨ Late id c
  gone : HasReset id c.past → c.streams id = none

theorem stopped_step (hstep : Stepped c ev c') (hstopped : c.loop = .stopped) :
    c'.loop = .stopped := by
  have hmoves : ∀ {l}, c.loop = l → l ≠ .stopped → c'.loop = .stopped := fun hl hne =>
    absurd (hl.symm.trans hstopped) hne
  cases hstep with
  | recv f hl => exact hmoves hl nofun
  | recvFails => rfl
  | found h f hl => exact hmoves hl nofun
  | missing f hl => exact hmoves hl nofun
  | start f hl => exact hmoves hl nofun
  | skip f hl => exact hmoves hl nofun
  | reset h f hl => exact hmoves hl nofun
  | deliver h f o hl => exact hmoves hl nofun
  | resetTerminate h hl => exact hmoves hl nofun
  | drop h f o hl => exact hmoves hl nofun
  | newStream dedicated => exact (newStream_loop dedicated).trans hstopped
  | writeRefused | writeChecked | read | cancel | close | shutdown | handlerReturn | taskWrite
  | taskClose | taskTerminate | taskReset | taskClosed | taskDeregister | writeFails
  | resetFails => exact hstopped

theorem Late.step (hlate : Late id c) (hhand : c.Hand) (hstep : c.step ev = some c') :
    Late id c' := by
  rcases hlate with hreset | hstopped
  · refine .inl ?_
    rcases (hhand.step (looped_step hstep).1).2 with hsame | ⟨f, -, hmore⟩
    · exact hsame ▸ hreset
    · exact hmore ▸ hreset.mono (List.subset_append_left _ _)
  · exact .inr (stopped_step (stepped hstep) hstopped)

/-- A busy handler was busy before the step, unless its stream is new. -/
theorem Busy.back (hstep : Stepped c ev c') {o o' : StreamObject}
    (ho : c.objs[h]? = some o) (hkept : Kept o o') (hbusy : c'.Busy h o') : c.Busy h o := by
  rcases hbusy with hrun | ⟨t, ht, hexits⟩
  · refine .inl ?_
    cases hdone : o.handlerDone with
    | false => exact hdone
    | true => exact absurd (hkept.done hdone) (by rw [hrun]; exact Bool.false_ne_true)
  · have hpos : 0 < c'.tasks.countP (Task.exits h) := List.countP_pos_iff.mpr ⟨t, ht, hexits⟩
    rcases exits_step (h := h) hstep with hle | ⟨⟨s, hs, hrun⟩, -⟩
    · exact .inr (List.countP_pos_iff.mp (Nat.lt_of_lt_of_le hpos hle))
    · obtain rfl : o = s := Option.some.inj (ho.symm.trans hs)
      exact .inl hrun

/-- While the ID is not reused, an entry that goes is that of a stream that is
    not busy any more. -/
theorem Settling.deregistersOwn (hc : Settling id c) (htable : c.Table) (hexit : c.Exiting)
    (ev : ConnEvent) : DeregistersOwnOf (· = id) c ev := by
  rintro k h o - hk ho rfl j o' hreg ho' hrun
  have hbusy : c.Busy h o :=
    .inr ⟨_, List.mem_of_getElem? hk, by simp [Task.exits]⟩
  rcases hc.own h o ho rfl hbusy with hown | hreset | hstopped
  · obtain rfl : j = h := Option.some.inj (hreg.symm.trans hown)
    obtain rfl : o = o' := Option.some.inj (ho.symm.trans ho')
    obtain ⟨s, hs, hdone, -⟩ := hexit.tasks _ (List.mem_of_getElem? hk)
    obtain rfl : o = s := Option.some.inj (ho.symm.trans hs)
    rw [hrun] at hdone
    cases hdone
  · rw [hc.gone hreset] at hreg
    cases hreg
  · rw [htable.stopped hstopped] at hreg
    cases hreg

/-- A step that makes no stream, adds no entry, and takes away none of a busy
    handler before the stream is reset. -/
theorem Settling.of_streams (hc : Settling id c) (hhand : c.Hand)
    (hstep : c.step ev = some c') (hlength : c'.objs.length = c.objs.length)
    (hstreams : ∀ j, c'.streams id = some j → c.streams id = some j)
    (hpast : ∀ f, c.loop.frame = some f → c'.past = c.past ++ [f] → f.id = id →
      f.env.isReset = true → c'.streams id = none)
    (hkeeps : ∀ (h : Nat) (o' : StreamObject), c'.objs[h]? = some o' → o'.stream.id = id →
      c'.Busy h o' → c.streams id = some h → c'.streams id = some h ∨ Late id c') :
    Settling id c' where
  own := by
    intro h o' ho' hid hbusy
    rcases kept_back hstep ho' with ⟨o, ho, hkept⟩ | ⟨hobjs, -⟩
    · have hold := hc.own h o ho (hkept.id ▸ hid) (hbusy.back (stepped hstep) ho hkept)
      rcases hold with hreg | hlate
      · exact hkeeps h o' ho' hid hbusy hreg
      · exact .inr (hlate.step hhand hstep)
    · rw [hobjs, List.length_append, List.length_singleton] at hlength
      omega
  gone := by
    have hkeep : HasReset id c.past → c'.streams id = none := by
      intro hold
      cases hreg : c'.streams id with
      | none => rfl
      | some j =>
          have := hstreams j hreg
          rw [hc.gone hold] at this
          cases this
    intro hreset
    rcases (hhand.step (looped_step hstep).1).2 with hsame | ⟨f, hf, hmore⟩
    · exact hkeep (hsame ▸ hreset)
    · rw [hmore] at hreset
      rcases hasReset_concat.mp hreset with hold | ⟨hid, hnew⟩
      · exact hkeep hold
      · exact hpast f hf hmore hid hnew

/-- A step that leaves the map and the frames handled as they are. -/
theorem Settling.of_same (hc : Settling id c) (hhand : c.Hand)
    (hstep : c.step ev = some c') (hlength : c'.objs.length = c.objs.length)
    (hstreams : c'.streams = c.streams) (hpast : c'.past = c.past) : Settling id c' := by
  refine hc.of_streams hhand hstep hlength (fun j hj => hstreams ▸ hj) (fun f _ hmore => ?_)
    fun _ _ _ _ _ hreg => .inl (hstreams ▸ hreg)
  have hlen := congrArg List.length (hpast.symm.trans hmore)
  rw [List.length_append, List.length_singleton] at hlen
  omega

/-- A frame that is no reset has been handled. -/
theorem Settling.of_plain (hc : Settling id c) (hhand : c.Hand)
    (hstep : c.step ev = some c') (hlength : c'.objs.length = c.objs.length)
    (hstreams : c'.streams = c.streams)
    (hplain : ∀ f, c.loop.frame = some f → f.env.isReset = false) : Settling id c' := by
  refine hc.of_streams hhand hstep hlength (fun j hj => hstreams ▸ hj) (fun f hf _ _ hreset => ?_)
    fun _ _ _ _ _ hreg => .inl (hstreams ▸ hreg)
  rw [hplain f hf] at hreset
  cases hreset

/-- No frame of the stream comes after its reset. -/
theorem not_late_of_hand (hhand : c.Hand) (hlast : ResetLast id c.seen) {f : Frame}
    (hf : c.loop.frame = some f) (hid : f.id = id) : ¬ Late id c := by
  rintro (hreset | hstopped)
  · rw [hhand f hf] at hlast
    exact (resetLast_concat.mp hlast).2 hreset hid
  · rw [hstopped] at hf
    cases hf

/-- A headers frame opens a stream. -/
theorem Settling.start (hc : Settling id c) (hhand : c.Hand) (htable : c.Table)
    (hlast : ResetLast id c.seen) {f : Frame} (hl : c.loop = .missing f)
    (hheaders : f.env.flag = flagEnvelopeHeaders)
    (hstep : c.step .advance = some { c.startStream f with loop := .reading }) :
    Settling id { c.startStream f with loop := .reading } := by
  have hf : c.loop.frame = some f := by
    rw [hl]
    rfl
  have hplain : f.env.isReset = false := by
    rw [Envelope.isReset, hheaders]
    decide
  by_cases hrefused : c.closed ∨ (c.streams f.id).isSome
  · have hsame : c.startStream f = c := if_pos hrefused
    rw [hsame] at hstep ⊢
    refine hc.of_plain hhand hstep rfl rfl fun g hg => ?_
    obtain rfl : f = g := Option.some.inj (hf.symm.trans hg)
    exact hplain
  · have hopens : c.startStream f = c.insert _ := if_neg hrefused
    rw [hopens] at hstep ⊢
    have hfree := htable.missing f hl
    have hnew : ∀ {j}, c.streams id = some j → id ≠ f.id := by
      rintro j hj rfl
      rw [hfree] at hj
      cases hj
    refine ⟨fun h o' ho' hid hbusy => ?_, fun hreset => ?_⟩
    · rcases Store.getElem?_concat.mp ho' with ho | ⟨rfl, rfl⟩
      · have hold := hbusy.back (stepped hstep) ho (Kept.refl o')
        rcases hc.own h o' ho hid hold with hreg | hlate
        · exact .inl (insert_streams.mpr (.inr ⟨hnew hreg, hreg⟩))
        · exact .inr (hlate.step hhand hstep)
      · exact .inl (insert_streams.mpr (.inl ⟨hid.symm, rfl⟩))
    · have hold : HasReset id c.past := by
        rcases (hhand.step (looped_step hstep).1).2 with hsame | ⟨g, hg, hmore⟩
        · exact hsame ▸ hreset
        · obtain rfl : f = g := Option.some.inj (hf.symm.trans hg)
          rw [hmore] at hreset
          refine (hasReset_concat.mp hreset).resolve_right fun hnew => ?_
          rw [hplain] at hnew
          cases hnew.2
      have hne : id ≠ f.id := fun heq =>
        not_late_of_hand hhand hlast hf heq.symm (.inl hold)
      have hnone := hc.gone hold
      show Function.update c.streams f.id _ id = none
      rw [Function.update_of_ne hne]
      exact hnone

/-- The exit of a handler deregisters its own stream. -/
theorem Settling.exit (hc : Settling id c) (hhand : c.Hand) (hexit : c.Exiting)
    (honce : c.ExitsOnce)
    {k : Nat} {o : StreamObject} (hk : c.tasks[k]? = some (.exitDeregister h))
    (ho : c.objs[h]? = some o)
    (hstep : c.step (.task k) = some ((c.setTask k []).deregister o.stream.id)) :
    Settling id ((c.setTask k []).deregister o.stream.id) := by
  refine hc.of_streams hhand hstep rfl (fun j hj => (deregister_streams.mp hj).2)
    (fun f _ hmore => ?_) fun j o' ho' hid hbusy hreg => ?_
  · have hlen := congrArg List.length (show c.past = c.past ++ [f] from hmore)
    rw [List.length_append, List.length_singleton] at hlen
    omega
  · by_cases hsame : id = o.stream.id
    · have hexits : Task.exits h (.exitDeregister h) = true := by simp [Task.exits]
      have hbusyNow : c.Busy h o := .inr ⟨_, List.mem_of_getElem? hk, hexits⟩
      rcases hc.own h o ho hsame.symm hbusyNow with hown | hlate
      · obtain rfl : j = h := Option.some.inj (hreg.symm.trans hown)
        obtain rfl : o' = o := Option.some.inj (ho'.symm.trans ho)
        -- it has returned, and this was its last deferred call
        rcases hbusy with hrun | ⟨t, ht, hexitsT⟩
        · obtain ⟨s, hs, hdone, -⟩ := hexit.tasks _ (List.mem_of_getElem? hk)
          obtain rfl : o' = s := Option.some.inj (ho.symm.trans hs)
          rw [hrun] at hdone
          cases hdone
        · have hpos : 0 < (c.setTask k []).tasks.countP (Task.exits j) :=
            List.countP_pos_iff.mpr ⟨t, ht, hexitsT⟩
          have hcount := countP_setTask hk [] (Task.exits j)
          rw [if_pos hexits, List.countP_nil] at hcount
          have := honce j
          omega
      · exact .inr (hlate.step hhand hstep)
    · exact .inl (deregister_streams.mpr ⟨hsame, hreg⟩)

theorem Settling.step (hc : Settling id c) (hhand : c.Hand) (htable : c.Table) (hexit : c.Exiting)
    (honce : c.ExitsOnce) (hlast : ResetLast id c.seen) (hstep : c.step ev = some c') :
    Settling id c' := by
  have hframe : ∀ {f g}, c.loop.frame = some f → c.loop.frame = some g → f = g :=
    fun hf hg => Option.some.inj (hf.symm.trans hg)
  cases stepped hstep with
  | recv f hl =>
      refine hc.of_same hhand hstep rfl rfl ?_
      rw [past_of_idle (c := c) (by rw [hl]; rfl)]
      show (c.seen ++ [f]).dropLast = c.seen
      simp
  | recvFails err hl =>
      refine hc.of_streams hhand hstep rfl (fun j hj => by cases hj) (fun f hf => ?_)
        fun _ _ _ _ _ _ => .inr (.inr rfl)
      rw [hl] at hf
      cases hf
  | found j f hl => exact hc.of_same hhand hstep rfl rfl (by simp [past, hl, Loop.frame])
  | missing f hl => exact hc.of_same hhand hstep rfl rfl (by simp [past, hl, Loop.frame])
  | start f hl _ hheaders => exact hc.start hhand htable hlast hl hheaders hstep
  | skip f hl =>
      refine hc.of_streams hhand hstep rfl (fun _ hj => hj) (fun g hg _ hid _ => ?_)
        fun _ _ _ _ _ hreg => .inl hreg
      obtain rfl : f = g := hframe (by rw [hl]; rfl) hg
      exact hid ▸ htable.missing f hl
  | reset j f hl hreset =>
      have hf : c.loop.frame = some f := by
        rw [hl]
        rfl
      refine hc.of_streams hhand hstep rfl (fun _ hj => (deregister_streams.mp hj).2)
        (fun g hg _ hid _ => ?_) fun i o' ho' hid _ hreg => ?_
      · obtain rfl : f = g := hframe hf hg
        subst hid
        exact Function.update_self ..
      · by_cases hfid : id = f.id
        · refine .inr (.inl ⟨f, ?_, hfid.symm, hreset⟩)
          show f ∈ c.seen
          rw [hhand f hf]
          exact List.mem_append_right _ (List.mem_singleton_self f)
        · exact .inl (deregister_streams.mpr ⟨hfid, hreg⟩)
  | deliver j f o hl hplain =>
      refine hc.of_plain hhand hstep (List.length_modify ..) rfl fun g hg => ?_
      obtain rfl : f = g := hframe (by rw [hl]; rfl) hg
      exact hplain
  | drop j f o hl hplain =>
      refine hc.of_plain hhand hstep rfl rfl fun g hg => ?_
      obtain rfl : f = g := hframe (by rw [hl]; rfl) hg
      exact hplain
  | resetTerminate j hl =>
      exact hc.of_same hhand hstep (List.length_modify ..) rfl (by simp [past, hl, Loop.frame,
        MuxConn.terminate, MuxConn.modify])
  | newStream _ hrole | close _ _ hrole | shutdown hrole =>
      rw [htable.role] at hrole
      cases hrole
  | taskDeregister k j o hk ho => exact hc.exit hhand hexit honce hk ho hstep
  | read | cancel | handlerReturn | taskWrite | taskTerminate =>
      exact hc.of_same hhand hstep (List.length_modify ..) rfl rfl
  | writeRefused | writeChecked | taskClose | taskReset | taskClosed | writeFails | resetFails =>
      exact hc.of_same hhand hstep rfl rfl rfl

-- ============================================================================
-- The server
-- ============================================================================

structure Settles (c : MuxConn) : Prop where
  table : c.Table
  exiting : c.Exiting
  hand : c.Hand
  once : c.ExitsOnce
  settling : ∀ id, ResetLast id c.seen → Settling id c ∧ c.NoOrphanOf (· = id)

theorem settles_init : Settles serveHTTP.init where
  table := table_init
  exiting := exiting_init
  hand := fun _ h => by cases h
  once := fun _ => Nat.zero_le _
  settling := fun _ _ => ⟨⟨fun _ _ h => (by cases h), fun _ => rfl⟩, fun _ _ h => by cases h⟩

theorem seen_grow (hloop : Looped ev c c') : c.seen <+: c'.seen := by
  cases hloop with
  | same hseen | done hseen => rw [hseen]
  | took f _ hseen =>
      rw [hseen]
      exact List.prefix_append ..

theorem Settles.step (hc : c.Settles) (hstep : c.step ev = some c') : c'.Settles := by
  have hstepped := stepped hstep
  have hloop := (looped_step hstep).1
  refine
    { table := hc.table.step hstepped
      exiting := hc.exiting.step hc.table hstepped
      hand := (hc.hand.step hloop).1
      once := hc.once.step hc.exiting hstepped
      settling := fun id hlast => ?_ }
  have hbefore : ResetLast id c.seen := hlast.mono (seen_grow hloop)
  obtain ⟨hsettling, horphan⟩ := hc.settling id hbefore
  have hown := hsettling.deregistersOwn hc.table hc.exiting ev
  exact ⟨hsettling.step hc.hand hc.table hc.exiting hc.once hbefore hstep,
    horphan.step hc.table hc.exiting hown hstepped⟩

/-- With the reset handled, or the connection ended, no handler of the stream
    runs uncancelled. -/
theorem Settles.cancelled (hc : c.Settles) (hlast : ResetLast id c.seen)
    (hend : c.loop = .reading ∧ HasReset id c.seen ∨
      c.loop = .stopped ∧ ∀ h err, .terminate h err ∉ c.tasks)
    {o : StreamObject} (ho : o ∈ c.objs) (hid : o.stream.id = id) (hrun : o.Running) :
    o.stream.ctxErr.isSome = true := by
  obtain ⟨h, hh⟩ := List.getElem?_of_mem ho
  obtain ⟨hsettling, horphan⟩ := hc.settling id hlast
  have hfree : c.streams id = none := by
    rcases hend with ⟨hl, hreset⟩ | ⟨hl, -⟩
    · refine hsettling.gone ?_
      rw [past_of_idle (by rw [hl]; rfl)]
      exact hreset
    · exact hc.table.stopped hl id
  have hnobody : ¬ c.Terminating h := by
    rintro (hresetting | ⟨err, hmem⟩)
    · rcases hend with ⟨hl, -⟩ | ⟨hl, -⟩
      · rw [hl] at hresetting
        cases hresetting
      · rw [hl] at hresetting
        cases hresetting
    · rcases hend with ⟨hl, -⟩ | ⟨-, hnone⟩
      · have hstopped : c.loop = .stopped := hc.exiting.tasks _ hmem
        rw [hl] at hstopped
        cases hstopped
      · exact hnone h err hmem
  rcases horphan h o hh hid hrun with hreg | hterm | hsoon
  · rw [hid, hfree] at hreg
    cases hreg
  · exact (hc.exiting.cancelled h o hh).2 hterm
  · exact absurd hsoon hnobody

end MuxConn

-- ============================================================================
-- Both ends
-- ============================================================================

namespace Net

variable {n n' : Net} {h : Nat}

/-- The condition of `ResetsAlone` on the steps of the client. -/
def ResetsAlone (h : Nat) (n : Net) (ev : Role × ConnEvent) : Prop :=
  ev.1 = .client → (n .client).ResetsAlone h ev.2

instance (h : Nat) (n : Net) (ev : Role × ConnEvent) : Decidable (n.ResetsAlone h ev) :=
  inferInstanceAs (Decidable (ev.1 = .client → (n .client).ResetsAlone h ev.2))

/-- The client's callers write no resets. -/
def Plain (ev : Role × ConnEvent) : Prop :=
  ∀ j env, ev = (.client, .write j env) → env.isReset = false

structure Parted (h : Nat) (n : Net) : Prop where
  client : (n .client).QuietClient h
  server : (n .server).Settles
  seen : (n .server).seen <+: (n .client).sent

theorem parted_init (h : Nat) : Parted h net.init where
  client := MuxConn.quietClient_init h
  server := MuxConn.settles_init
  seen := List.prefix_rfl

theorem Parted.step (hn : Parted h n) {ev : Role × ConnEvent} (halone : n.ResetsAlone h ev)
    (hplain : Plain ev) (hstep : net.step n ev = some n') : Parted h n' := by
  obtain ⟨r, ev⟩ := ev
  obtain ⟨c, hcarries, hc, rfl⟩ := Net.step_cases hstep
  cases r with
  | client =>
      refine ⟨?_, hn.server, hn.seen.trans (MuxConn.wrote_step hc).sent_grow⟩
      exact hn.client.step hc (halone rfl) fun j env hev => hplain j env (by rw [hev])
  | server =>
      exact ⟨hn.client, hn.server.step hc,
        Net.seen_step (r := .server) hn.seen hcarries (MuxConn.looped_step hc).1⟩

/-- A `Close` of stream `h` has been called on the client. -/
def ClosingClient (h : Nat) (n : Net) : Prop :=
  ∃ o : StreamObject, (n .client).objs[h]? = some o ∧ (n .client).Closing h o

theorem ClosingClient.step (hn : n.ClosingClient h) {ev : Role × ConnEvent}
    (hfails : ∀ k, ev ≠ (.client, .writeFails k)) (hstep : net.step n ev = some n') :
    n'.ClosingClient h := by
  obtain ⟨r, ev⟩ := ev
  obtain ⟨c, -, hc, rfl⟩ := Net.step_cases hstep
  cases r with
  | server => exact hn
  | client =>
      obtain ⟨o, ho, hclosing⟩ := hn
      obtain ⟨o', ho', hkept⟩ := MuxConn.kept_step (MuxConn.stepped hc) ho
      exact ⟨o', ho', hclosing.step ho hc hkept fun k hev => hfails k (by rw [hev])⟩

theorem closingClient_of_close {evs : List (Role × ConnEvent)} (hrun : net.run evs = some n)
    (hclose : (.client, .close h) ∈ evs) (hfails : ∀ k, (.client, .writeFails k) ∉ evs) :
    n.ClosingClient h := by
  obtain ⟨before, after, rfl⟩ := List.append_of_mem hclose
  obtain ⟨n₁, -, hlast⟩ := net.exec_append.mp hrun
  obtain ⟨n₂, hstep, hafter⟩ := net.exec_cons.mp hlast
  have hcalled : n₂.ClosingClient h := by
    have hclosed : n₁.step (.client, .close h) = some n₂ := hstep
    obtain ⟨c, -, hc, rfl⟩ := Net.step_cases hclosed
    cases MuxConn.stepped hc with
    | close _ o _ ho =>
        refine ⟨o, ho, .inl ⟨.close h, ?_, .inl rfl⟩⟩
        exact List.mem_append_right _ (List.mem_singleton_self _)
  have hrest : ∀ ev ∈ after, ∀ k, ev ≠ (.client, .writeFails k) := by
    rintro ev hev k rfl
    exact hfails k (List.mem_append_right _ (List.mem_cons_of_mem _ hev))
  exact net.exec_invariant_of_meets (I := ClosingClient h)
    (fun _ _ _ hn hev hstep => hn.step hev hstep) hcalled (net.meets_of_forall hrest n₂) hafter

end Net

-- ============================================================================
-- Main results
-- ============================================================================

/-- `Close` has returned on stream `h`, without the response end-stream
    having been read. -/
structure ClosedEarly (evs : List (Role × ConnEvent)) (n : Net) (h : Nat) (o : StreamObject) :
    Prop where
  called : (.client, .close h) ∈ evs
  returned : ∀ t ∈ (n .client).tasks, t.closes h = false
  unfinished : o.stream.rxEnd = false

/-- The server has handled everything written to it.  A write that fails ends
    the connection, and the server sees that. -/
def Processed (evs : List (Role × ConnEvent)) (n : Net) : Prop :=
  (n .server).loop = .reading ∧ (n .server).seen = (n .client).sent ∧
      (∀ k, (.client, .writeFails k) ∉ evs) ∨
    (n .server).loop = .stopped ∧ ∀ h err, .terminate h err ∉ (n .server).tasks

/-- An abandoned stream stays abandoned: at most one reset and no frame after
    it, and at the server no handler that is still running uncancelled. -/
def StaysAbandoned (evs : List (Role × ConnEvent)) (n : Net) (h : Nat) (o : StreamObject) : Prop :=
  ResetLast o.stream.id (n .client).sent ∧
    (ClosedEarly evs n h o → Processed evs n → ∀ s ∈ (n .server).objs,
      s.stream.id = o.stream.id → s.Running → s.stream.ctxErr.isSome = true)

theorem stays_abandoned_of_resetsAlone (evs : List (Role × ConnEvent)) (n : Net)
    (hrun : net.run evs = some n) (hcalls : ∀ ev ∈ evs, Net.Plain ev) (h : Nat) (o : StreamObject)
    (ho : (n .client).objs[h]? = some o) (hdedicated : o.stream.dedicated = false)
    (hid : (n .client).ids.count o.stream.id = 1)
    (halone : net.Meets (Net.ResetsAlone h) net.init evs) : StaysAbandoned evs n h o := by
  have hparted : Net.Parted h n := net.exec_invariant_of_meets
    (fun _ _ _ hn hev hstep => Net.Parted.step hn hev.1 hev.2 hstep) (Net.parted_init h)
    (net.meets_and_of_forall halone hcalls) hrun
  have hquiet := hparted.client.quiet o ho (Nat.le_of_eq hid)
  refine ⟨hquiet.last, fun hclosed hprocessed s hs hsid hrunning => ?_⟩
  have hlast : ResetLast o.stream.id (n .server).seen := hquiet.last.mono hparted.seen
  refine hparted.server.cancelled hlast ?_ hs hsid hrunning
  refine hprocessed.imp_left fun ⟨hl, hseen, hfails⟩ => ⟨hl, ?_⟩
  obtain ⟨o', ho', hclosing⟩ := Net.closingClient_of_close hrun hclosed.called hfails
  obtain rfl : o = o' := Option.some.inj (ho.symm.trans ho')
  rw [hseen]
  exact hclosing.reset_sent hclosed.returned hclosed.unfinished hdedicated

/-- `Close` while the handler runs, and nobody else writes. -/
def quietClose : List (Role × ConnEvent) := [
  (.client, .newStream false), (.client, .write 0 ⟨flagEnvelopeHeaders, []⟩), (.client, .task 0),
  (.server, .recv ⟨1, ⟨flagEnvelopeHeaders, []⟩⟩), (.server, .advance), (.server, .advance),
  (.client, .close 0), (.client, .task 0), (.client, .task 0), (.client, .task 0),
  (.server, .recv ⟨1, ⟨flagEnvelopeReset, []⟩⟩), (.server, .advance), (.server, .advance),
  (.server, .advance)]

theorem quietClose_stays_abandoned :
    ∃ n o, net.run quietClose = some n ∧ (n .client).objs[0]? = some o ∧
      StaysAbandoned quietClose n 0 o := by
  refine ⟨_, _, rfl, rfl, ?_⟩
  refine stays_abandoned_of_resetsAlone quietClose _ rfl ?_ 0 _ rfl rfl (by decide) (by decide)
  rintro ev hev j env rfl
  simp [quietClose] at hev
  exact hev.2 ▸ rfl

/-- A headers envelope past its check is written after the reset of `Close`,
    and opens an RPC at the server. -/
theorem write_after_reset :
    ¬ ∀ evs n h o, net.run evs = some n → (∀ ev ∈ evs, Net.Plain ev) →
      (n .client).objs[h]? = some o → o.stream.dedicated = false →
        (n .client).ids.count o.stream.id = 1 → StaysAbandoned evs n h o := by
  intro h
  have hplain : ∀ ev ∈ [
      (Role.client, ConnEvent.newStream false), (.client, .write 0 ⟨flagEnvelopeHeaders, []⟩),
      (.client, .close 0), (.client, .task 1), (.client, .task 1), (.client, .task 1),
      (.client, .task 0)], Net.Plain ev := by
    rintro ev hev j env rfl
    simp at hev
    exact hev.2 ▸ rfl
  have hlast := (h _ _ 0 _ rfl hplain rfl rfl (by decide)).1
  exact absurd hlast (by decide)

end ConnectWebSocket
end BidiWeb
