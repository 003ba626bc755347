/-
  BidiWeb.ConnectWebSocket.Written

  One end of a connection: what a step can do to the list of its streams and
  to the frames it has written.
-/

import BidiWeb.ConnectWebSocket.Received

namespace BidiWeb
namespace ConnectWebSocket

open BidiWeb.Lib

-- ============================================================================
-- What a step can do
-- ============================================================================

/-- What other streams and the other end can tell of a stream. -/
def StreamObject.sig (o : StreamObject) : UInt32 × List Envelope := (o.stream.id, o.wrote)

/-- Where a new stream comes from: a client opens it, a server has read the
    headers envelope that does. -/
inductive Opens (c c' : MuxConn) (o : StreamObject) : Prop where
  | client : c.role = .client → o.stream.inbox = [] → Opens c c' o
  | server (f : Frame) : c.role = .server → c.loop = .missing f →
      f.env.flag = flagEnvelopeHeaders → o.stream.id = f.id → o.stream.inbox = [f.env] →
      c'.loop.frame = none → Opens c c' o

/-- The effect of a step on the streams and on the frames written. -/
inductive Wrote (c c' : MuxConn) : Prop where
  | nothing : c'.objs.map (·.sig) = c.objs.map (·.sig) → c'.sent = c.sent → Wrote c c'
  | created (o : StreamObject) : c'.objs = c.objs ++ [o] → o.wrote = [] → c'.sent = c.sent →
      Opens c c' o → Wrote c c'
  /-- `Close` resets the stream at the peer. -/
  | reset (h : Nat) (o : StreamObject) : c.objs[h]? = some o → c'.objs = c.objs →
      c'.sent = c.sent ++ [⟨o.stream.id, ⟨flagEnvelopeReset, []⟩⟩] → Wrote c c'
  /-- A `WriteEnvelope` succeeds. -/
  | envelope (h : Nat) (o : StreamObject) (env : Envelope) : c.objs[h]? = some o →
      c'.objs = c.objs.modify h (StreamObject.write · env) →
      c'.sent = c.sent ++ [⟨o.stream.id, env⟩] → Wrote c c'

/-- The effect of a step on the frames read and on the one in hand. -/
inductive Looped (ev : ConnEvent) (c c' : MuxConn) : Prop where
  | same : c'.seen = c.seen → c'.loop.frame = c.loop.frame → Looped ev c c'
  | done : c'.seen = c.seen → c'.loop.frame = none → Looped ev c c'
  | took (f : Frame) : ev = .recv f → c'.seen = c.seen ++ [f] → c.loop.frame = none →
      c'.loop.frame = some f → Looped ev c c'

namespace MuxConn

variable {c c' : MuxConn}

theorem wrote_modify {h : Nat} {f : StreamObject → StreamObject}
    (hf : ∀ o, c.objs[h]? = some o → (f o).sig = o.sig) (hobjs : c'.objs = c.objs.modify h f)
    (hsent : c'.sent = c.sent) : Wrote c c' :=
  .nothing (by rw [hobjs, Store.map_modify_of_eq hf]) hsent

theorem wrote_terminate {c₀ : MuxConn} (h : Nat) (err : GoError) (hobjs : c₀.objs = c.objs)
    (hc' : c'.objs = (c₀.terminate h err).objs) (hsent : c'.sent = c.sent) : Wrote c c' := by
  refine wrote_modify (fun o _ => ?_) (hc'.trans (by rw [terminate, MuxConn.modify, hobjs])) hsent
  show ((o.stream.terminate err).id, o.wrote) = (o.stream.id, o.wrote)
  rw [o.stream.terminate_id]

theorem wrote_step {ev : ConnEvent} (hstep : c.step ev = some c') : Wrote c c' := by
  cases stepped hstep with
  | start f hloop hrole hheaders =>
      rcases c.startStream_cases f with hrefused | ⟨-, -, hinsert⟩
      · rw [hrefused]
        exact .nothing rfl rfl
      · rw [hinsert]
        refine .created _ rfl rfl rfl (.server f hrole hloop hheaders rfl ?_ rfl)
        show [⟨flagEnvelopeHeaders, f.env.payload⟩] = [f.env]
        rw [← hheaders]
  | deliver h f o =>
      refine wrote_modify ?_ rfl rfl
      exact fun _ _ => rfl
  | resetTerminate h => exact wrote_terminate h _ rfl rfl rfl
  | newStream dedicated hrole =>
      rcases c.newStream_cases dedicated with ⟨next, hnone⟩ | ⟨-, id, -, hinsert⟩
      · rw [hnone]
        exact .nothing rfl rfl
      · rw [hinsert]
        exact .created _ rfl rfl rfl (.client hrole rfl)
  | read h o env stream ho _ hreceive =>
      refine wrote_modify (fun o' ho' => ?_) rfl rfl
      obtain rfl : o = o' := Option.some.inj (ho.symm.trans ho')
      show (stream.id, o.wrote) = (o.stream.id, o.wrote)
      rw [o.stream.receive_id hreceive]
  | cancel h err =>
      refine wrote_modify ?_ rfl rfl
      exact fun _ _ => rfl
  | handlerReturn h o =>
      refine wrote_modify ?_ rfl rfl
      exact fun _ _ => rfl
  | taskWrite k h env o _ ho => exact .envelope h o env ho rfl rfl
  | taskTerminate k h t rest err => exact wrote_terminate h err rfl rfl rfl
  | taskReset k h finished o _ ho => exact .reset h o ho rfl rfl
  | _ => exact .nothing rfl rfl

theorem looped_step {ev : ConnEvent} (hstep : c.step ev = some c') :
    Looped ev c c' ∧ c'.role = c.role := by
  cases stepped hstep with
  | recv f hloop => exact ⟨.took f rfl rfl (by rw [hloop]; rfl) rfl, rfl⟩
  | found h f hloop => exact ⟨.same rfl (by rw [hloop]; rfl), rfl⟩
  | missing f hloop => exact ⟨.same rfl (by rw [hloop]; rfl), rfl⟩
  | start f => exact ⟨.done (startStream_seen f) rfl, startStream_role f⟩
  | newStream dedicated =>
      have hframe : (c.newStream dedicated).loop.frame = c.loop.frame :=
        congrArg Loop.frame (newStream_loop dedicated)
      exact ⟨.same (newStream_seen dedicated) hframe, newStream_role dedicated⟩
  | recvFails | skip | reset | deliver | resetTerminate | drop => exact ⟨.done rfl rfl, rfl⟩
  | _ => exact ⟨.same rfl rfl, rfl⟩

-- ============================================================================
-- The frames written are those of the streams
-- ============================================================================

/-- The stream IDs of one end, in the order of creation. -/
def ids (c : MuxConn) : List UInt32 := c.objs.map (·.stream.id)

/-- No frame without a stream; and of a stream that has its ID to itself, the
    frames with that ID are what its `WriteEnvelope` calls wrote. -/
structure Sent (c : MuxConn) : Prop where
  owner : ∀ f ∈ c.sent, f.id ∈ c.ids
  wrote : ∀ o ∈ c.objs, c.ids.count o.stream.id ≤ 1 →
    envelopesOf o.stream.id c.sent = o.wrote

theorem ids_of_sig (h : c'.objs.map (·.sig) = c.objs.map (·.sig)) : c'.ids = c.ids := by
  have hfst := congrArg (List.map Prod.fst) h
  rw [List.map_map, List.map_map] at hfst
  exact hfst

theorem ids_modify_write (h : Nat) (env : Envelope)
    (hobjs : c'.objs = c.objs.modify h (StreamObject.write · env)) : c'.ids = c.ids := by
  rw [ids, hobjs]
  refine Store.map_modify_of_eq ?_
  exact fun _ _ => rfl

theorem mem_ids {id : UInt32} : id ∈ c.ids ↔ ∃ o ∈ c.objs, o.stream.id = id := List.mem_map

/-- No frame has an ID that no stream has. -/
theorem Sent.envelopesOf_eq_nil (hc : Sent c) {id : UInt32} (hid : id ∉ c.ids) :
    envelopesOf id c.sent = [] := by
  rw [envelopesOf, List.map_eq_nil_iff, List.filter_eq_nil_iff]
  intro f hf hfid
  simp only [Bool.and_eq_true, decide_eq_true_eq] at hfid
  have howner := hc.owner f hf
  rw [hfid.1] at howner
  exact hid howner

theorem sent_init (role : Role) : Sent { role } where
  owner := fun _ h => by cases h
  wrote := fun _ h => by cases h

theorem Sent.step (hc : Sent c) (hw : Wrote c c') : Sent c' := by
  cases hw with
  | nothing hsig hsent =>
      have hids := ids_of_sig hsig
      refine ⟨fun f hf => ?_, fun o' ho' hcount => ?_⟩
      · rw [hids]
        exact hc.owner f (hsent ▸ hf)
      · have hmem : o'.sig ∈ c.objs.map (·.sig) := by
          rw [← hsig]
          exact List.mem_map_of_mem ho'
        obtain ⟨o, ho, hsame⟩ := List.mem_map.mp hmem
        obtain ⟨hid, hwrote⟩ := Prod.mk.inj hsame
        rw [hids, ← hid] at hcount
        rw [hsent, ← hid, ← hwrote]
        exact hc.wrote o ho hcount
  | created o hobjs hnew hsent _ =>
      have hids : c'.ids = c.ids ++ [o.stream.id] := by
        rw [ids, hobjs, List.map_append]
        rfl
      refine ⟨fun f hf => ?_, fun o' ho' hcount => ?_⟩
      · rw [hids]
        exact List.mem_append_left _ (hc.owner f (hsent ▸ hf))
      · rw [hids, List.count_append] at hcount
        rw [hobjs] at ho'
        rw [hsent]
        rcases List.mem_append.mp ho' with hold | hlast
        · exact hc.wrote o' hold (by omega)
        · obtain rfl : o' = o := by simpa using hlast
          -- a frame with the new ID would have an owner of that ID
          have hnone : c.ids.count o'.stream.id = 0 := by
            rw [List.count_singleton_self] at hcount
            omega
          rw [hnew]
          exact hc.envelopesOf_eq_nil (List.count_eq_zero.mp hnone)
  | reset h o ho hobjs hsent =>
      have hids : c'.ids = c.ids := by rw [ids, ids, hobjs]
      refine ⟨fun f hf => ?_, fun o' ho' hcount => ?_⟩
      · rw [hids]
        rw [hsent] at hf
        rcases List.mem_append.mp hf with hold | hlast
        · exact hc.owner f hold
        · obtain rfl := by simpa using hlast
          exact mem_ids.mpr ⟨o, List.mem_of_getElem? ho, rfl⟩
      · rw [hids] at hcount
        rw [hobjs] at ho'
        rw [hsent, envelopesOf_append, envelopesOf_single_reset rfl, List.append_nil]
        exact hc.wrote o' ho' hcount
  | envelope h o env ho hobjs hsent =>
      have hids := ids_modify_write h env hobjs
      refine ⟨fun f hf => ?_, fun o' ho' hcount => ?_⟩
      · rw [hids]
        rw [hsent] at hf
        rcases List.mem_append.mp hf with hold | hlast
        · exact hc.owner f hold
        · obtain rfl := by simpa using hlast
          exact mem_ids.mpr ⟨o, List.mem_of_getElem? ho, rfl⟩
      · rw [hids] at hcount
        rw [hsent, envelopesOf_append]
        obtain ⟨j, hj⟩ := List.getElem?_of_mem ho'
        rw [hobjs, Store.getElem?_modify] at hj
        by_cases hhj : h = j
        · subst hhj
          obtain ⟨o₂, ho₂, rfl⟩ := by simpa using hj
          obtain rfl : o = o₂ := Option.some.inj (ho.symm.trans ho₂)
          have hsame := hc.wrote o (List.mem_of_getElem? ho) hcount
          show envelopesOf o.stream.id c.sent ++ envelopesOf o.stream.id [⟨o.stream.id, env⟩] =
            if env.isReset then o.wrote else o.wrote ++ [env]
          cases hreset : env.isReset with
          | true =>
              rw [envelopesOf_single_reset hreset]
              simpa using hsame
          | false =>
              have := envelopesOf_single (f := ⟨o.stream.id, env⟩) hreset
              simp only [this, hsame]
              rfl
        · rw [if_neg hhj] at hj
          have hother : o.stream.id ≠ o'.stream.id := by
            intro heq
            have hu := Store.index_unique (p := (· == o'.stream.id)) hcount
              (i := h) (j := j) (x := o.stream.id) (y := o'.stream.id)
              (by simp [ids, ho]) (by simp [ids, hj]) (by simp [heq]) (by simp)
            exact hhj hu
          rw [envelopesOf_single_of_ne hother, List.append_nil]
          exact hc.wrote o' (List.mem_of_getElem? hj) hcount

end MuxConn

-- ============================================================================
-- What a step keeps
-- ============================================================================

variable {c c' : MuxConn}

/-- The only new stream is the one created. -/
theorem Wrote.opens (hw : Wrote c c') {o : StreamObject} (hobjs : c'.objs = c.objs ++ [o]) :
    Opens c c' o := by
  have hlen := congrArg List.length hobjs
  rw [List.length_append, List.length_singleton] at hlen
  cases hw with
  | nothing hsig _ =>
      have := congrArg List.length hsig
      rw [List.length_map, List.length_map] at this
      omega
  | created o₂ hobjs₂ _ _ hopens =>
      obtain rfl : o₂ = o := by simpa using hobjs₂.symm.trans hobjs
      exact hopens
  | reset _ _ _ hsame _ =>
      rw [hsame] at hlen
      omega
  | envelope _ _ _ _ hsame _ =>
      rw [hsame, List.length_modify] at hlen
      omega

/-- The IDs stay or get one more. -/
theorem Wrote.ids_cases (hw : Wrote c c') :
    c'.ids = c.ids ∨ ∃ o, c'.objs = c.objs ++ [o] ∧ c'.ids = c.ids ++ [o.stream.id] := by
  cases hw with
  | nothing hsig _ => exact Or.inl (MuxConn.ids_of_sig hsig)
  | created o hobjs _ _ _ =>
      refine Or.inr ⟨o, hobjs, ?_⟩
      rw [MuxConn.ids, hobjs, List.map_append]
      rfl
  | reset _ _ _ hobjs _ =>
      rw [MuxConn.ids, MuxConn.ids, hobjs]
      exact Or.inl rfl
  | envelope h _ env _ hobjs _ => exact Or.inl (MuxConn.ids_modify_write h env hobjs)

/-- The IDs only ever grow. -/
theorem Wrote.ids_grow (hw : Wrote c c') : c.ids <+: c'.ids := by
  rcases hw.ids_cases with hsame | ⟨o, -, hmore⟩
  · rw [hsame]
  · rw [hmore]
    exact List.prefix_append ..

/-- A stream after a step is a new one or was there before, with what it had
    written. -/
theorem Wrote.back (hw : Wrote c c') {o' : StreamObject} (ho' : o' ∈ c'.objs) :
    (∃ o ∈ c.objs, o.stream.id = o'.stream.id ∧ o.wrote <+: o'.wrote) ∨
      c'.objs = c.objs ++ [o'] ∧ Opens c c' o' := by
  cases hw with
  | nothing hsig _ =>
      have hmem : o'.sig ∈ c.objs.map (·.sig) := by
        rw [← hsig]
        exact List.mem_map_of_mem ho'
      obtain ⟨o, ho, hsame⟩ := List.mem_map.mp hmem
      obtain ⟨hid, hwrote⟩ := Prod.mk.inj hsame
      exact Or.inl ⟨o, ho, hid, hwrote ▸ List.prefix_rfl⟩
  | created o hobjs _ _ hopens =>
      rw [hobjs] at ho'
      rcases List.mem_append.mp ho' with hold | hlast
      · exact Or.inl ⟨o', hold, rfl, List.prefix_rfl⟩
      · obtain rfl : o' = o := by simpa using hlast
        exact Or.inr ⟨hobjs, hopens⟩
  | reset h o _ hobjs _ =>
      exact Or.inl ⟨o', hobjs ▸ ho', rfl, List.prefix_rfl⟩
  | envelope h o env _ hobjs _ =>
      obtain ⟨j, hj⟩ := List.getElem?_of_mem ho'
      rw [hobjs, Store.getElem?_modify] at hj
      by_cases hhj : h = j
      · rw [if_pos hhj] at hj
        obtain ⟨o₂, ho₂, rfl⟩ := hj
        refine Or.inl ⟨o₂, List.mem_of_getElem? ho₂, rfl, ?_⟩
        show o₂.wrote <+: if env.isReset then o₂.wrote else o₂.wrote ++ [env]
        split
        · exact List.prefix_rfl
        · exact List.prefix_append ..
      · rw [if_neg hhj] at hj
        exact Or.inl ⟨o', List.mem_of_getElem? hj, rfl, List.prefix_rfl⟩

/-- A stream before a step is there after it, with what it had written. -/
theorem Wrote.forth (hw : Wrote c c') {o : StreamObject} (ho : o ∈ c.objs) :
    ∃ o' ∈ c'.objs, o'.stream.id = o.stream.id ∧ o.wrote <+: o'.wrote := by
  cases hw with
  | nothing hsig _ =>
      have hmem : o.sig ∈ c'.objs.map (·.sig) := by
        rw [hsig]
        exact List.mem_map_of_mem ho
      obtain ⟨o', ho', hsame⟩ := List.mem_map.mp hmem
      obtain ⟨hid, hwrote⟩ := Prod.mk.inj hsame
      exact ⟨o', ho', hid, hwrote ▸ List.prefix_rfl⟩
  | created _ hobjs _ _ _ =>
      rw [hobjs]
      exact ⟨o, List.mem_append_left _ ho, rfl, List.prefix_rfl⟩
  | reset _ _ _ hobjs _ =>
      rw [hobjs]
      exact ⟨o, ho, rfl, List.prefix_rfl⟩
  | envelope h _ env _ hobjs _ =>
      obtain ⟨j, hj⟩ := List.getElem?_of_mem ho
      by_cases hhj : h = j
      · refine ⟨o.write env, List.mem_of_getElem? (i := j) ?_, rfl, ?_⟩
        · rw [hobjs, Store.getElem?_modify, if_pos hhj]
          exact ⟨o, hj, rfl⟩
        · show o.wrote <+: if env.isReset then o.wrote else o.wrote ++ [env]
          split
          · exact List.prefix_rfl
          · exact List.prefix_append ..
      · refine ⟨o, List.mem_of_getElem? (i := j) ?_, rfl, List.prefix_rfl⟩
        rw [hobjs, Store.getElem?_modify, if_neg hhj]
        exact hj

/-- The frames written only ever grow. -/
theorem Wrote.sent_grow (hw : Wrote c c') : c.sent <+: c'.sent := by
  cases hw with
  | nothing _ hsent =>
      rw [hsent]
  | created _ _ _ hsent _ =>
      rw [hsent]
  | reset _ _ _ _ hsent =>
      rw [hsent]
      exact List.prefix_append ..
  | envelope _ _ _ _ _ hsent =>
      rw [hsent]
      exact List.prefix_append ..

end ConnectWebSocket
end BidiWeb
