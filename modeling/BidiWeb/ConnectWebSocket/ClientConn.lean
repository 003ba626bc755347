/-
  BidiWeb.ConnectWebSocket.ClientConn

  A connection of the client transport on its own: what opens a stream on it,
  and when it has become of no use.

  The streams of a connection are numbered from one on, so for the first
  `2^32 - 1` of them an ID says which stream is meant; and `newStream` fails
  on a connection that is closed, or that has handed out that many.
-/

import BidiWeb.ConnectWebSocket.Registry
import BidiWeb.ConnectWebSocket.StreamIds

namespace BidiWeb
namespace ConnectWebSocket

open BidiWeb.Lib

theorem MuxStream.terminate_dedicated (s : MuxStream) (err : GoError) :
    (s.terminate err).dedicated = s.dedicated := by
  unfold terminate
  split <;> rfl

theorem MuxStream.receive_dedicated {s t : MuxStream} {env : Envelope}
    (h : s.receive = some (env, t)) : t.dedicated = s.dedicated := by
  unfold receive at h
  split at h
  · cases h
    rfl
  · cases h

namespace MuxConn

variable {c c' : MuxConn}

-- ============================================================================
-- What opens a stream
-- ============================================================================

/-- Which of the streams have the connection to themselves. -/
def flags (c : MuxConn) : List Bool := c.objs.map (·.stream.dedicated)

theorem length_of_flags (h : c'.flags = c.flags) : c'.objs.length = c.objs.length := by
  have hlength := congrArg List.length h
  rwa [flags, flags, List.length_map, List.length_map] at hlength

theorem flags_modify {h : Nat} {f : StreamObject → StreamObject}
    (hf : ∀ o, c.objs[h]? = some o → (f o).stream.dedicated = o.stream.dedicated) :
    (c.modify h f).flags = c.flags :=
  Store.map_modify_of_eq hf

/-- Only `newStream` changes the counter of a client, and only it opens a
    stream. -/
theorem quiet_step {ev : ConnEvent} (hstep : Stepped c ev c') (hrole : c.role = .client) :
    (∃ dedicated, ev = .newStream dedicated ∧ c' = c.newStream dedicated) ∨
      c'.nextID = c.nextID ∧ c'.flags = c.flags := by
  cases hstep with
  | newStream dedicated => exact .inl ⟨dedicated, rfl, rfl⟩
  | start f _ hserver =>
      rw [hrole] at hserver
      cases hserver
  | deliver h | cancel h | handlerReturn h =>
      exact .inr ⟨rfl, flags_modify fun _ _ => rfl⟩
  | taskWrite k h env =>
      exact .inr ⟨rfl, flags_modify (c := (c.setTask k []).writeFrame _) fun _ _ => rfl⟩
  | resetTerminate h =>
      exact .inr ⟨rfl, flags_modify fun o _ => o.stream.terminate_dedicated _⟩
  | taskTerminate k h t rest err =>
      refine .inr ⟨rfl, flags_modify (c := c.setTask k rest) fun o _ => ?_⟩
      exact o.stream.terminate_dedicated err
  | read h o env stream ho _ hreceive =>
      refine .inr ⟨rfl, flags_modify fun o' ho' => ?_⟩
      obtain rfl : o = o' := Option.some.inj (ho.symm.trans ho')
      exact MuxStream.receive_dedicated hreceive
  | _ => exact .inr ⟨rfl, rfl⟩

/-- What `newStream` does, by what it returns. -/
theorem opened_cases (c : MuxConn) (dedicated : Bool) :
    (∃ s, c.opened dedicated = .ok s ∧ s.dedicated = dedicated ∧
        (c.newStream dedicated).objs = c.objs ++ [{ stream := s }]) ∨
      ∃ err, c.opened dedicated = .error err ∧ (c.newStream dedicated).objs = c.objs ∧
        (c.closed = true ∨ ∀ id, id ≠ 0 → c.streams id ≠ none) := by
  by_cases hclosed : c.closed = true
  · refine .inr ⟨c.closeErr, by simp [opened, hclosed], ?_, .inl hclosed⟩
    simp [newStream, hclosed]
  · rcases newStream_outcome (Bool.eq_false_iff.mpr hclosed) dedicated with
      ⟨s, hok, hreg⟩ | ⟨hall, ⟨err, herr⟩, -, hobjs⟩
    · refine .inl ⟨s, hok, ?_, hreg.objs⟩
      unfold opened at hok
      rw [if_neg hclosed] at hok
      split at hok <;> cases hok
      rfl
    · exact .inr ⟨err, herr, hobjs, .inr hall⟩

-- ============================================================================
-- The map
-- ============================================================================

/-- A registered ID is that of its stream. -/
def Mapped (c : MuxConn) : Prop := ∀ id h, c.streams id = some h → c.idOf h = some id

theorem Mapped.of_streams (hc : c.Mapped) (hids : ∀ h, c'.idOf h = c.idOf h)
    (hstreams : ∀ id h, c'.streams id = some h → c.streams id = some h) : c'.Mapped :=
  fun id h hs => (hids h).trans (hc id h (hstreams id h hs))

theorem Mapped.step (hc : c.Mapped) {ev : ConnEvent} (hstep : Stepped c ev c')
    (hrole : c.role = .client) : c'.Mapped := by
  have hsame : ∀ id h, c.streams id = some h → c.streams id = some h := fun _ _ h => h
  have hsubset : ∀ {id : UInt32}, ∀ j h, (c.deregister id).streams j = some h →
      c.streams j = some h := fun _ _ h => (deregister_streams.mp h).2
  cases hstep with
  | start f _ hserver =>
      rw [hrole] at hserver
      cases hserver
  | newStream dedicated =>
      rcases c.newStream_cases dedicated with ⟨next, hnone⟩ | ⟨-, id, -, hinsert⟩
      · rw [hnone]
        exact hc
      · rw [hinsert]
        intro j h hs
        rcases insert_streams.mp hs with ⟨rfl, rfl⟩ | ⟨-, hold⟩
        · exact idOf_eq_some.mpr ⟨_, Store.getElem?_concat.mpr (.inr ⟨rfl, rfl⟩), rfl⟩
        · exact idOf_insert (c := { c with nextID := id }) (hc j h hold)
  | recvFails | shutdown => exact nofun
  | reset | close | taskDeregister => exact hc.of_streams (fun _ => rfl) hsubset
  | deliver h | cancel h | handlerReturn h =>
      refine hc.of_streams (fun j => idOf_modify (c := c) ?_ j) hsame
      exact fun _ => rfl
  | taskWrite k h env o =>
      refine hc.of_streams (fun j => idOf_modify (c := c) ?_ j) hsame
      exact fun _ => rfl
  | resetTerminate h | taskTerminate k h =>
      exact hc.of_streams (fun j => idOf_modify (c := c) (fun o => o.stream.terminate_id _) j) hsame
  | read h o env stream ho _ hreceive => exact hc.of_streams (idOf_read ho hreceive) hsame
  | _ => exact hc.of_streams (fun _ => rfl) hsame

-- ============================================================================
-- Numbers
-- ============================================================================

/-- The `n`-th stream has the ID `n + 1`. -/
structure Numbered (c : MuxConn) : Prop where
  next : c.objs.length < 2 ^ 32 - 1 → c.nextID.toNat = c.objs.length
  ids : ∀ (h : Nat) (id : UInt32), c.ids[h]? = some id → id.toNat = h + 1

theorem Numbered.nodup (hc : c.Numbered) : c.ids.Nodup := by
  refine List.nodup_iff_getElem?_ne_getElem?.mpr fun i j hij hj heq => ?_
  have hi := hc.ids i _ (List.getElem?_eq_getElem (Nat.lt_trans hij hj))
  have hj := hc.ids j _ (List.getElem?_eq_getElem hj)
  rw [List.getElem?_eq_getElem (Nat.lt_trans hij ‹_›), List.getElem?_eq_getElem ‹_›,
    Option.some.injEq] at heq
  rw [heq] at hi
  omega

theorem length_ids : c.ids.length = c.objs.length := List.length_map ..

/-- The ID after the last one is free. -/
theorem newStream_next (hopen : ¬ c.closed = true) {dedicated : Bool}
    (hfree : (c.streams (nextAfter c.nextID)).isSome = false) :
    c.newStream dedicated = { c with nextID := nextAfter c.nextID }.insert
      { stream := { id := nextAfter c.nextID, dedicated } } := by
  have hprobe : probe (fun id => (c.streams id).isSome) (0xFFFFFFFE + 1) c.nextID =
      (nextAfter c.nextID, true) := by
    show (if (c.streams (nextAfter c.nextID)).isSome then _ else (nextAfter c.nextID, true)) = _
    rw [hfree]
    rfl
  have hmax : maxUint32 = 0xFFFFFFFE + 1 := rfl
  rw [newStream, if_neg hopen, hmax, hprobe]

theorem Numbered.newStream (hc : c.Numbered)
    (hmapped : c.Mapped) (dedicated : Bool)
    (hlt : (c.newStream dedicated).objs.length < 2 ^ 32) : (c.newStream dedicated).Numbered := by
  by_cases hclosed : c.closed = true
  · rw [MuxConn.newStream, if_pos hclosed]
    exact hc
  · by_cases hroom : c.objs.length < 2 ^ 32 - 1
    · have hnext := hc.next hroom
      have hid : (nextAfter c.nextID).toNat = c.objs.length + 1 := by
        rw [toNat_nextAfter, hnext]
        omega
      have hfree : (c.streams (nextAfter c.nextID)).isSome = false := by
        rw [Option.isSome_eq_false_iff, Option.isNone_iff_eq_none]
        refine Option.eq_none_iff_forall_ne_some.mpr fun h hs => ?_
        obtain ⟨o, ho, hsame⟩ := idOf_eq_some.mp (hmapped _ h hs)
        have hlast : o.stream.id.toNat = h + 1 :=
          hc.ids h _ (by rw [MuxConn.ids, List.getElem?_map, ho]; rfl)
        have := (List.getElem?_eq_some_iff.mp ho).1
        rw [hsame, hid] at hlast
        omega
      rw [newStream_next hclosed hfree]
      refine ⟨fun _ => ?_, fun h id hget => ?_⟩
      · show (nextAfter c.nextID).toNat = (c.objs ++ [_]).length
        rw [hid, List.length_append, List.length_singleton]
      · have hids : c.ids ++ [nextAfter c.nextID] = (({ c with nextID := nextAfter c.nextID }.insert
            { stream := { id := nextAfter c.nextID, dedicated } }).ids) := by
          simp [MuxConn.ids, insert]
        rw [← hids] at hget
        rcases Store.getElem?_concat.mp hget with hold | ⟨rfl, rfl⟩
        · exact hc.ids h id hold
        · rw [length_ids, hid]
    · rcases c.newStream_cases dedicated with ⟨next, hnone⟩ | ⟨-, id, -, hinsert⟩
      · rw [hnone]
        exact ⟨fun h => absurd h hroom, hc.ids⟩
      · rw [hinsert] at hlt
        have : (c.objs ++ [_]).length < 2 ^ 32 := hlt
        rw [List.length_append, List.length_singleton] at this
        omega

theorem Numbered.step (hc : c.Numbered) (hrole : c.role = .client) (hmapped : c.Mapped)
    {ev : ConnEvent} (hstep : c.step ev = some c') (hlt : c'.objs.length < 2 ^ 32) :
    c'.Numbered := by
  rcases quiet_step (stepped hstep) hrole with ⟨dedicated, -, rfl⟩ | ⟨hnext, hflags⟩
  · exact hc.newStream hmapped dedicated hlt
  · have hids : c'.ids = c.ids := by
      rcases (wrote_step hstep).ids_cases with hsame | ⟨o, hobjs, -⟩
      · exact hsame
      · have hlength := length_of_flags hflags
        rw [hobjs, List.length_append, List.length_singleton] at hlength
        omega
    refine ⟨?_, ?_⟩
    · rw [hnext, length_of_flags hflags]
      exact hc.next
    · rw [hids]
      exact hc.ids

-- ============================================================================
-- Closed, or out of IDs
-- ============================================================================

/-- The connection has closed, or has handed out as many streams as there are
    IDs, those closed since included. -/
def Spent (c : MuxConn) : Prop := c.closed = true ∨ 2 ^ 32 - 1 ≤ c.objs.length

/-- As many streams as there are IDs. -/
theorem Mapped.length_of_full (hc : c.Mapped) (hfull : ∀ id, id ≠ 0 → c.streams id ≠ none) :
    2 ^ 32 - 1 ≤ c.objs.length := by
  have hall : ¬ c.liveIds.ncard < 2 ^ 32 - 1 := fun hlt => by
    obtain ⟨id, hne, hnone⟩ := ncard_liveIds_lt_iff.mp hlt
    exact hfull id hne hnone
  have hmaps : Set.MapsTo (fun id => (c.streams id).getD 0) c.liveIds
      (Finset.range c.objs.length : Set Nat) := by
    rintro id ⟨-, hlive⟩
    obtain ⟨h, hs⟩ := Option.ne_none_iff_exists'.mp hlive
    obtain ⟨o, ho, -⟩ := idOf_eq_some.mp (hc id h hs)
    have hlt := (List.getElem?_eq_some_iff.mp ho).1
    simpa [hs] using hlt
  have hinj : Set.InjOn (fun id => (c.streams id).getD 0) c.liveIds := by
    rintro id ⟨-, hlive⟩ id' ⟨-, hlive'⟩ heq
    obtain ⟨h, hs⟩ := Option.ne_none_iff_exists'.mp hlive
    obtain ⟨h', hs'⟩ := Option.ne_none_iff_exists'.mp hlive'
    obtain rfl : h = h' := by simpa [hs, hs'] using heq
    exact Option.some.inj ((hc id h hs).symm.trans (hc id' h hs'))
  have hle := Set.ncard_le_ncard_of_injOn _ hmaps hinj (Finset.finite_toSet _)
  rw [Set.ncard_coe_finset, Finset.card_range] at hle
  omega

theorem Mapped.spent (hc : c.Mapped) {dedicated : Bool} {err : Option GoError}
    (herr : c.opened dedicated = .error err) : c.Spent := by
  rcases c.opened_cases dedicated with ⟨s, hok, -⟩ | ⟨err', -, -, hclosed | hfull⟩
  · rw [hok] at herr
    cases herr
  · exact .inl hclosed
  · exact .inr (hc.length_of_full hfull)

theorem Spent.step (hc : c.Spent) {ev : ConnEvent} (hstep : c.step ev = some c') : c'.Spent := by
  rcases hc with hclosed | hfull
  · exact .inl ((StaysClosed.step (stepped hstep)).closed hclosed)
  · refine .inr (Nat.le_trans hfull ?_)
    rw [← length_ids, ← length_ids]
    exact (wrote_step hstep).ids_grow.length_le

end MuxConn
end ConnectWebSocket
end BidiWeb
