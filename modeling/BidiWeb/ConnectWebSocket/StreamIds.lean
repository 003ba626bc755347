/-
  BidiWeb.ConnectWebSocket.StreamIds

  The IDs that `muxConn.newStream` hands out.

  From any counter value the loop goes round all IDs but zero, each once: the
  `k`-th one after `x` is `(x + k - 1) mod (2^32 - 1) + 1`.
-/

import BidiWeb.ConnectWebSocket.MuxConn
import Mathlib.Data.List.Iterate
import Mathlib.Data.Set.Card

namespace BidiWeb
namespace ConnectWebSocket

-- ============================================================================
-- Going round the IDs
-- ============================================================================

/-- `mc.nextID++`, skipping zero. -/
def nextAfter (id : UInt32) : UInt32 := if id + 1 = 0 then 1 else id + 1

/-- The first `n` IDs after `nextID`. -/
def idsAfter (n : Nat) (nextID : UInt32) : List UInt32 :=
  List.iterate nextAfter (nextAfter nextID) n

theorem toNat_nextAfter (id : UInt32) : (nextAfter id).toNat = id.toNat % 0xFFFFFFFF + 1 := by
  have hlt : id.toNat < 4294967296 := id.toNat_lt
  have hsucc : (id + 1).toNat = (id.toNat + 1) % 4294967296 := UInt32.toNat_add id 1
  unfold nextAfter
  by_cases hzero : id + 1 = 0
  · rw [if_pos hzero]
    rw [hzero] at hsucc
    have hone : (1 : UInt32).toNat = 1 := rfl
    have hzero' : (0 : UInt32).toNat = 0 := rfl
    omega
  · rw [if_neg hzero]
    have hne : (id + 1).toNat ≠ 0 := fun h => hzero (UInt32.toNat_inj.mp h)
    omega

/-- Induction on the steps, in numbers modulo `2^32 - 1`. -/
theorem toNat_iterate_nextAfter (id : UInt32) (k : Nat) :
    (nextAfter^[k] (nextAfter id)).toNat = (id.toNat + k) % 0xFFFFFFFF + 1 := by
  induction k with
  | zero => exact toNat_nextAfter id
  | succ k ih =>
      rw [Function.iterate_succ_apply', toNat_nextAfter, ih]
      omega

theorem nodup_idsAfter (nextID : UInt32) : (idsAfter maxUint32 nextID).Nodup := by
  unfold idsAfter
  rw [← List.range_map_iterate]
  apply List.Nodup.map_on _ List.nodup_range
  intro i hi j hj heq
  have hi' : i < 0xFFFFFFFF := List.mem_range.mp hi
  have hj' : j < 0xFFFFFFFF := List.mem_range.mp hj
  have hnat : (nextID.toNat + i) % 0xFFFFFFFF + 1 = (nextID.toNat + j) % 0xFFFFFFFF + 1 := by
    rw [← toNat_iterate_nextAfter, ← toNat_iterate_nextAfter, heq]
  omega

/-- No ID but zero is left out. -/
theorem mem_idsAfter {nextID id : UInt32} : id ∈ idsAfter maxUint32 nextID ↔ id ≠ 0 := by
  have hlt : id.toNat < 4294967296 := id.toNat_lt
  unfold idsAfter
  rw [List.mem_iterate]
  constructor
  · rintro ⟨k, -, rfl⟩ hzero
    have hnat : (nextAfter^[k] (nextAfter nextID)).toNat = 0 := congrArg UInt32.toNat hzero
    rw [toNat_iterate_nextAfter] at hnat
    omega
  · intro hne
    have hpos : id.toNat ≠ 0 := fun h => hne (UInt32.toNat_inj.mp h)
    refine ⟨(id.toNat - 1 + (0xFFFFFFFF - nextID.toNat % 0xFFFFFFFF)) % 0xFFFFFFFF,
      Nat.mod_lt _ (by decide), UInt32.toNat_inj.mp ?_⟩
    rw [toNat_iterate_nextAfter]
    omega

-- ============================================================================
-- The loop
-- ============================================================================

/-- The IDs that the loop of `newStream` looks up, in order. -/
def lookups (taken : UInt32 → Bool) : Nat → UInt32 → List UInt32
  | 0, _ => []
  | n + 1, nextID =>
      nextAfter nextID ::
        if taken (nextAfter nextID) then lookups taken n (nextAfter nextID) else []

/-- The loop stops at the first free ID, or has looked all of them up. -/
theorem probe_cases (taken : UInt32 → Bool) (n : Nat) (nextID : UInt32) :
    (∃ before id after, idsAfter n nextID = before ++ id :: after ∧ taken id = false ∧
        probe taken n nextID = (id, true) ∧ lookups taken n nextID = before ++ [id]) ∨
      (∀ id ∈ idsAfter n nextID, taken id = true) ∧ (probe taken n nextID).2 = false ∧
        lookups taken n nextID = idsAfter n nextID := by
  induction n generalizing nextID with
  | zero => exact .inr ⟨nofun, rfl, rfl⟩
  | succ n ih =>
      have hids : idsAfter (n + 1) nextID = nextAfter nextID :: idsAfter n (nextAfter nextID) := rfl
      have hprobe : probe taken (n + 1) nextID =
          if taken (nextAfter nextID) then probe taken n (nextAfter nextID)
          else (nextAfter nextID, true) := rfl
      rw [hids, hprobe]
      unfold lookups
      by_cases htaken : taken (nextAfter nextID) = true
      · rw [if_pos htaken, if_pos htaken]
        rcases ih (nextAfter nextID) with ⟨before, id, after, hsplit, hfree, hfound, hlooked⟩ |
          ⟨hall, hnone, hlooked⟩
        · refine .inl ⟨nextAfter nextID :: before, id, after, ?_, hfree, hfound, ?_⟩
          · rw [hsplit, List.cons_append]
          · rw [hlooked, List.cons_append]
        · refine .inr ⟨?_, hnone, congrArg _ hlooked⟩
          intro id hid
          rcases List.mem_cons.mp hid with rfl | hid
          · exact htaken
          · exact hall id hid
      · rw [if_neg htaken, if_neg htaken]
        exact .inl ⟨[], nextAfter nextID, _, rfl, Bool.eq_false_iff.mpr htaken, rfl, rfl⟩

/-- No ID is looked up twice. -/
theorem lookups_sublist (taken : UInt32 → Bool) (n : Nat) (nextID : UInt32) :
    (lookups taken n nextID).Sublist (idsAfter n nextID) := by
  rcases probe_cases taken n nextID with ⟨before, id, after, hids, -, -, hlooked⟩ | ⟨-, -, hlooked⟩
  · have hsplit : idsAfter n nextID = before ++ [id] ++ after := hids.trans (List.append_cons ..)
    rw [hlooked, hsplit]
    exact List.sublist_append_left _ _
  · rw [hlooked]

theorem length_lookups_le (taken : UInt32 → Bool) (nextID : UInt32) :
    (lookups taken maxUint32 nextID).length ≤ 2 ^ 32 - 1 := by
  apply (lookups_sublist taken maxUint32 nextID).length_le.trans
  rw [idsAfter, List.length_iterate]
  decide

theorem nodup_lookups (taken : UInt32 → Bool) (nextID : UInt32) :
    (lookups taken maxUint32 nextID).Nodup :=
  (nodup_idsAfter nextID).sublist (lookups_sublist taken maxUint32 nextID)

-- ============================================================================
-- newStream
-- ============================================================================

namespace MuxConn

variable (c : MuxConn)

/-- What `newStream` returns. -/
def opened (dedicated : Bool) : Except (Option GoError) MuxStream :=
  if c.closed then .error c.closeErr
  else
    match probe (fun id => (c.streams id).isSome) maxUint32 c.nextID with
    | (id, true) => .ok { id, dedicated }
    | (_, false) => .error (some (.text "stream ID space exhausted"))

/-- The IDs of live streams; no stream has ID zero. -/
def liveIds : Set UInt32 := {id | id ≠ 0 ∧ c.streams id ≠ none}

/-- `stream` is new, and the only change to `streams`. -/
structure Registers (dedicated : Bool) (stream : MuxStream) : Prop where
  id_ne_zero : stream.id ≠ 0
  fresh : c.streams stream.id = none
  streams : (c.newStream dedicated).streams =
    Function.update c.streams stream.id (some c.objs.length)
  objs : (c.newStream dedicated).objs = c.objs ++ [{ stream := stream }]

variable {c}

/-- The nonzero IDs are those that the loop goes round. -/
theorem ncard_liveIds_lt_iff :
    c.liveIds.ncard < 2 ^ 32 - 1 ↔ ∃ id, id ≠ 0 ∧ c.streams id = none := by
  have hids : ({id | id ≠ 0} : Set UInt32) = ↑(idsAfter maxUint32 0).toFinset := by
    ext id
    rw [List.coe_toFinset]
    exact mem_idsAfter.symm
  have hfinite : ({id | id ≠ 0} : Set UInt32).Finite := hids ▸ Finset.finite_toSet _
  have hall : ({id | id ≠ 0} : Set UInt32).ncard = 2 ^ 32 - 1 := by
    rw [hids, Set.ncard_coe_finset, List.toFinset_card_of_nodup (nodup_idsAfter 0), idsAfter,
      List.length_iterate]
    rfl
  have hsub : c.liveIds ⊆ {id | id ≠ 0} := fun id hid => hid.1
  rw [← hall]
  constructor
  · intro hlt
    obtain ⟨id, hid, hnot⟩ := Set.exists_mem_notMem_of_ncard_lt_ncard hlt (hfinite.subset hsub)
    refine ⟨id, hid, ?_⟩
    by_contra hlive
    exact hnot ⟨hid, hlive⟩
  · rintro ⟨id, hid, hfree⟩
    apply Set.ncard_lt_ncard _ hfinite
    exact (Set.ssubset_iff_of_subset hsub).mpr ⟨id, hid, fun hlive => hlive.2 hfree⟩

/-- On an open connection either a free ID is found and registered, or there
    is none. -/
theorem newStream_outcome (hopen : c.closed = false) (dedicated : Bool) :
    (∃ stream, c.opened dedicated = .ok stream ∧ c.Registers dedicated stream) ∨
      (∀ id, id ≠ 0 → c.streams id ≠ none) ∧
        (∃ err, c.opened dedicated = .error err) ∧
        (c.newStream dedicated).streams = c.streams ∧ (c.newStream dedicated).objs = c.objs := by
  have hnot : ¬ c.closed = true := Bool.eq_false_iff.mp hopen
  unfold opened
  rw [if_neg hnot]
  rcases probe_cases (fun id => (c.streams id).isSome) maxUint32 c.nextID with
    ⟨before, id, after, hids, hfree, hprobe, -⟩ | ⟨hall, hprobe, -⟩
  · have hnew : c.newStream dedicated =
        { c with nextID := id }.insert { stream := { id, dedicated } } := by
      unfold newStream
      rw [if_neg hnot, hprobe]
    have hid : id ∈ idsAfter maxUint32 c.nextID := by
      rw [hids]
      exact List.mem_append_right _ List.mem_cons_self
    rw [hprobe]
    refine .inl ⟨{ id, dedicated }, rfl, mem_idsAfter.mp hid, ?_, ?_, ?_⟩
    · exact Option.not_isSome_iff_eq_none.mp (Bool.eq_false_iff.mp hfree)
    · rw [hnew]
      rfl
    · rw [hnew, insert]
  · obtain ⟨last, hlast⟩ : ∃ last,
        probe (fun id => (c.streams id).isSome) maxUint32 c.nextID = (last, false) :=
      ⟨_, Prod.ext rfl hprobe⟩
    have hnew : c.newStream dedicated = { c with nextID := last } := by
      unfold newStream
      rw [if_neg hnot, hlast]
    rw [hlast, hnew]
    refine .inr ⟨fun id hid => ?_, ⟨_, rfl⟩, rfl, rfl⟩
    exact Option.isSome_iff_ne_none.mp (hall id (mem_idsAfter.mpr hid))

end MuxConn

-- ============================================================================
-- Sequences of calls
-- ============================================================================

/-- A call of `newStream` or `deregister`. -/
inductive StreamCall where
  | newStream (dedicated : Bool)
  | deregister (streamID : UInt32)

/-- A connection, and the streams that `newStream` has returned and that have
    not been deregistered. -/
structure Opened where
  conn : MuxConn
  live : List MuxStream := []

namespace Opened

def call (a : Opened) : StreamCall → Opened
  | .newStream dedicated =>
      { conn := a.conn.newStream dedicated
        live :=
          match a.conn.opened dedicated with
          | .ok stream => a.live ++ [stream]
          | .error _ => a.live }
  | .deregister streamID =>
      { conn := a.conn.deregister streamID
        live := a.live.filter (·.id ≠ streamID) }

theorem call_of_opened {a : Opened} {dedicated : Bool} {stream : MuxStream}
    (h : a.conn.opened dedicated = .ok stream) :
    a.call (.newStream dedicated) = ⟨a.conn.newStream dedicated, a.live ++ [stream]⟩ := by
  simp only [call, h]

theorem call_of_failed {a : Opened} {dedicated : Bool} {err : Option GoError}
    (h : a.conn.opened dedicated = .error err) :
    a.call (.newStream dedicated) = ⟨a.conn.newStream dedicated, a.live⟩ := by
  simp only [call, h]

/-- The live streams are those registered, each under an ID of its own. -/
structure Distinct (a : Opened) : Prop where
  nodup : (a.live.map (·.id)).Nodup
  nonzero : ∀ stream ∈ a.live, stream.id ≠ 0
  registered : ∀ id, (∃ stream ∈ a.live, stream.id = id) ↔ a.conn.streams id ≠ none

theorem Distinct.newStream {a : Opened} (ha : a.Distinct) (dedicated : Bool) :
    (a.call (.newStream dedicated)).Distinct := by
  have hfailed : ∀ err, a.conn.opened dedicated = .error err →
      (a.conn.newStream dedicated).streams = a.conn.streams →
      (a.call (.newStream dedicated)).Distinct := by
    intro err herr hsame
    rw [call_of_failed herr]
    refine ⟨ha.nodup, ha.nonzero, fun id => ?_⟩
    rw [hsame]
    exact ha.registered id
  by_cases hclosed : a.conn.closed = true
  · exact hfailed _ (if_pos hclosed) (congrArg MuxConn.streams (if_pos hclosed))
  · rcases MuxConn.newStream_outcome (Bool.eq_false_iff.mpr hclosed) dedicated with
      ⟨stream, hstream, hreg⟩ | ⟨-, ⟨err, herr⟩, hsame, -⟩
    · have hnew : ∀ other ∈ a.live, other.id ≠ stream.id := fun other hother heq =>
        (ha.registered stream.id).mp ⟨other, hother, heq⟩ hreg.fresh
      rw [call_of_opened hstream]
      refine ⟨?_, ?_, ?_⟩
      · show ((a.live ++ [stream]).map (·.id)).Nodup
        rw [List.map_append, List.map_singleton]
        apply ha.nodup.append (List.nodup_singleton _)
        intro id hid hlast
        obtain ⟨other, hother, rfl⟩ := List.mem_map.mp hid
        exact hnew other hother (List.mem_singleton.mp hlast)
      · intro other hother
        rcases List.mem_append.mp hother with hold | hlast
        · exact ha.nonzero other hold
        · exact List.mem_singleton.mp hlast ▸ hreg.id_ne_zero
      · intro id
        show (∃ other ∈ a.live ++ [stream], other.id = id) ↔
          (a.conn.newStream dedicated).streams id ≠ none
        rw [hreg.streams]
        by_cases hid : id = stream.id
        · subst hid
          rw [Function.update_self]
          exact ⟨fun _ => nofun,
            fun _ => ⟨stream, List.mem_append_right _ (List.mem_singleton_self _), rfl⟩⟩
        · rw [Function.update_of_ne hid, ← ha.registered id]
          constructor
          · rintro ⟨other, hother, rfl⟩
            rcases List.mem_append.mp hother with hold | hlast
            · exact ⟨other, hold, rfl⟩
            · exact absurd (congrArg MuxStream.id (List.mem_singleton.mp hlast)) hid
          · rintro ⟨other, hother, rfl⟩
            exact ⟨other, List.mem_append_left _ hother, rfl⟩
    · exact hfailed err herr hsame

theorem Distinct.deregister {a : Opened} (ha : a.Distinct) (streamID : UInt32) :
    (a.call (.deregister streamID)).Distinct := by
  have hmem : ∀ stream, stream ∈ a.live.filter (·.id ≠ streamID) ↔
      stream ∈ a.live ∧ stream.id ≠ streamID := by
    intro stream
    rw [List.mem_filter, decide_eq_true_iff]
  refine ⟨ha.nodup.sublist (List.filter_sublist.map _),
    fun stream hstream => ha.nonzero stream ((hmem stream).mp hstream).1, fun id => ?_⟩
  show (∃ stream ∈ a.live.filter (·.id ≠ streamID), stream.id = id) ↔
    Function.update a.conn.streams streamID none id ≠ none
  by_cases hid : id = streamID
  · subst hid
    rw [Function.update_self]
    constructor
    · rintro ⟨stream, hstream, hsame⟩
      exact absurd hsame ((hmem stream).mp hstream).2
    · exact fun hne => absurd rfl hne
  · rw [Function.update_of_ne hid, ← ha.registered id]
    constructor
    · rintro ⟨stream, hstream, hsame⟩
      exact ⟨stream, ((hmem stream).mp hstream).1, hsame⟩
    · rintro ⟨stream, hstream, rfl⟩
      exact ⟨stream, (hmem stream).mpr ⟨hstream, hid⟩, rfl⟩

/-- Induction on the calls, whichever way the counter wraps. -/
theorem Distinct.calls {a : Opened} (ha : a.Distinct) (calls : List StreamCall) :
    (calls.foldl call a).Distinct := by
  induction calls generalizing a with
  | nil => exact ha
  | cons c calls ih =>
      apply ih
      cases c with
      | newStream dedicated => exact ha.newStream dedicated
      | deregister streamID => exact ha.deregister streamID

end Opened

/-- On an open connection `newStream` looks up each nonzero ID at most once and
    succeeds if and only if one of them is free.  Over any calls, from any
    counter value, live streams have distinct IDs. -/
theorem newStream_allocates (c : MuxConn) (dedicated : Bool) (hopen : c.closed = false) :
    ((lookups (fun id => (c.streams id).isSome) maxUint32 c.nextID).length ≤ 2 ^ 32 - 1 ∧
      (lookups (fun id => (c.streams id).isSome) maxUint32 c.nextID).Nodup) ∧
    ((∃ stream, c.opened dedicated = .ok stream) ↔ c.liveIds.ncard < 2 ^ 32 - 1) ∧
    (∀ stream, c.opened dedicated = .ok stream → c.Registers dedicated stream) ∧
    (∀ err, c.opened dedicated = .error err →
      (c.newStream dedicated).streams = c.streams ∧ (c.newStream dedicated).objs = c.objs) ∧
    ∀ (role : Role) (nextID : UInt32) (calls : List StreamCall),
      (calls.foldl Opened.call { conn := { role, nextID } }).Distinct := by
  refine ⟨⟨length_lookups_le _ _, nodup_lookups _ _⟩, ?_, ?_, ?_, fun role nextID calls => ?_⟩
  · rw [MuxConn.ncard_liveIds_lt_iff]
    rcases MuxConn.newStream_outcome hopen dedicated with
      ⟨stream, hstream, hreg⟩ | ⟨hall, ⟨err, herr⟩, -⟩
    · exact ⟨fun _ => ⟨stream.id, hreg.id_ne_zero, hreg.fresh⟩, fun _ => ⟨stream, hstream⟩⟩
    · constructor
      · rintro ⟨stream, hstream⟩
        cases herr.symm.trans hstream
      · rintro ⟨id, hid, hfree⟩
        exact absurd hfree (hall id hid)
  · intro stream hstream
    rcases MuxConn.newStream_outcome hopen dedicated with
      ⟨other, hother, hreg⟩ | ⟨-, ⟨err, herr⟩, -⟩
    · cases hother.symm.trans hstream
      exact hreg
    · cases herr.symm.trans hstream
  · intro err herr
    rcases MuxConn.newStream_outcome hopen dedicated with ⟨other, hother, -⟩ | ⟨-, -, hsame⟩
    · cases hother.symm.trans herr
    · exact hsame
  · apply Opened.Distinct.calls
    refine ⟨List.nodup_nil, nofun, fun id => ?_⟩
    exact ⟨fun ⟨_, hstream, _⟩ => (List.not_mem_nil hstream).elim, fun hne => absurd rfl hne⟩

/-- A counter about to wrap, and a stream that still has ID 1. -/
def wrapping : MuxConn where
  role := .client
  streams := Function.update (fun _ => none) 1 (some 0)
  nextID := 0xFFFFFFFF
  objs := [{ stream := { id := 1 } }]

theorem newStream_wraps :
    wrapping.Registers false { id := 2 } ∧ wrapping.liveIds.ncard < 2 ^ 32 - 1 := by
  obtain ⟨-, hsucceeds, hregisters, -⟩ := newStream_allocates wrapping false rfl
  have hopened : wrapping.opened false = .ok { id := 2 } := by
    decide +kernel
  exact ⟨hregisters _ hopened, hsucceeds.mp ⟨_, hopened⟩⟩

end ConnectWebSocket
end BidiWeb
