/-
  BidiWeb.Core.MuxedStreams

  What a step of `handleMuxedBidiSocket` can do, said once, and the invariant
  that every result about the connection starts from: an entry of `streams`
  is that of an RPC started under the ID, and it takes envelopes unless the
  cancelled reader of its bridge has closed it.
-/

import BidiWeb.Core.HandleMuxedBidiSocket

namespace BidiWeb
namespace Core

open BidiWeb.Lib

/-- The request readable takes envelopes while the bridge serves, and behind
    that unless the cancelled reader closes it. -/
def Rpc.Steady (setup : MuxedSetup) (r : Rpc) : Prop :=
  r.readable.canCloseOrEnqueue = (decide (r.phase = .serving) || !setup.cancelsSource)

theorem Rpc.Steady.open {setup : MuxedSetup} {r : Rpc} (h : r.Steady setup)
    (hserving : r.phase = .serving) : r.readable.canCloseOrEnqueue = true := by
  rw [h, hserving]
  rfl

namespace MuxedSocket

-- ============================================================================
-- What a step can do
-- ============================================================================

/-- The steps, each with what has let it happen. -/
inductive Stepped (setup : MuxedSetup) (c : MuxedSocket) : MuxedEvent → MuxedSocket → Prop where
  | malformed (message : Bytes) (err : JsError) : c.ended = none →
      decodeStreamFrame message = .error err →
      Stepped setup c (.receive message) (c.endLoop (.malformed err))
  | start (message : Bytes) (f : StreamFrame) : c.ended = none →
      decodeStreamFrame message = .ok f → c.streams f.streamId = none →
      f.flag = flagEnvelopeHeaders →
      Stepped setup c (.receive message) (c.startStream f.streamId f.envelope)
  /-- A late frame for a finished stream. -/
  | late (message : Bytes) (f : StreamFrame) : c.ended = none →
      decodeStreamFrame message = .ok f → c.streams f.streamId = none →
      f.flag ≠ flagEnvelopeHeaders → Stepped setup c (.receive message) c
  | reset (message : Bytes) (f : StreamFrame) (h : Nat) : c.ended = none →
      decodeStreamFrame message = .ok f → c.streams f.streamId = some h →
      f.flag = flagEnvelopeReset →
      Stepped setup c (.receive message) ((c.delete f.streamId).modifyRpc h (·.kill resetReason))
  | enqueue (message : Bytes) (f : StreamFrame) (h : Nat) : c.ended = none →
      decodeStreamFrame message = .ok f → c.streams f.streamId = some h →
      f.flag ≠ flagEnvelopeReset → Stepped setup c (.receive message) (c.enqueue h f.envelope)
  | endLoop (ev : MuxedEvent) (cause : LoopEnd) : ev = .readFailed ∨ ev = .readDone →
      (∀ err, cause ≠ .threw err) → c.ended = none → Stepped setup c ev (c.endLoop cause)
  | idle : c.ended = none →
      Stepped setup c .idleTimeout
        ({ c with closeCalls := c.closeCalls ++ [(some 1000, some "idle timeout")] }.endLoop .idle)
  | abortSignal (reason : JsError) :
      Stepped setup c (.abortSignal reason) { c.teardown reason with signalAborted := true }
  | read (h : Nat) (r : Rpc) : c.rpcs[h]? = some r → r.phase = .serving →
      Stepped setup c (.rpcRead h) (c.modifyRpc h fun r => { r with readable := r.readable.read })
  | writeRefused (h : Nat) (chunk : Bytes) (r : Rpc) : c.rpcs[h]? = some r → r.phase = .serving →
      r.reset = true → Stepped setup c (.rpcWrite h chunk) c
  | write (h : Nat) (chunk : Bytes) (r : Rpc) : c.rpcs[h]? = some r → r.phase = .serving →
      r.reset = false →
      Stepped setup c (.rpcWrite h chunk)
        { c with sent := c.sent ++ [encodeStreamFrame r.streamId chunk] }
  | finishRpc (h : Nat) (r : Rpc) : c.rpcs[h]? = some r → r.phase = .serving →
      Stepped setup c (.rpcFinish h) (c.modifyRpc h (·.cancelReader setup))
  | readerCancelled (h : Nat) (r : Rpc) : c.rpcs[h]? = some r → r.phase = .cancellingReader →
      Stepped setup c (.rpcReaderCancelled h)
        (c.modifyRpc h fun r => { r with phase := .closingWriter })
  /-- The close callback of RPC `h`, and the `finally` of `startStream`. -/
  | release (ev : MuxedEvent) (h : Nat) (r : Rpc) (after : RpcPhase) : c.rpcs[h]? = some r →
      ev = .rpcWriterClosed h ∧ r.phase = .closingWriter ∨
        ev = .rpcSettled h ∧ r.phase = .released →
      after = (if r.phase = .released then .settled else .released) →
      Stepped setup c ev ((c.delete r.streamId).modifyRpc h fun r => { r with phase := after })
  | finish : c.ended.isSome = true →
      Stepped setup c .finish
        { c with finished := true, closeCalls := c.closeCalls ++ [(none, none)] }

variable {c c' : MuxedSocket} {setup : MuxedSetup}

theorem advance_eq_some {h : Nat} {before : RpcPhase} {f : Rpc → MuxedSocket}
    (hstep : c.advance h before f = some c') :
    ∃ r, c.rpcs[h]? = some r ∧ r.phase = before ∧ f r = c' := by
  unfold advance at hstep
  split at hstep
  · rename_i r hr
    obtain ⟨hphase, hstep⟩ := Option.ite_none_right_eq_some.mp hstep
    exact ⟨r, hr, hphase, Option.some.inj hstep⟩
  · cases hstep

theorem stepped_receive {message : Bytes} (hstep : c.step setup (.receive message) = some c') :
    Stepped setup c (.receive message) c' := by
  simp only [step] at hstep
  obtain ⟨hended, hstep⟩ := Option.ite_none_left_eq_some.mp hstep
  have hopen : c.ended = none := by simpa using hended
  cases hframe : decodeStreamFrame message with
  | error err =>
      rw [hframe] at hstep
      exact Option.some.inj hstep ▸ .malformed message err hopen hframe
  | ok f =>
      rw [hframe] at hstep
      obtain rfl := Option.some.inj hstep
      unfold dispatch
      cases hreg : c.streams f.streamId with
      | none =>
          by_cases hheaders : f.flag = flagEnvelopeHeaders
          · simp only [hheaders, if_true]
            exact .start message f hopen hframe hreg hheaders
          · simp only [hheaders, if_false]
            exact .late message f hopen hframe hreg hheaders
      | some h =>
          by_cases hreset : f.flag = flagEnvelopeReset
          · simp only [hreset, if_true]
            exact .reset message f h hopen hframe hreg hreset
          · simp only [hreset, if_false]
            exact .enqueue message f h hopen hframe hreg hreset

/-- Nothing but these steps. -/
theorem stepped {ev : MuxedEvent} (hstep : c.step setup ev = some c') : Stepped setup c ev c' := by
  cases ev with
  | receive message => exact stepped_receive hstep
  | readFailed =>
      obtain ⟨hended, hstep⟩ := Option.ite_none_left_eq_some.mp hstep
      exact Option.some.inj hstep ▸
        .endLoop .readFailed .failed (.inl rfl) (fun _ h => by cases h) (by simpa using hended)
  | readDone =>
      obtain ⟨hended, hstep⟩ := Option.ite_none_left_eq_some.mp hstep
      exact Option.some.inj hstep ▸
        .endLoop .readDone .done (.inr rfl) (fun _ h => by cases h) (by simpa using hended)
  | idleTimeout =>
      obtain ⟨hended, hstep⟩ := Option.ite_none_left_eq_some.mp hstep
      simp only [Bool.or_eq_true, not_or] at hended
      exact Option.some.inj hstep ▸ .idle (by simpa using hended.1)
  | abortSignal reason =>
      obtain ⟨-, hstep⟩ := Option.ite_none_left_eq_some.mp hstep
      exact Option.some.inj hstep ▸ .abortSignal reason
  | rpcRead h =>
      obtain ⟨r, hr, hphase, rfl⟩ := advance_eq_some hstep
      exact .read h r hr hphase
  | rpcWrite h chunk =>
      obtain ⟨r, hr, hphase, rfl⟩ := advance_eq_some hstep
      cases hreset : r.reset with
      | true =>
          simp only [if_true]
          exact .writeRefused h chunk r hr hphase hreset
      | false =>
          simp only [Bool.false_eq_true, if_false]
          exact .write h chunk r hr hphase hreset
  | rpcFinish h =>
      obtain ⟨r, hr, hphase, rfl⟩ := advance_eq_some hstep
      exact .finishRpc h r hr hphase
  | rpcReaderCancelled h =>
      obtain ⟨r, hr, hphase, rfl⟩ := advance_eq_some hstep
      exact .readerCancelled h r hr hphase
  | rpcWriterClosed h =>
      obtain ⟨r, hr, hphase, rfl⟩ := advance_eq_some hstep
      exact .release _ h r .released hr (.inl ⟨rfl, hphase⟩) (by simp [hphase])
  | rpcSettled h =>
      obtain ⟨r, hr, hphase, rfl⟩ := advance_eq_some hstep
      exact .release _ h r .settled hr (.inr ⟨rfl, hphase⟩) (by simp [hphase])
  | finish =>
      obtain ⟨hall, hstep⟩ := Option.ite_none_right_eq_some.mp hstep
      simp only [Bool.and_eq_true] at hall
      exact Option.some.inj hstep ▸ .finish hall.1.1

-- ============================================================================
-- The entries of `streams`
-- ============================================================================

structure Owned (setup : MuxedSetup) (c : MuxedSocket) : Prop where
  /-- A registered ID names an RPC started under that ID. -/
  registered : ∀ id h, c.streams id = some h →
    ∃ r, c.rpcs[h]? = some r ∧ r.streamId = id ∧ r.Steady setup
  /-- The `finally` block forgets every stream. -/
  ended : c.ended.isSome = true → ∀ id, c.streams id = none

theorem owned_init : Owned setup (handleMuxedBidiSocket setup).init where
  registered := fun _ _ h => by cases h
  ended := fun _ _ => rfl

theorem delete_streams {id j : UInt32} {h : Nat} :
    (c.delete id).streams j = some h ↔ j ≠ id ∧ c.streams j = some h := by
  by_cases hji : j = id <;> simp [MuxedSocket.delete, hji]

theorem startStream_streams {id j : UInt32} {envelope : Bytes} {h : Nat} :
    (c.startStream id envelope).streams j = some h ↔
      j = id ∧ h = c.rpcs.length ∨ j ≠ id ∧ c.streams j = some h := by
  by_cases hji : j = id <;> simp [MuxedSocket.startStream, hji, eq_comm]

theorem owned_teardown (reason : JsError) : (c.teardown reason).Owned setup where
  registered := fun _ _ h => by cases h
  ended := fun _ _ => rfl

theorem owned_endLoop (cause : LoopEnd) : (c.endLoop cause).Owned setup where
  registered := fun _ _ h => by cases h
  ended := fun _ _ => rfl

theorem Owned.modifyRpc (hc : c.Owned setup) {h : Nat} {f : Rpc → Rpc}
    (hid : ∀ r, (f r).streamId = r.streamId)
    (hf : ∀ id r, c.streams id = some h → c.rpcs[h]? = some r → r.Steady setup →
      (f r).Steady setup) :
    (c.modifyRpc h f).Owned setup where
  registered := by
    intro id j hj
    obtain ⟨r, hr, hrid, hsteady⟩ := hc.registered id j hj
    simp only [MuxedSocket.modifyRpc, Store.getElem?_modify]
    by_cases hij : h = j
    · subst hij
      exact ⟨f r, by simp [hr], (hid r).trans hrid, hf id r hj hr hsteady⟩
    · exact ⟨r, by simp [hij, hr], hrid, hsteady⟩
  ended := hc.ended

theorem Owned.delete (hc : c.Owned setup) (id : UInt32) : (c.delete id).Owned setup where
  registered := fun j h hj => hc.registered j h (delete_streams.mp hj).2
  ended := fun h j => by
    cases hj : (c.delete id).streams j with
    | none => rfl
    | some k =>
        have := (delete_streams.mp hj).2
        rw [hc.ended h j] at this
        cases this

theorem Owned.startStream (hc : c.Owned setup) (hopen : c.ended = none) (id : UInt32)
    (envelope : Bytes) : (c.startStream id envelope).Owned setup where
  registered := by
    intro j h hj
    rcases startStream_streams.mp hj with ⟨rfl, rfl⟩ | ⟨-, hold⟩
    · exact ⟨_, Store.getElem?_concat.mpr (.inr ⟨rfl, rfl⟩), rfl, rfl⟩
    · obtain ⟨r, hr, hrid, hsteady⟩ := hc.registered j h hold
      exact ⟨r, Store.getElem?_concat.mpr (.inl hr), hrid, hsteady⟩
  ended := fun h => by simp [MuxedSocket.startStream, hopen] at h

/-- No ID but `r.streamId` is registered for the RPC `r`. -/
theorem Owned.delete_streams_ne (hc : c.Owned setup) {h : Nat} {r : Rpc} (hr : c.rpcs[h]? = some r)
    (id : UInt32) : (c.delete r.streamId).streams id ≠ some h := by
  intro hreg
  obtain ⟨hid, hold⟩ := delete_streams.mp hreg
  obtain ⟨r', hr', hrid, -⟩ := hc.registered id h hold
  obtain rfl : r = r' := Option.some.inj (hr.symm.trans hr')
  exact hid hrid.symm

/-- Deregistering an RPC and changing it leaves nothing to keep for it. -/
theorem Owned.delete_modifyRpc (hc : c.Owned setup) {h : Nat} {r : Rpc} (hr : c.rpcs[h]? = some r)
    {f : Rpc → Rpc} (hid : ∀ r, (f r).streamId = r.streamId) :
    ((c.delete r.streamId).modifyRpc h f).Owned setup :=
  (hc.delete r.streamId).modifyRpc hid fun id _ hreg => absurd hreg (hc.delete_streams_ne hr id)

theorem enqueue_of_open {h : Nat} {r : Rpc} (hr : c.rpcs[h]? = some r)
    (hopen : r.readable.canCloseOrEnqueue = true) (envelope : Bytes) :
    ∃ readable, r.readable.enqueue envelope = some readable ∧
      c.enqueue h envelope = c.modifyRpc h fun r => { r with readable } := by
  obtain ⟨readable, hreadable⟩ := ReadableStream.exists_enqueue hopen envelope
  exact ⟨readable, hreadable, by simp [MuxedSocket.enqueue, hr, hreadable]⟩

theorem enqueue_of_closed {h : Nat} {r : Rpc} (hr : c.rpcs[h]? = some r)
    (hclosed : r.readable.canCloseOrEnqueue = false) (envelope : Bytes) :
    c.enqueue h envelope = c.endLoop (.threw enqueueError) := by
  simp [MuxedSocket.enqueue, hr, ReadableStream.enqueue_eq_none.mpr hclosed]

theorem Owned.enqueue (hc : c.Owned setup) {id : UInt32} {h : Nat} (hreg : c.streams id = some h)
    (envelope : Bytes) : (c.enqueue h envelope).Owned setup := by
  obtain ⟨r, hr, -, hsteady⟩ := hc.registered id h hreg
  cases hopen : r.readable.canCloseOrEnqueue with
  | true =>
      obtain ⟨readable, htakes, heq⟩ := enqueue_of_open hr hopen envelope
      rw [heq]
      refine hc.modifyRpc (fun _ => rfl) fun id r' _ hr' _ => ?_
      obtain rfl : r = r' := Option.some.inj (hr.symm.trans hr')
      exact (ReadableStream.canCloseOrEnqueue_of_enqueue htakes).trans (hopen.symm.trans hsteady)
  | false =>
      rw [enqueue_of_closed hr hopen]
      exact owned_endLoop _

theorem steady_cancelReader {r : Rpc} (hsteady : r.Steady setup) (hserving : r.phase = .serving) :
    (r.cancelReader setup).Steady setup := by
  unfold Rpc.Steady Rpc.cancelReader
  cases hcancels : setup.cancelsSource with
  | true => exact ReadableStream.canCloseOrEnqueue_of_hasEnded (ReadableStream.hasEnded_cancel _)
  | false => exact hsteady.open hserving

theorem Owned.step (hc : c.Owned setup) {ev : MuxedEvent} (hstep : Stepped setup c ev c') :
    c'.Owned setup := by
  cases hstep with
  | malformed | endLoop | idle => exact owned_endLoop _
  | start message f hopen _ _ _ => exact hc.startStream hopen _ _
  | late | writeRefused => exact hc
  | reset message f h _ _ hreg =>
      obtain ⟨r, hr, hrid, -⟩ := hc.registered _ h hreg
      rw [← hrid]
      exact hc.delete_modifyRpc hr fun _ => rfl
  | enqueue message f h _ _ hreg => exact hc.enqueue hreg _
  | abortSignal reason =>
      have hdown : (c.teardown reason).Owned setup := owned_teardown reason
      exact ⟨hdown.registered, hdown.ended⟩
  | read h r hr hphase =>
      refine hc.modifyRpc (fun _ => rfl) fun _ r' _ _ hsteady => ?_
      simpa [Rpc.Steady] using hsteady
  | write | finish => exact ⟨hc.registered, hc.ended⟩
  | finishRpc h r hr hphase =>
      refine hc.modifyRpc (fun _ => rfl) fun _ r' _ hr' hsteady => ?_
      obtain rfl : r = r' := Option.some.inj (hr.symm.trans hr')
      exact steady_cancelReader hsteady hphase
  | readerCancelled h r hr hphase =>
      refine hc.modifyRpc (fun _ => rfl) fun _ r' _ hr' hsteady => ?_
      obtain rfl : r = r' := Option.some.inj (hr.symm.trans hr')
      simpa [Rpc.Steady, hphase] using hsteady
  | release ev h r after hr _ _ => exact hc.delete_modifyRpc hr fun _ => rfl

-- ============================================================================
-- The stream IDs
-- ============================================================================

/-- The stream IDs of the RPCs started, in order. -/
def ids (c : MuxedSocket) : List UInt32 := c.rpcs.map (·.streamId)

theorem ids_startStream (id : UInt32) (envelope : Bytes) :
    (c.startStream id envelope).ids = c.ids ++ [id] := by
  simp [ids, MuxedSocket.startStream]

theorem ids_modifyRpc {h : Nat} {f : Rpc → Rpc} (hf : ∀ r, (f r).streamId = r.streamId) :
    (c.modifyRpc h f).ids = c.ids :=
  Store.map_modify_of_eq fun r _ => hf r

theorem ids_teardown (reason : JsError) : (c.teardown reason).ids = c.ids := by
  refine List.ext_getElem? fun j => ?_
  simp only [ids, MuxedSocket.teardown, List.getElem?_mapIdx, List.getElem?_map]
  cases c.rpcs[j]? with
  | none => rfl
  | some r =>
      simp only [Option.map_some, Option.some.injEq]
      split <;> rfl

theorem ids_enqueue (h : Nat) (envelope : Bytes) : (c.enqueue h envelope).ids = c.ids := by
  unfold MuxedSocket.enqueue
  split
  · rfl
  · split
    · exact ids_modifyRpc fun _ => rfl
    · exact ids_teardown _

/-- A step starts an RPC for a headers frame with a free ID, and no other. -/
theorem ids_step {ev : MuxedEvent} (hstep : Stepped setup c ev c') :
    c'.ids = c.ids ∨ ∃ message f, ev = .receive message ∧ c.ended = none ∧
      decodeStreamFrame message = .ok f ∧ f.flag = flagEnvelopeHeaders ∧
      c.streams f.streamId = none ∧ c'.ids = c.ids ++ [f.streamId] := by
  cases hstep with
  | start message f hopen hframe hfree hheaders =>
      exact .inr ⟨message, f, rfl, hopen, hframe, hheaders, hfree, ids_startStream _ _⟩
  | malformed | endLoop | idle => exact .inl (ids_teardown _)
  | abortSignal reason => exact .inl (ids_teardown reason)
  | enqueue message f h => exact .inl (ids_enqueue h _)
  | late | writeRefused | write | finish => exact .inl rfl
  | reset | read | finishRpc | readerCancelled | release => exact .inl (ids_modifyRpc fun _ => rfl)

end MuxedSocket
end Core
end BidiWeb
