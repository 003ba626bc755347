/-
  BidiWeb.Core.RunningRpcs

  The RPCs in `running` against the entries of `streams`.

  The close callback of a stream and the `finally` of its RPC delete an entry
  by its ID.  A client that resets a stream and opens it again before the
  first RPC has settled loses the entry of the second to the first: nothing
  can abort it then, and the promise of the connection waits for it.
-/

import BidiWeb.Core.MuxedStreams

namespace BidiWeb
namespace Core

open BidiWeb.Lib

-- ============================================================================
-- Supervision
-- ============================================================================

/-- The promise of the RPC is in `running`. -/
def Rpc.Running (r : Rpc) : Prop := r.phase ≠ .settled

/-- The RPC has been aborted and its request stream errored. -/
def Rpc.Aborted (r : Rpc) : Prop := r.aborted.isSome = true ∧ ∃ e, r.readable.phase = .errored e

/-- The bridge has reached its `finally` block. -/
def Rpc.InCleanup (r : Rpc) : Prop := r.phase ≠ .serving

namespace MuxedSocket

/-- Every running RPC is registered under its ID, aborted, or in its cleanup. -/
def NoOrphan (c : MuxedSocket) : Prop :=
  ∀ (h : Nat) (r : Rpc), c.rpcs[h]? = some r → r.Running →
    c.streams r.streamId = some h ∨ r.Aborted ∨ r.InCleanup

/-- Every running RPC has been aborted or is in its cleanup. -/
def AllStopped (c : MuxedSocket) : Prop :=
  ∀ (h : Nat) (r : Rpc), c.rpcs[h]? = some r → r.Running → r.Aborted ∨ r.InCleanup

/-- No running RPC is orphaned; so a teardown, now or by the end of the read
    loop, stops them all. -/
structure Supervised (c : MuxedSocket) : Prop where
  noOrphan : c.NoOrphan
  teardown : ∀ reason, (c.teardown reason).AllStopped
  ended : c.ended.isSome = true → c.AllStopped

/-- RPC `h` deletes an entry of `streams` with this step. -/
def Deletes (c : MuxedSocket) (ev : MuxedEvent) (h : Nat) (r : Rpc) : Prop :=
  c.rpcs[h]? = some r ∧
    (ev = .rpcWriterClosed h ∧ r.phase = .closingWriter ∨ ev = .rpcSettled h ∧ r.phase = .released)

/-- What a cleanup deletes is the entry of an RPC in its cleanup, its own for
    one, or no entry. -/
def DeletesOwn (c : MuxedSocket) (ev : MuxedEvent) : Prop :=
  ∀ h r, c.Deletes ev h r → ∀ j r', c.streams r.streamId = some j → c.rpcs[j]? = some r' →
    r'.InCleanup

variable {c c' : MuxedSocket} {setup : MuxedSetup}

-- ============================================================================
-- One step
-- ============================================================================

theorem aborted_kill {r : Rpc} (hsteady : r.Steady setup) (hserving : r.phase = .serving)
    (reason : JsError) : (r.kill reason).Aborted := by
  refine ⟨?_, ?_⟩
  · show (r.aborted.or (some reason)).isSome = true
    cases r.aborted <;> rfl
  · exact ReadableStream.phase_error (hsteady.open hserving) reason

/-- A killed stream is aborted, or was in its cleanup before. -/
theorem stopped_kill {r : Rpc} (hsteady : r.Steady setup) (reason : JsError) :
    (r.kill reason).Aborted ∨ (r.kill reason).InCleanup := by
  by_cases hserving : r.phase = .serving
  · exact .inl (aborted_kill hsteady hserving reason)
  · exact .inr hserving

/-- What has been stopped stays stopped under a change that keeps it so. -/
theorem NoOrphan.modifyRpc (hc : c.NoOrphan) {h : Nat} {f : Rpc → Rpc}
    (hid : ∀ r, (f r).streamId = r.streamId)
    (hf : ∀ r, c.rpcs[h]? = some r → r.Aborted ∨ r.InCleanup → (f r).Aborted ∨ (f r).InCleanup)
    (hrun : ∀ r, c.rpcs[h]? = some r → (f r).Running → r.Running) : (c.modifyRpc h f).NoOrphan := by
  refine Store.forall_modify (P := fun j (r : Rpc) => r.Running →
    c.streams r.streamId = some j ∨ r.Aborted ∨ r.InCleanup) hc fun r hr hrunning => ?_
  rw [hid]
  exact (hc h r hr (hrun r hr hrunning)).imp_right (hf r hr)

/-- Forgetting the entries of stopped RPCs orphans none. -/
theorem NoOrphan.of_streams (hc : c.NoOrphan) (hrpcs : c'.rpcs = c.rpcs)
    (hstreams : ∀ h r, c.rpcs[h]? = some r → c.streams r.streamId = some h →
      c'.streams r.streamId = some h ∨ r.Aborted ∨ r.InCleanup) : c'.NoOrphan := by
  intro h r hr hrun
  rw [hrpcs] at hr
  rcases hc h r hr hrun with hreg | hstopped
  · exact hstreams h r hr hreg
  · exact .inr hstopped

theorem allStopped_teardown (hc : c.Owned setup) (horphan : c.NoOrphan) (reason : JsError) :
    (c.teardown reason).AllStopped := by
  intro h r hr hrun
  simp only [MuxedSocket.teardown, List.getElem?_mapIdx, Option.map_eq_some_iff] at hr
  obtain ⟨r₀, hr₀, heq⟩ := hr
  by_cases hreg : c.streams r₀.streamId = some h
  · rw [if_pos hreg] at heq
    obtain ⟨r', hr', -, hsteady⟩ := hc.registered _ h hreg
    obtain rfl : r₀ = r' := Option.some.inj (hr₀.symm.trans hr')
    exact heq ▸ stopped_kill hsteady reason
  · rw [if_neg hreg] at heq
    subst heq
    exact (horphan h r₀ hr₀ hrun).resolve_left hreg

theorem AllStopped.noOrphan (hc : c.AllStopped) (hrpcs : c'.rpcs = c.rpcs) : c'.NoOrphan :=
  fun h r hr hrun => .inr (hc h r (hrpcs ▸ hr) hrun)

theorem NoOrphan.startStream (hc : c.NoOrphan) {id : UInt32} (hfree : c.streams id = none)
    (envelope : Bytes) : (c.startStream id envelope).NoOrphan := by
  refine Store.forall_concat (P := fun j (r : Rpc) => r.Running →
    (c.startStream id envelope).streams r.streamId = some j ∨ r.Aborted ∨ r.InCleanup) ?_ ?_
  · intro j r hr hrun
    refine (hc j r hr hrun).imp_left fun hreg => startStream_streams.mpr (.inr ⟨?_, hreg⟩)
    intro heq
    rw [heq, hfree] at hreg
    cases hreg
  · exact fun _ => .inl (startStream_streams.mpr (.inl ⟨rfl, rfl⟩))

theorem NoOrphan.release (hc : c.NoOrphan) {h : Nat} {r : Rpc} (hr : c.rpcs[h]? = some r)
    {after : RpcPhase} (hafter : after ≠ .serving) (hrun : r.Running)
    (hown : ∀ j r', c.streams r.streamId = some j → c.rpcs[j]? = some r' → r'.InCleanup) :
    ((c.delete r.streamId).modifyRpc h fun r => { r with phase := after }).NoOrphan := by
  have hdeleted : (c.delete r.streamId).NoOrphan := by
    refine hc.of_streams rfl fun j r' hr' hreg => ?_
    by_cases hid : r'.streamId = r.streamId
    · exact .inr (.inr (hown j r' (hid ▸ hreg) hr'))
    · exact .inl (delete_streams.mpr ⟨hid, hreg⟩)
  refine hdeleted.modifyRpc (fun _ => rfl) (fun _ _ _ => .inr hafter) fun r' hr' _ => ?_
  obtain rfl : r = r' := Option.some.inj (hr.symm.trans hr')
  exact hrun

theorem NoOrphan.step (hc : c.NoOrphan) (howned : c.Owned setup) {ev : MuxedEvent}
    (hown : DeletesOwn c ev) (hstep : Stepped setup c ev c') : c'.NoOrphan := by
  cases hstep with
  | malformed | endLoop => exact (allStopped_teardown howned hc _).noOrphan rfl
  | idle => exact (allStopped_teardown (c := { c with closeCalls := _ })
      ⟨howned.registered, howned.ended⟩ hc _).noOrphan rfl
  | abortSignal reason => exact (allStopped_teardown howned hc reason).noOrphan rfl
  | start message f _ _ hfree => exact hc.startStream hfree _
  | late | writeRefused => exact hc
  | write | finish => exact hc
  | reset message f h _ _ hreg =>
      obtain ⟨r, hr, hrid, hsteady⟩ := howned.registered _ h hreg
      have hkilled : (c.modifyRpc h (·.kill resetReason)).NoOrphan := by
        refine hc.modifyRpc (fun _ => rfl) (fun r' hr' _ => ?_) fun _ _ hrun => hrun
        obtain rfl : r = r' := Option.some.inj (hr.symm.trans hr')
        exact stopped_kill hsteady _
      refine hkilled.of_streams rfl fun j r' hr' hreg' => ?_
      by_cases hid : r'.streamId = f.streamId
      · -- the entry under the ID of the frame is that of the killed stream
        obtain rfl : h = j := Option.some.inj (hreg.symm.trans (hid ▸ hreg'))
        obtain ⟨r₀, hr₀, rfl⟩ := by simpa [MuxedSocket.modifyRpc, Store.getElem?_modify] using hr'
        obtain rfl : r = r₀ := Option.some.inj (hr.symm.trans hr₀)
        exact .inr (stopped_kill hsteady _)
      · exact .inl (delete_streams.mpr ⟨hid, hreg'⟩)
  | enqueue message f h _ _ hreg =>
      obtain ⟨r, hr, -, hsteady⟩ := howned.registered _ h hreg
      cases hopen : r.readable.canCloseOrEnqueue with
      | true =>
          obtain ⟨readable, htakes, heq⟩ := enqueue_of_open hr hopen f.envelope
          rw [heq]
          refine hc.modifyRpc (fun _ => rfl) (fun r' hr' hstopped => ?_) fun _ _ hrun => hrun
          obtain rfl : r = r' := Option.some.inj (hr.symm.trans hr')
          refine hstopped.imp_left ?_
          rintro ⟨-, e, he⟩
          rw [ReadableStream.enqueue_of_errored he] at htakes
          cases htakes
      | false =>
          rw [enqueue_of_closed hr hopen]
          exact (allStopped_teardown howned hc _).noOrphan rfl
  | read h r hr hphase =>
      refine hc.modifyRpc (fun _ => rfl) (fun r' _ hstopped => ?_) fun _ _ hrun => hrun
      refine hstopped.imp_left ?_
      rintro ⟨haborted, e, he⟩
      exact ⟨haborted, e, ReadableStream.phase_read_of_errored he⟩
  | finishRpc h r hr hphase =>
      refine hc.modifyRpc (fun _ => rfl) (fun _ _ _ => .inr fun h => by cases h) fun r' hr' _ => ?_
      obtain rfl : r = r' := Option.some.inj (hr.symm.trans hr')
      simp [Rpc.Running, hphase]
  | readerCancelled h r hr hphase =>
      refine hc.modifyRpc (fun _ => rfl) (fun _ _ _ => .inr fun h => by cases h) fun r' hr' _ => ?_
      obtain rfl : r = r' := Option.some.inj (hr.symm.trans hr')
      simp [Rpc.Running, hphase]
  | release ev h r after hr hev hafter =>
      have hcleans : after ≠ .serving := by
        rw [hafter]
        split <;> decide
      refine hc.release hr hcleans ?_ (hown h r ⟨hr, hev⟩)
      rcases hev with ⟨-, hphase⟩ | ⟨-, hphase⟩ <;> simp [Rpc.Running, hphase]

/-- A cleanup that deletes the entry of another RPC that is serving orphans
    it. -/
theorem deletesOwn_of_noOrphan (howned : c.Owned setup) {ev : MuxedEvent}
    (hnext : ∀ c', c.step setup ev = some c' → c'.NoOrphan) : DeletesOwn c ev := by
  rintro h r ⟨hr, hev⟩ j r' hreg hr' hserving
  obtain ⟨r₀, hr₀, hid, hsteady⟩ := howned.registered _ j hreg
  obtain rfl : r' = r₀ := Option.some.inj (hr'.symm.trans hr₀)
  -- the RPC that cleans up is not the one that serves
  have hne : h ≠ j := by
    rintro rfl
    obtain rfl : r = r' := Option.some.inj (hr.symm.trans hr')
    rcases hev with ⟨-, hphase⟩ | ⟨-, hphase⟩ <;> rw [hphase] at hserving <;> cases hserving
  obtain ⟨after, hstep⟩ : ∃ after, c.step setup ev =
      some ((c.delete r.streamId).modifyRpc h fun r => { r with phase := after }) := by
    rcases hev with ⟨rfl, hphase⟩ | ⟨rfl, hphase⟩
    · exact ⟨_, by simp only [step, advance, hr, hphase, if_true]; rfl⟩
    · exact ⟨_, by simp only [step, advance, hr, hphase, if_true]; rfl⟩
  have hkept : ((c.delete r.streamId).modifyRpc h fun r => { r with phase := after }).rpcs[j]? =
      some r' := by
    show (c.rpcs.modify h _)[j]? = some r'
    rw [Store.getElem?_modify, if_neg hne]
    exact hr'
  rcases hnext _ hstep j r' hkept (by simp [Rpc.Running, hserving]) with hreg' | ⟨-, e, he⟩ | hclean
  · exact (delete_streams.mp hreg').1 hid
  · have hopen := hsteady.open hserving
    simp [ReadableStream.canCloseOrEnqueue, he] at hopen
  · exact hclean hserving

theorem NoOrphan.supervised (hc : c.NoOrphan) (howned : c.Owned setup) : c.Supervised where
  noOrphan := hc
  teardown := allStopped_teardown howned hc
  ended := fun hended h r hr hrun => (hc h r hr hrun).resolve_left (by simp [howned.ended hended])

end MuxedSocket

-- ============================================================================
-- Whole runs
-- ============================================================================

/-- Whatever the frames and the order of the RPCs' steps, every running RPC
    is supervised in every state reached exactly if no cleanup deletes the
    entry of another RPC that still serves. -/
theorem rpcs_supervised_iff (setup : MuxedSetup) (evs : List MuxedEvent) :
    (handleMuxedBidiSocket setup).Always MuxedSocket.Supervised (handleMuxedBidiSocket setup).init
        evs ↔
      (handleMuxedBidiSocket setup).Meets MuxedSocket.DeletesOwn (handleMuxedBidiSocket setup).init
        evs := by
  refine Machine.always_iff_meets (I := fun c => c.Owned setup ∧ c.NoOrphan) _ ?_ ?_ ?_ ?_ evs
  · rintro c ev c' ⟨howned, hc⟩ hown hstep
    have hstepped := MuxedSocket.stepped hstep
    exact ⟨howned.step hstepped, hc.step howned hown hstepped⟩
  · exact fun c ⟨howned, hc⟩ => hc.supervised howned
  · exact fun c ev ⟨howned, _⟩ hnext =>
      MuxedSocket.deletesOwn_of_noOrphan howned fun c' hstep => (hnext c' hstep).noOrphan
  · exact ⟨MuxedSocket.owned_init, fun _ _ h => by cases h⟩

/-- A client resets a stream and opens it again; the cleanup of the first RPC
    then deletes the entry of the second, and the end of the connection does
    not reach it. -/
theorem reopened_stream_orphans_rpc :
    ¬ ∀ setup evs, (handleMuxedBidiSocket setup).Always MuxedSocket.Supervised
        (handleMuxedBidiSocket setup).init evs := by
  intro h
  have hrun := h {} [
    .receive (encodeStreamFrame 1 (encodeEnvelope flagEnvelopeHeaders [])),
    .receive (encodeStreamFrame 1 (encodeEnvelope flagEnvelopeReset [])),
    .receive (encodeStreamFrame 1 (encodeEnvelope flagEnvelopeHeaders [])),
    .rpcFinish 0, .rpcReaderCancelled 0, .rpcWriterClosed 0, .readDone]
  have hlast := ((((((hrun.2 _ rfl).2 _ rfl).2 _ rfl).2 _ rfl).2 _ rfl).2 _ rfl).2 _ rfl
  rcases hlast.ended rfl 1 _ rfl (fun h => by cases h) with ⟨haborted, -⟩ | hcleanup
  · cases haborted
  · exact hcleanup rfl

end Core
end BidiWeb
