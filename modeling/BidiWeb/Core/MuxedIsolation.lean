/-
  BidiWeb.Core.MuxedIsolation

  What one stream can do to the connection it shares.

  The read loop hands a frame to `controller.enqueue` without asking whether
  the stream's bridge has already cancelled its request reader, and nothing
  between the `enqueue` and the loop's `finally` block catches.  So it is the
  envelope reader that keeps the streams apart, by leaving the readable open
  that it reads from: one that cancelled it too would let the next frame of
  its stream end the connection (`frames_isolated_iff`).
-/

import BidiWeb.Core.MuxedStreams

namespace BidiWeb
namespace Core

open BidiWeb.Lib

-- ============================================================================
-- Isolation
-- ============================================================================

/-- What a step of the connection must do: no exception escapes the read loop,
    and a well-formed frame neither ends the loop nor aborts an RPC other than
    the one registered under the frame's stream ID. -/
def EventSafe (setup : MuxedSetup) (c : MuxedSocket) (ev : MuxedEvent) : Prop :=
  ∀ c', c.step setup ev = some c' →
    (∀ err, c'.ended ≠ some (.threw err)) ∧
      ∀ message frame, ev = .receive message → decodeStreamFrame message = .ok frame →
        c'.ended = none ∧
          ∀ h r, c.rpcs[h]? = some r → c.streams frame.streamId ≠ some h →
            ∃ r', c'.rpcs[h]? = some r' ∧ r'.aborted = r.aborted

/-- A frame other than a reset finds its stream unregistered, or with a bridge
    that has not reached its `finally` block, or the reader cancelled there has
    left the readable as it was. -/
def FrameFits (setup : MuxedSetup) (c : MuxedSocket) (ev : MuxedEvent) : Prop :=
  ∀ message frame, ev = .receive message → decodeStreamFrame message = .ok frame →
    frame.flag ≠ flagEnvelopeReset →
      ∀ h r, c.streams frame.streamId = some h → c.rpcs[h]? = some r →
        r.phase = .serving ∨ setup.cancelsSource = false

-- ============================================================================
-- The invariant
-- ============================================================================

namespace MuxedSocket

/-- `Owned`, and no exception has left the loop. -/
structure Inv (setup : MuxedSetup) (c : MuxedSocket) : Prop where
  /-- A registered ID names an RPC started under that ID. -/
  registered : ∀ id h, c.streams id = some h →
    ∃ r, c.rpcs[h]? = some r ∧ r.streamId = id ∧ r.Steady setup
  /-- The `finally` block forgets every stream. -/
  ended : c.ended.isSome = true → ∀ id, c.streams id = none
  noThrow : ∀ err, c.ended ≠ some (.threw err)

variable {c : MuxedSocket} {setup : MuxedSetup}

theorem inv_init : Inv setup (handleMuxedBidiSocket setup).init where
  registered := owned_init.registered
  ended := owned_init.ended
  noThrow := fun _ h => by cases h

theorem Inv.owned (hc : c.Inv setup) : c.Owned setup := ⟨hc.registered, hc.ended⟩

theorem Owned.inv (hc : c.Owned setup) (hthrow : ∀ err, c.ended ≠ some (.threw err)) :
    c.Inv setup :=
  ⟨hc.registered, hc.ended, hthrow⟩

-- ============================================================================
-- One frame
-- ============================================================================

/-- `c'` differs from `c` in the RPC registered under `id` only, or in a new
    one. -/
def Elsewhere (c c' : MuxedSocket) (id : UInt32) : Prop :=
  c'.ended = c.ended ∧
    ∀ h r, c.rpcs[h]? = some r → c.streams id ≠ some h → c'.rpcs[h]? = some r

theorem elsewhere_modifyRpc {id : UInt32} {h : Nat} (hreg : c.streams id = some h) (f : Rpc → Rpc) :
    c.Elsewhere (c.modifyRpc h f) id := by
  refine ⟨rfl, fun j r hr hj => ?_⟩
  have hne : h ≠ j := fun heq => hj (heq ▸ hreg)
  have hsame : (c.rpcs.modify h f)[j]? = some r := by
    rw [Store.getElem?_modify, if_neg hne]
    exact hr
  exact hsame

/-- An envelope that fits goes to its own stream. -/
theorem enqueue_of_fits (hc : c.Owned setup) {message : Bytes} {f : StreamFrame} {h : Nat}
    (hfits : FrameFits setup c (.receive message)) (hframe : decodeStreamFrame message = .ok f)
    (hreg : c.streams f.streamId = some h) (hreset : f.flag ≠ flagEnvelopeReset) :
    ∃ g : Rpc → Rpc, c.enqueue h f.envelope = c.modifyRpc h g := by
  obtain ⟨r, hr, -, hsteady⟩ := hc.registered _ h hreg
  have hopen : r.readable.canCloseOrEnqueue = true := by
    rw [hsteady]
    rcases hfits message f rfl hframe hreset h r hreg hr with hserving | hkeeps
    · simp [hserving]
    · simp [hkeeps]
  obtain ⟨readable, -, heq⟩ := enqueue_of_open hr hopen f.envelope
  exact ⟨_, heq⟩

/-- A frame that fits touches its own stream only. -/
theorem receive_of_fits (hc : c.Owned setup) {c' : MuxedSocket} {message : Bytes} {f : StreamFrame}
    (hfits : FrameFits setup c (.receive message)) (hframe : decodeStreamFrame message = .ok f)
    (hstep : Stepped setup c (.receive message) c') : c.Elsewhere c' f.streamId := by
  cases hstep with
  | malformed _ err _ herr =>
      rw [hframe] at herr
      cases herr
  | start _ f' =>
      exact ⟨rfl, fun h r hr _ => Store.getElem?_concat.mpr (.inl hr)⟩
  | late => exact ⟨rfl, fun h r hr _ => hr⟩
  | reset _ f' h _ hframe' hreg =>
      obtain rfl : f = f' := Except.ok.inj (hframe.symm.trans hframe')
      exact elsewhere_modifyRpc hreg _
  | enqueue _ f' h _ hframe' hreg hreset =>
      obtain rfl : f = f' := Except.ok.inj (hframe.symm.trans hframe')
      obtain ⟨g, hg⟩ := enqueue_of_fits hc hfits hframe hreg hreset
      rw [hg]
      exact elsewhere_modifyRpc hreg g
  | endLoop _ _ hev => rcases hev with hev | hev <;> cases hev
  | release _ _ _ _ _ hev => rcases hev with ⟨hev, -⟩ | ⟨hev, -⟩ <;> cases hev

/-- A frame that does not fit ends the connection for every stream on it. -/
theorem dispatch_of_not_fits (hc : c.Inv setup) {frame : StreamFrame} {h : Nat} {r : Rpc}
    (hflag : frame.flag ≠ flagEnvelopeReset) (hreg : c.streams frame.streamId = some h)
    (hr : c.rpcs[h]? = some r) (hphase : r.phase ≠ .serving)
    (hcancels : setup.cancelsSource = true) :
    (c.dispatch frame).ended = some (.threw enqueueError) := by
  obtain ⟨r', hr', -, hsteady⟩ := hc.registered _ h hreg
  obtain rfl : r = r' := Option.some.inj (hr.symm.trans hr')
  have hclosed : r.readable.canCloseOrEnqueue = false := by
    rw [hsteady]
    simp [hphase, hcancels]
  simp only [dispatch, hreg, hflag, if_false, enqueue_of_closed hr hclosed]
  rfl

-- ============================================================================
-- One step
-- ============================================================================

/-- Every step but the one on a frame that does not fit keeps the invariant. -/
theorem step_of_fits (hc : c.Inv setup) {ev : MuxedEvent} (hfits : FrameFits setup c ev)
    {c' : MuxedSocket} (hstep : c.step setup ev = some c') : c'.Inv setup := by
  have howned := hc.owned.step (stepped hstep)
  refine howned.inv fun err herr => ?_
  cases stepped hstep with
  | malformed | idle => cases herr
  | endLoop _ cause _ hcause => exact hcause err (Option.some.inj herr)
  | enqueue message f h _ hframe hreg hreset =>
      obtain ⟨g, hg⟩ := enqueue_of_fits hc.owned hfits hframe hreg hreset
      rw [hg] at herr
      exact hc.noThrow err herr
  | _ => exact hc.noThrow err herr

theorem eventSafe_of_fits (hc : c.Inv setup) {ev : MuxedEvent} (hfits : FrameFits setup c ev) :
    EventSafe setup c ev := by
  intro c' hstep
  refine ⟨(step_of_fits hc hfits hstep).noThrow, ?_⟩
  rintro message frame rfl hframe
  have hopen : c.ended = none := by
    obtain ⟨hended, -⟩ := Option.ite_none_left_eq_some.mp hstep
    simpa using hended
  obtain ⟨hsame, hothers⟩ := receive_of_fits hc.owned hfits hframe (stepped hstep)
  exact ⟨hsame.trans hopen, fun h r hr hother => ⟨r, hothers h r hr hother, rfl⟩⟩

theorem fits_of_eventSafe (hc : c.Inv setup) {ev : MuxedEvent} (hsafe : EventSafe setup c ev) :
    FrameFits setup c ev := by
  rintro message frame rfl hframe hflag h r hreg hr
  have hended : c.ended = none := by
    cases hended : c.ended with
    | none => rfl
    | some cause =>
        have := hc.ended (by simp [hended]) frame.streamId
        rw [hreg] at this
        cases this
  have hstep : c.step setup (.receive message) = some (c.dispatch frame) := by
    simp [step, hended, hframe]
  by_cases hphase : r.phase = .serving
  · exact .inl hphase
  · refine .inr (Bool.eq_false_iff.mpr fun hcancels => ?_)
    have hthrew := dispatch_of_not_fits hc hflag hreg hr hphase hcancels
    exact absurd hthrew ((hsafe _ hstep).1 enqueueError)

end MuxedSocket

-- ============================================================================
-- Whole runs
-- ============================================================================

/-- Whatever the order of frames and of the bridges' steps, the streams of a
    connection are isolated from each other exactly if no frame other than a
    reset meets a stream whose cancelled reader has closed its readable. -/
theorem frames_isolated_iff (setup : MuxedSetup) (evs : List MuxedEvent) :
    (handleMuxedBidiSocket setup).Meets (EventSafe setup) (handleMuxedBidiSocket setup).init evs ↔
      (handleMuxedBidiSocket setup).Meets (FrameFits setup) (handleMuxedBidiSocket setup).init
        evs := by
  refine Machine.meets_iff_of_invariant (I := MuxedSocket.Inv setup) _ ?_ ?_ MuxedSocket.inv_init
    evs
  · intro c ev c' hc hsafe hstep
    exact MuxedSocket.step_of_fits hc (MuxedSocket.fits_of_eventSafe hc hsafe) hstep
  · intro c ev hc
    exact ⟨MuxedSocket.fits_of_eventSafe hc, MuxedSocket.eventSafe_of_fits hc⟩

/-- A reader that leaves its source as it is keeps the streams isolated in
    every run. -/
theorem frames_isolated (setup : MuxedSetup) (hkeeps : setup.cancelsSource = false)
    (evs : List MuxedEvent) :
    (handleMuxedBidiSocket setup).Meets (EventSafe setup) (handleMuxedBidiSocket setup).init
      evs := by
  have hfits : ∀ c ev, FrameFits setup c ev := fun _ _ _ _ _ _ _ _ _ _ _ => .inr hkeeps
  exact (frames_isolated_iff setup evs).mpr (Machine.meets_of_always _ hfits _ evs)

/-- Two streams; the second has cancelled its request reader when another data
    frame for it arrives. -/
def dataWhileFinishing : List MuxedEvent := [
  .receive (encodeStreamFrame 1 (encodeEnvelope flagEnvelopeHeaders [])),
  .receive (encodeStreamFrame 3 (encodeEnvelope flagEnvelopeHeaders [])),
  .rpcFinish 1,
  .receive (encodeStreamFrame 3 (encodeEnvelope flagEnvelopeData []))]

theorem dataWhileFinishing_isolated :
    (handleMuxedBidiSocket {}).Meets (EventSafe {}) (handleMuxedBidiSocket {}).init
      dataWhileFinishing :=
  frames_isolated {} rfl dataWhileFinishing

/-- Were the readable cancelled with its reader, the `enqueue` would throw out
    of the loop. -/
theorem data_while_finishing_throws :
    ¬ ∀ (setup : MuxedSetup) (evs : List MuxedEvent), setup.cancelsSource = true →
      (handleMuxedBidiSocket setup).Meets (EventSafe setup) (handleMuxedBidiSocket setup).init
        evs := by
  intro h
  have hrun := h { cancelsSource := true } dataWhileFinishing rfl
  have hlast := ((hrun.2 _ rfl).2 _ rfl).2 _ rfl
  exact (hlast.1 _ rfl).1 enqueueError rfl

end Core
end BidiWeb
