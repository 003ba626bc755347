/-
  BidiWeb.Core.AbortedRpcs

  The server's signal against the requests it is to abort.

  `handleBidiSocket` looks at the signal when it is called and listens to it
  from then on.  `handleMuxedBidiSocket` does the same once for the whole
  connection, and gives every stream a controller of its own: what it aborts
  is the streams in the map at that time.  A stream that opens later, or that
  has lost its entry to the cleanup of an earlier one, runs on.
-/

import BidiWeb.Core.MuxedStreams

namespace BidiWeb
namespace Core

open BidiWeb.Lib

-- ============================================================================
-- One call of handleBidiSocket
-- ============================================================================

inductive AbortReason where
  | given (reason : JsError)
  /-- `controller.abort()` -/
  | default
deriving DecidableEq, Repr

/-- The controller of one `handleBidiSocket` call, and `options.signal`. -/
structure Bridge where
  /-- The reason `options.signal` was aborted with. -/
  signal : Option JsError
  /-- The abort listener has been added. -/
  listening : Bool := false
  /-- The reason `controller` was aborted with: `request.signal` is its signal. -/
  controller : Option AbortReason := none
deriving DecidableEq, Repr

inductive BridgeEvent where
  | abortSignal (reason : JsError)
  /-- `envReader.closed` rejects. -/
  | closedRejects (reason : JsError)
  /-- The `finally` block. -/
  | finish
deriving DecidableEq, Repr

namespace Bridge

variable (b : Bridge)

/-- `controller.abort(reason)`: only the first one counts. -/
def abort (reason : AbortReason) : Bridge :=
  { b with controller := b.controller.or (some reason) }

/-- What `handleBidiSocket` does with `options.signal` when it is called. -/
def call (signal : Option JsError) : Bridge :=
  match signal with
  | some reason => abort { signal } (.given reason)
  | none => { signal, listening := true }

def after (ev : BridgeEvent) : Bridge :=
  match ev with
  | .abortSignal reason =>
      match b.signal with
      | some _ => b
      | none =>
          let aborted := { b with signal := some reason }
          if b.listening then aborted.abort (.given reason) else aborted
  | .closedRejects reason => b.abort (.given reason)
  | .finish => b.abort .default

end Bridge

/-- `handleBidiSocket` with this signal, as far as `request.signal` goes. -/
def handleBidiSocketSignal (signal : Option JsError) : Machine Bridge BridgeEvent where
  init := Bridge.call signal
  step b ev := some (b.after ev)

/-- `request.signal` is aborted with `options.signal`. -/
structure Bridge.Forwards (b : Bridge) : Prop where
  listening : b.signal = none → b.listening = true
  aborted : b.signal.isSome = true → b.controller.isSome = true

theorem Bridge.controller_abort (b : Bridge) (reason : AbortReason) :
    (b.abort reason).controller.isSome = true := by
  unfold Bridge.abort
  cases b.controller <;> rfl

theorem Bridge.forwards_call (signal : Option JsError) : (Bridge.call signal).Forwards := by
  cases signal with
  | none => exact ⟨fun _ => rfl, fun h => by cases h⟩
  | some reason => exact ⟨(fun h => by cases h), fun _ => rfl⟩

theorem Bridge.Forwards.after {b : Bridge} (hb : b.Forwards) (ev : BridgeEvent) :
    (b.after ev).Forwards := by
  cases ev with
  | abortSignal reason =>
      cases hsignal : b.signal with
      | some _ =>
          simp only [Bridge.after, hsignal]
          exact hb
      | none =>
          simp only [Bridge.after, hsignal, hb.listening hsignal, if_true]
          exact ⟨(fun h => by cases h), fun _ => Bridge.controller_abort _ _⟩
  | closedRejects reason => exact ⟨hb.listening, fun _ => Bridge.controller_abort _ _⟩
  | finish => exact ⟨hb.listening, fun _ => Bridge.controller_abort _ _⟩

/-- The single-stream bridge: aborted at the call or later, the signal has
    always reached the request. -/
theorem forwards_of_run {signal : Option JsError} {evs : List BridgeEvent} {b : Bridge}
    (hrun : (handleBidiSocketSignal signal).run evs = some b) : b.Forwards := by
  refine (handleBidiSocketSignal signal).exec_invariant ?_ (Bridge.forwards_call signal) hrun
  rintro b ev b' hb ⟨⟩
  exact hb.after ev

-- ============================================================================
-- The requests of a connection
-- ============================================================================

/-- What has happened to the bridge of an RPC: its signal is that of the
    entry's controller, which is new when the bridge is called. -/
def Rpc.bridgeEvents (r : Rpc) : List BridgeEvent :=
  r.aborted.toList.map .abortSignal ++
    (match r.readable.phase with
      | .errored e => [.closedRejects e]
      | .waiting _ | .buffered .. | .closing .. | .closed => []) ++
    if r.phase = .serving then [] else [.finish]

def Rpc.bridge (r : Rpc) : Bridge := r.bridgeEvents.foldl Bridge.after (Bridge.call none)

/-- `request.signal` is aborted. -/
def Rpc.RequestAborted (r : Rpc) : Prop := r.bridge.controller.isSome = true

theorem Rpc.requestAborted_iff {r : Rpc} :
    r.RequestAborted ↔
      r.aborted.isSome = true ∨ (∃ e, r.readable.phase = .errored e) ∨ r.phase ≠ .serving := by
  unfold Rpc.RequestAborted Rpc.bridge Rpc.bridgeEvents
  cases haborted : r.aborted <;> cases hphase : r.readable.phase <;>
    by_cases hserving : r.phase = .serving <;>
      simp [hserving, Bridge.call, Bridge.after, Bridge.abort]

theorem Rpc.requestAborted_kill (r : Rpc) (reason : JsError) : (r.kill reason).RequestAborted := by
  refine requestAborted_iff.mpr (.inl ?_)
  show (r.aborted.or (some reason)).isSome = true
  cases r.aborted <;> rfl

/-- What a bridge does with its own readable leaves its request aborted. -/
theorem Rpc.RequestAborted.of_readable {r : Rpc} (hr : r.RequestAborted)
    {readable : ReadableStream Bytes JsError}
    (herrored : ∀ e, r.readable.phase = .errored e → readable.phase = .errored e) :
    { r with readable }.RequestAborted := by
  rcases requestAborted_iff.mp hr with haborted | ⟨e, he⟩ | hphase
  · exact requestAborted_iff.mpr (.inl haborted)
  · exact requestAborted_iff.mpr (.inr (.inl ⟨e, herrored e he⟩))
  · exact requestAborted_iff.mpr (.inr (.inr hphase))

namespace MuxedSocket

/-- Once `options.signal` is aborted, so is the signal of every request. -/
def SignalReaches (c : MuxedSocket) : Prop :=
  c.signalAborted = true → ∀ (h : Nat) (r : Rpc), c.rpcs[h]? = some r → r.RequestAborted

/-- The frame opens a stream. -/
def Dispatches (c : MuxedSocket) (ev : MuxedEvent) : Prop :=
  ∃ message frame, ev = .receive message ∧ c.ended = none ∧
    decodeStreamFrame message = .ok frame ∧ c.streams frame.streamId = none ∧
      frame.flag = flagEnvelopeHeaders

/-- What the single listener on the signal asks of the steps. -/
structure AbortFits (c : MuxedSocket) (ev : MuxedEvent) : Prop where
  /-- Streams open before the signal aborts. -/
  dispatch : c.signalAborted = true → ¬ c.Dispatches ev
  /-- When it does, each stream has its entry, or its request is aborted. -/
  registered : ∀ reason, ev = .abortSignal reason → c.signalAborted = false →
    ∀ (h : Nat) (r : Rpc), c.rpcs[h]? = some r →
      c.streams r.streamId = some h ∨ r.RequestAborted

variable {c c' : MuxedSocket} {setup : MuxedSetup}

-- ============================================================================
-- One step
-- ============================================================================

theorem SignalReaches.modifyRpc (hc : c.SignalReaches) {h : Nat} {f : Rpc → Rpc}
    (hf : ∀ r, c.rpcs[h]? = some r → r.RequestAborted → (f r).RequestAborted) :
    (c.modifyRpc h f).SignalReaches :=
  fun hsignal => Store.forall_modify (P := fun _ r => Rpc.RequestAborted r) (hc hsignal)
    fun r hr => hf r hr (hc hsignal h r hr)

/-- A teardown aborts the streams in the map. -/
theorem requestAborted_teardown {reason : JsError}
    (hrest : ∀ (h : Nat) (r : Rpc), c.rpcs[h]? = some r →
      c.streams r.streamId = some h ∨ r.RequestAborted) :
    ∀ (h : Nat) (r : Rpc), (c.teardown reason).rpcs[h]? = some r → r.RequestAborted := by
  intro h r hr
  simp only [MuxedSocket.teardown, List.getElem?_mapIdx, Option.map_eq_some_iff] at hr
  obtain ⟨r₀, hr₀, rfl⟩ := hr
  by_cases hreg : c.streams r₀.streamId = some h
  · rw [if_pos hreg]
    exact r₀.requestAborted_kill reason
  · rw [if_neg hreg]
    exact (hrest h r₀ hr₀).resolve_left hreg

theorem SignalReaches.teardown (hc : c.SignalReaches) (reason : JsError) :
    (c.teardown reason).SignalReaches :=
  fun hsignal => requestAborted_teardown fun h r hr => .inr (hc hsignal h r hr)

theorem SignalReaches.endLoop (hc : c.SignalReaches) (cause : LoopEnd) :
    (c.endLoop cause).SignalReaches := hc.teardown (teardownReason cause)

theorem SignalReaches.enqueue (hc : c.SignalReaches) (h : Nat) (envelope : Bytes) :
    (c.enqueue h envelope).SignalReaches := by
  unfold MuxedSocket.enqueue
  cases hr : c.rpcs[h]? with
  | none => exact hc
  | some r =>
      cases htakes : r.readable.enqueue envelope with
      | none =>
          simp only [htakes]
          exact hc.endLoop _
      | some readable =>
          simp only [htakes]
          refine hc.modifyRpc fun r' hr' haborted => haborted.of_readable fun e he => ?_
          obtain rfl : r = r' := Option.some.inj (hr.symm.trans hr')
          rw [ReadableStream.enqueue_of_errored he] at htakes
          cases htakes

theorem SignalReaches.step (hc : c.SignalReaches) {ev : MuxedEvent} (hfits : c.AbortFits ev)
    (hstep : c.step setup ev = some c') : c'.SignalReaches := by
  cases stepped hstep with
  | malformed | endLoop => exact hc.endLoop _
  | idle => exact SignalReaches.endLoop (c := { c with closeCalls := _ }) hc _
  | start message f hopen hframe hfree hheaders =>
      intro hsignal
      exact absurd ⟨message, f, rfl, hopen, hframe, hfree, hheaders⟩ (hfits.dispatch hsignal)
  | late | writeRefused | write | finish => exact hc
  | reset message f h =>
      exact SignalReaches.modifyRpc (c := c.delete f.streamId) hc fun r _ _ =>
        r.requestAborted_kill _
  | enqueue message f h => exact hc.enqueue h _
  | abortSignal reason =>
      obtain ⟨hsignal, -⟩ := Option.ite_none_left_eq_some.mp hstep
      exact fun _ => requestAborted_teardown
        (hfits.registered reason rfl (Bool.eq_false_iff.mpr hsignal))
  | read h =>
      exact hc.modifyRpc fun r _ haborted =>
        haborted.of_readable fun e he => ReadableStream.phase_read_of_errored he
  | finishRpc h | readerCancelled h =>
      exact hc.modifyRpc fun _ _ _ => Rpc.requestAborted_iff.mpr (.inr (.inr fun h => by cases h))
  | release ev h r after _ _ hafter =>
      have hcleans : after ≠ .serving := by
        rw [hafter]
        split <;> decide
      exact SignalReaches.modifyRpc (c := c.delete r.streamId) hc fun _ _ _ =>
        Rpc.requestAborted_iff.mpr (.inr (.inr hcleans))

/-- A stream that opens too late, or has no entry when the signal aborts, runs
    on. -/
theorem abortFits_of_reaches {ev : MuxedEvent}
    (hnext : ∀ c', c.step setup ev = some c' → c'.SignalReaches) : c.AbortFits ev where
  dispatch := by
    rintro hsignal ⟨message, f, rfl, hopen, hframe, hfree, hheaders⟩
    have hstep : c.step setup (.receive message) = some (c.startStream f.streamId f.envelope) := by
      simp [MuxedSocket.step, hopen, hframe, dispatch, hfree, hheaders]
    have hnew := hnext _ hstep hsignal c.rpcs.length _ (Store.getElem?_concat.mpr (.inr ⟨rfl, rfl⟩))
    rcases Rpc.requestAborted_iff.mp hnew with haborted | ⟨e, he⟩ | hphase
    · cases haborted
    · cases he
    · exact hphase rfl
  registered := by
    rintro reason rfl hsignal h r hr
    by_cases hreg : c.streams r.streamId = some h
    · exact .inl hreg
    · have hstep : c.step setup (.abortSignal reason) =
          some { c.teardown reason with signalAborted := true } := by
        simp [MuxedSocket.step, hsignal]
      refine .inr (hnext _ hstep rfl h r ?_)
      simp [MuxedSocket.teardown, hr, hreg]

end MuxedSocket

-- ============================================================================
-- Whole runs
-- ============================================================================

/-- Whenever the signal aborts, `handleBidiSocket` hands that on to its request;
    `handleMuxedBidiSocket` does so for every request exactly if no stream
    opens after that and none has lost its entry before. -/
theorem signal_reaches_iff (setup : MuxedSetup) (evs : List MuxedEvent) :
    (∀ signal evs b, (handleBidiSocketSignal signal).run evs = some b →
      b.signal.isSome = true → b.controller.isSome = true) ∧
    ((handleMuxedBidiSocket setup).Always MuxedSocket.SignalReaches
      (handleMuxedBidiSocket setup).init
        evs ↔
      (handleMuxedBidiSocket setup).Meets MuxedSocket.AbortFits (handleMuxedBidiSocket setup).init
        evs) := by
  refine ⟨fun signal evs b hrun => (forwards_of_run hrun).aborted, ?_⟩
  refine Machine.always_iff_meets (I := MuxedSocket.SignalReaches) _ ?_ ?_ ?_ ?_ evs
  · exact fun c ev c' hc hfits hstep => hc.step hfits hstep
  · exact fun _ hc => hc
  · exact fun c ev _ hnext => MuxedSocket.abortFits_of_reaches hnext
  · exact fun _ _ _ h => by cases h

/-- The signal is aborted before the call; the first stream of the connection
    is served all the same. -/
theorem aborted_server_serves :
    ¬ ∀ setup evs, (handleMuxedBidiSocket setup).Always MuxedSocket.SignalReaches
        (handleMuxedBidiSocket setup).init evs := by
  intro h
  have hrun := h { signalAborted := true }
    [.receive (encodeStreamFrame 1 (encodeEnvelope flagEnvelopeHeaders []))]
  have hserved := (hrun.2 _ rfl) rfl 0 _ rfl
  cases hserved

end Core
end BidiWeb
