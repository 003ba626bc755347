/-
  BidiWeb.Web.ResponseDelivery

  What a call on the browser client gets to read of what it was sent.

  `route` puts a chunk into the stream's readable, where it waits for the
  envelope reader whenever that one already holds an envelope the consumer
  has not taken.  `failAll` errors the readable, which discards what waits
  there.  So an envelope is lost exactly if it is still waiting when the
  connection ends; what the envelope reader has taken by then is safe
  (`EnvelopeReader.Inv`).
-/

import BidiWeb.Web.WebSocketMux

namespace BidiWeb
namespace Web

open BidiWeb.Lib

-- ============================================================================
-- What a step can do to one stream
-- ============================================================================

def Cause.endsConnection : Cause → Bool
  | .closeEvent _ | .muxClose => true
  | .resetFrame _ => false

/-- The connection ends: the mux fails every stream registered on it. -/
def MuxEvent.endsConnection : MuxEvent → Bool
  | .close | .onclose _ _ => true
  | .openStream | .resume _ | .write _ _ | .closeWriter _ | .closeStream _ | .onopen _
  | .peerClosing _ | .onerror _ | .onmessage _ _ | .pull _ | .settle _ | .read _ => false

/-- A step on one stream, and whether it is one that ends the connection. -/
inductive StreamStep [ConnectPackage] : Bool → Stream → Stream → Prop where
  | idle {ends : Bool} {s : Stream} : (ends = true → s.registered = false) → StreamStep ends s s
  | lost {s : Stream} (cause : Cause) (reason : Core.JsError) : s.registered = true →
      cause.endsConnection = true → StreamStep true s (s.fail cause reason)
  | reset {s : Stream} (k : Nat) : s.registered = true →
      StreamStep false s (s.fail (.resetFrame k) serverResetError)
  | route {s : Stream} (chunk : Bytes) (endStream : Bool) : s.registered = true →
      StreamStep false s (s.route chunk endStream)
  | release {s : Stream} : s.registered = true → StreamStep false s s.release
  | pull {s : Stream} {p} : s.response.pull s.readable = some p →
      StreamStep false s { s with response := p.1, readable := p.2 }
  | settle {s : Stream} {p} : s.response.settle s.readable = some p →
      StreamStep false s { s with response := p.1, readable := p.2 }
  | read {s : Stream} : StreamStep false s
      { s with response := { s.response with envelopes := s.response.envelopes.read } }

/-- Every stream takes a step, and only new streams are added. -/
def StreamsStep [ConnectPackage] (ends : Bool) (xs ys : List Stream) : Prop :=
  (∀ (h : Nat) (s : Stream), xs[h]? = some s →
      ∃ s' : Stream, ys[h]? = some s' ∧ StreamStep ends s s') ∧
    ∀ (h : Nat) (s' : Stream), ys[h]? = some s' → xs[h]? = none →
      ∃ k : Nat, s' = { socket := k }

namespace WebSocketMux

variable {connect : ConnectPackage} {m m' : WebSocketMux}

theorem streamsStep_same (xs : List Stream) : StreamsStep false xs xs := by
  refine ⟨fun h s hs => ⟨s, hs, .idle fun h => (by cases h)⟩, fun h s hs hnone => ?_⟩
  rw [hs] at hnone
  cases hnone

theorem streamsStep_modify {xs : List Stream} {h : Nat} {f : Stream → Stream}
    (hf : ∀ s, xs[h]? = some s → StreamStep false s (f s)) :
    StreamsStep false xs (xs.modify h f) := by
  refine ⟨fun j s hs => ?_, fun j s hs hnone => ?_⟩
  · by_cases hhj : h = j
    · subst hhj
      exact ⟨f s, Store.getElem?_modify.mpr (by simp [hs]), hf s hs⟩
    · exact ⟨s, Store.getElem?_modify.mpr (by simp [hhj, hs]), .idle fun h => (by cases h)⟩
  · rw [Store.getElem?_modify, hnone] at hs
    split at hs
    · obtain ⟨x, hx, -⟩ := hs
      cases hx
    · cases hs

theorem streamsStep_failAll (m : WebSocketMux) (cause : Cause) (reason : Core.JsError)
    (hcause : cause.endsConnection = true) :
    StreamsStep true m.streams (m.failAll cause reason).streams := by
  refine ⟨fun h s hs => ?_, fun h s hs hnone => ?_⟩
  · cases hreg : s.registered with
    | true =>
        exact ⟨s.fail cause reason, by simp [failAll, hs, hreg], .lost cause reason hreg hcause⟩
    | false => exact ⟨s, by simp [failAll, hs, hreg], .idle fun _ => hreg⟩
  · simp [failAll, hnone] at hs

theorem streamsStep_closeStream (m : WebSocketMux) (h : Nat) :
    StreamsStep false m.streams (m.closeStream h).streams := by
  unfold closeStream
  cases hs : m.streams[h]? with
  | none => exact streamsStep_same _
  | some s =>
      cases hreg : s.registered with
      | false => simpa [hreg] using streamsStep_same m.streams
      | true =>
          simp only [hreg, if_true, streams_closeIdle, streams_sendReset]
          refine streamsStep_modify fun t ht => ?_
          obtain rfl : s = t := Option.some.inj (hs.symm.trans ht)
          exact .release hreg

theorem streamsStep_route (m : WebSocketMux) (k : Nat) (message : Bytes) :
    StreamsStep false m.streams (m.route k message).streams := by
  unfold route
  split
  · split
    · exact streamsStep_same _
    · rename_i h he
      have hreg : ∀ s, m.streams[h]? = some s → s.registered = true := by
        intro s hs
        unfold entry at he
        split at he
        · cases he
        · split at he
          · rename_i t ht
            split at he
            · cases he
              obtain rfl : s = t := Option.some.inj (hs.symm.trans ht)
              assumption
            · cases he
          · cases he
      split
      · exact streamsStep_modify fun s hs => .reset k (hreg s hs)
      · exact streamsStep_modify fun s hs => .route _ _ (hreg s hs)
  · exact streamsStep_same _

theorem streamsStep_setStream {h : Nat} {s s' : Stream} (hs : m.streams[h]? = some s)
    (hstep : StreamStep false s s') : StreamsStep false m.streams (m.setStream h s').streams := by
  refine streamsStep_modify fun t ht => ?_
  obtain rfl : s = t := Option.some.inj (hs.symm.trans ht)
  exact hstep

/-- What any step of the mux does to its streams. -/
theorem streamsStep_of_step {ev : MuxEvent} (hstep : m.step ev = some m') :
    StreamsStep ev.endsConnection m.streams m'.streams := by
  cases ev with
  | openStream =>
      cases hstep
      unfold WebSocketMux.openStream
      split
      · exact streamsStep_same _
      · split <;> exact streamsStep_same _
  | resume i =>
      obtain ⟨k, -, rfl⟩ := step_resume.mp hstep
      refine ⟨fun h s hs => ⟨s, Store.getElem?_concat.mpr (.inl hs), .idle fun h => (by cases h)⟩,
        fun h s hs hnone => ?_⟩
      rcases Store.getElem?_concat.mp hs with hold | ⟨-, rfl⟩
      · rw [hold] at hnone
        cases hnone
      · exact ⟨k, rfl⟩
  | write h envelope =>
      obtain ⟨s, -, hf⟩ := onStream_eq_some hstep
      cases hf
      exact streamsStep_same _
  | closeWriter h =>
      obtain ⟨s, -, hf⟩ := onStream_eq_some hstep
      cases hf
      exact streamsStep_same _
  | closeStream h =>
      cases hstep
      exact streamsStep_closeStream m h
  | close =>
      cases hstep
      have hfail : @StreamsStep connect true m.streams
          ({ m with socket := none }.failAll .muxClose (closedError "")).streams :=
        streamsStep_failAll { m with socket := none } .muxClose (closedError "") rfl
      unfold close
      split <;> exact hfail
  | onopen k =>
      obtain ⟨w, -, -, -, rfl⟩ := onSocket_eq_some hstep
      exact streamsStep_same _
  | peerClosing k =>
      obtain ⟨w, -, -, -, rfl⟩ := onSocket_eq_some hstep
      exact streamsStep_same _
  | onerror k =>
      obtain ⟨w, -, -, -, rfl⟩ := onSocket_eq_some hstep
      exact streamsStep_same _
  | onclose k reason =>
      obtain ⟨w, -, -, -, rfl⟩ := onSocket_eq_some hstep
      exact streamsStep_failAll m (.closeEvent k) (closedError reason) rfl
  | onmessage k message =>
      obtain ⟨w, -, -, -, rfl⟩ := onSocket_eq_some hstep
      exact streamsStep_route m k message
  | pull h =>
      obtain ⟨s, hs, hf⟩ := onStream_eq_some hstep
      obtain ⟨p, hp, rfl⟩ := Option.map_eq_some_iff.mp hf
      exact streamsStep_setStream hs (.pull hp)
  | settle h =>
      obtain ⟨s, hs, hf⟩ := onStream_eq_some hstep
      obtain ⟨p, hp, rfl⟩ := Option.map_eq_some_iff.mp hf
      exact streamsStep_setStream hs (.settle hp)
  | read h =>
      obtain ⟨s, hs, hf⟩ := onStream_eq_some hstep
      cases hf
      exact streamsStep_setStream hs .read

end WebSocketMux

-- ============================================================================
-- One stream
-- ============================================================================

namespace Stream

/-- The end of the connection ended the stream. -/
def lostConnection (s : Stream) : Bool :=
  match s.endedBy with
  | some cause => cause.endsConnection
  | none => false

/-- No envelope waits in the readable: whatever is complete among the chunks
    routed is complete among those taken from it. -/
def Drained (s : Stream) : Prop :=
  completeEnvelopes (s.readable.received ++ s.readable.queue).flatten =
    completeEnvelopes s.readable.received.flatten

instance (s : Stream) : Decidable s.Drained := inferInstanceAs (Decidable (_ = _))

/-- Every complete envelope that was routed has been taken from the readable. -/
def Kept (s : Stream) : Prop :=
  completeEnvelopes s.routed.flatten = completeEnvelopes s.readable.received.flatten

/-- What is routed to a registered stream is handed on or queued, and a lost
    one has nothing queued. -/
structure Fed (s : Stream) : Prop where
  registered : s.registered = true →
    s.readable.canCloseOrEnqueue = true ∧ s.endedBy = none ∧
      s.readable.received ++ s.readable.queue = s.routed
  lost : s.lostConnection = true → s.registered = false ∧ s.readable.queue = []

/-- `Fed`, and the envelope reader has lost nothing. -/
structure Inv (s : Stream) : Prop extends Fed s where
  response : s.response.Inv s.readable

theorem fed_new (k : Nat) : Fed { socket := k } where
  registered := fun _ => ⟨rfl, rfl, rfl⟩
  lost := fun h => by cases h

theorem inv_new (k : Nat) : Inv { socket := k } where
  toFed := fed_new k
  response := EnvelopeReader.inv_init

variable {connect : ConnectPackage} {s s' : Stream}

theorem Fed.not_lost (hs : s.Fed) (hreg : s.registered = true) : s.lostConnection = false := by
  rw [lostConnection, (hs.registered hreg).2.1]

theorem Fed.fail (cause : Cause) (reason : Core.JsError) : (s.fail cause reason).Fed where
  registered := fun h => by cases h
  lost := fun _ => ⟨rfl, (ReadableStream.received_error s.readable reason).2.1⟩

theorem Fed.route (hs : s.Fed) (hreg : s.registered = true) (chunk : Bytes) (endStream : Bool) :
    (s.route chunk endStream).Fed := by
  obtain ⟨hopen, hended, hrouted⟩ := hs.registered hreg
  obtain ⟨readable, henq⟩ := ReadableStream.exists_enqueue hopen chunk
  obtain ⟨hmoved, -, -⟩ := ReadableStream.received_queue_enqueue henq
  have heq : s.route chunk endStream = { s with
      endSeen := s.endSeen || endStream
      readable := readable
      routed := s.routed ++ [chunk] } := by
    simp [Stream.route, henq]
  rw [heq]
  refine ⟨fun _ => ⟨?_, hended, ?_⟩, fun hlost => ?_⟩
  · exact ReadableStream.canCloseOrEnqueue_of_enqueue henq
  · rw [hmoved, hrouted]
  · have hno := hs.not_lost hreg
    rw [show s.lostConnection = true from hlost] at hno
    cases hno

theorem Fed.release (hs : s.Fed) (hreg : s.registered = true) : s.release.Fed where
  registered := fun h => by cases h
  lost := fun hlost => by
    have hno := hs.not_lost hreg
    rw [show s.lostConnection = true from hlost] at hno
    cases hno

/-- A pull reads the readable at most once more. -/
theorem advance_readable (r : EnvelopeReader) (readable : ReadableStream Bytes Core.JsError) :
    (r.advance readable).2 = readable ∨ (r.advance readable).2 = readable.read := by
  unfold EnvelopeReader.advance
  split
  · exact Or.inl rfl
  · exact Or.inr rfl

theorem pull_readable {r : EnvelopeReader} {readable : ReadableStream Bytes Core.JsError} {p}
    (h : r.pull readable = some p) : p.2 = readable ∨ p.2 = readable.read := by
  unfold EnvelopeReader.pull at h
  split at h
  · cases h
    exact advance_readable r readable
  · cases h

theorem settle_readable {r : EnvelopeReader} {readable : ReadableStream Bytes Core.JsError} {p}
    (h : r.settle readable = some p) : p.2 = readable ∨ p.2 = readable.read := by
  unfold EnvelopeReader.settle at h
  split at h
  · cases h
  · cases h
    exact advance_readable _ readable
  · cases h
    exact Or.inl rfl
  · cases h
    exact Or.inl rfl

/-- The envelope reader taking its turn moves chunks out of the queue at most. -/
theorem Fed.ofReader (hs : s.Fed) {p : EnvelopeReader × ReadableStream Bytes Core.JsError}
    (hread : p.2 = s.readable ∨ p.2 = s.readable.read) :
    Fed { s with response := p.1, readable := p.2 } := by
  refine ⟨fun hreg => ?_, fun hlost => ?_⟩
  · obtain ⟨hopen, hended, hrouted⟩ := hs.registered hreg
    rcases hread with h | h
    · simp only [h]
      exact ⟨hopen, hended, hrouted⟩
    · simp only [h]
      refine ⟨by simpa using hopen, hended, ?_⟩
      rw [ReadableStream.received_queue_read]
      exact hrouted
  · obtain ⟨hreg, hqueue⟩ := hs.lost hlost
    rcases hread with h | h
    · simp only [h]
      exact ⟨hreg, hqueue⟩
    · simp only [h]
      exact ⟨hreg, ReadableStream.queue_read_of_nil hqueue⟩

/-- Whatever the envelope reader does. -/
theorem Fed.step {ends : Bool} (hs : s.Fed) (hstep : StreamStep ends s s') : s'.Fed := by
  cases hstep with
  | idle _ => exact hs
  | lost cause reason _ _ => exact Fed.fail cause reason
  | reset k _ => exact Fed.fail _ _
  | route chunk endStream hreg => exact hs.route hreg chunk endStream
  | release hreg => exact hs.release hreg
  | pull hp => exact hs.ofReader (pull_readable hp)
  | settle hp => exact hs.ofReader (settle_readable hp)
  | read => exact ⟨hs.registered, hs.lost⟩

/-- What the mux does to a readable does not disturb its reader. -/
theorem Inv.fail (hs : s.Inv) (cause : Cause) (reason : Core.JsError) :
    (s.fail cause reason).Inv where
  toFed := Fed.fail cause reason
  response := hs.response.of_grows (ReadableStream.received_error s.readable reason).2.2

theorem Inv.route (hs : s.Inv) (hreg : s.registered = true) (chunk : Bytes) (endStream : Bool) :
    (s.route chunk endStream).Inv where
  toFed := hs.toFed.route hreg chunk endStream
  response := by
    obtain ⟨readable, henq⟩ := ReadableStream.exists_enqueue (hs.registered hreg).1 chunk
    have hgrows := (ReadableStream.received_queue_enqueue henq).2.1
    simp only [Stream.route, henq, Option.getD_some]
    exact hs.response.of_grows hgrows

theorem Inv.release (hs : s.Inv) (hreg : s.registered = true) : s.release.Inv where
  toFed := hs.toFed.release hreg
  response := by
    obtain ⟨readable, hclose⟩ := ReadableStream.exists_close (hs.registered hreg).1
    have hgrows := (ReadableStream.received_queue_close hclose).2.2
    simp only [Stream.release, hclose, Option.getD_some]
    exact hs.response.of_grows hgrows

theorem Inv.ofReader (hs : s.Inv) {p : EnvelopeReader × ReadableStream Bytes Core.JsError}
    (hinv : p.1.Inv p.2) (hread : p.2 = s.readable ∨ p.2 = s.readable.read) :
    Inv { s with response := p.1, readable := p.2 } where
  toFed := hs.toFed.ofReader hread
  response := hinv

theorem Inv.read (hs : s.Inv) :
    Inv { s with response := { s.response with envelopes := s.response.envelopes.read } } where
  registered := hs.registered
  lost := hs.lost
  response := hs.response.read

theorem Inv.step [ConnectPackage.Lawful] {ends : Bool} (hs : s.Inv) (hstep : StreamStep ends s s') :
    s'.Inv := by
  cases hstep with
  | idle _ => exact hs
  | lost cause reason _ _ => exact hs.fail cause reason
  | reset k _ => exact hs.fail _ _
  | route chunk endStream hreg => exact hs.route hreg chunk endStream
  | release hreg => exact hs.release hreg
  | pull hp => exact hs.ofReader (hs.response.pull hp) (pull_readable hp)
  | settle hp => exact hs.ofReader (hs.response.settle hp) (settle_readable hp)
  | read => exact hs.read

/-- Reading from an empty queue gives no chunk. -/
theorem received_of_queue_nil {readable readable' : ReadableStream Bytes Core.JsError}
    (hqueue : readable.queue = [])
    (hread : readable' = readable ∨ readable' = readable.read) :
    readable'.received = readable.received := by
  rcases hread with rfl | rfl
  · rfl
  · have hmoved := ReadableStream.received_queue_read readable
    rw [hqueue, ReadableStream.queue_read_of_nil hqueue, List.append_nil, List.append_nil]
      at hmoved
    exact hmoved

/-- A stream is lost with an envelope missing exactly if it was so before, or
    the step ends the connection while an envelope waits. -/
theorem kept_step {ends : Bool} (hs : s.Fed) (hstep : StreamStep ends s s') :
    (s'.lostConnection = true → s'.Kept) ↔
      (s.lostConnection = true → s.Kept) ∧
        (ends = true → s.registered = true → s.Drained) := by
  cases hstep with
  | idle hidle =>
      refine ⟨fun h => ⟨h, fun hends hreg => ?_⟩, fun h => h.1⟩
      rw [hidle hends] at hreg
      cases hreg
  | lost cause reason hreg hcause =>
      have hno := hs.not_lost hreg
      obtain ⟨hrec, -, -⟩ := ReadableStream.received_error s.readable reason
      have hrouted := (hs.registered hreg).2.2
      have hlost : (s.fail cause reason).lostConnection = true := hcause
      have hkept : (s.fail cause reason).Kept ↔ s.Drained := by
        show completeEnvelopes s.routed.flatten =
          completeEnvelopes (s.readable.error reason).received.flatten ↔ _
        rw [hrec, ← hrouted]
        rfl
      simp [hlost, hkept, hno, hreg]
  | reset k hreg =>
      have hno := hs.not_lost hreg
      have hlost : (s.fail (.resetFrame k) serverResetError).lostConnection = false := rfl
      simp [hlost, hno]
  | route chunk endStream hreg =>
      have hno := hs.not_lost hreg
      have hlost : (s.route chunk endStream).lostConnection = false := hno
      simp [hlost, hno]
  | release hreg =>
      have hno := hs.not_lost hreg
      have hlost : s.release.lostConnection = false := hno
      simp [hlost, hno]
  | pull hp =>
      simp only [Bool.false_eq_true, false_implies, and_true]
      refine forall_congr' fun hlost => ?_
      have hsame := received_of_queue_nil (hs.lost hlost).2 (pull_readable hp)
      simp only [Kept, hsame]
  | settle hp =>
      simp only [Bool.false_eq_true, false_implies, and_true]
      refine forall_congr' fun hlost => ?_
      have hsame := received_of_queue_nil (hs.lost hlost).2 (settle_readable hp)
      simp only [Kept, hsame]
  | read =>
      simp only [Bool.false_eq_true, false_implies, and_true]
      exact Iff.rfl

end Stream

-- ============================================================================
-- Whole runs
-- ============================================================================

/-- When the connection ends, no envelope waits in the readable of a stream
    that is still registered. -/
def EndsDrained (m : WebSocketMux) (ev : MuxEvent) : Prop :=
  ev.endsConnection = true → ∀ s ∈ m.streams, s.registered = true → s.Drained

instance (m : WebSocketMux) (ev : MuxEvent) : Decidable (EndsDrained m ev) :=
  inferInstanceAs (Decidable (_ → _))

/-- No stream has been lost with an envelope missing. -/
def AllKept (m : WebSocketMux) : Prop := ∀ s ∈ m.streams, s.lostConnection = true → s.Kept

def StreamsInv (m : WebSocketMux) : Prop := ∀ s ∈ m.streams, s.Inv

section

variable [ConnectPackage]

theorem mem_of_streamsStep {ends : Bool} {xs ys : List Stream} (h : StreamsStep ends xs ys)
    {s' : Stream} (hs' : s' ∈ ys) :
    (∃ s ∈ xs, StreamStep ends s s') ∨ ∃ k, s' = { socket := k } := by
  obtain ⟨i, hi⟩ := List.getElem?_of_mem hs'
  cases hs : xs[i]? with
  | none => exact Or.inr (h.2 i s' hi hs)
  | some s =>
      obtain ⟨t, ht, hstep⟩ := h.1 i s hs
      obtain rfl : s' = t := Option.some.inj (hi.symm.trans ht)
      exact Or.inl ⟨s, List.mem_of_getElem? hs, hstep⟩

theorem streamsInv_step [ConnectPackage.Lawful] {m m' : WebSocketMux} {ev : MuxEvent}
    (hm : StreamsInv m) (hstep : m.step ev = some m') : StreamsInv m' := by
  intro s' hs'
  rcases mem_of_streamsStep (WebSocketMux.streamsStep_of_step hstep) hs' with
    ⟨s, hs, hstream⟩ | ⟨k, rfl⟩
  · exact (hm s hs).step hstream
  · exact Stream.inv_new k

theorem allKept_step {m m' : WebSocketMux} {ev : MuxEvent} (hm : StreamsInv m)
    (hstep : m.step ev = some m') : AllKept m' ↔ AllKept m ∧ EndsDrained m ev := by
  have hstreams := WebSocketMux.streamsStep_of_step hstep
  constructor
  · intro hkept
    have hboth : ∀ s ∈ m.streams, (s.lostConnection = true → s.Kept) ∧
        (ev.endsConnection = true → s.registered = true → s.Drained) := by
      intro s hs
      obtain ⟨i, hi⟩ := List.getElem?_of_mem hs
      obtain ⟨s', hs', hstream⟩ := hstreams.1 i s hi
      exact (Stream.kept_step (hm s hs).toFed hstream).mp (hkept s' (List.mem_of_getElem? hs'))
    exact ⟨fun s hs => (hboth s hs).1, fun hends s hs => (hboth s hs).2 hends⟩
  · rintro ⟨hkept, hdrained⟩ s' hs'
    rcases mem_of_streamsStep hstreams hs' with ⟨s, hs, hstream⟩ | ⟨k, rfl⟩
    · exact (Stream.kept_step (hm s hs).toFed hstream).mpr
        ⟨hkept s hs, fun hends => hdrained hends s hs⟩
    · intro h
      cases h

theorem allKept_exec [ConnectPackage.Lawful] {closeWhenIdle : Bool} {m m' : WebSocketMux}
    {evs : List MuxEvent}
    (hm : StreamsInv m) (hexec : (webSocketMux closeWhenIdle).exec m evs = some m') :
    StreamsInv m' ∧
      (AllKept m' ↔ AllKept m ∧ (webSocketMux closeWhenIdle).Meets EndsDrained m evs) := by
  induction evs generalizing m with
  | nil =>
      cases hexec
      simp [hm]
  | cons ev evs ih =>
      obtain ⟨m₁, hstep, hrest⟩ := (Machine.exec_cons _).mp hexec
      obtain ⟨hinv, hiff⟩ := ih (streamsInv_step hm hstep) hrest
      refine ⟨hinv, ?_⟩
      rw [hiff, allKept_step hm hstep, Machine.meets_cons _ hstep, and_assoc]

end

end Web
end BidiWeb
