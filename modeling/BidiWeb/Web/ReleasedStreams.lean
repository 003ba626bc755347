/-
  BidiWeb.Web.ReleasedStreams

  When the calls of a mux give back the streams they opened.

  A call that ends in `iterate()` gives its stream back there; one that throws
  before, or whose consumer never asks for a message or stops at one, does
  not, and what it leaves in `entries` keeps the RPC running on the server
  and a dedicated connection open.  `closeStream` itself does nothing for a
  stream the server has reset, and sends its own reset on the current socket
  of the mux.
-/

import BidiWeb.Web.SocketProgress
import BidiWeb.Web.TransportCall

namespace BidiWeb
namespace Web

open BidiWeb.Lib
open BidiWeb.Core (JsError Code)

-- ============================================================================
-- What it means to be released
-- ============================================================================

/-- The server finished the stream, or reset it. -/
def Stream.serverEnded (s : Stream) : Bool :=
  s.endSeen ||
    match s.endedBy with
    | some (.resetFrame _) => true
    | _ => false

namespace WebSocketMux

/-- The frame of stream `h` that `closeStream` sends has been sent on socket `k`. -/
def resetSent (m : WebSocketMux) (h k : Nat) : Bool :=
  m.sockets[k]?.any fun w => w.sent.contains (h, Core.encodeEnvelope flagEnvelopeReset [])

/-- No socket of the mux is open. -/
def Disconnected (m : WebSocketMux) : Prop := ∀ w ∈ m.sockets, w.readyState ≠ .opened

instance (m : WebSocketMux) : Decidable m.Disconnected :=
  inferInstanceAs (Decidable (∀ w ∈ m.sockets, _))

end WebSocketMux

/-- The stream `s` of a call that has ended after a step from `t` to `t'`: its
    entry is gone; the step that ended the call leaves it with a reset sent on
    its socket, if that is open and the server had not ended it; and a
    dedicated connection that no entry remains on is not open. -/
structure Stream.Released (t t' : Transport) (h : Nat) (s : Stream) : Prop where
  unregistered : s.registered = false
  reset : t.hasEnded h = false → s.serverEnded = false →
    t.mux.readyStateIs s.socket .opened = true → t'.mux.resetSent h s.socket = true
  idle : t'.mux.closeWhenIdle = true → (∀ u ∈ t'.mux.streams, u.registered = false) →
    t'.mux.Disconnected

/-- The streams of all calls that have ended are released. -/
def CallsReleased (t t' : Transport) : Prop :=
  ∀ (h : Nat) (s : Stream), t'.hasEnded h = true →
    t'.mux.streams[h]? = some s → s.Released t t' h

-- ============================================================================
-- The condition
-- ============================================================================

namespace Transport

/-- No reset is owed for the stream `s`. -/
def Settled (t : Transport) (h : Nat) (s : Stream) : Prop :=
  s.serverEnded = true ∨ t.mux.readyStateIs s.socket .opened = false ∨
    t.mux.resetSent h s.socket = true

/-- The connection of a call was lost before it ended. -/
def Lost (t : Transport) (h : Nat) : Prop :=
  ∀ s ∈ t.mux.streams[h]?, s.registered = false ∧ t.mux.readyStateIs s.socket .opened = false ∧
    (t.mux.closeWhenIdle = true → t.mux.Disconnected)

/-- `closeStream` gives the stream of a call back: it is registered and the
    current socket is its own, or nothing is left to do. -/
def Closable (t : Transport) (h : Nat) : Prop :=
  ∀ s ∈ t.mux.streams[h]?,
    (t.Settled h s ∨ s.registered = true ∧ t.mux.openSocket = some s.socket) ∧
      (t.mux.closeWhenIdle = true → s.registered = true ∨ t.mux.Disconnected)

instance (t : Transport) (h : Nat) (s : Stream) : Decidable (t.Settled h s) :=
  inferInstanceAs (Decidable (_ ∨ _))

instance (t : Transport) (h : Nat) : Decidable (t.Lost h) :=
  inferInstanceAs (Decidable (∀ s ∈ t.mux.streams[h]?, _))

instance (t : Transport) (h : Nat) : Decidable (t.Closable h) :=
  inferInstanceAs (Decidable (∀ s ∈ t.mux.streams[h]?, _))

end Transport

section Condition

variable [ConnectPackage] {M : Type*} (parse : Bytes → Except JsError M)
  (endStreamFromJson : Bytes → Except JsError EndStream)

/-- No call ends outside `iterate()` unless its connection was lost, and one
    that ends there can give its stream back. -/
def EndsReleased (t : Transport) (ev : TransportEvent) : Prop :=
  (∀ h ∈ t.abandons ev, t.Lost h) ∧
    ∀ h ∈ t.concludes parse endStreamFromJson ev, t.Closable h

instance (t : Transport) (ev : TransportEvent) :
    Decidable (EndsReleased parse endStreamFromJson t ev) :=
  inferInstanceAs (Decidable (_ ∧ _))

end Condition

-- ============================================================================
-- A dedicated mux
-- ============================================================================

namespace WebSocketMux

variable {connect : ConnectPackage} {m m' : WebSocketMux}

/-- One call, one socket: no stream is opened before the socket is, and while
    the socket is open it is the current one. -/
structure Dedicated (m : WebSocketMux) : Prop where
  one : m.sockets.length ≤ 1
  idle : m.sockets = [] → m.opening = none
  opened : m.streams.length + m.ready.length + m.waiting.length ≤ m.sockets.length
  dialled : m.streams ≠ [] → 1 ≤ m.rank 0
  ready : ∀ k ∈ m.ready, 1 ≤ m.rank k
  current : m.rank 0 = 1 → m.socket = some 0

theorem dedicated_init : Dedicated { closeWhenIdle := true } where
  one := by simp
  idle := fun _ => rfl
  opened := by simp
  dialled := fun h => absurd rfl h
  ready := fun k hk => by cases hk
  current := fun h => by cases h

/-- The only socket of a dedicated mux. -/
theorem Dedicated.eq_zero (hm : m.Dedicated) {k : Nat} {w : Socket} (hw : m.sockets[k]? = some w) :
    k = 0 := by
  have hlt := (List.getElem?_eq_some_iff.mp hw).1
  have := hm.one
  omega

/-- The only stream of a dedicated mux. -/
theorem Dedicated.only (hm : m.Dedicated) {h : Nat} {s u : Stream} (hs : m.streams[h]? = some s)
    (hu : u ∈ m.streams) : s = u := by
  obtain ⟨j, hj⟩ := List.getElem?_of_mem hu
  have hjlt := (List.getElem?_eq_some_iff.mp hj).1
  have hhlt := (List.getElem?_eq_some_iff.mp hs).1
  have hjh : j = h := by
    have := hm.opened
    have := hm.one
    omega
  rw [hjh] at hj
  exact Option.some.inj (hs.symm.trans hj)

/-- A step that opens neither a socket nor a stream. -/
theorem Dedicated.of_kept (hm : m.Dedicated) (hkept : m.Kept m')
    (hsockets : m'.sockets.length = m.sockets.length)
    (hopening : m'.opening = m.opening ∨ m'.opening = none)
    (hpending : m'.ready.length + m'.waiting.length ≤ m.ready.length + m.waiting.length)
    (hcurrent : m'.rank 0 = 1 → m'.socket = some 0) : m'.Dedicated where
  one := by
    have := hm.one
    omega
  idle := by
    intro hnil
    have hold : m.sockets = [] := by
      apply List.eq_nil_of_length_eq_zero
      rw [← hsockets, hnil]
      rfl
    rcases hopening with h | h
    · rw [h, hm.idle hold]
    · exact h
  opened := by
    have := hm.opened
    have := hkept.length
    omega
  dialled := by
    intro hne
    have hold : m.streams ≠ [] := by
      intro hnil
      apply hne
      apply List.eq_nil_of_length_eq_zero
      rw [hkept.length, hnil]
      rfl
    have := hm.dialled hold
    have := hkept.rank 0
    omega
  ready := hkept.ready hm.ready
  current := hcurrent

theorem Dedicated.sendOn (hm : m.Dedicated) (k h : Nat) (envelope : Bytes) :
    (m.sendOn k h envelope).Dedicated := by
  apply hm.of_kept (kept_sendOn m k h envelope) (List.length_modify ..) (Or.inl rfl) (Nat.le_refl _)
  intro hrank
  rw [rank_sendOn] at hrank
  exact hm.current hrank

theorem Dedicated.sendReset (hm : m.Dedicated) (h : Nat) (s : Stream) :
    (m.sendReset h s).Dedicated := by
  unfold WebSocketMux.sendReset
  split
  · exact hm
  · split
    · exact hm.sendOn _ _ _
    · exact hm

/-- Only one stream changes. -/
theorem Dedicated.modifyStream (hm : m.Dedicated) {h : Nat} {f : Stream → Stream}
    (hsocket : ∀ s, (f s).socket = s.socket)
    (hreg : ∀ s, m.streams[h]? = some s → (f s).registered = true → s.registered = true) :
    Dedicated { m with streams := m.streams.modify h f } :=
  hm.of_kept (kept_modifyStream hsocket hreg) rfl (Or.inl rfl) (Nat.le_refl _) hm.current

theorem Dedicated.closeIdle (hm : m.Dedicated) : m.closeIdle.Dedicated := by
  unfold WebSocketMux.closeIdle
  split
  · rename_i k hk
    split
    · have hkept : m.Kept { m.wsClose k with socket := none } :=
        (kept_wsClose m k).trans (kept_of_rank (fun _ => Nat.le_refl _) rfl rfl)
      apply hm.of_kept hkept (List.length_modify ..) (Or.inl rfl) (Nat.le_refl _)
      intro hrank
      -- the socket that is closed is the only one
      obtain ⟨hopen, hne⟩ := rank_wsClose_eq_one.mp hrank
      have hzero := hm.current hopen
      rw [hk] at hzero
      exact absurd (Option.some.inj hzero) hne
    · exact hm
  · exact hm

theorem Dedicated.closeStream (hm : m.Dedicated) (h : Nat) : (m.closeStream h).Dedicated := by
  unfold WebSocketMux.closeStream
  split
  · rename_i s hs
    split
    · apply Dedicated.closeIdle
      exact (hm.sendReset h s).modifyStream (fun _ => rfl) fun _ _ hreg => by cases hreg
    · exact hm
  · exact hm

theorem Dedicated.openStream (hm : m.Dedicated) (hnone : m.sockets = []) :
    m.openStream.Dedicated := by
  have hempty : m.streams = [] ∧ m.ready = [] ∧ m.waiting = [] := by
    have := hm.opened
    rw [hnone, List.length_nil] at this
    refine ⟨?_, ?_, ?_⟩ <;>
      · apply List.eq_nil_of_length_eq_zero
        omega
  have hopen : m.openSocket = none := by
    unfold openSocket readyStateIs
    split
    · simp [hnone]
    · rfl
  have heq : m.openStream = { m with
      sockets := [{}]
      opening := some 0
      waiting := [0] } := by
    unfold WebSocketMux.openStream
    simp [hopen, hm.idle hnone, hnone, hempty.2.2]
  rw [heq]
  exact
    { one := Nat.le_refl 1
      idle := fun h => by cases h
      opened := by simp [hempty]
      dialled := fun h => absurd hempty.1 h
      ready := fun k hk => by
        rw [show k ∈ m.ready ↔ k ∈ ([] : List Nat) by rw [hempty.2.1]] at hk
        cases hk
      current := fun h => by cases h }

theorem Dedicated.resume (hm : m.Dedicated) {i k : Nat} (hk : m.ready[i]? = some k) :
    (m.resume i k).Dedicated := by
  have hlt := (List.getElem?_eq_some_iff.mp hk).1
  have hopened := hm.opened
  have hone := hm.one
  have hrank := hm.ready k (List.mem_of_getElem? hk)
  have hzero : k = 0 := by
    -- a socket that has been open has been dialled
    have hsome : k < m.sockets.length := by
      by_contra hge
      simp [rank, List.getElem?_eq_none (Nat.le_of_not_lt hge)] at hrank
    omega
  subst hzero
  exact
    { one := hm.one
      idle := hm.idle
      opened := by
        simp only [WebSocketMux.resume, List.length_append, List.length_singleton,
          List.length_eraseIdx, hlt, if_true]
        omega
      dialled := fun _ => hrank
      ready := fun j hj => hm.ready j (List.mem_of_mem_eraseIdx hj)
      current := hm.current }

theorem Dedicated.step (hm : m.Dedicated) {ev : MuxEvent}
    (hdial : ev = .openStream → m.sockets = []) (hclose : ev ≠ .close)
    (hstep : m.step ev = some m') : m'.Dedicated := by
  -- the reader of a stream changes that stream only
  have hstream : ∀ {h : Nat} {s s' : Stream}, m.streams[h]? = some s → s'.socket = s.socket →
      s'.registered = s.registered → (m.setStream h s').Dedicated := by
    intro h s s' hs hsocket hreg
    exact hm.of_kept (quiet_setStream hs hsocket hreg).kept rfl (Or.inl rfl) (Nat.le_refl _)
      hm.current
  cases ev with
  | openStream =>
      cases hstep
      exact hm.openStream (hdial rfl)
  | resume i =>
      obtain ⟨k, hk, rfl⟩ := step_resume.mp hstep
      exact hm.resume hk
  | write h envelope =>
      obtain ⟨s, -, hf⟩ := onStream_eq_some hstep
      cases hf
      exact hm.sendOn _ _ _
  | closeWriter h =>
      obtain ⟨s, -, hf⟩ := onStream_eq_some hstep
      cases hf
      exact hm.sendOn _ _ _
  | closeStream h =>
      cases hstep
      exact hm.closeStream h
  | close => exact absurd rfl hclose
  | onopen k =>
      obtain ⟨w, hw, -, hst, rfl⟩ := onSocket_eq_some hstep
      obtain rfl := hm.eq_zero hw
      apply hm.of_kept (quiet_onopen hw (of_decide_eq_true hst)).kept (List.length_modify ..)
        (Or.inr rfl)
      · have hsplit := List.length_eq_length_filter_add (l := m.waiting) fun j => decide (j = 0)
        simp only [WebSocketMux.onopen, List.length_append, decide_not] at hsplit ⊢
        omega
      · intro _
        rfl
  | peerClosing k =>
      obtain ⟨w, hw, -, hst, rfl⟩ := onSocket_eq_some hstep
      obtain rfl := hm.eq_zero hw
      have hkept : m.Kept (m.setSocket 0 fun v => { v with readyState := .closing }) := by
        apply kept_setSocket
        intro v hv
        obtain rfl : w = v := Option.some.inj (hw.symm.trans hv)
        simp [of_decide_eq_true hst, ReadyState.rank]
      apply hm.of_kept hkept (List.length_modify ..) (Or.inl rfl) (Nat.le_refl _)
      intro hrank
      simp [rank, setSocket, hw, ReadyState.rank] at hrank
  | onerror k =>
      obtain ⟨w, hw, -, -, rfl⟩ := onSocket_eq_some hstep
      obtain rfl := hm.eq_zero hw
      apply hm.of_kept (quiet_onerror m 0).kept (List.length_modify ..) (Or.inr rfl)
      · have := List.length_filter_le (fun j => decide (j ≠ 0)) m.waiting
        simp only [WebSocketMux.onerror]
        omega
      · intro hrank
        simp [rank, WebSocketMux.onerror, hw, ReadyState.rank] at hrank
  | onclose k reason =>
      obtain ⟨w, hw, -, -, rfl⟩ := onSocket_eq_some hstep
      obtain rfl := hm.eq_zero hw
      apply hm.of_kept (quiet_onclose m 0 reason).kept (List.length_modify ..) (Or.inr rfl)
        (Nat.le_refl _)
      intro hrank
      simp [rank, WebSocketMux.onclose, failAll, hw, ReadyState.rank] at hrank
  | onmessage k message =>
      obtain ⟨w, -, -, -, rfl⟩ := onSocket_eq_some hstep
      unfold route
      split
      · split
        · exact hm
        · split
          · exact hm.modifyStream (fun _ => rfl) fun _ _ hreg => by cases hreg
          · exact hm.modifyStream (fun _ => rfl) fun _ _ hreg => hreg
      · exact hm
  | pull h =>
      obtain ⟨s, hs, hf⟩ := onStream_eq_some hstep
      obtain ⟨p, -, rfl⟩ := Option.map_eq_some_iff.mp hf
      exact hstream hs rfl rfl
  | settle h =>
      obtain ⟨s, hs, hf⟩ := onStream_eq_some hstep
      obtain ⟨p, -, rfl⟩ := Option.map_eq_some_iff.mp hf
      exact hstream hs rfl rfl
  | read h =>
      obtain ⟨s, hs, hf⟩ := onStream_eq_some hstep
      cases hf
      exact hstream hs rfl rfl

theorem closeWhenIdle_sendReset (m : WebSocketMux) (h : Nat) (s : Stream) :
    (m.sendReset h s).closeWhenIdle = m.closeWhenIdle := by
  unfold sendReset
  split
  · rfl
  · split <;> rfl

theorem closeWhenIdle_closeIdle (m : WebSocketMux) :
    m.closeIdle.closeWhenIdle = m.closeWhenIdle := by
  unfold closeIdle
  split
  · split <;> rfl
  · rfl

theorem closeWhenIdle_closeStream (m : WebSocketMux) (h : Nat) :
    (m.closeStream h).closeWhenIdle = m.closeWhenIdle := by
  unfold closeStream
  split
  · rename_i s hs
    split
    · simp only [closeWhenIdle_closeIdle, closeWhenIdle_sendReset]
    · rfl
  · rfl

theorem closeWhenIdle_step {ev : MuxEvent} (hstep : m.step ev = some m') :
    m'.closeWhenIdle = m.closeWhenIdle := by
  cases ev with
  | openStream =>
      cases hstep
      unfold openStream
      split
      · rfl
      · split <;> rfl
  | resume i =>
      obtain ⟨k, -, rfl⟩ := step_resume.mp hstep
      rfl
  | closeStream h =>
      cases hstep
      exact closeWhenIdle_closeStream m h
  | close =>
      cases hstep
      unfold close
      split <;> rfl
  | onmessage k message =>
      obtain ⟨w, -, -, -, rfl⟩ := onSocket_eq_some hstep
      unfold route
      split
      · split
        · rfl
        · split <;> rfl
      · rfl
  | write h envelope | closeWriter h | read h =>
      obtain ⟨s, -, hf⟩ := onStream_eq_some hstep
      cases hf
      rfl
  | onopen k | peerClosing k | onerror k | onclose k reason =>
      obtain ⟨w, -, -, -, rfl⟩ := onSocket_eq_some hstep
      rfl
  | pull h | settle h =>
      obtain ⟨s, -, hf⟩ := onStream_eq_some hstep
      obtain ⟨p, -, rfl⟩ := Option.map_eq_some_iff.mp hf
      rfl

-- ============================================================================
-- What `closeStream` achieves
-- ============================================================================

theorem Dedicated.disconnected_iff (hm : m.Dedicated) : m.Disconnected ↔ m.rank 0 ≠ 1 := by
  constructor
  · intro hdown hrank
    obtain ⟨w, hw⟩ : ∃ w, m.sockets[0]? = some w := by
      cases hw : m.sockets[0]? with
      | none => simp [rank, hw] at hrank
      | some w => exact ⟨w, rfl⟩
    have hopened := readyStateIs_opened.mpr hrank
    simp only [readyStateIs, hw, decide_eq_true_eq] at hopened
    exact hdown w (List.mem_of_getElem? hw) hopened
  · intro hrank w hmem hst
    obtain ⟨k, hw⟩ := List.getElem?_of_mem hmem
    obtain rfl := hm.eq_zero hw
    exact hrank (by simp [rank, hw, hst, ReadyState.rank])

/-- The connection of a dedicated mux whose stream has been opened does not
    come back. -/
theorem Dedicated.disconnected_of_kept (hm : m.Dedicated) (hm' : m'.Dedicated)
    (hkept : m.Kept m') (hne : m.streams ≠ []) (hdown : m.Disconnected) : m'.Disconnected := by
  have hdialled := hm.dialled hne
  have hrank := hm.disconnected_iff.mp hdown
  have := hkept.rank 0
  exact hm'.disconnected_iff.mpr (by omega)

theorem Dedicated.disconnected_closeIdle (hm : m.Dedicated) (hclose : m.closeWhenIdle = true)
    (hall : ∀ s ∈ m.streams, s.registered = false) : m.closeIdle.Disconnected := by
  apply hm.closeIdle.disconnected_iff.mpr
  intro hrank
  unfold WebSocketMux.closeIdle at hrank
  split at hrank
  · rename_i k hk
    have hidle : (m.closeWhenIdle && m.streams.all (!·.registered)) = true := by
      simp only [hclose, Bool.true_and, List.all_eq_true]
      intro s hs
      simp [hall s hs]
    rw [if_pos hidle] at hrank
    obtain ⟨hopen, hne⟩ := rank_wsClose_eq_one.mp hrank
    have hzero := hm.current hopen
    rw [hk] at hzero
    exact hne (Option.some.inj hzero)
  · rename_i hnone
    have hzero := hm.current hrank
    rw [hnone] at hzero
    cases hzero

theorem Dedicated.disconnected_closeStream (hm : m.Dedicated) (hclose : m.closeWhenIdle = true)
    {h : Nat} {s : Stream} (hs : m.streams[h]? = some s) (hreg : s.registered = true) :
    (m.closeStream h).Disconnected := by
  unfold WebSocketMux.closeStream
  simp only [hs, hreg, if_true]
  have hsent := (hm.sendReset h s).modifyStream (h := h) (f := Stream.release) (fun _ => rfl)
    fun _ _ hr => by cases hr
  apply hsent.disconnected_closeIdle
  · simp only [closeWhenIdle_sendReset, hclose]
  · have hrelease : (m.streams.modify h Stream.release)[h]? = some s.release :=
      Store.getElem?_modify.mpr (by simp [hs])
    intro u hu
    have honly := hsent.only (h := h) (s := s.release) (u := u) ?_ hu
    · rw [← honly]
      rfl
    · simpa only [streams_sendReset] using hrelease

theorem resetSent_congr {h k : Nat}
    (hsent : m'.sockets.map (·.sent) = m.sockets.map (·.sent)) :
    m'.resetSent h k = m.resetSent h k := by
  have hview : ∀ n : WebSocketMux, n.resetSent h k = (n.sockets.map (·.sent))[k]?.any
      fun sent => sent.contains (h, Core.encodeEnvelope flagEnvelopeReset []) := by
    intro n
    rw [resetSent, List.getElem?_map]
    cases n.sockets[k]? <;> rfl
  rw [hview, hview, hsent]

theorem resetSent_sendOn {h k j : Nat} (hopen : m.readyStateIs j .opened = true) :
    (m.sendOn j h (Core.encodeEnvelope flagEnvelopeReset [])).resetSent h k = true ↔
      m.resetSent h k = true ∨ j = k := by
  unfold readyStateIs at hopen
  split at hopen
  · rename_i w hw
    simp only [resetSent, sendOn, List.getElem?_modify]
    by_cases hjk : j = k
    · subst hjk
      simp [hw, Socket.send, of_decide_eq_true hopen]
    · cases hk : m.sockets[k]? <;> simp [hjk]
  · cases hopen

/-- `closeStream` sends a reset on the current socket of the mux. -/
theorem resetSent_closeStream {h k : Nat} {s : Stream} (hs : m.streams[h]? = some s) :
    (m.closeStream h).resetSent h k = true ↔ m.resetSent h k = true ∨
      s.registered = true ∧ s.endSeen = false ∧ m.openSocket = some k := by
  unfold closeStream
  simp only [hs]
  by_cases hreg : s.registered = true
  · simp only [hreg, if_true, true_and]
    rw [resetSent_congr (sent_closeIdle _)]
    show (m.sendReset h s).resetSent h k = true ↔ _
    unfold sendReset
    by_cases hend : s.endSeen = true
    · simp [hend]
    · simp only [hend]
      cases hopen : m.openSocket with
      | none => simp
      | some j =>
          have hst := (openSocket_eq_some hopen).2
          simp [resetSent_sendOn hst]
  · simp [hreg]

/-- Nothing else of a stream changes. -/
theorem getElem?_closeStream {h j : Nat} {s' : Stream}
    (hs' : (m.closeStream h).streams[j]? = some s') :
    ∃ s, m.streams[j]? = some s ∧ s'.socket = s.socket ∧ s'.serverEnded = s.serverEnded := by
  unfold closeStream at hs'
  split at hs'
  · split at hs'
    · simp only [streams_closeIdle, streams_sendReset, Store.getElem?_modify] at hs'
      split at hs'
      · obtain ⟨s, hs, rfl⟩ := hs'
        exact ⟨s, hs, rfl, rfl⟩
      · exact ⟨s', hs', rfl, rfl⟩
    · exact ⟨s', hs', rfl, rfl⟩
  · exact ⟨s', hs', rfl, rfl⟩

end WebSocketMux

-- ============================================================================
-- One step
-- ============================================================================

namespace Transport

variable {connect : ConnectPackage} {t t' : Transport}

/-- The stream of a call was given back before. -/
def Gone (t : Transport) (h : Nat) : Prop :=
  ∀ s ∈ t.mux.streams[h]?, s.registered = false ∧ t.Settled h s ∧
    (t.mux.closeWhenIdle = true → t.mux.Disconnected)

theorem Lost.gone {h : Nat} (hlost : t.Lost h) : t.Gone h := fun s hs =>
  ⟨(hlost s hs).1, .inr (.inl (hlost s hs).2.1), (hlost s hs).2.2⟩

/-- What holds of the calls while those that have ended are released. -/
structure Inv (t : Transport) : Prop where
  length : t.stages.length = t.mux.streams.length
  unregistered : ∀ (h : Nat) (s : Stream), t.hasEnded h = true →
    t.mux.streams[h]? = some s → s.registered = false
  dedicated : t.mux.closeWhenIdle = true → t.mux.Dedicated
  disconnected : t.mux.closeWhenIdle = true → t.stages.any Stage.hasEnded = true →
    t.mux.Disconnected

theorem inv_init (closeWhenIdle : Bool) :
    Inv { calls := { mux := { closeWhenIdle } } } where
  length := rfl
  unregistered := fun _ _ h => by cases h
  dedicated := by
    intro h
    obtain rfl : closeWhenIdle = true := h
    exact WebSocketMux.dedicated_init
  disconnected := fun _ h => by cases h

/-- The calls go on as they were. -/
theorem Inv.of_released (hlength : t'.stages.length = t'.mux.streams.length)
    (hdedicated : t'.mux.closeWhenIdle = true → t'.mux.Dedicated)
    (hreleased : CallsReleased t t') : t'.Inv where
  length := hlength
  unregistered := fun h s hend hs => (hreleased h s hend hs).unregistered
  dedicated := hdedicated
  disconnected := by
    intro hclose hany
    obtain ⟨stage, hmem, hend⟩ := List.any_eq_true.mp hany
    obtain ⟨h, hstage⟩ := List.getElem?_of_mem hmem
    have hlt := (List.getElem?_eq_some_iff.mp hstage).1
    obtain ⟨s, hs⟩ : ∃ s, t'.mux.streams[h]? = some s :=
      ⟨_, List.getElem?_eq_getElem (by omega)⟩
    have hrel := hreleased h s (by simp [hasEnded, hstage, hend]) hs
    apply hrel.idle hclose
    intro u hu
    rw [← (hdedicated hclose).only hs hu]
    exact hrel.unregistered

/-- A call that had ended stays released. -/
theorem Inv.released_before (ht : t.Inv) {h : Nat} {s' : Stream} (hended : t.hasEnded h = true)
    (hstream : h < t.mux.streams.length → ∃ s, t.mux.streams[h]? = some s ∧
      (s'.registered = true → s.registered = true))
    (hdown : t.mux.closeWhenIdle = true → t.mux.Disconnected → t.mux.streams ≠ [] →
      t'.mux.Disconnected)
    (hidle : t'.mux.closeWhenIdle = t.mux.closeWhenIdle) : s'.Released t t' h := by
  obtain ⟨outcome, hstage⟩ := hasEnded_iff.mp hended
  have hlt : h < t.mux.streams.length := by
    rw [← ht.length]
    exact (List.getElem?_eq_some_iff.mp hstage).1
  obtain ⟨s, hs, hreg⟩ := hstream hlt
  have hgone := ht.unregistered h s hended hs
  refine ⟨?_, ?_, ?_⟩
  · apply Bool.eq_false_iff.mpr
    intro hreg'
    rw [hreg hreg'] at hgone
    cases hgone
  · intro hopen
    rw [hended] at hopen
    cases hopen
  · intro hclose _
    rw [hidle] at hclose
    apply hdown hclose (ht.disconnected hclose ?_)
    · intro hnil
      rw [hnil] at hlt
      cases hlt
    · exact List.any_eq_true.mpr ⟨_, List.mem_of_getElem? hstage, rfl⟩

-- What a move of the mux or of a writer does.

theorem Inv.dedicated_call (ht : t.Inv) {ev : CallEvent} {calls : Calls}
    (hpermits : t.permits ev = true) (hcalls : t.calls.step ev = some calls)
    (hclose : calls.mux.closeWhenIdle = true) : calls.mux.Dedicated := by
  have hmux := Calls.mux_step hcalls
  have hold : t.mux.closeWhenIdle = true := by
    rw [← hclose]
    exact (WebSocketMux.closeWhenIdle_step hmux).symm
  apply (ht.dedicated hold).step _ _ hmux
  · intro hopen
    cases ev with
    | mux ev =>
        obtain rfl : ev = .openStream := hopen
        simpa [permits, hold] using hpermits
    | _ => cases hopen
  · intro hend
    cases ev with
    | mux ev =>
        obtain rfl : ev = .close := hend
        simp [permits, hold] at hpermits
    | _ => cases hend

theorem ended_started {ev : CallEvent} {calls : Calls} {h : Nat}
    (hend : hasEnded { calls, stages := t.started ev } h = true) : t.hasEnded h = true := by
  obtain ⟨outcome, hstage⟩ := hasEnded_iff.mp hend
  simp only [started] at hstage
  split at hstage
  · rcases Store.getElem?_concat.mp hstage with hold | ⟨-, hnew⟩
    · exact hasEnded_iff.mpr ⟨outcome, hold⟩
    · cases hnew
  · exact hasEnded_iff.mpr ⟨outcome, hstage⟩

/-- The stream of a call that resumes is behind the others. -/
theorem streams_call {ev : CallEvent} {calls : Calls} (hcalls : t.calls.step ev = some calls) :
    (t.stages.length = t.mux.streams.length →
      (t.started ev).length = calls.mux.streams.length) ∧
    (∀ k, t.mux.rank k ≤ calls.mux.rank k) ∧
    ∀ (h : Nat) (s' : Stream), h < t.mux.streams.length → calls.mux.streams[h]? = some s' →
      ∃ s, t.mux.streams[h]? = some s ∧ (s'.registered = true → s.registered = true) := by
  have hmux := Calls.mux_step hcalls
  by_cases hresume : ∃ i, ev = .mux (.resume i)
  · obtain ⟨i, rfl⟩ := hresume
    simp only [CallEvent.onMux, WebSocketMux.step] at hmux
    split at hmux
    · rename_i k hk
      have heq := Option.some.inj hmux
      rw [← heq]
      refine ⟨?_, fun _ => Nat.le_refl _, ?_⟩
      · intro hlength
        simp only [started, WebSocketMux.resume, List.length_append, List.length_singleton]
        have : t.calls.mux.streams.length = t.mux.streams.length := rfl
        omega
      · intro h s' hlt hs'
        rcases Store.getElem?_concat.mp hs' with hold | ⟨rfl, -⟩
        · exact ⟨s', hold, id⟩
        · exact absurd hlt (Nat.lt_irrefl _)
    · cases hmux
  · have hother : ∀ i, ev.onMux ≠ .resume i := by
      intro i hi
      cases ev with
      | mux ev => exact hresume ⟨i, congrArg CallEvent.mux hi⟩
      | _ => cases hi
    have hkept := WebSocketMux.kept_step hmux hother
    have hstarted : t.started ev = t.stages := by
      unfold started
      split
      · exact absurd ⟨_, rfl⟩ hresume
      · rfl
    refine ⟨fun hlength => ?_, hkept.rank, fun h s' _ hs' => ?_⟩
    · rw [hstarted, hlength]
      exact hkept.length.symm
    · obtain ⟨s, hs, -, hreg⟩ := hkept.streams h s' hs'
      exact ⟨s, hs, hreg⟩

theorem Inv.released_call (ht : t.Inv) {ev : CallEvent} {calls : Calls}
    (hpermits : t.permits ev = true) (hcalls : t.calls.step ev = some calls) :
    CallsReleased t { calls, stages := t.started ev } := by
  obtain ⟨-, hrank, hstreams⟩ := streams_call hcalls
  have hidle := WebSocketMux.closeWhenIdle_step (Calls.mux_step hcalls)
  intro h s' hend hs'
  apply @Inv.released_before _ { calls, stages := t.started ev } ht h s' (ended_started hend)
    (fun hlt => hstreams h s' hlt hs') _ hidle
  intro hclose hdown hne
  have hm := ht.dedicated hclose
  have hm' : calls.mux.Dedicated := ht.dedicated_call hpermits hcalls (hidle.trans hclose)
  have hdialled := hm.dialled hne
  have hopen := hm.disconnected_iff.mp hdown
  have := hrank 0
  exact hm'.disconnected_iff.mpr (by omega)

/-- Only the stage of one call changes. -/
theorem hasEnded_set {h j : Nat} {stage : Stage} {calls : Calls} :
    hasEnded { calls, stages := t.stages.set h stage } j = true ↔
      if h = j then h < t.stages.length ∧ stage.hasEnded = true else t.hasEnded j = true := by
  simp only [hasEnded, List.getElem?_set]
  by_cases hhj : h = j
  · subst hhj
    by_cases hlt : h < t.stages.length <;> simp [hlt]
  · simp [hhj]

theorem Inv.released_setStage (ht : t.Inv) {h : Nat} {stage : Stage} {s : Stream}
    (hs : t.mux.streams[h]? = some s) (hopen : t.hasEnded h = false) :
    CallsReleased t (t.setStage h stage) ↔ (stage.hasEnded = true → t.Gone h) := by
  have hlt : h < t.stages.length := by
    rw [ht.length]
    exact (List.getElem?_eq_some_iff.mp hs).1
  constructor
  · intro hreleased hend s' hs'
    obtain rfl : s = s' := Option.some.inj (hs.symm.trans hs')
    have hrel := hreleased h s (hasEnded_set.mpr (by simp [hlt, hend])) hs
    refine ⟨hrel.unregistered, ?_, ?_⟩
    · -- the step sends nothing
      by_cases hserver : s.serverEnded = true
      · exact Or.inl hserver
      · by_cases hst : t.mux.readyStateIs s.socket .opened = true
        · exact Or.inr (Or.inr (hrel.reset hopen (Bool.eq_false_iff.mpr hserver) hst))
        · exact Or.inr (Or.inl (Bool.eq_false_iff.mpr hst))
    · intro hclose
      apply hrel.idle hclose
      intro u hu
      rw [← (ht.dedicated hclose).only hs hu]
      exact hrel.unregistered
  · intro hgone j u hend hu
    have hcase := hasEnded_set.mp hend
    by_cases hhj : h = j
    · subst hhj
      rw [if_pos rfl] at hcase
      obtain ⟨hunregistered, hsettled, hdown⟩ := hgone hcase.2 u hu
      refine ⟨hunregistered, ?_, fun hclose _ => hdown hclose⟩
      intro _ hserver hst
      rcases hsettled with hended | hclosed | hsent
      · rw [hserver] at hended
        cases hended
      · rw [hst] at hclosed
        cases hclosed
      · exact hsent
    · rw [if_neg hhj] at hcase
      exact ht.released_before hcase (fun _ => ⟨u, hu, id⟩) (fun _ hdown _ => hdown) rfl

theorem Inv.released_finish (ht : t.Inv) {h : Nat} {outcome : Outcome} {s : Stream}
    (hs : t.mux.streams[h]? = some s) (hopen : t.hasEnded h = false) :
    CallsReleased t (t.finish h outcome) ↔ t.Closable h := by
  have hlt : h < t.stages.length := by
    rw [ht.length]
    exact (List.getElem?_eq_some_iff.mp hs).1
  have hkept := WebSocketMux.kept_closeStream t.mux h
  have hidle : (t.finish h outcome).mux.closeWhenIdle = t.mux.closeWhenIdle :=
    WebSocketMux.closeWhenIdle_closeStream t.mux h
  obtain ⟨s', hs'⟩ : ∃ s', (t.mux.closeStream h).streams[h]? = some s' := by
    refine ⟨_, List.getElem?_eq_getElem ?_⟩
    rw [hkept.length, ← ht.length]
    exact hlt
  constructor
  · intro hreleased v hv
    obtain rfl : s = v := Option.some.inj (hs.symm.trans hv)
    have hrel := hreleased h s' (hasEnded_set.mpr (by simp [hlt, Stage.hasEnded])) hs'
    obtain ⟨v, hv', hsocket, hserverEnded⟩ := WebSocketMux.getElem?_closeStream hs'
    obtain rfl : s = v := Option.some.inj (hs.symm.trans hv')
    refine ⟨?_, ?_⟩
    · by_cases hserver : s.serverEnded = true
      · exact Or.inl (Or.inl hserver)
      · by_cases hst : t.mux.readyStateIs s.socket .opened = true
        · have hsent := hrel.reset hopen (by rw [hserverEnded]; exact Bool.eq_false_iff.mpr hserver)
            (by rw [hsocket]; exact hst)
          rw [hsocket] at hsent
          rcases (WebSocketMux.resetSent_closeStream hs).mp hsent with hold | ⟨hreg, -, hcur⟩
          · exact Or.inl (Or.inr (Or.inr hold))
          · exact Or.inr ⟨hreg, hcur⟩
        · exact Or.inl (Or.inr (Or.inl (Bool.eq_false_iff.mpr hst)))
    · intro hclose
      by_cases hreg : s.registered = true
      · exact Or.inl hreg
      · right
        -- `closeStream` does nothing
        have hsame : t.mux.closeStream h = t.mux := by
          simp [WebSocketMux.closeStream, hs, hreg]
        have hdown := hrel.idle (hidle.trans hclose) ?_
        · rw [show (t.finish h outcome).mux = t.mux from hsame] at hdown
          exact hdown
        · intro u hu
          rw [show (t.finish h outcome).mux = t.mux from hsame] at hu
          rw [← (ht.dedicated hclose).only hs hu]
          exact Bool.eq_false_iff.mpr hreg
  · intro hclosable j u hend hu
    have hcase := hasEnded_set.mp hend
    have hdown : t.mux.closeWhenIdle = true → t.mux.Disconnected → t.mux.streams ≠ [] →
        (t.mux.closeStream h).Disconnected := by
      intro hclose hold hne
      have hm := ht.dedicated hclose
      exact hm.disconnected_of_kept (hm.closeStream h) hkept hne hold
    by_cases hhj : h = j
    · subst hhj
      obtain ⟨v, hv, hsocket, hserverEnded⟩ := WebSocketMux.getElem?_closeStream hu
      obtain rfl : s = v := Option.some.inj (hs.symm.trans hv)
      obtain ⟨hreset, hclosed⟩ := hclosable s hs
      refine ⟨WebSocketMux.unregistered_closeStream hu, ?_, ?_⟩
      · intro _ hserver hst
        rw [hserverEnded] at hserver
        rw [hsocket] at hst ⊢
        apply (WebSocketMux.resetSent_closeStream hs).mpr
        rcases hreset with (hended | hnot | hold) | ⟨hreg, hcur⟩
        · rw [hserver] at hended
          cases hended
        · rw [hst] at hnot
          cases hnot
        · exact Or.inl hold
        · have hend : s.endSeen = false := by
            unfold Stream.serverEnded at hserver
            exact (Bool.or_eq_false_iff.mp hserver).1
          exact Or.inr ⟨hreg, hend, hcur⟩
      · intro hclose _
        rw [hidle] at hclose
        rcases hclosed hclose with hreg | hold
        · exact (ht.dedicated hclose).disconnected_closeStream hclose hs hreg
        · apply hdown hclose hold
          intro hnil
          rw [hnil] at hs
          cases hs
    · rw [if_neg hhj] at hcase
      apply @Inv.released_before _ (t.finish h outcome) ht j u hcase _ hdown hidle
      intro _
      obtain ⟨v, hv, -, hreg⟩ := hkept.streams j u hu
      exact ⟨v, hv, hreg⟩

section Step

variable {M : Type*} {parse : Bytes → Except JsError M}
  {endStreamFromJson : Bytes → Except JsError EndStream}

/-- A step leaves the calls that have ended released exactly if a call it ends
    in `iterate()` can give its stream back, and any other one has. -/
theorem Inv.released_iff (ht : t.Inv) {ev : TransportEvent}
    (hstepped : t.Stepped parse endStreamFromJson ev t') :
    CallsReleased t t' ↔ (∀ h ∈ t.abandons ev, t.Gone h) ∧
      ∀ h ∈ t.concludes parse endStreamFromJson ev, t.Closable h := by
  cases hstepped with
  | call hpermits hcalls =>
      simp [abandons, concludes, ht.released_call hpermits hcalls]
  | @stage ev h before after s hbefore hs hopen hiter habandons hconcludes =>
      have hfresh : t.hasEnded h = false := by simp [hasEnded, hbefore, hopen]
      rw [ht.released_setStage hs hfresh, habandons, hconcludes]
      by_cases hend : after.hasEnded = true <;> simp [hend]
  | @finished ev h taken s outcome hbefore hs habandons hconcludes =>
      have hfresh : t.hasEnded h = false := by simp [hasEnded, hbefore, Stage.hasEnded]
      rw [ht.released_finish hs hfresh, habandons, hconcludes]
      simp

/-- Whatever a step does, each call has its stream, and a dedicated mux stays
    one. -/
theorem Inv.kept (ht : t.Inv) {ev : TransportEvent}
    (hstepped : t.Stepped parse endStreamFromJson ev t') :
    t'.stages.length = t'.mux.streams.length ∧
      (t'.mux.closeWhenIdle = true → t'.mux.Dedicated) := by
  cases hstepped with
  | call hpermits hcalls =>
      exact ⟨(streams_call hcalls).1 ht.length, ht.dedicated_call hpermits hcalls⟩
  | stage =>
      exact ⟨List.length_set.trans ht.length, ht.dedicated⟩
  | @finished ev h taken s outcome hbefore hs _ _ =>
      constructor
      · have hlength := (WebSocketMux.kept_closeStream t.mux h).length
        exact List.length_set.trans (ht.length.trans hlength.symm)
      · intro hclose
        have hold : t.mux.closeWhenIdle = true :=
          (WebSocketMux.closeWhenIdle_closeStream t.mux h).symm.trans hclose
        exact (ht.dedicated hold).closeStream h

end Step

end Transport

-- ============================================================================
-- Whole runs
-- ============================================================================

section Runs

variable [ConnectPackage] {M : Type*} (parse : Bytes → Except JsError M)
  (endStreamFromJson : Bytes → Except JsError EndStream)

/-- Every step leaves the calls that have ended released. -/
def StepsReleased (t : Transport) (ev : TransportEvent) : Prop :=
  ∀ t', t.step parse endStreamFromJson ev = some t' → CallsReleased t t'

/-- Along a run in which the calls end in `iterate()`, each with the current
    socket its own or with nothing left to give back, or after the loss of
    their connection, the streams of those that have ended are released. -/
theorem streams_released (closeWhenIdle : Bool) (evs : List TransportEvent)
    (hG : (transport parse endStreamFromJson closeWhenIdle).Meets
      (EndsReleased parse endStreamFromJson)
      (transport parse endStreamFromJson closeWhenIdle).init evs) :
    (transport parse endStreamFromJson closeWhenIdle).Meets
      (StepsReleased parse endStreamFromJson)
      (transport parse endStreamFromJson closeWhenIdle).init evs := by
  have hreleases : ∀ (t : Transport) (ev : TransportEvent) (t' : Transport), t.Inv →
      EndsReleased parse endStreamFromJson t ev → t.step parse endStreamFromJson ev = some t' →
        CallsReleased t t' := by
    rintro t ev t' ht ⟨hlost, hclosable⟩ hstep
    exact (ht.released_iff (Transport.stepped hstep)).mpr
      ⟨fun h hh => (hlost h hh).gone, hclosable⟩
  refine Machine.meets_of_invariant (I := Transport.Inv) _ ?_ ?_
    (Transport.inv_init closeWhenIdle) hG
  · intro t ev t' ht hends hstep
    obtain ⟨hlength, hdedicated⟩ := ht.kept (Transport.stepped hstep)
    exact Transport.Inv.of_released hlength hdedicated (hreleases t ev t' ht hends hstep)
  · exact fun t ev ht hends t' hstep => hreleases t ev t' ht hends hstep

end Runs

/-- A call on a connection of its own that has written its request headers. -/
def dedicatedCall : List TransportEvent :=
  [.call (.mux .openStream), .call (.mux (.onopen 0)), .call (.mux (.resume 0)),
    .call (.headers 0 []), .call (.mux (.read 0))]

/-- Its response has headers and an end. -/
def answeredCall : List TransportEvent := dedicatedCall ++
  [.call (.mux (.onmessage 0 [0, 0, 0, 1, 6, 0, 0, 0, 2, 123, 125])), .call (.mux (.pull 0)),
    .call (.mux (.settle 0)), .respond 0, .iterate 0, .call (.mux (.read 0)),
    .call (.mux (.onmessage 0 [0, 0, 0, 1, 2, 0, 0, 0, 0])), .call (.mux (.pull 0)),
    .call (.mux (.settle 0)), .next 0]

open Connectrpc in
theorem answeredCall_released :
    ∃ t, (transport (fun _ => .ok ()) (fun _ => .ok {}) true).run answeredCall = some t ∧
      t.hasEnded 0 = true ∧
      (transport (fun _ => .ok ()) (fun _ => .ok {}) true).Meets
        (StepsReleased (fun _ => .ok ()) fun _ => .ok {})
        (transport (fun _ => .ok ()) (fun _ => .ok {}) true).init answeredCall :=
  ⟨_, rfl, rfl, streams_released (fun _ => .ok ()) (fun _ => .ok {}) true answeredCall (by decide)⟩

open Connectrpc in
/-- A response that begins with a message: the call throws, and its stream
    stays in `entries` for good. -/
theorem rejected_response_not_released :
    ¬ ∀ (parse : Bytes → Except JsError Unit) (endStreamFromJson : Bytes → Except JsError EndStream)
      (closeWhenIdle : Bool) (evs : List TransportEvent),
      (transport parse endStreamFromJson closeWhenIdle).Meets
        (StepsReleased parse endStreamFromJson)
        (transport parse endStreamFromJson closeWhenIdle).init evs := by
  intro h
  have hmeets := h (fun _ => .ok ()) (fun _ => .ok {}) true (dedicatedCall ++
    [.call (.mux (.onmessage 0 [0, 0, 0, 1, 0, 0, 0, 0, 0])), .call (.mux (.pull 0)),
      .call (.mux (.settle 0))] ++ [.respond 0])
  have hstep := Machine.guard_of_meets _ hmeets rfl
  have hreleased := hstep _ rfl 0 _ rfl rfl
  exact Bool.noConfusion hreleased.unregistered

end Web
end BidiWeb
