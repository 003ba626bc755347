/-
  BidiWeb.Web.SocketProgress

  What every step of the mux keeps, whatever the order of dials and closes:
  a socket's `readyState` only moves forward, a stream keeps its socket and is
  not registered anew.  And what a step sends: nothing, but for a write on a
  stream's writable and the reset of `closeStream`.
-/

import BidiWeb.Web.RequestWriter
import BidiWeb.Web.SocketBinding
import Mathlib.Algebra.Group.Nat.Defs

namespace BidiWeb
namespace Web

open BidiWeb.Lib

-- ============================================================================
-- Sockets only move forward
-- ============================================================================

def ReadyState.rank : ReadyState → Nat
  | .connecting => 0
  | .opened => 1
  | .closing => 2
  | .closed => 3

namespace WebSocketMux

variable {connect : ConnectPackage} {m m' m'' : WebSocketMux}

/-- How far socket `k` is in its life; 0 also for a socket not dialled yet. -/
def rank (m : WebSocketMux) (k : Nat) : Nat :=
  match m.sockets[k]? with
  | some w => w.readyState.rank
  | none => 0

theorem readyStateIs_opened {k : Nat} : m.readyStateIs k .opened = true ↔ m.rank k = 1 := by
  unfold readyStateIs rank
  cases m.sockets[k]? with
  | none => simp
  | some w => cases h : w.readyState <;> simp [h, ReadyState.rank]

theorem rank_le_modify {k : Nat} {f : Socket → Socket}
    (hf : ∀ w, m.sockets[k]? = some w → w.readyState.rank ≤ (f w).readyState.rank) (j : Nat) :
    m.rank j ≤ (m.setSocket k f).rank j := by
  simp only [rank, setSocket, List.getElem?_modify]
  cases hj : m.sockets[j]? with
  | none => simp
  | some w =>
      by_cases hkj : k = j
      · subst hkj
        simpa using hf w hj
      · simp [hkj]

theorem rank_le_concat (m : WebSocketMux) (w : Socket) (j : Nat) :
    m.rank j ≤ rank { m with sockets := m.sockets ++ [w] } j := by
  unfold rank
  cases hj : m.sockets[j]? with
  | none => simp
  | some v => simp [Store.getElem?_concat.mpr (Or.inl hj)]

theorem readyState_send (w : Socket) (h : Nat) (envelope : Bytes) :
    (w.send h envelope).readyState = w.readyState := by
  unfold Socket.send
  split <;> rfl

theorem rank_sendOn (m : WebSocketMux) (k h : Nat) (envelope : Bytes) (j : Nat) :
    (m.sendOn k h envelope).rank j = m.rank j := by
  simp only [rank, sendOn, List.getElem?_modify]
  cases hj : m.sockets[j]? with
  | none => simp
  | some w => by_cases hkj : k = j <;> simp [hkj, readyState_send]

theorem rank_le_close (w : Socket) : w.readyState.rank ≤ w.close.readyState.rank := by
  unfold Socket.close
  cases h : w.readyState <;> simp [h, ReadyState.rank]

/-- What every step but a resumed `openStream` keeps: sockets move forward,
    streams keep their socket and are not registered anew, and the calls about
    to resume do so with a socket that has been open. -/
structure Kept (m m' : WebSocketMux) : Prop where
  rank : ∀ k, m.rank k ≤ m'.rank k
  length : m'.streams.length = m.streams.length
  streams : ∀ (h : Nat) (s' : Stream), m'.streams[h]? = some s' →
    ∃ s, m.streams[h]? = some s ∧ s'.socket = s.socket ∧
      (s'.registered = true → s.registered = true)
  ready : (∀ k ∈ m.ready, 1 ≤ m.rank k) → ∀ k ∈ m'.ready, 1 ≤ m'.rank k

theorem Kept.refl (m : WebSocketMux) : m.Kept m where
  rank := fun _ => Nat.le_refl _
  length := rfl
  streams := fun _ s' hs' => ⟨s', hs', rfl, id⟩
  ready := id

theorem Kept.trans (h₁ : m.Kept m') (h₂ : m'.Kept m'') : m.Kept m'' where
  rank := fun k => Nat.le_trans (h₁.rank k) (h₂.rank k)
  length := h₂.length.trans h₁.length
  streams := by
    intro h s'' hs''
    obtain ⟨s', hs', hsocket', hreg'⟩ := h₂.streams h s'' hs''
    obtain ⟨s, hs, hsocket, hreg⟩ := h₁.streams h s' hs'
    exact ⟨s, hs, hsocket'.trans hsocket, fun hr => hreg (hreg' hr)⟩
  ready := fun hready => h₂.ready (h₁.ready hready)

/-- Only the sockets change. -/
theorem kept_of_rank (hrank : ∀ k, m.rank k ≤ m'.rank k) (hstreams : m'.streams = m.streams)
    (hready : m'.ready = m.ready) : m.Kept m' where
  rank := hrank
  length := by rw [hstreams]
  streams := fun h s' hs' => ⟨s', hstreams ▸ hs', rfl, id⟩
  ready := by
    intro hold k hk
    rw [hready] at hk
    exact Nat.le_trans (hold k hk) (hrank k)

theorem kept_setSocket {k : Nat} {f : Socket → Socket}
    (hf : ∀ w, m.sockets[k]? = some w → w.readyState.rank ≤ (f w).readyState.rank) :
    m.Kept (m.setSocket k f) :=
  kept_of_rank (rank_le_modify hf) rfl rfl

/-- Only one stream changes. -/
theorem kept_modifyStream {h : Nat} {f : Stream → Stream} (hsocket : ∀ s, (f s).socket = s.socket)
    (hreg : ∀ s, m.streams[h]? = some s → (f s).registered = true → s.registered = true) :
    m.Kept { m with streams := m.streams.modify h f } where
  rank := fun _ => Nat.le_refl _
  length := List.length_modify ..
  streams := by
    refine Store.forall_modify (fun j s hs => ⟨s, hs, rfl, id⟩) ?_
    intro s hs
    exact ⟨s, hs, hsocket s, hreg s hs⟩
  ready := id

theorem kept_failAll (m : WebSocketMux) (cause : Cause) (reason : Core.JsError) :
    m.Kept (m.failAll cause reason) where
  rank := fun _ => Nat.le_refl _
  length := by simp [failAll]
  streams := by
    intro h s' hs'
    obtain ⟨s, hs, rfl⟩ := getElem?_failAll.mp hs'
    refine ⟨s, hs, ?_, ?_⟩
    · cases hreg : s.registered <;> simp [Stream.fail]
    · cases hreg : s.registered <;> simp [hreg, Stream.fail]
  ready := id

-- ============================================================================
-- What a step sends
-- ============================================================================

/-- The frames sent between two states. -/
def gains (m m' : WebSocketMux) : List (Nat × Bytes) :=
  Store.gained (m.sockets.map (·.sent)) (m'.sockets.map (·.sent))

theorem gains_congr (h : m''.sockets.map (·.sent) = m'.sockets.map (·.sent)) :
    m.gains m'' = m.gains m' := by
  rw [gains, gains, h]

@[simp] theorem gains_self (m : WebSocketMux) : m.gains m = [] := Store.gained_self _

theorem sent_setSocket {k : Nat} {f : Socket → Socket} (hf : ∀ w, (f w).sent = w.sent) :
    (m.setSocket k f).sockets.map (·.sent) = m.sockets.map (·.sent) :=
  Store.map_modify_of_eq fun w _ => hf w

theorem sent_close (w : Socket) : w.close.sent = w.sent := by
  unfold Socket.close
  split <;> rfl

theorem gains_sendOn (k h : Nat) (envelope : Bytes) :
    m.gains (m.sendOn k h envelope) = if m.rank k = 1 then [(h, envelope)] else [] := by
  by_cases hopen : m.rank k = 1
  · obtain ⟨w, hw, hst⟩ : ∃ w, m.sockets[k]? = some w ∧ w.readyState = .opened := by
      have := readyStateIs_opened.mpr hopen
      unfold readyStateIs at this
      split at this
      · exact ⟨_, ‹_›, of_decide_eq_true this⟩
      · cases this
    have hmap : (m.sendOn k h envelope).sockets.map (·.sent) =
        (m.sockets.map (·.sent)).modify k (· ++ [(h, envelope)]) := by
      refine List.ext_getElem? fun j => ?_
      simp only [sendOn, List.getElem?_map, List.getElem?_modify]
      by_cases hkj : k = j
      · subst hkj
        simp [hw, Socket.send, hst]
      · simp [hkj]
    have hlt : k < (m.sockets.map (·.sent)).length := by
      simpa using (List.getElem?_eq_some_iff.mp hw).1
    rw [gains, hmap, if_pos hopen, Store.gained_modify_concat hlt]
  · rw [if_neg hopen]
    have hmap : (m.sendOn k h envelope).sockets.map (·.sent) = m.sockets.map (·.sent) := by
      refine Store.map_modify_of_eq fun w hw => ?_
      have hst : w.readyState ≠ .opened := by
        intro hst
        exact hopen (by simp [rank, hw, hst, ReadyState.rank])
      simp [Socket.send, hst]
    exact (gains_congr hmap).trans (gains_self m)

theorem kept_sendOn (m : WebSocketMux) (k h : Nat) (envelope : Bytes) :
    m.Kept (m.sendOn k h envelope) :=
  kept_setSocket fun w _ => Nat.le_of_eq (by rw [readyState_send])

theorem kept_wsClose (m : WebSocketMux) (k : Nat) : m.Kept (m.wsClose k) :=
  kept_setSocket fun w _ => rank_le_close w

/-- `ws.close` leaves the sockets open that were, but for the one it closes. -/
theorem rank_wsClose_eq_one {k j : Nat} : (m.wsClose k).rank j = 1 ↔ m.rank j = 1 ∧ k ≠ j := by
  simp only [rank, wsClose, List.getElem?_modify]
  cases hj : m.sockets[j]? with
  | none => simp
  | some w =>
      by_cases hkj : k = j
      · subst hkj
        unfold Socket.close
        cases hst : w.readyState <;> simp [hst, ReadyState.rank]
      · simp [hkj]

theorem sent_wsClose (m : WebSocketMux) (k : Nat) :
    (m.wsClose k).sockets.map (·.sent) = m.sockets.map (·.sent) :=
  sent_setSocket sent_close

/-- `closeStream` sends a reset frame. -/
def sendsReset (m : WebSocketMux) (h : Nat) : Bool :=
  match m.streams[h]? with
  | some s => s.registered && !s.endSeen && m.openSocket.isSome
  | none => false

theorem kept_sendReset (m : WebSocketMux) (h : Nat) (s : Stream) : m.Kept (m.sendReset h s) := by
  unfold sendReset
  split
  · exact Kept.refl m
  · split
    · exact kept_sendOn m _ _ _
    · exact Kept.refl m

theorem gains_sendReset {h : Nat} {s : Stream} (hs : m.streams[h]? = some s)
    (hreg : s.registered = true) :
    m.gains (m.sendReset h s) =
      if m.sendsReset h then [(h, Core.encodeEnvelope flagEnvelopeReset [])] else [] := by
  simp only [sendsReset, hs, hreg, Bool.true_and, sendReset]
  cases hend : s.endSeen with
  | true => simp
  | false =>
      cases hopen : m.openSocket with
      | none => simp
      | some k =>
          have hrank := readyStateIs_opened.mp (openSocket_eq_some hopen).2
          simp [gains_sendOn, hrank]

theorem kept_closeIdle (m : WebSocketMux) : m.Kept m.closeIdle := by
  unfold closeIdle
  split
  · split
    · exact (kept_wsClose m _).trans (kept_of_rank (fun _ => Nat.le_refl _) rfl rfl)
    · exact Kept.refl m
  · exact Kept.refl m

theorem sent_closeIdle (m : WebSocketMux) :
    m.closeIdle.sockets.map (·.sent) = m.sockets.map (·.sent) := by
  unfold closeIdle
  split
  · split
    · exact sent_wsClose m _
    · rfl
  · rfl

theorem kept_closeStream (m : WebSocketMux) (h : Nat) : m.Kept (m.closeStream h) := by
  unfold closeStream
  split
  · rename_i s hs
    split
    · refine (kept_sendReset m h s).trans (Kept.trans ?_ (kept_closeIdle _))
      exact kept_modifyStream (fun _ => rfl) fun _ _ hreg => by cases hreg
    · exact Kept.refl m
  · exact Kept.refl m

theorem gains_closeStream (m : WebSocketMux) (h : Nat) :
    m.gains (m.closeStream h) =
      if m.sendsReset h then [(h, Core.encodeEnvelope flagEnvelopeReset [])] else [] := by
  unfold closeStream
  split
  · rename_i s hs
    split
    · rename_i hreg
      rw [← gains_sendReset hs hreg]
      exact gains_congr (sent_closeIdle _)
    · rename_i hreg
      simp [sendsReset, hs, hreg]
  · rename_i hs
    simp [sendsReset, hs]

/-- `closeStream` drops the last stream of a mux that closes when idle, whose
    current socket is `k`. -/
def closesSocket (m : WebSocketMux) (h k : Nat) : Bool :=
  m.closeWhenIdle && (m.streams.eraseIdx h).all (!·.registered) && m.socket = some k

theorem all_unregistered_release (streams : List Stream) (h : Nat) :
    (streams.modify h Stream.release).all (!·.registered) =
      (streams.eraseIdx h).all (!·.registered) := by
  rw [Bool.eq_iff_iff, List.all_eq_true, List.all_eq_true]
  constructor
  · intro hall s hs
    obtain ⟨j, hne, hj⟩ := List.mem_eraseIdx_iff_getElem?.mp hs
    refine hall s (List.mem_of_getElem? (i := j) ?_)
    exact Store.getElem?_modify.mpr (by simpa [hne.symm] using hj)
  · intro hall s hs
    obtain ⟨j, hj⟩ := List.getElem?_of_mem hs
    rw [Store.getElem?_modify] at hj
    split at hj
    · obtain ⟨t, -, rfl⟩ := hj
      rfl
    · rename_i hne
      exact hall s (List.mem_eraseIdx_iff_getElem?.mpr ⟨j, fun heq => hne heq.symm, hj⟩)

/-- A stream given back with a reset leaves the open sockets open, but for the
    one it closes. -/
theorem rank_closeStream_eq_one {h k : Nat} (hsends : m.sendsReset h = true) :
    (m.closeStream h).rank k = 1 ↔ m.rank k = 1 ∧ m.closesSocket h k = false := by
  unfold sendsReset at hsends
  cases hs : m.streams[h]? with
  | none => simp [hs] at hsends
  | some s =>
      simp only [hs, Bool.and_eq_true, Bool.not_eq_true', Option.isSome_iff_exists] at hsends
      obtain ⟨⟨hreg, hend⟩, j, hopen⟩ := hsends
      have hcurrent : m.socket = some j := (openSocket_eq_some hopen).1
      let d : WebSocketMux := { m.sendOn j h (Core.encodeEnvelope flagEnvelopeReset []) with
        streams := m.streams.modify h Stream.release }
      have hsent : d.rank k = m.rank k := rank_sendOn m j h _ k
      have hclose : m.closeStream h = d.closeIdle := by
        simp [closeStream, hs, hreg, sendReset, hend, hopen, sendOn, d]
      have hidle : (d.closeWhenIdle && d.streams.all (!·.registered)) =
          (m.closeWhenIdle && (m.streams.eraseIdx h).all (!·.registered)) := by
        rw [← all_unregistered_release]
        rfl
      have hd : d.socket = some j := hcurrent
      rw [hclose, closeIdle, hd]
      simp only [hidle, closesSocket, hcurrent]
      cases m.closeWhenIdle && (m.streams.eraseIdx h).all (!·.registered) with
      | true =>
          show (d.wsClose j).rank k = 1 ↔ _
          rw [rank_wsClose_eq_one, hsent]
          simp
      | false =>
          show d.rank k = 1 ↔ _
          rw [hsent]
          simp

theorem unregistered_closeStream {h : Nat} {s' : Stream}
    (hs' : (m.closeStream h).streams[h]? = some s') : s'.registered = false := by
  unfold closeStream at hs'
  split at hs'
  · rename_i s hs
    split at hs'
    · simp only [streams_closeIdle, Store.getElem?_modify, if_true] at hs'
      obtain ⟨-, -, rfl⟩ := hs'
      rfl
    · rename_i hreg
      obtain rfl : s = s' := Option.some.inj (hs.symm.trans hs')
      exact Bool.eq_false_iff.mpr hreg
  · rename_i hs
    rw [hs] at hs'
    cases hs'

-- ============================================================================
-- The other steps send nothing
-- ============================================================================

/-- A step that sends nothing. -/
structure Quiet (m m' : WebSocketMux) : Prop where
  kept : m.Kept m'
  gains : m.gains m' = []

theorem quiet_of_sent (hkept : m.Kept m')
    (hsent : m'.sockets.map (·.sent) = m.sockets.map (·.sent)) : m.Quiet m' :=
  ⟨hkept, (gains_congr hsent).trans (gains_self m)⟩

theorem quiet_modifyStream {h : Nat} {f : Stream → Stream}
    (hsocket : ∀ s, (f s).socket = s.socket)
    (hreg : ∀ s, m.streams[h]? = some s → (f s).registered = true → s.registered = true) :
    m.Quiet { m with streams := m.streams.modify h f } :=
  quiet_of_sent (kept_modifyStream hsocket hreg) rfl

theorem quiet_openStream (m : WebSocketMux) : m.Quiet m.openStream := by
  unfold openStream
  cases hopen : m.openSocket with
  | some k =>
      refine quiet_of_sent ⟨fun _ => Nat.le_refl _, rfl, fun _ s hs => ⟨s, hs, rfl, id⟩, ?_⟩ rfl
      intro hready j hj
      rcases List.mem_append.mp hj with hold | hnew
      · exact hready j hold
      · obtain rfl : j = k := by simpa using hnew
        exact Nat.le_of_eq (readyStateIs_opened.mp (openSocket_eq_some hopen).2).symm
  | none =>
      cases m.opening with
      | some k => exact quiet_of_sent (kept_of_rank (fun _ => Nat.le_refl _) rfl rfl) rfl
      | none =>
          refine ⟨kept_of_rank (rank_le_concat m {}) rfl rfl, ?_⟩
          simp [gains]

theorem quiet_close (m : WebSocketMux) : m.Quiet m.close := by
  have hforgot : m.Kept { m with socket := none } :=
    kept_of_rank (fun _ => Nat.le_refl _) rfl rfl
  have hfailed : m.Kept ({ m with socket := none }.failAll .muxClose (closedError "")) :=
    hforgot.trans (kept_failAll _ _ _)
  unfold close
  split
  · exact quiet_of_sent (hfailed.trans (kept_wsClose _ _)) (sent_wsClose _ _)
  · exact quiet_of_sent hfailed rfl

theorem quiet_route (m : WebSocketMux) (k : Nat) (message : Bytes) :
    m.Quiet (m.route k message) := by
  have hrefl : m.Quiet m := ⟨Kept.refl m, gains_self m⟩
  unfold route
  split
  · split
    · exact hrefl
    · split
      · exact quiet_modifyStream (fun _ => rfl) fun _ _ hreg => by cases hreg
      · exact quiet_modifyStream (fun _ => rfl) fun _ _ hreg => hreg
  · exact hrefl

theorem quiet_onopen {k : Nat} {w : Socket} (hw : m.sockets[k]? = some w)
    (hst : w.readyState = .connecting) : m.Quiet (m.onopen k) := by
  have hrank : ∀ j, m.rank j ≤ (m.onopen k).rank j := by
    refine rank_le_modify fun v hv => ?_
    obtain rfl : w = v := Option.some.inj (hw.symm.trans hv)
    simp [hst, ReadyState.rank]
  have hopened : (m.onopen k).rank k = 1 := by
    simp [rank, onopen, hw, ReadyState.rank]
  refine quiet_of_sent ⟨hrank, rfl, fun _ s hs => ⟨s, hs, rfl, id⟩, ?_⟩
    (sent_setSocket fun _ => rfl)
  intro hready j hj
  rcases List.mem_append.mp hj with hold | hnew
  · exact Nat.le_trans (hready j hold) (hrank j)
  · obtain rfl : j = k := by simpa using (List.mem_filter.mp hnew).2
    exact Nat.le_of_eq hopened.symm

theorem rank_le_closed (st : ReadyState) : st.rank ≤ ReadyState.closed.rank := by
  cases st <;> simp [ReadyState.rank]

theorem quiet_onerror (m : WebSocketMux) (k : Nat) : m.Quiet (m.onerror k) :=
  quiet_of_sent (kept_of_rank (rank_le_modify fun _ _ => rank_le_closed _) rfl rfl)
    (sent_setSocket fun _ => rfl)

theorem quiet_onclose (m : WebSocketMux) (k : Nat) (reason : String) :
    m.Quiet (m.onclose k reason) := by
  refine quiet_of_sent (Kept.trans ?_ (kept_failAll _ _ _)) (sent_setSocket fun _ => rfl)
  exact kept_of_rank (rank_le_modify fun _ _ => rank_le_closed _) rfl rfl

theorem quiet_setStream {h : Nat} {s s' : Stream} (hs : m.streams[h]? = some s)
    (hsocket : s'.socket = s.socket) (hreg : s'.registered = s.registered) :
    m.Quiet (m.setStream h s') := by
  refine quiet_of_sent ⟨fun _ => Nat.le_refl _, List.length_modify .., ?_, id⟩ rfl
  refine Store.forall_modify (fun j v hv => ⟨v, hv, rfl, id⟩) ?_
  intro v hv
  obtain rfl : s = v := Option.some.inj (hs.symm.trans hv)
  exact ⟨s, hs, hsocket, fun hr => hreg ▸ hr⟩

theorem quiet_step {ev : MuxEvent} (hstep : m.step ev = some m') (hev : ev.ofCall = false) :
    m.Quiet m' := by
  cases ev with
  | openStream =>
      cases hstep
      exact quiet_openStream m
  | resume i => cases hev
  | write h envelope => cases hev
  | closeWriter h => cases hev
  | closeStream h => cases hev
  | close =>
      cases hstep
      exact quiet_close m
  | onopen k =>
      obtain ⟨w, hw, -, hst, rfl⟩ := onSocket_eq_some hstep
      exact quiet_onopen hw (of_decide_eq_true hst)
  | peerClosing k =>
      obtain ⟨w, hw, -, hst, rfl⟩ := onSocket_eq_some hstep
      refine quiet_of_sent (kept_setSocket fun v hv => ?_) (sent_setSocket fun _ => rfl)
      obtain rfl : w = v := Option.some.inj (hw.symm.trans hv)
      simp [of_decide_eq_true hst, ReadyState.rank]
  | onerror k =>
      obtain ⟨w, -, -, -, rfl⟩ := onSocket_eq_some hstep
      exact quiet_onerror m k
  | onclose k reason =>
      obtain ⟨w, -, -, -, rfl⟩ := onSocket_eq_some hstep
      exact quiet_onclose m k reason
  | onmessage k message =>
      obtain ⟨w, -, -, -, rfl⟩ := onSocket_eq_some hstep
      exact quiet_route m k message
  | pull h =>
      obtain ⟨s, hs, hf⟩ := onStream_eq_some hstep
      obtain ⟨p, -, rfl⟩ := Option.map_eq_some_iff.mp hf
      exact quiet_setStream hs rfl rfl
  | settle h =>
      obtain ⟨s, hs, hf⟩ := onStream_eq_some hstep
      obtain ⟨p, -, rfl⟩ := Option.map_eq_some_iff.mp hf
      exact quiet_setStream hs rfl rfl
  | read h =>
      obtain ⟨s, hs, hf⟩ := onStream_eq_some hstep
      cases hf
      exact quiet_setStream hs rfl rfl

/-- What every step but a resumed `openStream` keeps. -/
theorem kept_step {ev : MuxEvent} (hstep : m.step ev = some m') (hev : ∀ i, ev ≠ .resume i) :
    m.Kept m' := by
  by_cases hcall : ev.ofCall = true
  · cases ev with
    | resume i => exact absurd rfl (hev i)
    | write h envelope | closeWriter h =>
        obtain ⟨s, -, hf⟩ := onStream_eq_some hstep
        cases hf
        exact kept_sendOn m _ _ _
    | closeStream h =>
        cases hstep
        exact kept_closeStream m h
    | _ => cases hcall
  · exact (quiet_step hstep (Bool.eq_false_iff.mpr hcall)).kept

theorem entry_wireId {h : Nat} (hlt : h + 1 < 2 ^ 32) {s : Stream} (hs : m.streams[h]? = some s)
    (hreg : s.registered = true) : m.entry (wireId h) = some h := by
  have hid : (wireId h).toNat = h + 1 := by
    simp only [wireId, UInt32.toNat_ofNat']
    exact Nat.mod_eq_of_lt hlt
  simp [entry, hid, hs, hreg]

/-- A reset frame unregisters the stream it names. -/
theorem unregistered_route {k h : Nat} {message : Bytes} (hlt : h + 1 < 2 ^ 32)
    (hreset : resetId? message = some (wireId h)) {s' : Stream}
    (hs' : (m.route k message).streams[h]? = some s') : s'.registered = false := by
  obtain ⟨i₀, i₁, i₂, i₃, rest, rfl, hid⟩ : ∃ i₀ i₁ i₂ i₃ rest,
      message = i₀ :: i₁ :: i₂ :: i₃ :: flagEnvelopeReset :: rest ∧
        Lib.getUint32 i₀ i₁ i₂ i₃ = wireId h := by
    unfold resetId? at hreset
    split at hreset
    · split at hreset
      · rename_i hflag
        exact ⟨_, _, _, _, _, by rw [hflag], Option.some.inj hreset⟩
      · cases hreset
    · cases hreset
  simp only [route, hid] at hs'
  cases hentry : m.entry (wireId h) with
  | none =>
      simp only [hentry] at hs'
      refine Bool.eq_false_iff.mpr fun hreg => ?_
      rw [entry_wireId hlt hs' hreg] at hentry
      cases hentry
  | some j =>
      simp only [hentry, if_true] at hs'
      by_cases hjh : j = h
      · subst hjh
        rw [Store.getElem?_modify, if_pos rfl] at hs'
        obtain ⟨s, -, rfl⟩ := hs'
        rfl
      · rw [Store.getElem?_modify, if_neg hjh] at hs'
        refine Bool.eq_false_iff.mpr fun hreg => ?_
        rw [entry_wireId hlt hs' hreg] at hentry
        exact hjh (Option.some.inj hentry).symm

end WebSocketMux
end Web
end BidiWeb
