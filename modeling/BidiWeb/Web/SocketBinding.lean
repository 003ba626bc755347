/-
  BidiWeb.Web.SocketBinding

  Which socket a stream of the multiplexer depends on.

  `entries`, `socket` and `opening` are shared by all the sockets a mux has
  ever dialled, and the handlers of a socket act on all three without asking
  whose turn it is.  What keeps the streams of one socket apart from the
  events of another is therefore only the order of events: `Inv` holds as
  long as no dial is started while the close event of an earlier socket is
  still outstanding, and then at most one socket is live at any time.
-/

import BidiWeb.Web.WebSocketMux

namespace BidiWeb
namespace Web

open BidiWeb.Lib

-- ============================================================================
-- What it means to be bound to one's own socket
-- ============================================================================

/-- The socket an event that ended a stream came from. -/
def Cause.socket? : Cause → Option Nat
  | .closeEvent k | .resetFrame k => some k
  | .muxClose => none

/-- Streams are terminated by events of their own socket (or by `close()`),
    their frames are sent on their own socket, and at most one socket is being
    dialled and at most one is open. -/
structure Bound (m : WebSocketMux) : Prop where
  endedBy : ∀ (h : Nat) (s : Stream) (cause : Cause) (k : Nat), m.streams[h]? = some s →
    s.endedBy = some cause →
    cause.socket? = some k → k = s.socket
  sent : ∀ (k : Nat) (w : Socket) (h : Nat) envelope, m.sockets[k]? = some w →
    (h, envelope) ∈ w.sent →
    ∃ s : Stream, m.streams[h]? = some s ∧ s.socket = k
  dialling : ∀ (i j : Nat) (v w : Socket), m.sockets[i]? = some v → m.sockets[j]? = some w →
    v.readyState = .connecting → w.readyState = .connecting → i = j
  usable : ∀ (i j : Nat) (v w : Socket), m.sockets[i]? = some v → m.sockets[j]? = some w →
    v.readyState = .opened → w.readyState = .opened → i = j

/-- `openStream` has neither an open socket nor a dial to join. -/
def WebSocketMux.dials (m : WebSocketMux) : Bool := m.openSocket.isNone && m.opening.isNone

/-- A dial starts only once every earlier socket has fired its close event. -/
def DialsAfterClose (m : WebSocketMux) (ev : MuxEvent) : Prop :=
  ev = .openStream → m.dials = true → ∀ w ∈ m.sockets, w.closeDelivered = true

instance (m : WebSocketMux) (ev : MuxEvent) : Decidable (DialsAfterClose m ev) :=
  inferInstanceAs (Decidable (_ → _ → _))

-- ============================================================================
-- The invariant
-- ============================================================================

namespace WebSocketMux

variable {connect : ConnectPackage} {m m' : WebSocketMux}

/-- The close event of socket `k` is still to come. -/
def Live (m : WebSocketMux) (k : Nat) : Prop :=
  ∃ w : Socket, m.sockets[k]? = some w ∧ w.closeDelivered = false

structure Inv (m : WebSocketMux) : Prop where
  live : ∀ k, m.Live k → k + 1 = m.sockets.length
  delivered : ∀ (k : Nat) (w : Socket), m.sockets[k]? = some w → w.closeDelivered = true →
    w.readyState = .closed
  dialling : ∀ (k : Nat) (w : Socket), m.sockets[k]? = some w → w.readyState = .connecting →
    m.opening = some k
  socket : ∀ k, m.socket = some k → m.Live k
  ready : ∀ k ∈ m.ready, m.Live k
  registered : ∀ (h : Nat) (s : Stream), m.streams[h]? = some s → s.registered = true →
    m.Live s.socket
  endedBy : ∀ (h : Nat) (s : Stream) (cause : Cause) (k : Nat), m.streams[h]? = some s →
    s.endedBy = some cause →
    cause.socket? = some k → k = s.socket
  sent : ∀ (k : Nat) (w : Socket) (h : Nat) envelope, m.sockets[k]? = some w →
    (h, envelope) ∈ w.sent →
    ∃ s : Stream, m.streams[h]? = some s ∧ s.socket = k

theorem inv_init (closeWhenIdle : Bool) : Inv (webSocketMux closeWhenIdle).init where
  live := fun _ ⟨_, h, _⟩ => by cases h
  delivered := fun _ _ h => by cases h
  dialling := fun _ _ h => by cases h
  socket := fun _ h => by cases h
  ready := fun _ h => by cases h
  registered := fun _ _ h => by cases h
  endedBy := fun _ _ _ _ h => by cases h
  sent := fun _ _ _ _ h => by cases h

theorem Inv.live_unique (hm : m.Inv) {i j : Nat} (hi : m.Live i) (hj : m.Live j) : i = j := by
  have := hm.live i hi
  have := hm.live j hj
  omega

theorem Inv.live_of_readyState (hm : m.Inv) {k : Nat} {w : Socket} (hw : m.sockets[k]? = some w)
    (hst : w.readyState ≠ .closed) : m.Live k := by
  refine ⟨w, hw, ?_⟩
  cases hdel : w.closeDelivered with
  | false => rfl
  | true => exact absurd (hm.delivered k w hw hdel) hst

theorem Inv.bound (hm : m.Inv) : Bound m where
  endedBy := hm.endedBy
  sent := hm.sent
  dialling := by
    intro i j v w hi hj hv hw
    exact hm.live_unique (hm.live_of_readyState hi (by simp [hv]))
      (hm.live_of_readyState hj (by simp [hw]))
  usable := by
    intro i j v w hi hj hv hw
    exact hm.live_unique (hm.live_of_readyState hi (by simp [hv]))
      (hm.live_of_readyState hj (by simp [hw]))

-- ============================================================================
-- Changing one socket or one stream
-- ============================================================================

def setSocket (m : WebSocketMux) (k : Nat) (f : Socket → Socket) : WebSocketMux :=
  { m with sockets := m.sockets.modify k f }

theorem live_setSocket {k : Nat} {f : Socket → Socket}
    (hf : ∀ w, (f w).closeDelivered = w.closeDelivered) (j : Nat) :
    (m.setSocket k f).Live j ↔ m.Live j := by
  simp only [Live, setSocket, Store.getElem?_modify]
  by_cases hkj : k = j
  · subst hkj
    constructor
    · rintro ⟨w, hw, hdel⟩
      obtain ⟨v, hv, rfl⟩ := by simpa using hw
      exact ⟨v, hv, (hf v).symm.trans hdel⟩
    · rintro ⟨v, hv, hdel⟩
      exact ⟨f v, by simp [hv], (hf v).trans hdel⟩
  · simp [hkj]

/-- A socket may change state and send frames of its own streams. -/
theorem Inv.setSocket (hm : m.Inv) {k : Nat} {f : Socket → Socket}
    (hdel : ∀ w, (f w).closeDelivered = w.closeDelivered)
    (hclosed : ∀ w, m.sockets[k]? = some w → w.readyState = .closed →
      (f w).readyState = .closed)
    (hconn : ∀ w, (f w).readyState = .connecting → w.readyState = .connecting)
    (hsent : ∀ w h envelope, m.sockets[k]? = some w → (h, envelope) ∈ (f w).sent →
      (h, envelope) ∈ w.sent ∨ ∃ s : Stream, m.streams[h]? = some s ∧ s.socket = k) :
    (m.setSocket k f).Inv where
  live := by
    intro j hj
    have := hm.live j ((live_setSocket hdel j).mp hj)
    simpa [WebSocketMux.setSocket] using this
  delivered := by
    refine Store.forall_modify hm.delivered ?_
    intro w hw hd
    rw [hdel] at hd
    exact hclosed w hw (hm.delivered k w hw hd)
  dialling := by
    refine Store.forall_modify hm.dialling ?_
    intro w hw hst
    exact hm.dialling k w hw (hconn w hst)
  socket := fun j hj => (live_setSocket hdel j).mpr (hm.socket j hj)
  ready := fun j hj => (live_setSocket hdel j).mpr (hm.ready j hj)
  registered := fun h s hs hreg => (live_setSocket hdel _).mpr (hm.registered h s hs hreg)
  endedBy := hm.endedBy
  sent := by
    intro j w h envelope hw hmem
    rw [WebSocketMux.setSocket, Store.getElem?_modify] at hw
    by_cases hkj : k = j
    · subst hkj
      obtain ⟨v, hv, rfl⟩ := by simpa using hw
      rcases hsent v h envelope hv hmem with hold | hnew
      · exact hm.sent k v h envelope hv hold
      · exact hnew
    · rw [if_neg hkj] at hw
      exact hm.sent j w h envelope hw hmem

/-- A stream may change as long as it keeps its socket, is not registered
    anew, and is ended by its own socket only. -/
theorem Inv.modifyStream (hm : m.Inv) {h : Nat} {f : Stream → Stream}
    (hsocket : ∀ s, (f s).socket = s.socket)
    (hreg : ∀ s, (f s).registered = true → s.registered = true)
    (hended : ∀ s cause k, m.streams[h]? = some s → (f s).endedBy = some cause →
      cause.socket? = some k → k = s.socket) :
    Inv { m with streams := m.streams.modify h f } where
  live := hm.live
  delivered := hm.delivered
  dialling := hm.dialling
  socket := hm.socket
  ready := hm.ready
  registered := by
    refine Store.forall_modify hm.registered ?_
    intro s hs hr
    rw [hsocket]
    exact hm.registered h s hs (hreg s hr)
  endedBy := by
    intro j s' cause k hs' hcause hk
    rw [Store.getElem?_modify] at hs'
    by_cases hhj : h = j
    · subst hhj
      obtain ⟨s, hs, rfl⟩ := by simpa using hs'
      rw [hsocket]
      exact hended s cause k hs hcause hk
    · rw [if_neg hhj] at hs'
      exact hm.endedBy j s' cause k hs' hcause hk
  sent := by
    intro k w j envelope hw hmem
    obtain ⟨s, hs, hsk⟩ := hm.sent k w j envelope hw hmem
    by_cases hhj : h = j
    · subst hhj
      exact ⟨f s, Store.getElem?_modify.mpr (by simp [hs]), (hsocket s).trans hsk⟩
    · exact ⟨s, Store.getElem?_modify.mpr (by simp [hhj, hs]), hsk⟩

-- ============================================================================
-- The methods
-- ============================================================================

theorem getElem?_failAll {cause : Cause} {reason : Core.JsError} {h : Nat} {s' : Stream} :
    (m.failAll cause reason).streams[h]? = some s' ↔
      ∃ s, m.streams[h]? = some s ∧ (if s.registered then s.fail cause reason else s) = s' := by
  simp [failAll]

theorem registered_failAll (cause : Cause) (reason : Core.JsError) {h : Nat} {s' : Stream}
    (hs : (m.failAll cause reason).streams[h]? = some s') : s'.registered = false := by
  obtain ⟨s, -, rfl⟩ := getElem?_failAll.mp hs
  cases hreg : s.registered <;> simp [hreg, Stream.fail]

/-- Ending every registered stream for a cause that is each one's own. -/
theorem Inv.failAll (hm : m.Inv) {cause : Cause} (reason : Core.JsError)
    (hown : ∀ (h : Nat) (s : Stream) k, m.streams[h]? = some s → s.registered = true →
      cause.socket? = some k → k = s.socket) :
    (m.failAll cause reason).Inv where
  live := hm.live
  delivered := hm.delivered
  dialling := hm.dialling
  socket := hm.socket
  ready := hm.ready
  registered := fun h s hs hreg => by
    rw [registered_failAll _ _ hs] at hreg
    cases hreg
  endedBy := by
    intro h s' c k hs' hc hk
    obtain ⟨s, hs, rfl⟩ := getElem?_failAll.mp hs'
    cases hreg : s.registered with
    | true =>
        simp only [hreg, if_true, Stream.fail, Option.some.injEq] at hc ⊢
        exact hown h s k hs hreg (hc ▸ hk)
    | false =>
        simp only [hreg, Bool.false_eq_true, if_false] at hc ⊢
        exact hm.endedBy h s c k hs hc hk
  sent := by
    intro k w h envelope hw hmem
    obtain ⟨s, hs, hsk⟩ := hm.sent k w h envelope hw hmem
    refine ⟨_, getElem?_failAll.mpr ⟨s, hs, rfl⟩, ?_⟩
    cases hreg : s.registered <;> simpa [hreg, Stream.fail] using hsk

theorem Inv.sendOn (hm : m.Inv) {k h : Nat} {s : Stream} (hs : m.streams[h]? = some s)
    (hk : s.socket = k) (envelope : Bytes) : (m.sendOn k h envelope).Inv := by
  refine hm.setSocket ?_ ?_ ?_ ?_
  · intro w
    unfold Socket.send
    split <;> rfl
  · intro w _ hclosed
    simp [Socket.send, hclosed]
  · intro w hst
    unfold Socket.send at hst
    split at hst <;> exact hst
  · intro w j e hw hmem
    unfold Socket.send at hmem
    split at hmem
    · rcases List.mem_append.mp hmem with hold | hnew
      · exact Or.inl hold
      · obtain ⟨rfl, rfl⟩ := by simpa using hnew
        exact Or.inr ⟨s, hs, hk⟩
    · exact Or.inl hmem

theorem Inv.wsClose (hm : m.Inv) (k : Nat) : (m.wsClose k).Inv := by
  refine hm.setSocket ?_ ?_ ?_ ?_
  · intro w
    unfold Socket.close
    split <;> rfl
  · intro w _ hclosed
    simp [Socket.close, hclosed]
  · intro w hst
    unfold Socket.close at hst
    split at hst
    · cases hst
    · cases hst
    · exact hst
    · exact hst
  · intro w h e _ hmem
    unfold Socket.close at hmem
    split at hmem <;> exact Or.inl hmem

/-- `this.socket = undefined`. -/
theorem Inv.forget (hm : m.Inv) : Inv { m with socket := none } where
  live := hm.live
  delivered := hm.delivered
  dialling := hm.dialling
  socket := fun _ h => by cases h
  ready := hm.ready
  registered := hm.registered
  endedBy := hm.endedBy
  sent := hm.sent

theorem openSocket_eq_some {k : Nat} (h : m.openSocket = some k) :
    m.socket = some k ∧ m.readyStateIs k .opened = true := by
  unfold openSocket at h
  split at h
  · rename_i j hj
    split at h
    · rename_i hopened
      cases h
      exact ⟨hj, hopened⟩
    · cases h
  · cases h

theorem Inv.openStream (hm : m.Inv) (hG : DialsAfterClose m .openStream) : m.openStream.Inv := by
  unfold WebSocketMux.openStream
  cases hopen : m.openSocket with
  | some k =>
      have hlive := hm.socket k (openSocket_eq_some hopen).1
      exact { hm with
        ready := fun j hj => by
          rcases List.mem_append.mp hj with hold | hnew
          · exact hm.ready j hold
          · obtain rfl : j = k := by simpa using hnew
            exact hlive }
  | none =>
      cases hopening : m.opening with
      | some k =>
          exact { hm with
            dialling := fun j w hw hst => hopening.symm.trans (hm.dialling j w hw hst) }
      | none =>
          -- the dial: nothing that was live before is still live
          have hdone := hG rfl (by simp [dials, hopen, hopening])
          have hdead : ∀ j, ¬ m.Live j := by
            rintro j ⟨w, hw, hdel⟩
            rw [hdone w (List.mem_of_getElem? hw)] at hdel
            cases hdel
          refine
            { live := ?_
              delivered := Store.forall_concat hm.delivered fun h => by cases h
              dialling := ?_
              socket := fun k hk => absurd (hm.socket k hk) (hdead k)
              ready := fun k hk => absurd (hm.ready k hk) (hdead k)
              registered := fun h s hs hreg => absurd (hm.registered h s hs hreg) (hdead _)
              endedBy := hm.endedBy
              sent := ?_ }
          · rintro j ⟨w, hw, hdel⟩
            rcases Store.getElem?_concat.mp hw with hold | ⟨rfl, -⟩
            · exact absurd ⟨w, hold, hdel⟩ (hdead j)
            · simp
          · intro j w hw hst
            rcases Store.getElem?_concat.mp hw with hold | ⟨rfl, -⟩
            · exact absurd (hm.live_of_readyState hold (by simp [hst])) (hdead j)
            · rfl
          · intro k w h envelope hw hmem
            rcases Store.getElem?_concat.mp hw with hold | ⟨-, rfl⟩
            · exact hm.sent k w h envelope hold hmem
            · cases hmem

theorem Inv.resume (hm : m.Inv) {i k : Nat} (hk : m.ready[i]? = some k) : (m.resume i k).Inv where
  live := hm.live
  delivered := hm.delivered
  dialling := hm.dialling
  socket := hm.socket
  ready := fun j hj => hm.ready j (List.mem_of_mem_eraseIdx hj)
  registered := by
    refine Store.forall_concat hm.registered fun _ => ?_
    exact hm.ready k (List.mem_of_getElem? hk)
  endedBy := by
    intro h s cause c hs hc hk
    rcases Store.getElem?_concat.mp hs with hold | ⟨-, rfl⟩
    · exact hm.endedBy h s cause c hold hc hk
    · cases hc
  sent := by
    intro j w h envelope hw hmem
    obtain ⟨s, hs, hsk⟩ := hm.sent j w h envelope hw hmem
    exact ⟨s, Store.getElem?_concat.mpr (.inl hs), hsk⟩

theorem Inv.close (hm : m.Inv) : m.close.Inv := by
  have hfailed : Inv ({ m with socket := none }.failAll .muxClose (closedError "")) := by
    exact hm.forget.failAll _ fun _ _ _ _ _ h => by cases h
  unfold WebSocketMux.close
  cases m.socket with
  | some k => exact hfailed.wsClose k
  | none => exact hfailed

theorem Inv.sendReset (hm : m.Inv) {h : Nat} {s : Stream} (hs : m.streams[h]? = some s)
    (hreg : s.registered = true) : (m.sendReset h s).Inv := by
  unfold WebSocketMux.sendReset
  split
  · exact hm
  · cases hopen : m.openSocket with
    | none => exact hm
    | some k =>
        -- `this.socket` is the live one, and so is the socket of the stream
        have hlive := hm.socket k (openSocket_eq_some hopen).1
        exact hm.sendOn hs (hm.live_unique (hm.registered h s hs hreg) hlive) _

theorem Inv.closeIdle (hm : m.Inv) : m.closeIdle.Inv := by
  unfold WebSocketMux.closeIdle
  split
  · rename_i k _
    split
    · exact (hm.wsClose k).forget
    · exact hm
  · exact hm

theorem Inv.release (hm : m.Inv) (h : Nat) :
    Inv { m with streams := m.streams.modify h Stream.release } :=
  hm.modifyStream (fun _ => rfl) (fun _ hreg => by cases hreg)
    fun s cause k hs hc hk => hm.endedBy h s cause k hs hc hk

theorem Inv.closeStream (hm : m.Inv) (h : Nat) : (m.closeStream h).Inv := by
  unfold WebSocketMux.closeStream
  cases hs : m.streams[h]? with
  | none => exact hm
  | some s =>
      cases hreg : s.registered with
      | false => simpa [hreg] using hm
      | true =>
          simp only [hreg, if_true]
          exact ((hm.sendReset hs hreg).release h).closeIdle

theorem entry_eq_some {id : UInt32} {h : Nat} (he : m.entry id = some h) :
    ∃ s, m.streams[h]? = some s ∧ s.registered = true := by
  unfold entry at he
  split at he
  · cases he
  · rename_i j _
    split at he
    · rename_i s hs
      split at he
      · rename_i hreg
        cases he
        exact ⟨s, hs, hreg⟩
      · cases he
    · cases he

theorem Inv.route (hm : m.Inv) {k : Nat} (hk : m.Live k) (message : Bytes) :
    (m.route k message).Inv := by
  unfold WebSocketMux.route
  split
  · split
    · exact hm
    · rename_i h he
      split
      · refine hm.modifyStream (fun _ => rfl) (fun _ hreg => by cases hreg) ?_
        intro s cause j hs hc hj
        obtain ⟨s', hs', hreg⟩ := entry_eq_some he
        obtain rfl : s = s' := Option.some.inj (hs.symm.trans hs')
        obtain rfl : Cause.resetFrame k = cause := Option.some.inj hc
        obtain rfl : k = j := Option.some.inj hj
        exact hm.live_unique hk (hm.registered h s hs hreg)
      · exact hm.modifyStream (fun _ => rfl) (fun _ hreg => hreg)
          fun s cause j hs hc hj => hm.endedBy h s cause j hs hc hj
  · exact hm

/-- A socket event other than its close changes the socket's state. -/
theorem Inv.setReadyState (hm : m.Inv) {k : Nat} {f : Socket → Socket}
    (hf : ∀ w, (f w).closeDelivered = w.closeDelivered ∧ (f w).sent = w.sent)
    (hclosed : ∀ w, m.sockets[k]? = some w → w.readyState = .closed →
      (f w).readyState = .closed)
    (hconn : ∀ w, (f w).readyState ≠ .connecting) : (m.setSocket k f).Inv := by
  refine hm.setSocket (fun w => (hf w).1) hclosed (fun w hst => absurd hst (hconn w)) ?_
  intro w h e _ hmem
  rw [(hf w).2] at hmem
  exact Or.inl hmem

/-- Once the live socket has left the connecting state, no socket is in it. -/
theorem no_dial_of_live (hm : m.Inv) {k : Nat} (hlive : m.Live k) {f : Socket → Socket}
    (hf : ∀ w, (f w).readyState ≠ .connecting) {P : Nat → Prop} :
    ∀ (j : Nat) (w : Socket), (m.sockets.modify k f)[j]? = some w →
      w.readyState = .connecting → P j := by
  intro j w hw hst
  rw [Store.getElem?_modify] at hw
  by_cases hkj : k = j
  · subst hkj
    obtain ⟨v, -, rfl⟩ := by simpa using hw
    exact absurd hst (hf v)
  · rw [if_neg hkj] at hw
    exact absurd (hm.live_unique hlive (hm.live_of_readyState hw (by simp [hst]))) hkj

theorem Inv.onopen (hm : m.Inv) {k : Nat} {w : Socket} (hw : m.sockets[k]? = some w)
    (hst : w.readyState = .connecting) : (m.onopen k).Inv := by
  have hlive := hm.live_of_readyState hw (by simp [hst])
  have hset : (m.setSocket k fun w => { w with readyState := .opened }).Inv := by
    refine hm.setReadyState (fun _ => ⟨rfl, rfl⟩) ?_ fun _ h => by cases h
    intro v hv hclosed
    obtain rfl : w = v := Option.some.inj (hw.symm.trans hv)
    rw [hst] at hclosed
    cases hclosed
  have hlive' := (live_setSocket (m := m) (k := k)
    (f := fun w => { w with readyState := .opened }) (fun _ => rfl) k).mpr hlive
  exact
    { live := hset.live
      delivered := hset.delivered
      dialling := no_dial_of_live hm hlive fun _ h => by cases h
      socket := fun j hj => by
        obtain rfl : k = j := Option.some.inj hj
        exact hlive'
      ready := fun j hj => by
        rcases List.mem_append.mp hj with hold | hnew
        · exact hset.ready j hold
        · obtain ⟨-, hjk⟩ := List.mem_filter.mp hnew
          obtain rfl : j = k := of_decide_eq_true hjk
          exact hlive'
      registered := hset.registered
      endedBy := hset.endedBy
      sent := hset.sent }

theorem Inv.onerror (hm : m.Inv) {k : Nat} (hlive : m.Live k) : (m.onerror k).Inv := by
  have hset : (m.setSocket k fun w => { w with readyState := .closed, erred := true }).Inv :=
    hm.setReadyState (fun _ => ⟨rfl, rfl⟩) (fun _ _ _ => rfl) fun _ h => by cases h
  exact { hset with dialling := no_dial_of_live hm hlive fun _ h => by cases h }

/-- The close event of the live socket leaves no socket live and no stream
    registered. -/
theorem Inv.onclose (hm : m.Inv) {k : Nat} {w : Socket} (hw : m.sockets[k]? = some w)
    (hdel : w.closeDelivered = false) (hready : m.ready = []) (reason : String) :
    (m.onclose k reason).Inv := by
  have hlive : m.Live k := ⟨w, hw, hdel⟩
  have hfailed : (m.failAll (.closeEvent k) (closedError reason)).Inv := by
    refine hm.failAll _ ?_
    intro h s j hs hreg hj
    obtain rfl : k = j := Option.some.inj hj
    exact hm.live_unique hlive (hm.registered h s hs hreg)
  have hdead : ∀ j, ¬ (m.onclose k reason).Live j := by
    rintro j ⟨v, hv, hvdel⟩
    simp only [WebSocketMux.onclose, WebSocketMux.failAll, Store.getElem?_modify] at hv
    by_cases hkj : k = j
    · subst hkj
      obtain ⟨u, -, rfl⟩ := by simpa using hv
      cases hvdel
    · rw [if_neg hkj] at hv
      exact hkj (hm.live_unique hlive ⟨v, hv, hvdel⟩)
  exact
    { live := fun j hj => absurd hj (hdead j)
      delivered := Store.forall_modify hm.delivered fun _ _ _ => rfl
      dialling := no_dial_of_live hm hlive fun _ h => by cases h
      socket := by
        intro j hj
        simp only [WebSocketMux.onclose, WebSocketMux.failAll] at hj
        split at hj
        · cases hj
        · rename_i hne
          exact absurd (hm.live_unique hlive (hm.socket j hj) ▸ hj) hne
      ready := fun j hj => by
        have hnil : j ∈ m.ready := hj
        rw [hready] at hnil
        cases hnil
      registered := fun h s hs hreg => by
        have hunreg := registered_failAll (m := m) (.closeEvent k)
          (closedError reason) hs
        rw [hunreg] at hreg
        cases hreg
      endedBy := hfailed.endedBy
      sent := by
        intro j v h envelope hv hmem
        rw [WebSocketMux.onclose, WebSocketMux.failAll] at hv
        rcases Decidable.em (k = j) with rfl | hkj
        · obtain ⟨u, hu, rfl⟩ := by simpa [Store.getElem?_modify] using hv
          exact hfailed.sent k u h envelope hu hmem
        · simp only [Store.getElem?_modify, if_neg hkj] at hv
          exact hfailed.sent j v h envelope hv hmem }

-- ============================================================================
-- One step, and whole runs
-- ============================================================================

/-- What the call and its envelope reader do to a stream leaves it where it is. -/
theorem Inv.setStream (hm : m.Inv) {h : Nat} {s s' : Stream} (hs : m.streams[h]? = some s)
    (hsame : s'.socket = s.socket ∧ s'.registered = s.registered ∧ s'.endedBy = s.endedBy) :
    (m.setStream h s').Inv := by
  obtain ⟨hsocket, hreg, hended⟩ := hsame
  have heq : m.setStream h s' = { m with streams := m.streams.modify h fun t =>
      if t = s then s' else t } := by
    have hmod : m.streams.modify h (fun _ => s') =
        m.streams.modify h fun t => if t = s then s' else t := by
      refine List.ext_getElem? fun j => ?_
      rw [List.getElem?_modify, List.getElem?_modify]
      by_cases hhj : h = j
      · subst hhj
        simp [hs]
      · simp [hhj]
    rw [WebSocketMux.setStream, hmod]
  rw [heq]
  refine hm.modifyStream ?_ ?_ ?_
  · intro t
    split
    · rename_i ht
      rw [ht, hsocket]
    · rfl
  · intro t ht
    split at ht
    · rename_i hts
      rw [hts, ← hreg]
      exact ht
    · exact ht
  · intro t cause k ht hc hk
    obtain rfl : s = t := Option.some.inj (hs.symm.trans ht)
    rw [if_pos rfl, hended] at hc
    exact hm.endedBy h s cause k hs hc hk

theorem Inv.step (hm : m.Inv) {ev : MuxEvent} (hG : DialsAfterClose m ev)
    (hstep : m.step ev = some m') : m'.Inv := by
  cases ev with
  | openStream =>
      cases hstep
      exact hm.openStream hG
  | resume i =>
      obtain ⟨k, hk, rfl⟩ := step_resume.mp hstep
      exact hm.resume hk
  | write h envelope =>
      obtain ⟨s, hs, hf⟩ := onStream_eq_some hstep
      cases hf
      exact hm.sendOn hs rfl envelope
  | closeWriter h =>
      obtain ⟨s, hs, hf⟩ := onStream_eq_some hstep
      cases hf
      exact hm.sendOn hs rfl _
  | closeStream h =>
      cases hstep
      exact hm.closeStream h
  | close =>
      cases hstep
      exact hm.close
  | onopen k =>
      obtain ⟨w, hw, -, hst, rfl⟩ := onSocket_eq_some hstep
      exact hm.onopen hw (of_decide_eq_true hst)
  | peerClosing k =>
      obtain ⟨w, hw, -, hst, rfl⟩ := onSocket_eq_some hstep
      refine hm.setReadyState (fun _ => ⟨rfl, rfl⟩) ?_ fun _ h => by cases h
      intro v hv hclosed
      obtain rfl : w = v := Option.some.inj (hw.symm.trans hv)
      rw [of_decide_eq_true hst] at hclosed
      cases hclosed
  | onerror k =>
      obtain ⟨w, hw, -, hen, rfl⟩ := onSocket_eq_some hstep
      obtain ⟨-, hdel⟩ := by simpa using hen
      exact hm.onerror ⟨w, hw, hdel⟩
  | onclose k reason =>
      obtain ⟨w, hw, hready, hen, rfl⟩ := onSocket_eq_some hstep
      obtain ⟨-, hdel⟩ := by simpa using hen
      exact hm.onclose hw hdel hready reason
  | onmessage k message =>
      obtain ⟨w, hw, -, hst, rfl⟩ := onSocket_eq_some hstep
      have hopened := of_decide_eq_true hst
      exact hm.route (hm.live_of_readyState hw (by simp [hopened])) message
  | pull h =>
      obtain ⟨s, hs, hf⟩ := onStream_eq_some hstep
      obtain ⟨p, -, rfl⟩ := Option.map_eq_some_iff.mp hf
      exact hm.setStream hs ⟨rfl, rfl, rfl⟩
  | settle h =>
      obtain ⟨s, hs, hf⟩ := onStream_eq_some hstep
      obtain ⟨p, -, rfl⟩ := Option.map_eq_some_iff.mp hf
      exact hm.setStream hs ⟨rfl, rfl, rfl⟩
  | read h =>
      obtain ⟨s, hs, hf⟩ := onStream_eq_some hstep
      cases hf
      exact hm.setStream hs ⟨rfl, rfl, rfl⟩

-- ============================================================================
-- A redial that does not wait
-- ============================================================================

theorem openStream_of_dials (hdials : m.dials = true) :
    m.openStream = { m with
      sockets := m.sockets ++ [{}]
      opening := some m.sockets.length
      waiting := m.waiting ++ [m.sockets.length] } := by
  obtain ⟨hopen, hopening⟩ := by simpa [dials] using hdials
  simp only [WebSocketMux.openStream, hopen, hopening]

/-- The ready calls can all resume, and none of them touches a socket. -/
theorem exec_resume_all (closeWhenIdle : Bool) (m : WebSocketMux) :
    ∃ m', (webSocketMux closeWhenIdle).exec m (List.replicate m.ready.length (.resume 0)) =
        some m' ∧
      m'.ready = [] ∧ m'.sockets = m.sockets ∧ m'.socket = m.socket := by
  cases hready : m.ready with
  | nil => exact ⟨m, rfl, hready, rfl, rfl⟩
  | cons k ks =>
      have hstep : m.step (.resume 0) = some (m.resume 0 k) := by
        simp [WebSocketMux.step, hready]
      have hlen : (m.resume 0 k).ready.length = ks.length := by
        simp [WebSocketMux.resume, hready]
      obtain ⟨m', hexec, hnil, hsockets, hsocket⟩ := exec_resume_all closeWhenIdle (m.resume 0 k)
      rw [hlen] at hexec
      exact ⟨m', (Machine.exec_cons _).mpr ⟨_, hstep, hexec⟩, hnil, hsockets, hsocket⟩
termination_by m.ready.length
decreasing_by simp [WebSocketMux.resume, hready]

/-- A dial started while socket `k` has still to fire its close event: the
    event forgets the dial, and the next `openStream` starts a second one. -/
theorem redial_while_live (hm : m.Inv) (hdials : m.dials = true) {k : Nat} (hlive : m.Live k) :
    ∃ evs m', (webSocketMux m.closeWhenIdle).exec m (.openStream :: evs) = some m' ∧
      ¬ Bound m' := by
  obtain ⟨w, hw, hdel⟩ := hlive
  have hopening : m.opening = none := by
    have := hdials
    simp only [dials, Bool.and_eq_true, Option.isNone_iff_eq_none] at this
    exact this.2
  have hst : w.readyState ≠ .connecting := by
    intro hst
    have := hm.dialling k w hw hst
    rw [hopening] at this
    cases this
  obtain ⟨m₂, hexec, hready, hsockets, hsocket⟩ := exec_resume_all m.closeWhenIdle m.openStream
  have hdial := openStream_of_dials hdials
  rw [hdial] at hsockets hsocket
  have hw₂ : m₂.sockets[k]? = some w := by
    rw [hsockets]
    exact Store.getElem?_concat.mpr (.inl hw)
  have hclose : m₂.step (.onclose k "") = some (m₂.onclose k "") := by
    simp [WebSocketMux.step, WebSocketMux.onSocket, hw₂, hready, hst, hdel]
  -- whatever `this.socket` was, it was socket `k`
  have hforgot : (m₂.onclose k "").socket = none := by
    simp only [WebSocketMux.onclose, WebSocketMux.failAll, hsocket]
    cases hs : m.socket with
    | none => simp
    | some j =>
        have hjk : k = j := hm.live_unique ⟨w, hw, hdel⟩ (hm.socket j hs)
        simp [hjk]
  have hdials₃ : (m₂.onclose k "").dials = true := by
    simp only [dials, WebSocketMux.openSocket, hforgot]
    rfl
  have hlast : (m₂.onclose k "").sockets[m.sockets.length]? = some {} := by
    have hlt : k < m.sockets.length := (List.getElem?_eq_some_iff.mp hw).1
    have hne : k ≠ m.sockets.length := by omega
    simp only [WebSocketMux.onclose, WebSocketMux.failAll, Store.getElem?_modify, if_neg hne,
      hsockets]
    exact Store.getElem?_concat.mpr (.inr ⟨rfl, rfl⟩)
  refine ⟨List.replicate m.openStream.ready.length (.resume 0) ++ [.onclose k "", .openStream],
    (m₂.onclose k "").openStream, ?_, ?_⟩
  · refine (Machine.exec_cons _).mpr ⟨m.openStream, rfl, ?_⟩
    refine (Machine.exec_append _).mpr ⟨m₂, hexec, ?_⟩
    exact (Machine.exec_cons _).mpr ⟨_, hclose, rfl⟩
  · intro hbound
    rw [openStream_of_dials hdials₃] at hbound
    have heq := hbound.dialling _ _ _ _ (Store.getElem?_concat.mpr (.inl hlast))
      (Store.getElem?_concat.mpr (.inr ⟨rfl, rfl⟩)) rfl rfl
    have hlen : (m₂.onclose k "").sockets.length = m.sockets.length + 1 := by
      simp [WebSocketMux.onclose, WebSocketMux.failAll, hsockets]
    omega

end WebSocketMux

/-- In every run in which no dial starts while the close event of an earlier
    socket is outstanding, every stream depends on its own socket only. -/
theorem streams_bound_to_their_socket [ConnectPackage] (closeWhenIdle : Bool) (evs : List MuxEvent)
    {m : WebSocketMux} (hrun : (webSocketMux closeWhenIdle).run evs = some m)
    (hG : (webSocketMux closeWhenIdle).Meets DialsAfterClose (webSocketMux closeWhenIdle).init
      evs) : Bound m :=
  (Machine.exec_invariant_of_meets (I := WebSocketMux.Inv) _
    (fun _ _ _ hm hdial hstep => hm.step hdial hstep)
    (WebSocketMux.inv_init closeWhenIdle) hG hrun).bound

open Connectrpc in
/-- A stream is opened, its socket closes, and the next stream dials anew. -/
theorem redial_after_close_bound :
    ∃ m, (webSocketMux false).run [.openStream, .onopen 0, .resume 0, .write 0 [1], .close,
        .onclose 0 "", .openStream, .onopen 1, .resume 0] = some m ∧ Bound m :=
  ⟨_, rfl, streams_bound_to_their_socket false
    [.openStream, .onopen 0, .resume 0, .write 0 [1], .close, .onclose 0 "", .openStream,
      .onopen 1, .resume 0] rfl (by decide)⟩

open Connectrpc in
/-- `close()` and a redial before the first socket has fired its close event:
    that event then ends the stream of the second socket. -/
theorem late_close_ends_new_stream :
    ¬ ∀ closeWhenIdle evs m, (webSocketMux closeWhenIdle).run evs = some m → Bound m := by
  intro h
  have hbound := h false [.openStream, .onopen 0, .resume 0, .close, .openStream, .onopen 1,
    .resume 0, .onclose 0 ""] _ rfl
  have := hbound.endedBy 1 _ (.closeEvent 0) 0 rfl rfl rfl
  cases this

end Web
end BidiWeb
