/-
  BidiWeb.Interop.BrowserRequests

  What the browser's mux and its calls put on every socket they dial.

  The streams of all sockets share one map and one sequence of IDs, and a
  reset goes out on whatever socket is the current one.  What keeps the
  sockets apart is that an envelope is sent on the stream's own socket only,
  after the headers of its stream.
-/

import BidiWeb.Interop.Messages
import BidiWeb.Web.SocketProgress
import BidiWeb.Web.StreamFrames
import BidiWeb.Web.TransportCall

namespace BidiWeb
namespace Web

open BidiWeb.Lib
open BidiWeb.Interop
open BidiWeb.Core (encodeEnvelope encodeStreamFrame)

-- ============================================================================
-- The sockets
-- ============================================================================

/-- The socket a message arrives on, and the message. -/
def CallEvent.takes : CallEvent → Option (Nat × Bytes)
  | .mux (.onmessage k data) => some (k, data)
  | .mux _ | .headers .. | .message .. | .finish _ | .fail _ | .release _ => none

namespace WebSocketMux

/-- What has been sent on socket `k`, by stream. -/
def sentOn (m : WebSocketMux) (k : Nat) : List (Nat × Bytes) :=
  match m.sockets[k]? with
  | some w => w.sent
  | none => []

/-- The messages sent on socket `k`. -/
def messages (m : WebSocketMux) (k : Nat) : List Bytes :=
  (m.sentOn k).map fun p => prefixStreamId p.1 p.2

variable {connect : ConnectPackage} {m m' : WebSocketMux}

theorem sentOn_of_map (h : m'.sockets.map (·.sent) = m.sockets.map (·.sent)) (k : Nat) :
    m'.sentOn k = m.sentOn k := by
  have hk := congrArg (·[k]?) h
  simp only [List.getElem?_map] at hk
  unfold sentOn
  cases h' : m'.sockets[k]? <;> cases h : m.sockets[k]? <;> simp_all

theorem sentOn_of_modify {f : Socket → Socket} {j : Nat} (hf : ∀ w, (f w).sent = w.sent)
    (h : m'.sockets = m.sockets.modify j f) (k : Nat) : m'.sentOn k = m.sentOn k := by
  apply sentOn_of_map
  rw [h]
  exact Store.map_modify_of_eq fun w _ => hf w

/-- A socket that is dialled has sent nothing. -/
theorem sentOn_of_concat (h : m'.sockets = m.sockets ++ [({} : Socket)]) (k : Nat) :
    m'.sentOn k = m.sentOn k := by
  unfold sentOn
  rw [h]
  cases hold : m.sockets[k]? with
  | some w => rw [Store.getElem?_concat.mpr (.inl hold)]
  | none =>
      cases hnew : (m.sockets ++ [({} : Socket)])[k]? with
      | none => rfl
      | some w =>
          rcases Store.getElem?_concat.mp hnew with hw | ⟨-, rfl⟩
          · rw [hold] at hw
            cases hw
          · rfl

theorem sentOn_sendOn (m : WebSocketMux) (k h : Nat) (envelope : Bytes) (j : Nat) :
    (m.sendOn k h envelope).sentOn j =
      m.sentOn j ++ if j = k ∧ m.rank k = 1 then [(h, envelope)] else [] := by
  unfold sentOn sendOn
  rw [List.getElem?_modify]
  by_cases hj : k = j
  · subst hj
    cases hw : m.sockets[k]? with
    | none => simp [rank, hw]
    | some w =>
        cases hst : w.readyState <;> simp [rank, hw, hst, Socket.send, ReadyState.rank]
  · have hj' : ¬ (j = k ∧ m.rank k = 1) := fun h => hj h.1.symm
    rw [if_neg hj', List.append_nil]
    cases hw : m.sockets[j]? <;> simp [hj]

/-- What the mux does of its own accord sends nothing. -/
theorem sentOn_quiet {ev : MuxEvent} (hstep : m.step ev = some m')
    (hev : ev.ofCall = false ∨ ∃ i, ev = .resume i) (k : Nat) : m'.sentOn k = m.sentOn k := by
  have hsame : ∀ {x : WebSocketMux}, x.sockets = m.sockets → x.sentOn k = m.sentOn k :=
    fun h => by rw [sentOn, h, sentOn]
  cases ev with
  | openStream =>
      cases hstep
      unfold WebSocketMux.openStream
      split
      · exact hsame rfl
      · split
        · exact hsame rfl
        · exact sentOn_of_concat rfl k
  | resume i =>
      obtain ⟨j, -, rfl⟩ := step_resume.mp hstep
      exact hsame rfl
  | write | closeWriter | closeStream => simp [MuxEvent.ofCall] at hev
  | close =>
      cases hstep
      unfold WebSocketMux.close
      simp only
      split
      · exact sentOn_of_map (sent_wsClose _ _) k
      · exact hsame rfl
  | onopen j =>
      obtain ⟨w, -, -, -, rfl⟩ := onSocket_eq_some hstep
      refine sentOn_of_modify ?_ rfl k
      exact fun _ => rfl
  | peerClosing j =>
      obtain ⟨w, -, -, -, rfl⟩ := onSocket_eq_some hstep
      refine sentOn_of_modify ?_ rfl k
      exact fun _ => rfl
  | onerror j =>
      obtain ⟨w, -, -, -, rfl⟩ := onSocket_eq_some hstep
      refine sentOn_of_modify ?_ rfl k
      exact fun _ => rfl
  | onclose j reason =>
      obtain ⟨w, -, -, -, rfl⟩ := onSocket_eq_some hstep
      refine sentOn_of_modify ?_ rfl k
      exact fun _ => rfl
  | onmessage j message =>
      obtain ⟨w, -, -, -, rfl⟩ := onSocket_eq_some hstep
      refine hsame ?_
      unfold WebSocketMux.route
      split
      · split
        · rfl
        · split <;> rfl
      · rfl
  | pull h =>
      obtain ⟨s, -, hf⟩ := onStream_eq_some hstep
      obtain ⟨p, -, rfl⟩ := Option.map_eq_some_iff.mp hf
      exact hsame rfl
  | settle h =>
      obtain ⟨s, -, hf⟩ := onStream_eq_some hstep
      obtain ⟨p, -, rfl⟩ := Option.map_eq_some_iff.mp hf
      exact hsame rfl
  | read h =>
      obtain ⟨s, -, hf⟩ := onStream_eq_some hstep
      cases hf
      exact hsame rfl

/-- `closeStream` sends a reset at most. -/
theorem sentOn_closeStream (m : WebSocketMux) (h k : Nat) :
    ∃ resets, (∀ p ∈ resets, isEnvelope p.2 = false) ∧
      (m.closeStream h).sentOn k = m.sentOn k ++ resets := by
  unfold closeStream
  split
  · rename_i s _
    split
    · have hidle : ∀ x : WebSocketMux, x.closeIdle.sentOn k = x.sentOn k :=
        fun x => sentOn_of_map (sent_closeIdle x) k
      rw [hidle]
      show ∃ resets, (∀ p ∈ resets, isEnvelope p.2 = false) ∧
        (m.sendReset h s).sentOn k = m.sentOn k ++ resets
      unfold sendReset
      split
      · exact ⟨[], fun _ hp => by (cases hp), (List.append_nil _).symm⟩
      · split
        · refine ⟨_, fun p hp => ?_, sentOn_sendOn m _ h _ k⟩
          split at hp
          · obtain rfl := List.mem_singleton.mp hp
            rfl
          · cases hp
        · exact ⟨[], fun _ hp => by (cases hp), (List.append_nil _).symm⟩
    · exact ⟨[], fun _ hp => by (cases hp), (List.append_nil _).symm⟩
  · exact ⟨[], fun _ hp => by (cases hp), (List.append_nil _).symm⟩

-- ============================================================================
-- What a stream has put on a socket
-- ============================================================================

/-- The envelopes of stream `h` sent on socket `k`. -/
def putOn (m : WebSocketMux) (h k : Nat) : List Bytes :=
  (m.sentOn k).filterMap fun p => if p.1 = h ∧ isEnvelope p.2 = true then some p.2 else none

/-- A reset is no envelope. -/
theorem putOn_of_resets {k : Nat} {resets : List (Nat × Bytes)}
    (hresets : ∀ p ∈ resets, isEnvelope p.2 = false) (hsent : m'.sentOn k = m.sentOn k ++ resets)
    (h : Nat) : m'.putOn h k = m.putOn h k := by
  have hnone : resets.filterMap
      (fun p => if p.1 = h ∧ isEnvelope p.2 = true then some p.2 else none) = [] := by
    refine List.filterMap_eq_nil_iff.mpr fun p hp => ?_
    simp [hresets p hp]
  rw [putOn, hsent, List.filterMap_append, hnone, List.append_nil, putOn]

theorem putOn_sendOn {envelope : Bytes} (henvelope : isEnvelope envelope = true) (k h j i : Nat) :
    (m.sendOn k h envelope).putOn j i =
      m.putOn j i ++ if h = j ∧ i = k ∧ m.rank k = 1 then [envelope] else [] := by
  rw [putOn, sentOn_sendOn, List.filterMap_append, putOn]
  refine congrArg (_ ++ ·) ?_
  by_cases hopen : i = k ∧ m.rank k = 1
  · by_cases hj : h = j
    · simp [hopen, hj, henvelope]
    · simp [hopen, hj]
  · simp [hopen]

end WebSocketMux

theorem isEnvelope_of_writes {before after : Writer} {flag : UInt8}
    (h : Writes before flag after) (data : Bytes) :
    isEnvelope (encodeEnvelope flag data) = true := by
  cases h <;> rfl

/-- Where the envelopes of stream `h` stand, given its writer. -/
structure PutOk (m : WebSocketMux) (h : Nat) (s : Stream) (writer : Writer) : Prop where
  first : OpensFirst opensStream (m.putOn h s.socket)
  own : 1 ≤ m.rank s.socket
  unsent : writer = .headers → m.putOn h s.socket = []
  started : writer ≠ .headers → m.rank s.socket = 1 → m.putOn h s.socket ≠ []

theorem PutOk.kept {m m' : WebSocketMux} {h : Nat} {s s' : Stream} {writer after : Writer}
    (hp : PutOk m h s writer) (hsocket : s'.socket = s.socket)
    (hput : m'.putOn h s.socket = m.putOn h s.socket) (hrank : m.rank s.socket ≤ m'.rank s.socket)
    (hwriter : after = .headers ↔ writer = .headers) : PutOk m' h s' after where
  first := by
    rw [hsocket, hput]
    exact hp.first
  own := by
    rw [hsocket]
    exact Nat.le_trans hp.own hrank
  unsent := fun h => by
    rw [hsocket, hput]
    exact hp.unsent (hwriter.mp h)
  started := fun hne hopen => by
    rw [hsocket] at hopen ⊢
    rw [hput]
    have hown := hp.own
    exact hp.started (fun h => hne (hwriter.mpr h)) (by omega)

/-- The writer of the stream puts its next envelope on the socket, or the
    socket discards it. -/
theorem PutOk.wrote {m : WebSocketMux} {h : Nat} {s : Stream} {before after : Writer}
    {flag : UInt8} (hp : PutOk m h s before) (hwrites : Writes before flag after) (data : Bytes) :
    PutOk (m.sendOn s.socket h (encodeEnvelope flag data)) h s after := by
  have hput := WebSocketMux.putOn_sendOn (m := m) (isEnvelope_of_writes hwrites data) s.socket h h
    s.socket
  have hrank := WebSocketMux.rank_sendOn m s.socket h (encodeEnvelope flag data) s.socket
  have hafter : after ≠ .headers := by cases hwrites <;> exact nofun
  by_cases hopen : m.rank s.socket = 1
  · rw [if_pos ⟨rfl, rfl, hopen⟩] at hput
    refine ⟨?_, by rw [hrank]; exact hp.own, fun h => absurd h hafter, fun _ _ => ?_⟩
    · rw [hput]
      have hold := hp.first
      cases hwrites with
      | headers =>
          rw [hp.unsent rfl]
          exact ⟨rfl, fun _ hx => by cases hx⟩
      | data | endStream =>
          have hne := hp.started nofun hopen
          generalize m.putOn h s.socket = es at hold hne
          cases es with
          | nil => exact absurd rfl hne
          | cons e rest =>
              refine ⟨hold.1, fun x hx => ?_⟩
              rcases List.mem_append.mp hx with hx | hx
              · exact hold.2 x hx
              · obtain rfl := List.mem_singleton.mp hx
                rfl
    · rw [hput]
      simp
  · rw [if_neg (fun hall => hopen hall.2.2), List.append_nil] at hput
    refine ⟨by rw [hput]; exact hp.first, by rw [hrank]; exact hp.own, fun h => absurd h hafter,
      fun _ hnow => ?_⟩
    rw [hrank] at hnow
    exact absurd hnow hopen

-- ============================================================================
-- All streams
-- ============================================================================

namespace Calls

variable {connect : ConnectPackage} {c c' : Calls}

structure Puts (c : Calls) : Prop where
  writers : c.writers.length = c.mux.streams.length
  ready : ∀ k ∈ c.mux.ready, 1 ≤ c.mux.rank k
  /-- An envelope is sent on the socket of its stream. -/
  owner : ∀ k p, p ∈ c.mux.sentOn k → isEnvelope p.2 = true →
    ∃ s : Stream, c.mux.streams[p.1]? = some s ∧ s.socket = k
  stream : ∀ (h : Nat) (s : Stream) (writer : Writer), c.mux.streams[h]? = some s →
    c.writers[h]? = some writer → PutOk c.mux h s writer

theorem puts_init (closeWhenIdle : Bool) : Puts (calls closeWhenIdle).init where
  writers := rfl
  ready := fun _ h => by cases h
  owner := fun _ _ h => by cases h
  stream := fun _ _ _ h => by cases h

/-- A step that sends no envelope. -/
theorem Puts.kept (hc : c.Puts) (hkept : c.mux.Kept c'.mux)
    (hsent : ∀ k, ∃ resets, (∀ p ∈ resets, isEnvelope p.2 = false) ∧
      c'.mux.sentOn k = c.mux.sentOn k ++ resets)
    (hlength : c'.writers.length = c.writers.length)
    (hwriters : ∀ (h : Nat) (after : Writer), c'.writers[h]? = some after →
      ∃ writer, c.writers[h]? = some writer ∧ (after = .headers ↔ writer = .headers)) :
    c'.Puts where
  writers := by rw [hlength, hkept.length, hc.writers]
  ready := hkept.ready hc.ready
  owner := fun k p hp henvelope => by
    obtain ⟨resets, hresets, hmore⟩ := hsent k
    rw [hmore] at hp
    rcases List.mem_append.mp hp with hp | hp
    · obtain ⟨s, hs, hsocket⟩ := hc.owner k p hp henvelope
      have hlt : p.1 < c'.mux.streams.length := by
        rw [hkept.length]
        exact (List.getElem?_eq_some_iff.mp hs).1
      obtain ⟨s₀, hs₀, hsame, -⟩ := hkept.streams p.1 _ (List.getElem?_eq_getElem hlt)
      obtain rfl : s = s₀ := Option.some.inj (hs.symm.trans hs₀)
      exact ⟨_, List.getElem?_eq_getElem hlt, hsame.trans hsocket⟩
    · rw [hresets p hp] at henvelope
      cases henvelope
  stream := fun h s' after hs' hafter => by
    obtain ⟨s, hs, hsocket, -⟩ := hkept.streams h s' hs'
    obtain ⟨writer, hwriter, hiff⟩ := hwriters h after hafter
    obtain ⟨resets, hresets, hmore⟩ := hsent s.socket
    exact (hc.stream h s writer hs hwriter).kept hsocket
      (WebSocketMux.putOn_of_resets hresets hmore h) (hkept.rank _) hiff

theorem Puts.resumed (hc : c.Puts) {i k : Nat} (hk : c.mux.ready[i]? = some k) :
    Puts { mux := c.mux.resume i k, writers := c.writers ++ [.headers] } where
  writers := by simp [WebSocketMux.resume, hc.writers]
  ready := fun j hj => hc.ready j (List.mem_of_mem_eraseIdx hj)
  owner := fun j p hp henvelope => by
    obtain ⟨s, hs, hsocket⟩ := hc.owner j p hp henvelope
    exact ⟨s, Store.getElem?_concat.mpr (.inl hs), hsocket⟩
  stream := fun h s writer hs hw => by
    rcases Store.getElem?_concat.mp hs with hold | ⟨rfl, rfl⟩
    · have hlt : h < c.writers.length := by
        rw [hc.writers]
        exact (List.getElem?_eq_some_iff.mp hold).1
      rw [List.getElem?_append_left hlt] at hw
      exact (hc.stream h s writer hold hw).kept rfl rfl (Nat.le_refl _) Iff.rfl
    · -- no stream has sent with the new number
      have hnone : c.mux.putOn c.mux.streams.length k = [] := by
        refine List.filterMap_eq_nil_iff.mpr fun p hp => ?_
        by_cases henvelope : isEnvelope p.2 = true
        · obtain ⟨s, hs, -⟩ := hc.owner k p hp henvelope
          have hlt := (List.getElem?_eq_some_iff.mp hs).1
          simp [Nat.ne_of_lt hlt]
        · simp [henvelope]
      obtain rfl : writer = .headers := by
        rw [← hc.writers] at hw
        simpa using hw.symm
      refine ⟨?_, hc.ready k (List.mem_of_getElem? hk), fun _ => hnone, fun h => absurd rfl h⟩
      show OpensFirst opensStream (c.mux.putOn c.mux.streams.length k)
      rw [hnone]
      trivial

theorem Puts.wrote (hc : c.Puts) {h : Nat} {s : Stream} {before after : Writer} {flag : UInt8}
    (hw : c.writers[h]? = some before) (hs : c.mux.streams[h]? = some s)
    (hwrites : Writes before flag after) (data : Bytes) :
    Puts { mux := c.mux.sendOn s.socket h (encodeEnvelope flag data)
           writers := c.writers.set h after } where
  writers := by simpa [WebSocketMux.sendOn] using hc.writers
  ready := fun k hk => by
    rw [WebSocketMux.rank_sendOn]
    exact hc.ready k hk
  owner := fun k p hp henvelope => by
    rw [WebSocketMux.sentOn_sendOn] at hp
    rcases List.mem_append.mp hp with hp | hp
    · exact hc.owner k p hp henvelope
    · split at hp
      · rename_i hown
        obtain rfl := List.mem_singleton.mp hp
        exact ⟨s, hs, hown.1.symm⟩
      · cases hp
  stream := fun j s' writer hs' hwriter => by
    by_cases hj : h = j
    · subst hj
      obtain rfl : s = s' := Option.some.inj (hs.symm.trans hs')
      have hlt := (List.getElem?_eq_some_iff.mp hw).1
      obtain rfl : after = writer := by
        rw [List.getElem?_set_self hlt] at hwriter
        exact Option.some.inj hwriter
      exact (hc.stream h s before hs hw).wrote hwrites data
    · rw [List.getElem?_set_ne hj] at hwriter
      refine (hc.stream j s' writer hs' hwriter).kept rfl ?_ ?_ Iff.rfl
      · rw [WebSocketMux.putOn_sendOn (isEnvelope_of_writes hwrites data),
          if_neg (fun hall => hj hall.1), List.append_nil]
      · rw [WebSocketMux.rank_sendOn]

theorem Puts.step (hc : c.Puts) {ev : CallEvent} (hstep : c.step ev = some c') : c'.Puts := by
  have hnone : ∀ {m : WebSocketMux}, (∀ k, m.sentOn k = c.mux.sentOn k) → ∀ k,
      ∃ resets : List (Nat × Bytes), (∀ p ∈ resets, isEnvelope p.2 = false) ∧
        m.sentOn k = c.mux.sentOn k ++ resets :=
    fun hsame k => ⟨[], fun _ hp => by (cases hp), by rw [hsame, List.append_nil]⟩
  cases ev with
  | mux ev =>
      by_cases hresume : ∃ i, ev = .resume i
      · obtain ⟨i, rfl⟩ := hresume
        obtain ⟨mux, hmux, rfl⟩ := Option.map_eq_some_iff.mp hstep
        obtain ⟨k, hk, rfl⟩ := WebSocketMux.step_resume.mp hmux
        exact hc.resumed hk
      · have hother : (if ev.ofCall then none else
            (c.mux.step ev).map fun mux => { c with mux }) = some c' := by
          unfold Calls.step at hstep
          split at hstep <;> simp_all
        obtain ⟨hcall, hother⟩ := Option.ite_none_left_eq_some.mp hother
        obtain ⟨mux, hmux, rfl⟩ := Option.map_eq_some_iff.mp hother
        have hcall := Bool.eq_false_iff.mpr hcall
        exact hc.kept (WebSocketMux.quiet_step hmux hcall).kept
          (hnone (WebSocketMux.sentOn_quiet hmux (.inl hcall))) rfl
          fun h after hafter => ⟨after, hafter, Iff.rfl⟩
  | headers h headersBytes =>
      obtain ⟨hw, mux, hmux, rfl⟩ := write_eq_some hstep
      obtain ⟨s, hs, hf⟩ := WebSocketMux.onStream_eq_some hmux
      cases hf
      exact hc.wrote hw hs .headers headersBytes
  | message h msg =>
      obtain ⟨hw, mux, hmux, rfl⟩ := write_eq_some hstep
      obtain ⟨s, hs, hf⟩ := WebSocketMux.onStream_eq_some hmux
      cases hf
      exact hc.wrote hw hs .data msg
  | finish h =>
      obtain ⟨hw, mux, hmux, rfl⟩ := write_eq_some hstep
      obtain ⟨s, hs, hf⟩ := WebSocketMux.onStream_eq_some hmux
      cases hf
      exact hc.wrote hw hs .endStream []
  | fail h =>
      obtain ⟨hw, mux, hmux, rfl⟩ := write_eq_some hstep
      cases hmux
      refine hc.kept (WebSocketMux.kept_closeStream c.mux h)
        (WebSocketMux.sentOn_closeStream c.mux h) (List.length_set ..) fun j after hafter => ?_
      by_cases hj : h = j
      · subst hj
        have hlt := (List.getElem?_eq_some_iff.mp hw).1
        rw [List.getElem?_set_self hlt] at hafter
        obtain rfl := Option.some.inj hafter
        exact ⟨.messages, hw, by simp⟩
      · rw [List.getElem?_set_ne hj] at hafter
        exact ⟨after, hafter, Iff.rfl⟩
  | release h =>
      obtain ⟨-, hstep⟩ := Option.ite_none_right_eq_some.mp hstep
      obtain rfl := Option.some.inj hstep
      exact hc.kept (WebSocketMux.kept_closeStream c.mux h)
        (WebSocketMux.sentOn_closeStream c.mux h) rfl fun _ after hafter => ⟨after, hafter, Iff.rfl⟩

end Calls

-- ============================================================================
-- Messages and their streams
-- ============================================================================

namespace WebSocketMux

variable {connect : ConnectPackage} {m m' : WebSocketMux}

/-- A step adds to what has been sent. -/
theorem sentOn_step {ev : MuxEvent} (hstep : m.step ev = some m') (k : Nat) :
    m.sentOn k <+: m'.sentOn k := by
  by_cases hquiet : ev.ofCall = false ∨ ∃ i, ev = .resume i
  · rw [sentOn_quiet hstep hquiet]
  · cases ev with
    | write h envelope =>
        obtain ⟨s, -, hf⟩ := onStream_eq_some hstep
        cases hf
        rw [sentOn_sendOn]
        exact List.prefix_append ..
    | closeWriter h =>
        obtain ⟨s, -, hf⟩ := onStream_eq_some hstep
        cases hf
        rw [sentOn_sendOn]
        exact List.prefix_append ..
    | closeStream h =>
        cases hstep
        obtain ⟨resets, -, hmore⟩ := sentOn_closeStream m h k
        rw [hmore]
        exact List.prefix_append ..
    | resume i => exact absurd (.inr ⟨i, rfl⟩) hquiet
    | _ => exact absurd (.inl rfl) hquiet

theorem messages_step {ev : MuxEvent} (hstep : m.step ev = some m') (k : Nat) :
    m.messages k <+: m'.messages k :=
  (sentOn_step hstep k).map _

theorem streamOf_prefixStreamId (h : Nat) (envelope : Bytes) :
    streamOf (prefixStreamId h envelope) =
      if isEnvelope envelope then some (wireId h, envelope) else none :=
  streamOf_encodeStreamFrame (wireId h) envelope

theorem entry_unregistered {h : Nat} (hlt : h + 1 < 2 ^ 32) {s : Stream}
    (hs : m.streams[h]? = some s) (hreg : s.registered = false) : m.entry (wireId h) = none := by
  have hid : (wireId h).toNat = h + 1 := by
    simp only [wireId, UInt32.toNat_ofNat']
    exact Nat.mod_eq_of_lt hlt
  simp [entry, hid, hs, hreg]

/-- What a stream has put is what the messages carry for its ID, while no two
    streams have one ID. -/
theorem carried_messages (hlt : m.streams.length < 2 ^ 32) {h k : Nat} (hh : h < m.streams.length)
    (howner : ∀ p ∈ m.sentOn k, isEnvelope p.2 = true → p.1 < m.streams.length) :
    carried streamOf (wireId h) (m.messages k) = m.putOn h k := by
  rw [carried, messages, putOn, List.filterMap_map]
  refine List.filterMap_congr fun p hp => ?_
  show carries streamOf (wireId h) (encodeStreamFrame (wireId p.1) p.2) = _
  rw [carries_encodeStreamFrame]
  by_cases henvelope : isEnvelope p.2 = true
  · have hp := howner p hp henvelope
    have hiff : wireId p.1 = wireId h ↔ p.1 = h :=
      ⟨wireId_inj (by omega) (by omega), fun heq => by rw [heq]⟩
    simp only [hiff]
  · rw [if_neg fun hboth => henvelope hboth.2, if_neg fun hboth => henvelope hboth.2]

end WebSocketMux

namespace Calls

variable {c : Calls}

/-- An ID used on a socket is that of one of its streams. -/
theorem Puts.named (hc : c.Puts) {i : UInt32} {k : Nat}
    (hname : names streamOf i (c.mux.messages k)) :
    ∃ (h : Nat) (s : Stream), c.mux.streams[h]? = some s ∧ s.socket = k ∧ wireId h = i := by
  obtain ⟨message, hmessage, e, hlabel⟩ := hname
  obtain ⟨p, hp, rfl⟩ := List.mem_map.mp hmessage
  rw [WebSocketMux.streamOf_prefixStreamId] at hlabel
  split at hlabel
  · rename_i henvelope
    obtain ⟨s, hs, hsocket⟩ := hc.owner k p hp henvelope
    exact ⟨p.1, s, hs, hsocket, (Prod.mk.inj (Option.some.inj hlabel)).1⟩
  · cases hlabel

end Calls

end Web
end BidiWeb
