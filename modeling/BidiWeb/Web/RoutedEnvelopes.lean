/-
  BidiWeb.Web.RoutedEnvelopes

  The bytes `route` enqueues for a stream, against the envelopes that the
  messages received carry for it.

  `route` looks at a message of five bytes or more and does not compare the
  length it declares with the bytes there are, as `decodeStreamFrame` does.
  So what a stream is given splits into the envelopes of the complete frames
  as long as every message routed is one (`envelopes_routed_iff`).
-/

import BidiWeb.Wire.StreamFrame
import BidiWeb.Web.SocketProgress

namespace BidiWeb
namespace Web

open BidiWeb.Lib
open BidiWeb.Core (StreamFrame decodeStreamFrame encodeEnvelope)

-- ============================================================================
-- What the messages carry
-- ============================================================================

/-- What the messages received so far carry for a stream: the envelopes of
    complete frames, until one resets it or the client closes it. -/
structure Carried where
  opened : Bool := true
  envelopes : List Envelope := []
deriving DecidableEq, Repr

namespace Carried

def close (c : Carried) : Carried := { c with opened := false }

/-- A complete frame of the stream. -/
def hear (f : StreamFrame) (c : Carried) : Carried :=
  if c.opened then
    if f.flag = flagEnvelopeReset then c.close
    else { c with envelopes := c.envelopes ++ [⟨f.flag, f.envelope.drop 5⟩] }
  else c

end Carried

/-- A message is for the stream its ID names, if it is a frame at all. -/
def hearMessage (message : Bytes) (specs : List Carried) : List Carried :=
  match decodeStreamFrame message with
  | .error _ => specs
  | .ok f =>
      match f.streamId.toNat with
      | 0 => specs
      | h + 1 => specs.modify h (.hear f)

/-- The streams after an event; the `n`-th has the stream ID `n + 1`. -/
def carry (ev : MuxEvent) (specs : List Carried) : List Carried :=
  match ev with
  | .resume _ => specs ++ [{}]
  | .closeStream h => specs.modify h .close
  | .close | .onclose _ _ => specs.map .close
  | .onmessage _ message => hearMessage message specs
  | .openStream | .write _ _ | .closeWriter _ | .onopen _ | .peerClosing _ | .onerror _ | .pull _
  | .settle _ | .read _ => specs

/-- The mux with what its streams should be given. -/
def carrying [ConnectPackage] (closeWhenIdle : Bool) :
    Machine (WebSocketMux × List Carried) MuxEvent where
  init := ((webSocketMux closeWhenIdle).init, [])
  step := fun p ev => (p.1.step ev).map fun m => (m, carry ev p.2)

/-- The envelopes parsed from what the stream was given are the ones carried
    for it, no byte is left over, and no other message ends the stream. -/
structure Matches (s : Stream) (c : Carried) : Prop where
  envelopes : wholeEnvelopes s.routed.flatten = some c.envelopes
  opened : s.registered = c.opened

def EnvelopesRouted (p : WebSocketMux × List Carried) : Prop :=
  List.Forall₂ Matches p.1.streams p.2

namespace WebSocketMux

/-- `route` finds a stream for the message. -/
def finds (m : WebSocketMux) (message : Bytes) : Bool :=
  match message with
  | i₀ :: i₁ :: i₂ :: i₃ :: _ :: _ => (m.entry (getUint32 i₀ i₁ i₂ i₃)).isSome
  | _ => false

end WebSocketMux

/-- A message that arrives and finds a stream is a complete frame. -/
def FramesComplete [ConnectPackage] (p : WebSocketMux × List Carried) (ev : MuxEvent) : Prop :=
  match ev with
  | .onmessage _ message =>
      (p.1.step ev).isSome = true → p.1.finds message = true →
        (decodeStreamFrame message).isOk = true
  | _ => True

instance [ConnectPackage] (p : WebSocketMux × List Carried) (ev : MuxEvent) :
    Decidable (FramesComplete p ev) := by
  unfold FramesComplete
  split <;> infer_instance

-- ============================================================================
-- Streams in step
-- ============================================================================

namespace Matches

variable {s s' : Stream} {c : Carried}

/-- The two fields are all that counts. -/
theorem of_same (h : Matches s c) (hrouted : s'.routed = s.routed)
    (hregistered : s'.registered = s.registered) : Matches s' c := by
  refine ⟨?_, hregistered.trans h.opened⟩
  rw [hrouted]
  exact h.envelopes

/-- The client closes the stream, or had already. -/
theorem close (h : Matches s c) (hrouted : s'.routed = s.routed)
    (hregistered : s'.registered = false) : Matches s' c.close := by
  refine ⟨?_, hregistered⟩
  rw [hrouted]
  exact h.envelopes

/-- A complete frame that is no reset: its envelope is enqueued and carried. -/
theorem route (h : Matches s c) (hregistered : s.registered = true) {f : StreamFrame}
    {payload : Bytes} (hlen : payload.length < 0x100000000)
    (henvelope : f.envelope = encodeEnvelope f.flag payload) (hreset : f.flag ≠ flagEnvelopeReset)
    (endStream : Bool) : Matches (s.route f.envelope endStream) (c.hear f) := by
  have hopened : c.opened = true := h.opened.symm.trans hregistered
  have hcarried : c.hear f = { c with envelopes := c.envelopes ++ [⟨f.flag, payload⟩] } := by
    rw [Carried.hear, if_pos hopened, if_neg hreset, henvelope]
    rfl
  rw [hcarried]
  obtain ⟨hbytes, hbounds⟩ := wholeEnvelopes_iff.mp h.envelopes
  refine ⟨wholeEnvelopes_iff.mpr ⟨?_, ?_⟩, h.opened⟩
  · show (s.routed ++ [f.envelope]).flatten = _
    rw [List.flatten_append, hbytes, henvelope, encodeEnvelopes, encodeEnvelopes,
      List.flatMap_append]
    simp
  · intro e he
    rcases List.mem_append.mp he with hold | hnew
    · exact hbounds e hold
    · rw [List.mem_singleton.mp hnew]
      exact hlen

/-- More bytes than the envelopes carried have something left over. -/
theorem not_route (h : Matches s c) {chunk : Bytes} (hchunk : chunk ≠ []) (endStream : Bool) :
    ¬ Matches (s.route chunk endStream) c := by
  intro h'
  obtain ⟨hbytes, -⟩ := wholeEnvelopes_iff.mp h.envelopes
  obtain ⟨hbytes', -⟩ := wholeEnvelopes_iff.mp h'.envelopes
  have hall : (s.routed ++ [chunk]).flatten = encodeEnvelopes c.envelopes := hbytes'
  rw [List.flatten_append, hbytes, List.flatten_singleton] at hall
  exact hchunk (List.append_right_eq_self.mp hall)

end Matches

-- ============================================================================
-- One step
-- ============================================================================

variable {p : WebSocketMux × List Carried}

theorem EnvelopesRouted.of_streams (hp : EnvelopesRouted p) {m : WebSocketMux}
    (hm : m.streams = p.1.streams) : EnvelopesRouted (m, p.2) := by
  unfold EnvelopesRouted
  rw [hm]
  exact hp

/-- A step of a call on its own stream. -/
theorem EnvelopesRouted.setStream (hp : EnvelopesRouted p) {h : Nat} {s s' : Stream}
    (hs : p.1.streams[h]? = some s) (hrouted : s'.routed = s.routed)
    (hregistered : s'.registered = s.registered) :
    EnvelopesRouted (p.1.setStream h s', p.2) := by
  have hmodify := Store.forall₂_modify (f := fun _ => s') (g := id) hp h (by
    intro x c hx hc hmatch
    obtain rfl : s = x := Option.some.inj (hs.symm.trans hx)
    exact hmatch.of_same hrouted hregistered)
  rw [List.modify_id] at hmodify
  exact hmodify

theorem EnvelopesRouted.closeStream (hp : EnvelopesRouted p) (h : Nat) :
    EnvelopesRouted (p.1.closeStream h, p.2.modify h .close) := by
  have hkeep : ∀ m : WebSocketMux, m.streams = p.1.streams →
      (∀ s, p.1.streams[h]? = some s → s.registered = false) →
        EnvelopesRouted (m, p.2.modify h .close) := by
    intro m hm hclosed
    have hmodify := Store.forall₂_modify (f := id) (g := Carried.close) hp h (by
      intro s c hs hc hmatch
      exact hmatch.close rfl (hclosed s hs))
    rw [List.modify_id] at hmodify
    unfold EnvelopesRouted
    rw [hm]
    exact hmodify
  unfold WebSocketMux.closeStream
  cases hs : p.1.streams[h]? with
  | none =>
      refine hkeep _ rfl ?_
      intro s hs'
      rw [hs] at hs'
      cases hs'
  | some s =>
      cases hreg : s.registered with
      | false =>
          simp only [hreg, Bool.false_eq_true, if_false]
          refine hkeep _ rfl ?_
          intro s' hs'
          rw [hs] at hs'
          cases hs'
          exact hreg
      | true =>
          simp only [hreg, if_true]
          unfold EnvelopesRouted
          rw [WebSocketMux.streams_closeIdle]
          show List.Forall₂ Matches ((p.1.sendReset h s).streams.modify h Stream.release) _
          rw [WebSocketMux.streams_sendReset]
          refine Store.forall₂_modify hp h ?_
          intro s' c hs' hc hmatch
          exact hmatch.close rfl rfl

theorem EnvelopesRouted.failAll (hp : EnvelopesRouted p) {m : WebSocketMux} (cause : Cause)
    (reason : Core.JsError) (hm : m.streams = p.1.streams) :
    EnvelopesRouted (m.failAll cause reason, p.2.map .close) := by
  show List.Forall₂ Matches (m.streams.map _) (p.2.map Carried.close)
  rw [hm, List.forall₂_map_left_iff, List.forall₂_map_right_iff]
  refine List.Forall₂.imp ?_ hp
  intro s c hmatch
  cases hreg : s.registered with
  | true =>
      rw [if_pos rfl]
      exact hmatch.close rfl rfl
  | false =>
      rw [if_neg (by simp)]
      exact hmatch.close rfl hreg

namespace WebSocketMux

variable {m : WebSocketMux}

theorem entry_toNat {id : UInt32} {h : Nat} (he : m.entry id = some h) : id.toNat = h + 1 := by
  unfold entry at he
  split at he
  · cases he
  · rename_i j hj
    split at he
    · split at he
      · cases he
        exact hj
      · cases he
    · cases he

theorem entry_of_registered {id : UInt32} {h : Nat} {s : Stream} (hid : id.toNat = h + 1)
    (hs : m.streams[h]? = some s) (hreg : s.registered = true) : m.entry id = some h := by
  simp [entry, hid, hs, hreg]

/-- Without a stream for it a message is dropped. -/
theorem route_of_not_finds {message : Bytes} (hfinds : m.finds message = false) (k : Nat) :
    m.route k message = m := by
  unfold finds at hfinds
  unfold route
  split
  · simp only at hfinds
    rw [Option.isSome_eq_false_iff, Option.isNone_iff_eq_none] at hfinds
    rw [hfinds]
  · rfl

theorem route_frameBytes (m : WebSocketMux) (k : Nat) (id : UInt32) (flag : UInt8)
    (payload : Bytes) :
    m.route k (frameBytes id flag payload) =
      match m.entry id with
      | none => m
      | some h =>
          if flag = flagEnvelopeReset then
            { m with streams := m.streams.modify h (·.fail (.resetFrame k) serverResetError) }
          else
            { m with
              streams := m.streams.modify h
                (·.route (encodeEnvelope flag payload) (flag = flagEnvelopeEndStream)) } := by
  have hid : getUint32 (id >>> 24).toUInt8 (id >>> 16).toUInt8 (id >>> 8).toUInt8 id.toUInt8 = id :=
    getUint32_of_put rfl
  show (match m.entry (getUint32 (id >>> 24).toUInt8 (id >>> 16).toUInt8 (id >>> 8).toUInt8
    id.toUInt8) with | none => m | some h => _) = _
  rw [hid]
  rfl

end WebSocketMux

/-- A complete frame for a stream the client does not have open. -/
theorem EnvelopesRouted.hear_closed (hp : EnvelopesRouted p) {f : StreamFrame}
    (hentry : p.1.entry f.streamId = none) {h : Nat} (hid : f.streamId.toNat = h + 1) :
    EnvelopesRouted (p.1, p.2.modify h (.hear f)) := by
  have hmodify := Store.forall₂_modify (f := id) (g := Carried.hear f) hp h (by
    intro s c hs hc hmatch
    have hclosed : s.registered = false := by
      refine Bool.eq_false_iff.mpr fun hreg => ?_
      rw [WebSocketMux.entry_of_registered hid hs hreg] at hentry
      cases hentry
    have hsame : c.hear f = c := by
      rw [Carried.hear, ← hmatch.opened, hclosed]
      rfl
    rw [hsame]
    exact hmatch)
  rw [List.modify_id] at hmodify
  exact hmodify

/-- A message that is one complete frame. -/
theorem EnvelopesRouted.route_frame (hp : EnvelopesRouted p) {message : Bytes} {f : StreamFrame}
    (hframe : decodeStreamFrame message = .ok f) (k : Nat) :
    EnvelopesRouted (p.1.route k message, hearMessage message p.2) := by
  obtain ⟨payload, ⟨hlen, hbytes⟩, henvelope⟩ := Core.decodeStreamFrame_eq_ok.mp hframe
  unfold hearMessage
  rw [hframe, hbytes, WebSocketMux.route_frameBytes]
  cases hentry : p.1.entry f.streamId with
  | none =>
      simp only
      split
      · exact hp
      · rename_i h hid
        exact hp.hear_closed hentry hid
  | some h =>
      have hid := WebSocketMux.entry_toNat hentry
      obtain ⟨s, hs, hreg⟩ := WebSocketMux.entry_eq_some hentry
      simp only [hid]
      split
      · rename_i hreset
        refine Store.forall₂_modify hp h ?_
        intro s' c hs' hc hmatch
        rw [hs] at hs'
        cases hs'
        have hclosed : c.hear f = c.close := by
          rw [Carried.hear, if_pos (hmatch.opened.symm.trans hreg), if_pos hreset]
        rw [hclosed]
        exact hmatch.close rfl rfl
      · rename_i hreset
        refine Store.forall₂_modify hp h ?_
        intro s' c hs' hc hmatch
        rw [hs] at hs'
        cases hs'
        rw [← henvelope]
        exact hmatch.route hreg hlen henvelope hreset _

/-- Any other message that finds a stream leaves bytes over, or ends it. -/
theorem EnvelopesRouted.not_route (hp : EnvelopesRouted p) {message : Bytes} {err : Core.JsError}
    (herr : decodeStreamFrame message = .error err) (hfinds : p.1.finds message = true)
    (k : Nat) : ¬ EnvelopesRouted (p.1.route k message, hearMessage message p.2) := by
  intro hafter
  have hspec : hearMessage message p.2 = p.2 := by
    unfold hearMessage
    rw [herr]
  rw [hspec] at hafter
  unfold WebSocketMux.finds at hfinds
  split at hfinds
  · rename_i i₀ i₁ i₂ i₃ flag rest
    obtain ⟨h, hentry⟩ := Option.isSome_iff_exists.mp hfinds
    obtain ⟨s, hs, hreg⟩ := WebSocketMux.entry_eq_some hentry
    obtain ⟨c, hc, hmatch⟩ := Store.forall₂_getElem? hp hs
    simp only [WebSocketMux.route, hentry] at hafter
    split at hafter
    · have hs' : (p.1.streams.modify h (·.fail (.resetFrame k) serverResetError))[h]? =
          some (s.fail (.resetFrame k) serverResetError) :=
        Store.getElem?_modify.mpr (by rw [if_pos rfl]; exact ⟨s, hs, rfl⟩)
      obtain ⟨c', hc', hmatch'⟩ := Store.forall₂_getElem? hafter hs'
      obtain rfl : c = c' := Option.some.inj (hc.symm.trans hc')
      have hopened := hmatch'.opened.trans hmatch.opened.symm
      rw [hreg] at hopened
      cases hopened
    · have hs' : (p.1.streams.modify h
          (·.route (flag :: rest) (flag = flagEnvelopeEndStream)))[h]? =
            some (s.route (flag :: rest) (flag = flagEnvelopeEndStream)) :=
        Store.getElem?_modify.mpr (by rw [if_pos rfl]; exact ⟨s, hs, rfl⟩)
      obtain ⟨c', hc', hmatch'⟩ := Store.forall₂_getElem? hafter hs'
      obtain rfl : c = c' := Option.some.inj (hc.symm.trans hc')
      exact hmatch.not_route (List.cons_ne_nil flag rest) _ hmatch'
  · cases hfinds

/-- Every step but a message that is not one complete frame keeps what is
    routed and what is carried the same. -/
theorem EnvelopesRouted.step [ConnectPackage] (hp : EnvelopesRouted p) {ev : MuxEvent}
    (hG : FramesComplete p ev) {m : WebSocketMux} (hstep : p.1.step ev = some m) :
    EnvelopesRouted (m, carry ev p.2) := by
  cases ev with
  | openStream =>
      cases hstep
      refine hp.of_streams ?_
      unfold WebSocketMux.openStream
      split
      · rfl
      · split
        · rfl
        · rfl
  | resume i =>
      obtain ⟨k, -, rfl⟩ := WebSocketMux.step_resume.mp hstep
      exact List.rel_append hp (.cons ⟨rfl, rfl⟩ .nil)
  | write h envelope =>
      obtain ⟨s, -, hf⟩ := WebSocketMux.onStream_eq_some hstep
      cases hf
      exact hp.of_streams rfl
  | closeWriter h =>
      obtain ⟨s, -, hf⟩ := WebSocketMux.onStream_eq_some hstep
      cases hf
      exact hp.of_streams rfl
  | closeStream h =>
      cases hstep
      exact hp.closeStream h
  | close =>
      cases hstep
      unfold WebSocketMux.close
      simp only
      have hfail : EnvelopesRouted (WebSocketMux.failAll { p.1 with socket := none } .muxClose
          (closedError ""), p.2.map .close) := hp.failAll .muxClose (closedError "") rfl
      split
      · exact hfail.of_streams rfl
      · exact hfail
  | onopen k =>
      obtain ⟨w, -, -, -, rfl⟩ := WebSocketMux.onSocket_eq_some hstep
      exact hp.of_streams rfl
  | peerClosing k =>
      obtain ⟨w, -, -, -, rfl⟩ := WebSocketMux.onSocket_eq_some hstep
      exact hp.of_streams rfl
  | onerror k =>
      obtain ⟨w, -, -, -, rfl⟩ := WebSocketMux.onSocket_eq_some hstep
      exact hp.of_streams rfl
  | onclose k reason =>
      obtain ⟨w, -, -, -, rfl⟩ := WebSocketMux.onSocket_eq_some hstep
      exact hp.failAll (.closeEvent k) (closedError reason) rfl
  | onmessage k message =>
      have hsome : (p.1.step (.onmessage k message)).isSome = true := by
        rw [hstep]
        rfl
      obtain ⟨w, -, -, -, rfl⟩ := WebSocketMux.onSocket_eq_some hstep
      cases hdecode : decodeStreamFrame message with
      | ok f => exact hp.route_frame hdecode k
      | error err =>
          have hfinds : p.1.finds message = false := by
            refine Bool.eq_false_iff.mpr fun hfinds => ?_
            have hok := hG hsome hfinds
            rw [hdecode] at hok
            cases hok
          have hspec : carry (.onmessage k message) p.2 = p.2 := by
            show hearMessage message p.2 = p.2
            unfold hearMessage
            rw [hdecode]
          rw [hspec, WebSocketMux.route_of_not_finds hfinds]
          exact hp
  | pull h =>
      obtain ⟨s, hs, hf⟩ := WebSocketMux.onStream_eq_some hstep
      obtain ⟨q, -, rfl⟩ := Option.map_eq_some_iff.mp hf
      exact hp.setStream hs rfl rfl
  | settle h =>
      obtain ⟨s, hs, hf⟩ := WebSocketMux.onStream_eq_some hstep
      obtain ⟨q, -, rfl⟩ := Option.map_eq_some_iff.mp hf
      exact hp.setStream hs rfl rfl
  | read h =>
      obtain ⟨s, hs, hf⟩ := WebSocketMux.onStream_eq_some hstep
      cases hf
      exact hp.setStream hs rfl rfl

/-- A step after which they are still the same met the condition. -/
theorem framesComplete_of_step [ConnectPackage] (hp : EnvelopesRouted p) {closeWhenIdle : Bool}
    {ev : MuxEvent}
    (hafter : ∀ q, (carrying closeWhenIdle).step p ev = some q → EnvelopesRouted q) :
    FramesComplete p ev := by
  unfold FramesComplete
  split
  · rename_i k message
    intro hsome hfinds
    obtain ⟨m, hm⟩ := Option.isSome_iff_exists.mp hsome
    cases hdecode : decodeStreamFrame message with
    | ok f => rfl
    | error err =>
        have hrouted : EnvelopesRouted (m, carry (.onmessage k message) p.2) := by
          refine hafter _ ?_
          show (p.1.step (.onmessage k message)).map _ = _
          rw [hm]
          rfl
        obtain ⟨w, -, -, -, rfl⟩ := WebSocketMux.onSocket_eq_some hm
        exact absurd hrouted (hp.not_route hdecode hfinds k)
  · trivial

-- ============================================================================
-- Whole runs
-- ============================================================================

/-- In every run, of any messages and anything else that happens: what the
    streams are given splits into the envelopes that complete frames carry
    for them, in every state reached, if and only if every message that finds
    a stream is a complete frame. -/
theorem envelopes_routed_iff [ConnectPackage] (closeWhenIdle : Bool) (evs : List MuxEvent) :
    (carrying closeWhenIdle).Always EnvelopesRouted (carrying closeWhenIdle).init evs ↔
      (carrying closeWhenIdle).Meets FramesComplete (carrying closeWhenIdle).init evs := by
  have hinit : EnvelopesRouted (carrying closeWhenIdle).init := .nil
  refine Machine.always_iff_meets (I := EnvelopesRouted) _ ?_ (fun _ hp => hp) ?_ hinit evs
  · intro p ev q hp hG hstep
    obtain ⟨m, hm, rfl⟩ := Option.map_eq_some_iff.mp hstep
    exact hp.step hG hm
  · intro p ev hp hafter
    exact framesComplete_of_step hp hafter

open Connectrpc in
/-- A message that declares five bytes and carries one swallows the start of
    the complete frame after it. -/
theorem short_payload_shifts_envelopes :
    ¬ ∀ closeWhenIdle evs p, (carrying closeWhenIdle).run evs = some p →
      (p.1.streams.map fun s => completeEnvelopes s.routed.flatten) =
        p.2.map fun c => c.envelopes := by
  intro hsplit
  have hrun : ((carrying false).run [.openStream, .onopen 0, .resume 0,
      .onmessage 0 [0, 0, 0, 1, 0, 0, 0, 0, 5, 1],
      .onmessage 0 [0, 0, 0, 1, 0, 0, 0, 0, 1, 9]]).map (fun p =>
        (p.1.streams.map fun s => completeEnvelopes s.routed.flatten,
          p.2.map fun c => c.envelopes)) =
      some ([[⟨0, [1, 0, 0, 0, 0]⟩]], [[⟨0, [9]⟩]]) := by
    decide
  obtain ⟨p, hp, heq⟩ := Option.map_eq_some_iff.mp hrun
  obtain ⟨hparsed, hcarried⟩ := Prod.mk.inj heq
  have hsame := hsplit false _ p hp
  rw [hparsed, hcarried] at hsame
  cases hsame

end Web
end BidiWeb
