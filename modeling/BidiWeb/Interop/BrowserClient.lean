/-
  BidiWeb.Interop.BrowserClient

  The browser's mux and its calls as the caller on every socket they dial.

  A message is routed by its stream ID, whichever socket it arrives on.  A
  server that answers no ID but those it was given sends nothing for a
  stream of another socket, which is all that the client relies on.
-/

import BidiWeb.Interop.BrowserRequests
import BidiWeb.Lib.Star
import BidiWeb.Web.ResponseDelivery

namespace BidiWeb
namespace Web

open BidiWeb.Lib
open BidiWeb.Interop

-- ============================================================================
-- What a stream is given
-- ============================================================================

namespace WebSocketMux

variable {connect : ConnectPackage} {m m' : WebSocketMux}

/-- No stream is given anything. -/
def SameRouted (m m' : WebSocketMux) : Prop :=
  ∀ (h : Nat) (s' : Stream), m'.streams[h]? = some s' → ∃ s : Stream, m.streams[h]? = some s ∧
    s'.socket = s.socket ∧ s'.routed = s.routed ∧ (s'.registered = true → s.registered = true)

theorem sameRouted_of_streams (h : m'.streams = m.streams) : SameRouted m m' :=
  fun _ s' hs' => ⟨s', h ▸ hs', rfl, rfl, id⟩

theorem sameRouted_modify {h : Nat} {f : Stream → Stream}
    (hf : ∀ s, m.streams[h]? = some s → (f s).socket = s.socket ∧ (f s).routed = s.routed ∧
      ((f s).registered = true → s.registered = true))
    (hstreams : m'.streams = m.streams.modify h f) : SameRouted m m' := by
  intro j s' hs'
  rw [hstreams, Store.getElem?_modify] at hs'
  by_cases hj : h = j
  · rw [if_pos hj] at hs'
    obtain ⟨s, hs, rfl⟩ := hs'
    exact ⟨s, hs, hf s (hj ▸ hs)⟩
  · rw [if_neg hj] at hs'
    exact ⟨s', hs', rfl, rfl, id⟩

theorem sameRouted_failAll (cause : Cause) (reason : Core.JsError)
    (hstreams : m'.streams = (m.failAll cause reason).streams) : SameRouted m m' := by
  intro h s' hs'
  rw [hstreams] at hs'
  obtain ⟨s, hs, rfl⟩ := getElem?_failAll.mp hs'
  refine ⟨s, hs, ?_⟩
  cases hreg : s.registered <;> simp [Stream.fail, hreg]

theorem sameRouted_closeStream (m : WebSocketMux) (h : Nat) : SameRouted m (m.closeStream h) := by
  unfold closeStream
  split
  · rename_i s _
    split
    · refine sameRouted_modify (h := h) (f := Stream.release) ?_ ?_
      · exact fun _ _ => ⟨rfl, rfl, nofun⟩
      · rw [streams_closeIdle]
        show (m.sendReset h s).streams.modify h Stream.release = _
        rw [streams_sendReset]
    · exact sameRouted_of_streams rfl
  · exact sameRouted_of_streams rfl

/-- Only a message gives a stream anything. -/
theorem sameRouted_step {ev : MuxEvent} (hstep : m.step ev = some m')
    (hmessage : ∀ k message, ev ≠ .onmessage k message) (hresume : ∀ i, ev ≠ .resume i) :
    SameRouted m m' := by
  cases ev with
  | openStream =>
      cases hstep
      unfold WebSocketMux.openStream
      split
      · exact sameRouted_of_streams rfl
      · split <;> exact sameRouted_of_streams rfl
  | resume i => exact absurd rfl (hresume i)
  | write h envelope =>
      obtain ⟨s, -, hf⟩ := onStream_eq_some hstep
      cases hf
      exact sameRouted_of_streams rfl
  | closeWriter h =>
      obtain ⟨s, -, hf⟩ := onStream_eq_some hstep
      cases hf
      exact sameRouted_of_streams rfl
  | closeStream h =>
      cases hstep
      exact sameRouted_closeStream m h
  | close =>
      cases hstep
      unfold WebSocketMux.close
      simp only
      split <;> exact sameRouted_failAll .muxClose (closedError "") rfl
  | onopen k =>
      obtain ⟨w, -, -, -, rfl⟩ := onSocket_eq_some hstep
      exact sameRouted_of_streams rfl
  | peerClosing k =>
      obtain ⟨w, -, -, -, rfl⟩ := onSocket_eq_some hstep
      exact sameRouted_of_streams rfl
  | onerror k =>
      obtain ⟨w, -, -, -, rfl⟩ := onSocket_eq_some hstep
      exact sameRouted_of_streams rfl
  | onclose k reason =>
      obtain ⟨w, -, -, -, rfl⟩ := onSocket_eq_some hstep
      exact sameRouted_failAll (.closeEvent k) (closedError reason) rfl
  | onmessage k message => exact absurd rfl (hmessage k message)
  | pull h =>
      obtain ⟨s, hs, hf⟩ := onStream_eq_some hstep
      obtain ⟨p, -, rfl⟩ := Option.map_eq_some_iff.mp hf
      refine sameRouted_modify (fun t ht => ?_) rfl
      obtain rfl : s = t := Option.some.inj (hs.symm.trans ht)
      exact ⟨rfl, rfl, id⟩
  | settle h =>
      obtain ⟨s, hs, hf⟩ := onStream_eq_some hstep
      obtain ⟨p, -, rfl⟩ := Option.map_eq_some_iff.mp hf
      refine sameRouted_modify (fun t ht => ?_) rfl
      obtain rfl : s = t := Option.some.inj (hs.symm.trans ht)
      exact ⟨rfl, rfl, id⟩
  | read h =>
      obtain ⟨s, hs, hf⟩ := onStream_eq_some hstep
      cases hf
      refine sameRouted_modify (fun t ht => ?_) rfl
      obtain rfl : s = t := Option.some.inj (hs.symm.trans ht)
      exact ⟨rfl, rfl, id⟩

/-- A message that carries nothing. -/
theorem sameRouted_route {message : Bytes} (hmessage : streamOf message = none) (k : Nat) :
    SameRouted m (m.route k message) := by
  unfold route
  split
  · rename_i i₀ i₁ i₂ i₃ flag rest
    have hreset : flag = flagEnvelopeReset := by
      by_contra hne
      have hlabel : streamOf (i₀ :: i₁ :: i₂ :: i₃ :: flag :: rest) =
          some (getUint32 i₀ i₁ i₂ i₃, flag :: rest) := if_neg hne
      rw [hlabel] at hmessage
      cases hmessage
    split
    · exact sameRouted_of_streams rfl
    · rw [if_pos hreset]
      refine sameRouted_modify ?_ rfl
      exact fun _ _ => ⟨rfl, rfl, nofun⟩
  · exact sameRouted_of_streams rfl

/-- A message for a stream gives it its envelope, if the stream is registered. -/
theorem route_streamOf {message envelope : Bytes} {id : UInt32}
    (hmessage : streamOf message = some (id, envelope)) (k : Nat) :
    (m.route k message).streams = match m.entry id with
      | none => m.streams
      | some h => m.streams.modify h
          (·.route envelope (envelope.head? = some flagEnvelopeEndStream)) := by
  unfold streamOf at hmessage
  split at hmessage
  · rename_i i₀ i₁ i₂ i₃ flag rest
    split at hmessage
    · cases hmessage
    · rename_i hreset
      obtain ⟨rfl, rfl⟩ := Prod.mk.inj (Option.some.inj hmessage)
      unfold route
      simp only
      cases m.entry (getUint32 i₀ i₁ i₂ i₃) with
      | none => rfl
      | some h => simp [hreset]
  · cases hmessage

end WebSocketMux

/-- A stream hands on no more than it is given. -/
def Stream.HandsOn (s : Stream) : Prop := s.readable.received ++ s.readable.queue <+: s.routed

theorem Stream.HandsOn.step [ConnectPackage] {ends : Bool} {s s' : Stream} (hs : s.HandsOn)
    (hfed : s.Fed) (hstep : StreamStep ends s s') : s'.HandsOn := by
  have hfail : ∀ cause reason, (s.fail cause reason).HandsOn := fun cause reason => by
    obtain ⟨hreceived, hqueue, -⟩ := ReadableStream.received_error s.readable reason
    show (s.readable.error reason).received ++ (s.readable.error reason).queue <+: s.routed
    rw [hreceived, hqueue, List.append_nil]
    exact (List.prefix_append ..).trans hs
  have hread : ∀ {readable}, readable = s.readable ∨ readable = s.readable.read →
      readable.received ++ readable.queue <+: s.routed := fun hsame => by
    rcases hsame with rfl | rfl
    · exact hs
    · rw [ReadableStream.received_queue_read]
      exact hs
  cases hstep with
  | idle _ => exact hs
  | lost cause reason _ _ => exact hfail cause reason
  | reset k _ => exact hfail _ _
  | route chunk endStream hreg =>
      have hafter := hfed.route hreg chunk endStream
      rw [HandsOn, (hafter.registered hreg).2.2]
  | release hreg =>
      obtain ⟨readable, hclose⟩ := ReadableStream.exists_close (hfed.registered hreg).1
      obtain ⟨hreceived, hqueue, -⟩ := ReadableStream.received_queue_close hclose
      show (s.readable.close.getD s.readable).received ++ (s.readable.close.getD s.readable).queue
        <+: s.routed
      rw [hclose, Option.getD_some, hreceived, hqueue]
      exact hs
  | pull hp => exact hread (Stream.pull_readable hp)
  | settle hp => exact hread (Stream.settle_readable hp)
  | read => exact hs

namespace Calls

variable {connect : ConnectPackage} {c c' : Calls} {heard : Nat → List Bytes}

-- ============================================================================
-- What the streams are given
-- ============================================================================

/-- What stream `h` has been given, of what was heard on its socket. -/
structure RoutedOf (h : Nat) (s : Stream) (heard : List Bytes) : Prop where
  given : s.routed <+: carried streamOf (wireId h) heard
  registered : s.registered = true → s.routed = carried streamOf (wireId h) heard

/-- The mux and its calls against what was heard on each socket, as long as
    only IDs are heard that were used there. -/
structure Gets (c : Calls) (heard : Nat → List Bytes) : Prop where
  puts : c.Puts
  stream : ∀ (h : Nat) (s : Stream), c.mux.streams[h]? = some s → s.Fed ∧ s.HandsOn
  asked : ∀ k i, names streamOf i (heard k) → names streamOf i (c.mux.messages k)
  /-- While no two streams have one ID. -/
  routed : c.mux.streams.length < 2 ^ 32 → ∀ (h : Nat) (s : Stream),
    c.mux.streams[h]? = some s → RoutedOf h s (heard s.socket)

theorem gets_init (closeWhenIdle : Bool) :
    Gets (calls closeWhenIdle).init fun _ => [] where
  puts := puts_init closeWhenIdle
  stream := fun _ _ h => by cases h
  asked := fun _ _ h => by
    obtain ⟨m, hm, -⟩ := h
    cases hm
  routed := fun _ _ _ h => by cases h

theorem RoutedOf.same {h : Nat} {s s' : Stream} {heard : List Bytes} (hs : RoutedOf h s heard)
    (hrouted : s'.routed = s.routed) (hreg : s'.registered = true → s.registered = true) :
    RoutedOf h s' heard where
  given := hrouted ▸ hs.given
  registered := fun h => by
    rw [hrouted]
    exact hs.registered (hreg h)

/-- Each stream takes its step, and a new one starts with nothing. -/
theorem Gets.streamStep (hc : c.Gets heard) {ev : MuxEvent} {m : WebSocketMux}
    (hstep : c.mux.step ev = some m) (h : Nat) (s' : Stream) (hs' : m.streams[h]? = some s') :
    s'.Fed ∧ s'.HandsOn := by
  obtain ⟨hold, hnew⟩ := WebSocketMux.streamsStep_of_step hstep
  cases hs : c.mux.streams[h]? with
  | none =>
      obtain ⟨k, rfl⟩ := hnew h s' hs' hs
      exact ⟨Stream.fed_new k, List.prefix_rfl⟩
  | some s =>
      obtain ⟨s₁, hs₁, hone⟩ := hold h s hs
      obtain rfl : s₁ = s' := Option.some.inj (hs₁.symm.trans hs')
      obtain ⟨hfed, hhands⟩ := hc.stream h s hs
      exact ⟨hfed.step hone, hhands.step hfed hone⟩

theorem Gets.askedStep (hc : c.Gets heard) {ev : MuxEvent} (hstep : c.mux.step ev = some c'.mux)
    (k : Nat) (i : UInt32) (hname : names streamOf i (heard k)) :
    names streamOf i (c'.mux.messages k) := by
  obtain ⟨m, hm, e, hlabel⟩ := hc.asked k i hname
  exact ⟨m, (WebSocketMux.messages_step hstep k).subset hm, e, hlabel⟩

/-- A step that takes no message. -/
theorem Gets.quiet (hc : c.Gets heard) {ev : CallEvent} (hev : ev.takes = none)
    (hstep : c.step ev = some c') : c'.Gets heard := by
  have hmux := mux_step hstep
  have hmessage : ∀ k message, ev.onMux ≠ .onmessage k message := by
    intro k message
    cases ev with
    | mux ev =>
        rintro rfl
        cases hev
    | _ => exact nofun
  refine
    { puts := hc.puts.step hstep
      stream := hc.streamStep hmux
      asked := hc.askedStep hmux
      routed := fun hlt h s' hs' => ?_ }
  by_cases hresume : ∃ i, ev.onMux = .resume i
  · obtain ⟨i, hresume⟩ := hresume
    rw [hresume] at hmux
    obtain ⟨k, hk, hresumed⟩ := WebSocketMux.step_resume.mp hmux
    rw [← hresumed] at hs' hlt
    have hlt' : c.mux.streams.length + 1 < 2 ^ 32 := by
      simpa [WebSocketMux.resume] using hlt
    rcases Store.getElem?_concat.mp hs' with hold | ⟨rfl, rfl⟩
    · exact hc.routed (by omega) h s' hold
    · -- nothing was heard for a stream that was not there
      have hnone : carried streamOf (wireId c.mux.streams.length) (heard k) = [] := by
        refine carried_eq_nil.mpr fun hname => ?_
        obtain ⟨j, s, hs, -, heq⟩ := hc.puts.named (hc.asked k _ hname)
        have hj := (List.getElem?_eq_some_iff.mp hs).1
        have := wireId_inj (by omega) hlt' heq
        omega
      exact ⟨List.nil_prefix, fun _ => hnone.symm⟩
  · have hresume : ∀ i, ev.onMux ≠ .resume i := fun i hi => hresume ⟨i, hi⟩
    have hlength := (WebSocketMux.kept_step hmux hresume).length
    obtain ⟨s, hs, hsocket, hrouted, hreg⟩ :=
      WebSocketMux.sameRouted_step hmux hmessage hresume h s' hs'
    rw [hsocket]
    exact (hc.routed (by omega) h s hs).same hrouted hreg

/-- A message for a stream is one for its socket. -/
theorem Gets.hears (hc : c.Gets heard) {k : Nat} {message : Bytes}
    (hasked : Asked streamOf (c.mux.messages k) message)
    (hstep : c.step (.mux (.onmessage k message)) = some c') :
    c'.Gets (Function.update heard k (heard k ++ [message])) := by
  have hmux := mux_step hstep
  have hroute : c'.mux = c.mux.route k message := by
    obtain ⟨w, -, -, -, heq⟩ := WebSocketMux.onSocket_eq_some hmux
    exact heq.symm
  have hlength := (WebSocketMux.kept_step hmux (fun i hi => nomatch hi)).length
  refine
    { puts := hc.puts.step hstep
      stream := hc.streamStep hmux
      asked := fun j i hname => ?_
      routed := fun hlt h s' hs' => ?_ }
  · by_cases hj : j = k
    · subst hj
      rw [Function.update_self] at hname
      obtain ⟨m, hm, e, hlabel⟩ := hname
      rcases List.mem_append.mp hm with hold | hnew
      · exact hc.askedStep hmux j i ⟨m, hold, e, hlabel⟩
      · obtain rfl := List.mem_singleton.mp hnew
        obtain ⟨n, hn, e', hlabel'⟩ := hasked i e hlabel
        exact ⟨n, (WebSocketMux.messages_step hmux j).subset hn, e', hlabel'⟩
    · rw [Function.update_of_ne hj] at hname
      exact hc.askedStep hmux j i hname
  · have hlt : c.mux.streams.length < 2 ^ 32 := by omega
    have hsame : ∀ {s : Stream}, RoutedOf h s (heard s.socket) →
        (s.socket = k → carries streamOf (wireId h) message = none) →
        RoutedOf h s (Function.update heard k (heard k ++ [message]) s.socket) := by
      intro s hs hnone
      by_cases hk : s.socket = k
      · subst hk
        rw [Function.update_self]
        have hcarried : carried streamOf (wireId h) (heard s.socket ++ [message]) =
            carried streamOf (wireId h) (heard s.socket) := by
          rw [carried_append, carried_singleton, hnone rfl, Option.toList_none, List.append_nil]
        exact ⟨hcarried ▸ hs.given, fun hreg => hcarried ▸ hs.registered hreg⟩
      · rw [Function.update_of_ne hk]
        exact hs
    cases hlabel : streamOf message with
    | none =>
        obtain ⟨s, hs, hsocket, hrouted, hreg⟩ :=
          WebSocketMux.sameRouted_route hlabel k h s' (hroute ▸ hs')
        refine hsame ?_ fun _ => carries_of_none hlabel
        rw [hsocket]
        exact (hc.routed hlt h s hs).same hrouted hreg
    | some p =>
        obtain ⟨i, envelope⟩ := p
        obtain ⟨j, t, ht, hsocket, rfl⟩ := hc.puts.named (hasked i envelope hlabel)
        have hj := (List.getElem?_eq_some_iff.mp ht).1
        have hstreams := WebSocketMux.route_streamOf (m := c.mux) hlabel k
        have hother : j ≠ h → carries streamOf (wireId h) message = none := by
          intro hne
          have hh : h < c.mux.streams.length := by
            rw [← hlength]
            exact (List.getElem?_eq_some_iff.mp hs').1
          exact carries_of_ne hlabel fun heq => hne (wireId_inj (by omega) (by omega) heq)
        rw [hroute, hstreams] at hs'
        cases hreg : t.registered with
        | false =>
            rw [WebSocketMux.entry_unregistered (by omega) ht hreg] at hs'
            by_cases hjh : j = h
            · subst hjh
              obtain rfl : t = s' := Option.some.inj (ht.symm.trans hs')
              have hgiven := (hc.routed hlt j t ht).given
              refine ⟨hgiven.trans ?_, fun h => ?_⟩
              · rw [hsocket, Function.update_self]
                exact carried_mono (List.prefix_append ..)
              · rw [hreg] at h
                cases h
            · exact hsame (hc.routed hlt h s' hs') fun _ => hother hjh
        | true =>
            rw [WebSocketMux.entry_wireId (by omega) ht hreg] at hs'
            rw [Store.getElem?_modify] at hs'
            by_cases hjh : j = h
            · subst hjh
              rw [if_pos rfl] at hs'
              obtain ⟨s, hs, rfl⟩ := hs'
              obtain rfl : t = s := Option.some.inj (ht.symm.trans hs)
              have hall := (hc.routed hlt j t ht).registered hreg
              have hafter :
                  (t.route envelope (envelope.head? = some flagEnvelopeEndStream)).routed =
                  carried streamOf (wireId j)
                    (Function.update heard k (heard k ++ [message]) t.socket) := by
                show t.routed ++ [envelope] = _
                rw [hsocket, Function.update_self, carried_append, carried_singleton,
                  carries_of_label hlabel, hall, hsocket]
                rfl
              exact ⟨hafter ▸ List.prefix_rfl, fun _ => hafter⟩
            · rw [if_neg hjh] at hs'
              exact hsame (hc.routed hlt h s' hs') fun _ => hother hjh

-- ============================================================================
-- The sessions on a socket
-- ============================================================================

/-- Stream `h` as its call and its socket see it. -/
def session (c : Calls) (h : Nat) (s : Stream) : Session UInt32 Bytes where
  id := wireId h
  put := c.mux.putOn h s.socket
  got := s.readable.received
  buffered := s.readable.queue
  live := s.registered = true

/-- The streams of socket `k`. -/
def sessionsOn (c : Calls) (k : Nat) : List (Session UInt32 Bytes) :=
  (c.mux.streams.zipIdx.filter (·.1.socket = k)).map fun p => c.session p.2 p.1

theorem mem_sessionsOn {k : Nat} {x : Session UInt32 Bytes} :
    x ∈ c.sessionsOn k ↔ ∃ (h : Nat) (s : Stream),
      c.mux.streams[h]? = some s ∧ s.socket = k ∧ x = c.session h s := by
  constructor
  · intro hx
    obtain ⟨⟨s, h⟩, hp, rfl⟩ := List.mem_map.mp hx
    obtain ⟨hmem, hsocket⟩ := List.mem_filter.mp hp
    exact ⟨h, s, List.mem_zipIdx_iff_getElem?.mp hmem, of_decide_eq_true hsocket, rfl⟩
  · rintro ⟨h, s, hs, hsocket, rfl⟩
    refine List.mem_map.mpr ⟨(s, h), List.mem_filter.mpr ⟨?_, decide_eq_true hsocket⟩, rfl⟩
    exact List.mem_zipIdx_iff_getElem?.mpr hs

theorem Gets.caller (hc : c.Gets heard) (hlt : c.mux.streams.length < 2 ^ 32) (k : Nat) :
    Caller streamOf (c.sessionsOn k) (c.mux.messages k) (heard k) where
  served := fun x hx => by
    obtain ⟨h, s, hs, rfl, rfl⟩ := mem_sessionsOn.mp hx
    obtain ⟨hinv, hhands⟩ := hc.stream h s hs
    have hrouted := hc.routed hlt h s hs
    refine ⟨?_, ?_, fun hlive => ?_⟩
    · refine WebSocketMux.carried_messages hlt (List.getElem?_eq_some_iff.mp hs).1 fun p hp he => ?_
      obtain ⟨t, ht, -⟩ := hc.puts.owner s.socket p hp he
      exact (List.getElem?_eq_some_iff.mp ht).1
    · exact (List.prefix_append ..).trans (hhands.trans hrouted.given)
    · exact (hinv.registered hlive).2.2.trans (hrouted.registered hlive)
  owner := fun i hname => by
    obtain ⟨h, s, hs, hsocket, rfl⟩ := hc.puts.named hname
    exact ⟨c.session h s, mem_sessionsOn.mpr ⟨h, s, hs, hsocket, rfl⟩, rfl⟩

/-- The writer of each stream puts its headers first. -/
theorem Gets.opensFirst (hc : c.Gets heard) (k : Nat) :
    ∀ x ∈ c.sessionsOn k, OpensFirst opensStream x.put := by
  intro x hx
  obtain ⟨h, s, hs, -, rfl⟩ := mem_sessionsOn.mp hx
  have hlt : h < c.writers.length := by
    rw [hc.puts.writers]
    exact (List.getElem?_eq_some_iff.mp hs).1
  exact (hc.puts.stream h s _ hs (List.getElem?_eq_getElem hlt)).first

end Calls

/-- The browser at its end of every socket it dials. -/
def browserClient [ConnectPackage] (closeWhenIdle : Bool) : Hub Calls CallEvent Nat Bytes where
  toMachine := calls closeWhenIdle
  takes := CallEvent.takes
  sent c k := c.mux.messages k

theorem takes_eq_some {ev : CallEvent} {k : Nat} {m : Bytes} :
    ev.takes = some (k, m) ↔ ev = .mux (.onmessage k m) := by
  cases ev with
  | mux ev => cases ev <;> simp [CallEvent.takes]
  | _ => simp [CallEvent.takes]

theorem browserClient_upholds [ConnectPackage] (closeWhenIdle : Bool) :
    (browserClient closeWhenIdle).Upholds (Asked streamOf) Calls.Gets where
  init := Calls.gets_init closeWhenIdle
  quiet := fun _ _ _ _ hc hev hstep => hc.quiet hev hstep
  hears := fun c heard ev c' k m hc hev hasked hstep => by
    obtain rfl := takes_eq_some.mp hev
    exact hc.hears hasked hstep
  grows := fun _ _ _ _ _ hstep k => WebSocketMux.messages_step (Calls.mux_step hstep) k

/-- And its envelope readers lose nothing. -/
theorem browserClient_reads [ConnectPackage] [ConnectPackage.Lawful] (closeWhenIdle : Bool) :
    (browserClient closeWhenIdle).Upholds (Asked streamOf)
      fun c heard => c.Gets heard ∧ StreamsInv c.mux :=
  (browserClient_upholds closeWhenIdle).and_kept (fun _ h => by cases h)
    fun _ _ _ hc hstep => streamsInv_step hc (Calls.mux_step hstep)

end Web
end BidiWeb
