/-
  BidiWeb.Web.StreamFrames

  What one stream sends, over every interleaving of its request writer with
  everything else that happens on the mux.

  `closeStream` sends its reset on whatever socket is the current one and says
  nothing to the request writer, which goes on as long as its own socket is
  open.  So the frames of a stream keep their order as long as each reset
  finds the writer finished or its socket no longer open (`WritersStopped`).
-/

import BidiWeb.Web.RequestWriter
import BidiWeb.Web.SocketProgress

namespace BidiWeb
namespace Web

open BidiWeb.Lib

-- ============================================================================
-- What a step of the calls does
-- ============================================================================

/-- The frames the request writer sends, and where each leaves it. -/
inductive Writes : Writer → UInt8 → Writer → Prop
  | headers : Writes .headers flagEnvelopeHeaders .messages
  | data : Writes .messages flagEnvelopeData .messages
  | endStream : Writes .messages flagEnvelopeEndStream .closed

namespace Calls

variable {connect : ConnectPackage} {c c' : Calls}

inductive Stepped (c : Calls) : CallEvent → Calls → Prop
  | quiet {ev : MuxEvent} {mux : WebSocketMux} (hquiet : c.mux.Quiet mux)
      (hreset : ∀ h ∈ c.resetStreams (.mux ev), h + 1 < 2 ^ 32 → ∀ s', mux.streams[h]? = some s' →
        s'.registered = false) : Stepped c (.mux ev) { c with mux }
  | resumed {i k : Nat} (hk : c.mux.ready[i]? = some k) :
      Stepped c (.mux (.resume i))
        { mux := c.mux.resume i k, writers := c.writers ++ [.headers] }
  | wrote {ev : CallEvent} {h : Nat} {s : Stream} {before after : Writer} {flag : UInt8}
      {data : Bytes} (hev : c.resetStreams ev = []) (hw : c.writers[h]? = some before)
      (hs : c.mux.streams[h]? = some s) (hwrites : Writes before flag after) :
      Stepped c ev
        { mux := c.mux.sendOn s.socket h (Core.encodeEnvelope flag data)
          writers := c.writers.set h after }
  | failed {h : Nat} (hw : c.writers[h]? = some .messages) :
      Stepped c (.fail h) { mux := c.mux.closeStream h, writers := c.writers.set h .aborted }
  | released {h : Nat} {writer : Writer} (hw : c.writers[h]? = some writer)
      (hstarted : writer ≠ .headers) :
      Stepped c (.release h) { c with mux := c.mux.closeStream h }

theorem write_eq_some {h : Nat} {before after : Writer} {ev : MuxEvent}
    (hstep : c.write h before after ev = some c') :
    c.writers[h]? = some before ∧ ∃ mux, c.mux.step ev = some mux ∧
      c' = { mux, writers := c.writers.set h after } := by
  unfold write at hstep
  split at hstep
  · rename_i hw
    obtain ⟨mux, hmux, rfl⟩ := Option.map_eq_some_iff.mp hstep
    exact ⟨hw, mux, hmux, rfl⟩
  · cases hstep

theorem stepped {ev : CallEvent} (hstep : c.step ev = some c') : c.Stepped ev c' := by
  cases ev with
  | mux ev =>
      by_cases hresume : ∃ i, ev = .resume i
      · obtain ⟨i, rfl⟩ := hresume
        obtain ⟨mux, hmux, rfl⟩ := Option.map_eq_some_iff.mp hstep
        obtain ⟨k, hk, rfl⟩ := WebSocketMux.step_resume.mp hmux
        exact .resumed hk
      · have hother : (if ev.ofCall then none else
            (c.mux.step ev).map fun mux => { c with mux }) = some c' := by
          unfold step at hstep
          split at hstep <;> simp_all
        split at hother
        · cases hother
        · rename_i hev
          obtain ⟨mux, hmux, rfl⟩ := Option.map_eq_some_iff.mp hother
          refine .quiet (WebSocketMux.quiet_step hmux (Bool.eq_false_iff.mpr hev)) ?_
          intro h hmem hlt s' hs'
          cases ev with
          | onmessage k message =>
              obtain ⟨w, -, -, -, rfl⟩ := WebSocketMux.onSocket_eq_some hmux
              have hreset := (List.mem_filter.mp hmem).2
              exact WebSocketMux.unregistered_route hlt (of_decide_eq_true hreset) hs'
          | _ => simp [resetStreams] at hmem
  | headers h headersBytes =>
      obtain ⟨hw, mux, hmux, rfl⟩ := write_eq_some hstep
      obtain ⟨s, hs, hf⟩ := WebSocketMux.onStream_eq_some hmux
      cases hf
      exact .wrote rfl hw hs .headers
  | message h msg =>
      obtain ⟨hw, mux, hmux, rfl⟩ := write_eq_some hstep
      obtain ⟨s, hs, hf⟩ := WebSocketMux.onStream_eq_some hmux
      cases hf
      exact .wrote rfl hw hs .data
  | finish h =>
      obtain ⟨hw, mux, hmux, rfl⟩ := write_eq_some hstep
      obtain ⟨s, hs, hf⟩ := WebSocketMux.onStream_eq_some hmux
      cases hf
      exact .wrote rfl hw hs .endStream
  | fail h =>
      obtain ⟨hw, mux, hmux, rfl⟩ := write_eq_some hstep
      cases hmux
      exact .failed hw
  | release h =>
      simp only [step] at hstep
      split at hstep
      · rename_i hleaves
        cases hstep
        unfold leaves at hleaves
        split at hleaves
        · rename_i s writer hs hw
          simp only [Bool.and_eq_true, decide_eq_true_eq] at hleaves
          exact .released hw hleaves.1.1
        · cases hleaves
      · cases hstep

-- ============================================================================
-- The condition on resets
-- ============================================================================

/-- The writer of stream `h` has not finished and its socket is open. -/
def mayWrite (c : Calls) (h : Nat) : Bool :=
  match c.mux.streams[h]?, c.writers[h]? with
  | some s, some writer => !writer.finished && c.mux.readyStateIs s.socket .opened
  | _, _ => false

/-- Giving stream `h` back closes its own socket. -/
def closesOwn (c : Calls) (h : Nat) : Bool :=
  match c.mux.streams[h]? with
  | some s => c.mux.closesSocket h s.socket
  | none => false

end Calls

/-- A reset finds the request writer done, or its own socket not open, or is
    sent by a release that closes that socket; one that is sent follows the
    headers of its stream; and the stream IDs have not wrapped around. -/
def WritersStopped (p : Calls × List Seen) : CallEvent → Prop
  | .mux (.resume _) => p.1.mux.streams.length + 1 < 2 ^ 32
  | .mux (.onmessage k message) =>
      ∀ h ∈ p.1.resetStreams (.mux (.onmessage k message)), p.1.mayWrite h = false
  | .fail h => p.1.mux.sendsReset h = true → flagsOf (wireId h) p.2 ≠ []
  | .release h =>
      p.1.mux.sendsReset h = true → flagsOf (wireId h) p.2 ≠ [] ∧
        (p.1.mayWrite h = false ∨ p.1.closesOwn h = true)
  | _ => True

instance (p : Calls × List Seen) (ev : CallEvent) : Decidable (WritersStopped p ev) := by
  unfold WritersStopped
  split <;> infer_instance

-- ============================================================================
-- One stream and its frames
-- ============================================================================

theorem wireId_inj {h j : Nat} (hh : h + 1 < 2 ^ 32) (hj : j + 1 < 2 ^ 32)
    (heq : wireId h = wireId j) : h = j := by
  have hnat : (wireId h).toNat = (wireId j).toNat := by rw [heq]
  simp only [wireId, UInt32.toNat_ofNat', Nat.mod_eq_of_lt hh, Nat.mod_eq_of_lt hj] at hnat
  omega

/-- What a release that sends a reset leaves of the writer of its stream. -/
theorem Calls.mayWrite_closeStream {c : Calls} {h : Nat} (hsends : c.mux.sendsReset h = true) :
    Calls.mayWrite { c with mux := c.mux.closeStream h } h = false ↔
      c.mayWrite h = false ∨ c.closesOwn h = true := by
  cases hs : c.mux.streams[h]? with
  | none => simp [WebSocketMux.sendsReset, hs] at hsends
  | some s =>
      have hkept := WebSocketMux.kept_closeStream c.mux h
      have hlt : h < (c.mux.closeStream h).streams.length := by
        rw [hkept.length]
        exact (List.getElem?_eq_some_iff.mp hs).1
      obtain ⟨s', hs'⟩ : ∃ s', (c.mux.closeStream h).streams[h]? = some s' :=
        ⟨_, List.getElem?_eq_getElem hlt⟩
      obtain ⟨s₀, hs₀, hsocket, -⟩ := hkept.streams h s' hs'
      obtain rfl : s = s₀ := Option.some.inj (hs.symm.trans hs₀)
      have hopen : (c.mux.closeStream h).readyStateIs s.socket .opened =
          (c.mux.readyStateIs s.socket .opened && !c.mux.closesSocket h s.socket) := by
        rw [Bool.eq_iff_iff, WebSocketMux.readyStateIs_opened,
          WebSocketMux.rank_closeStream_eq_one hsends, ← WebSocketMux.readyStateIs_opened]
        simp
      cases hw : c.writers[h]? with
      | none => simp [Calls.mayWrite, hs, hw]
      | some writer =>
          simp only [Calls.mayWrite, Calls.closesOwn, hs, hs', hw, hsocket, hopen]
          cases writer.finished <;> cases c.mux.readyStateIs s.socket .opened <;> simp

/-- Where the frames of stream `h` stand, given its entry and its writer. -/
structure Framed (m : WebSocketMux) (log : List Seen) (h : Nat) (s : Stream) (writer : Writer) :
    Prop where
  wellFramed : WellFramed (wireId h) log
  own : 1 ≤ m.rank s.socket
  unsent : writer = .headers → flagsOf (wireId h) log = []
  started : writer ≠ .headers → m.rank s.socket = 1 → flagsOf (wireId h) log ≠ []
  ended : flagEnvelopeEndStream ∈ flagsOf (wireId h) log → writer = .closed
  reset : (∃ x ∈ log, x.resets (wireId h) = true) →
    s.registered = false ∧ (writer.finished = true ∨ m.rank s.socket ≠ 1)

namespace Framed

variable {m m' : WebSocketMux} {log : List Seen} {h : Nat} {s s' : Stream}
  {writer : Writer}

theorem kept (hf : Framed m log h s writer) (hrank : m.rank s.socket ≤ m'.rank s'.socket)
    (hreg : s'.registered = true → s.registered = true) : Framed m' log h s' writer where
  wellFramed := hf.wellFramed
  own := Nat.le_trans hf.own hrank
  unsent := hf.unsent
  started := by
    intro hne hopen
    have hown := hf.own
    exact hf.started hne (by omega)
  ended := hf.ended
  reset := by
    intro hreset
    obtain ⟨hunreg, hdone⟩ := hf.reset hreset
    refine ⟨?_, hdone.imp_right ?_⟩
    · cases hr : s'.registered with
      | false => rfl
      | true => exact (hreg hr).symm.trans hunreg
    · have hown := hf.own
      omega

/-- A frame of another stream. -/
theorem other (hf : Framed m log h s writer) {j : Nat} (hj : wireId j ≠ wireId h)
    (envelope : Bytes) : Framed m (log ++ [.sent j envelope]) h s writer := by
  have hflags : flagsOf (wireId h) (log ++ [.sent j envelope]) = flagsOf (wireId h) log := by
    simp [flagsOf_concat, Seen.flag?, hj]
  refine ⟨⟨?_, ?_⟩, hf.own, ?_, ?_, ?_, ?_⟩
  · rw [hflags]
    exact hf.wellFramed.ordered
  · exact silent_concat hf.wellFramed.silent fun hsends => by simp [Seen.sends, hj] at hsends
  · rw [hflags]
    exact hf.unsent
  · rw [hflags]
    exact hf.started
  · rw [hflags]
    exact hf.ended
  · rintro ⟨x, hx, hreset⟩
    rcases List.mem_append.mp hx with hold | hnew
    · exact hf.reset ⟨x, hold, hreset⟩
    · obtain rfl := List.mem_singleton.mp hnew
      simp [Seen.resets, hj] at hreset

/-- Resets arrive, those of this stream when it may write no more. -/
theorem heard (hf : Framed m log h s writer) {hs : List Nat}
    (hown : (∃ j ∈ hs, wireId j = wireId h) →
      s.registered = false ∧ (writer.finished = true ∨ m.rank s.socket ≠ 1)) :
    Framed m (log ++ hs.map .reset) h s writer := by
  have hflags := flagsOf_append_resets (wireId h) log hs
  refine ⟨⟨?_, silent_append_resets hf.wellFramed.silent⟩, hf.own, ?_, ?_, ?_, ?_⟩
  · rw [hflags]
    exact hf.wellFramed.ordered
  · rw [hflags]
    exact hf.unsent
  · rw [hflags]
    exact hf.started
  · rw [hflags]
    exact hf.ended
  · rintro ⟨x, hx, hreset⟩
    rcases List.mem_append.mp hx with hold | hnew
    · exact hf.reset ⟨x, hold, hreset⟩
    · obtain ⟨j, hj, rfl⟩ := List.mem_map.mp hnew
      exact hown ⟨j, hj, of_decide_eq_true hreset⟩

/-- No reset of a stream has been seen while its writer is at work. -/
theorem no_reset (hf : Framed m log h s writer) (hwriter : writer.finished = false)
    (hopen : m.rank s.socket = 1) : ∀ x ∈ log, x.resets (wireId h) = false := by
  intro x hx
  refine Bool.eq_false_iff.mpr fun hreset => ?_
  rcases (hf.reset ⟨x, hx, hreset⟩).2 with hdone | hclosed
  · rw [hwriter] at hdone
    cases hdone
  · exact hclosed hopen

theorem flagsOf_concat_own (log : List Seen) (h : Nat) (flag : UInt8) (data : Bytes) :
    flagsOf (wireId h) (log ++ [.sent h (Core.encodeEnvelope flag data)]) =
      flagsOf (wireId h) log ++ [flag] := by
  simp [flagsOf_concat, Seen.flag?, Core.encodeEnvelope]

/-- The flags after a frame of the writer. -/
theorem inOrder_wrote (hf : Framed m log h s writer) {flag : UInt8} {after : Writer}
    (hwrites : Writes writer flag after) (hopen : m.rank s.socket = 1)
    (hnoreset : ∀ x ∈ log, x.resets (wireId h) = false) :
    InOrder (flagsOf (wireId h) log ++ [flag]) := by
  have hreset : flagEnvelopeReset ∉ flagsOf (wireId h) log := by
    intro hmem
    obtain ⟨x, hx, hreset⟩ := resets_of_mem_flagsOf hmem
    rw [hnoreset x hx] at hreset
    cases hreset
  have hmessages : writer = .messages → ∃ data,
      flagsOf (wireId h) log = flagEnvelopeHeaders :: List.replicate data flagEnvelopeData := by
    intro hw
    refine hf.wellFramed.ordered.messages (hf.started (by simp [hw]) hopen) ?_ hreset
    intro hend
    rw [hf.ended hend] at hw
    cases hw
  cases hwrites with
  | headers =>
      rw [hf.unsent rfl]
      exact inOrder_headers
  | data =>
      obtain ⟨data, hflags⟩ := hmessages rfl
      exact inOrder_concat_data hflags
  | endStream =>
      obtain ⟨data, hflags⟩ := hmessages rfl
      exact inOrder_concat_endStream hflags

/-- The writer sends a frame on its socket, or into the void when that is no
    longer open. -/
theorem wrote (hf : Framed m log h s writer) {flag : UInt8} {after : Writer} {data : Bytes}
    (hwrites : Writes writer flag after)
    (hrank : m'.rank s.socket = m.rank s.socket) :
    Framed m' (log ++ if m.rank s.socket = 1 then
      [.sent h (Core.encodeEnvelope flag data)] else []) h s after := by
  have hunfinished : writer.finished = false := by cases hwrites <;> rfl
  have hafter : after ≠ .headers := by
    cases hwrites <;> intro h <;> cases h
  have hnotend : flagEnvelopeEndStream ∉ flagsOf (wireId h) log := by
    intro hmem
    rw [hf.ended hmem] at hunfinished
    cases hunfinished
  by_cases hopen : m.rank s.socket = 1
  · rw [if_pos hopen]
    have hnoreset := hf.no_reset hunfinished hopen
    have hflags := flagsOf_concat_own log h flag data
    refine ⟨⟨?_, ?_⟩, by rw [hrank]; exact hf.own, fun h => absurd h hafter, ?_, ?_, ?_⟩
    · rw [hflags]
      exact hf.inOrder_wrote hwrites hopen hnoreset
    · exact silent_concat hf.wellFramed.silent fun _ => hnoreset
    · intro _ _
      simp [hflags]
    · rw [hflags]
      intro hmem
      rcases List.mem_append.mp hmem with hold | hnew
      · exact absurd hold hnotend
      · have := List.mem_singleton.mp hnew
        cases hwrites with
        | headers => cases this
        | data => cases this
        | endStream => rfl
    · rintro ⟨x, hx, hreset⟩
      rcases List.mem_append.mp hx with hold | hnew
      · rw [hnoreset x hold] at hreset
        cases hreset
      · obtain rfl := List.mem_singleton.mp hnew
        cases hwrites <;> simp [Seen.resets, Core.encodeEnvelope, flagEnvelopeHeaders,
          flagEnvelopeData, flagEnvelopeEndStream, flagEnvelopeReset] at hreset
  · rw [if_neg hopen, List.append_nil]
    refine ⟨hf.wellFramed, by rw [hrank]; exact hf.own, fun h => absurd h hafter, ?_, ?_, ?_⟩
    · intro _ hopen'
      exact absurd (hrank.symm.trans hopen') hopen
    · exact fun hmem => absurd hmem hnotend
    · intro hreset
      exact ⟨(hf.reset hreset).1, Or.inr (by rw [hrank]; exact hopen)⟩

/-- `closeStream` sends a reset of this stream, or drops it without one. -/
theorem released (hf : Framed m log h s writer) {after : Writer} {sends : Prop} [Decidable sends]
    (hrank : m.rank s.socket ≤ m'.rank s'.socket) (hunreg : s'.registered = false)
    (hafter : after = writer ∨ writer = .messages ∧ after = .aborted)
    (hsends : sends → s.registered = true ∧ flagsOf (wireId h) log ≠ [] ∧
      (after.finished = true ∨ m'.rank s'.socket ≠ 1)) :
    Framed m' (log ++ if sends then
      [.sent h (Core.encodeEnvelope flagEnvelopeReset [])] else []) h s' after := by
  have hown := hf.own
  have hheaders : after = .headers → writer = .headers := by
    rintro rfl
    rcases hafter with hsame | ⟨-, habort⟩
    · exact hsame.symm
    · cases habort
  have hclosed : writer = .closed → after = .closed := by
    intro hw
    rcases hafter with hsame | ⟨hmessages, -⟩
    · exact hsame.trans hw
    · rw [hw] at hmessages
      cases hmessages
  have hfinished : writer.finished = true → after.finished = true := by
    intro hw
    rcases hafter with rfl | ⟨hmessages, rfl⟩
    · exact hw
    · rfl
  have hnotheaders : after ≠ .headers → writer ≠ .headers := by
    rintro hne rfl
    rcases hafter with rfl | ⟨hmessages, -⟩
    · exact hne rfl
    · cases hmessages
  by_cases hs : sends
  · rw [if_pos hs]
    obtain ⟨hreg, hne, hdone⟩ := hsends hs
    have hnoreset : ∀ x ∈ log, x.resets (wireId h) = false := by
      intro x hx
      refine Bool.eq_false_iff.mpr fun hreset => ?_
      rw [(hf.reset ⟨x, hx, hreset⟩).1] at hreg
      cases hreg
    have hflags := flagsOf_concat_own log h flagEnvelopeReset []
    refine ⟨⟨?_, ?_⟩, Nat.le_trans hown hrank, ?_, ?_, ?_, ?_⟩
    · rw [hflags]
      refine hf.wellFramed.ordered.concat_reset hne fun hmem => ?_
      obtain ⟨x, hx, hreset⟩ := resets_of_mem_flagsOf hmem
      rw [hnoreset x hx] at hreset
      cases hreset
    · exact silent_concat hf.wellFramed.silent fun _ => hnoreset
    · intro hh
      exact absurd (hf.unsent (hheaders hh)) hne
    · intro _ _
      simp [hflags]
    · rw [hflags]
      intro hmem
      rcases List.mem_append.mp hmem with hold | hnew
      · exact hclosed (hf.ended hold)
      · cases List.mem_singleton.mp hnew
    · intro _
      exact ⟨hunreg, hdone⟩
  · rw [if_neg hs, List.append_nil]
    refine ⟨hf.wellFramed, Nat.le_trans hown hrank, ?_, ?_, ?_, ?_⟩
    · exact fun hh => hf.unsent (hheaders hh)
    · intro hne hopen
      exact hf.started (hnotheaders hne) (by omega)
    · exact fun hmem => hclosed (hf.ended hmem)
    · intro hreset
      refine ⟨hunreg, (hf.reset hreset).2.imp hfinished fun hne => ?_⟩
      omega

end Framed

-- ============================================================================
-- All streams
-- ============================================================================

/-- The stream an entry of the log is about. -/
def Seen.stream : Seen → Nat
  | .sent h _ | .reset h => h

/-- A stream ID that nothing in the log carries. -/
theorem foreign {id : UInt32} {log : List Seen} (hlog : ∀ x ∈ log, wireId x.stream ≠ id) :
    flagsOf id log = [] ∧ ∀ x ∈ log, x.resets id = false := by
  constructor
  · refine List.filterMap_eq_nil_iff.mpr fun x hx => ?_
    have hne := hlog x hx
    cases x with
    | sent h envelope => exact if_neg hne
    | reset h => rfl
  · intro x hx
    have hne := hlog x hx
    cases x with
    | sent h envelope =>
        have hid : wireId h ≠ id := hne
        simp [Seen.resets, hid]
    | reset h => exact decide_eq_false hne

theorem wellFramed_of_foreign {id : UInt32} {log : List Seen}
    (hlog : ∀ x ∈ log, wireId x.stream ≠ id) : WellFramed id log where
  ordered := Or.inl (foreign hlog).1
  silent := List.pairwise_of_forall_mem_list fun x hx _ _ hreset => by
    rw [(foreign hlog).2 x hx] at hreset
    cases hreset

namespace Calls

structure Inv (p : Calls × List Seen) : Prop where
  writers : p.1.writers.length = p.1.mux.streams.length
  count : p.1.mux.streams.length < 2 ^ 32
  ready : ∀ k ∈ p.1.mux.ready, 1 ≤ p.1.mux.rank k
  logged : ∀ x ∈ p.2, x.stream < p.1.mux.streams.length
  framed : ∀ h s writer, p.1.mux.streams[h]? = some s → p.1.writers[h]? = some writer →
    Framed p.1.mux p.2 h s writer

theorem inv_init [ConnectPackage] (closeWhenIdle : Bool) : Inv (wire closeWhenIdle).init where
  writers := rfl
  count := by
    show 0 < 2 ^ 32
    decide
  ready := fun _ h => by cases h
  logged := fun _ h => by cases h
  framed := fun _ _ _ h => by cases h

variable {connect : ConnectPackage} {p q : Calls × List Seen} {c c' : Calls}

theorem Inv.lt (hp : Inv p) {h : Nat} {s : Stream} (hs : p.1.mux.streams[h]? = some s) :
    h < p.1.mux.streams.length ∧ h + 1 < 2 ^ 32 := by
  have hlt : h < p.1.mux.streams.length := (List.getElem?_eq_some_iff.mp hs).1
  have hcount := hp.count
  omega

theorem Inv.wellFramed (hp : Inv p) (id : UInt32) : WellFramed id p.2 := by
  by_cases hstream : ∃ h < p.1.mux.streams.length, wireId h = id
  · obtain ⟨h, hlt, rfl⟩ := hstream
    have hlt' : h < p.1.writers.length := by
      rw [hp.writers]
      exact hlt
    exact (hp.framed h _ _ (List.getElem?_eq_getElem hlt)
      (List.getElem?_eq_getElem hlt')).wellFramed
  · refine wellFramed_of_foreign fun x hx heq => hstream ⟨x.stream, hp.logged x hx, heq⟩

theorem mem_resetStreams {ev : CallEvent} {h j : Nat} (hj : j ∈ c.resetStreams ev)
    (hlt : h < c.mux.streams.length) (heq : wireId j = wireId h) : h ∈ c.resetStreams ev := by
  unfold resetStreams at hj ⊢
  split at hj
  · have hid := (List.mem_filter.mp hj).2
    rw [heq] at hid
    exact List.mem_filter.mpr ⟨List.mem_range.mpr hlt, hid⟩
  · cases hj

theorem lt_of_mem_resetStreams {ev : CallEvent} {h : Nat} (hh : h ∈ c.resetStreams ev) :
    h < c.mux.streams.length := by
  unfold resetStreams at hh
  split at hh
  · exact List.mem_range.mp (List.mem_filter.mp hh).1
  · cases hh

theorem mayWrite_of_reset {ev : MuxEvent} (hG : WritersStopped p (.mux ev)) {h : Nat}
    (hh : h ∈ p.1.resetStreams (.mux ev)) : p.1.mayWrite h = false := by
  cases ev with
  | onmessage k message => exact hG h hh
  | _ => cases hh

theorem done_of_mayWrite {h : Nat} {s : Stream} {writer : Writer}
    (hs : c.mux.streams[h]? = some s) (hw : c.writers[h]? = some writer)
    (hmay : c.mayWrite h = false) : writer.finished = true ∨ c.mux.rank s.socket ≠ 1 := by
  simp only [mayWrite, hs, hw, Bool.and_eq_false_iff, Bool.not_eq_false'] at hmay
  refine hmay.imp id fun hclosed hopen => ?_
  rw [WebSocketMux.readyStateIs_opened.mpr hopen] at hclosed
  cases hclosed

theorem mayWrite_of_finished {h : Nat} {writer : Writer} (hw : c.writers[h]? = some writer)
    (hfinished : writer.finished = true) : c.mayWrite h = false := by
  cases hs : c.mux.streams[h]? <;> simp [mayWrite, hs, hw, hfinished]

theorem observe_of_gains {ev : CallEvent} {sends : Prop} [Decidable sends] {h : Nat}
    {envelope : Bytes} (hev : c.resetStreams ev = [])
    (hgains : c.mux.gains c'.mux = if sends then [(h, envelope)] else []) :
    c.observe ev c' = if sends then [.sent h envelope] else [] := by
  have hobserve : c.observe ev c' = (c.mux.gains c'.mux).map fun p => .sent p.1 p.2 := by
    simp [observe, hev, WebSocketMux.gains]
  rw [hobserve, hgains]
  split <;> rfl

/-- A step that sends at most one frame, of stream `h`. -/
theorem Inv.sent (hp : Inv p) {sends : Prop} [Decidable sends] {h : Nat} {s : Stream}
    {writer after : Writer} {envelope : Bytes} (hs : p.1.mux.streams[h]? = some s)
    (hkept : p.1.mux.Kept q.1.mux) (hw : p.1.writers[h]? = some writer)
    (hwriters : q.1.writers = p.1.writers.set h after)
    (hlog : q.2 = p.2 ++ if sends then [.sent h envelope] else [])
    (hframed : ∀ s', q.1.mux.streams[h]? = some s' → s'.socket = s.socket →
      Framed p.1.mux p.2 h s writer → Framed q.1.mux q.2 h s' after) : Inv q where
  writers := by rw [hwriters, List.length_set, hp.writers, hkept.length]
  count := by
    rw [hkept.length]
    exact hp.count
  ready := hkept.ready hp.ready
  logged := by
    intro x hx
    rw [hkept.length]
    rw [hlog] at hx
    rcases List.mem_append.mp hx with hold | hnew
    · exact hp.logged x hold
    · split at hnew
      · obtain rfl := List.mem_singleton.mp hnew
        exact (hp.lt hs).1
      · cases hnew
  framed := by
    intro j t' v ht' hv
    obtain ⟨t, ht, hsocket, hreg⟩ := hkept.streams j t' ht'
    rw [hwriters] at hv
    by_cases hhj : h = j
    · subst hhj
      obtain rfl : s = t := Option.some.inj (hs.symm.trans ht)
      obtain rfl : after = v := by
        rw [List.getElem?_set_self (List.getElem?_eq_some_iff.mp hw).1] at hv
        exact Option.some.inj hv
      exact hframed t' ht' hsocket (hp.framed h s writer hs hw)
    · rw [List.getElem?_set_ne hhj] at hv
      have hrank : p.1.mux.rank t.socket ≤ q.1.mux.rank t'.socket := by
        rw [hsocket]
        exact hkept.rank _
      have hj := (hp.framed j t v ht hv).kept hrank hreg
      have hne : wireId h ≠ wireId j := fun heq =>
        hhj (wireId_inj (hp.lt hs).2 (hp.lt ht).2 heq)
      rw [hlog]
      split
      · exact hj.other hne envelope
      · rw [List.append_nil]
        exact hj

theorem Inv.quiet (hp : Inv p) {ev : MuxEvent} {mux : WebSocketMux} (hquiet : p.1.mux.Quiet mux)
    (hreset : ∀ h ∈ p.1.resetStreams (.mux ev), h + 1 < 2 ^ 32 → ∀ s', mux.streams[h]? = some s' →
      s'.registered = false) (hG : WritersStopped p (.mux ev)) :
    Inv ({ p.1 with mux }, p.2 ++ p.1.observe (.mux ev) { p.1 with mux }) := by
  obtain ⟨hkept, hgains⟩ := hquiet
  have hobserve : p.1.observe (.mux ev) { p.1 with mux } =
      (p.1.resetStreams (.mux ev)).map .reset := by
    have hnil : Store.gained (p.1.mux.sockets.map (·.sent)) (mux.sockets.map (·.sent)) = [] :=
      hgains
    simp [observe, hnil]
  rw [hobserve]
  refine ⟨hp.writers.trans hkept.length.symm, hkept.length ▸ hp.count, hkept.ready hp.ready, ?_, ?_⟩
  · intro x hx
    have hlen : mux.streams.length = p.1.mux.streams.length := hkept.length
    rw [hlen]
    rcases List.mem_append.mp hx with hold | hnew
    · exact hp.logged x hold
    · obtain ⟨j, hj, rfl⟩ := List.mem_map.mp hnew
      exact lt_of_mem_resetStreams hj
  · intro h s' writer hs' hw
    obtain ⟨s, hs, hsocket, hreg⟩ := hkept.streams h s' hs'
    have hrank : p.1.mux.rank s.socket ≤ mux.rank s'.socket := by
      rw [hsocket]
      exact hkept.rank _
    have hf := hp.framed h s writer hs hw
    refine (hf.kept hrank hreg).heard ?_
    rintro ⟨j, hj, heq⟩
    obtain ⟨hlt, hlt'⟩ := hp.lt hs
    have hh := mem_resetStreams hj hlt heq
    refine ⟨hreset h hh hlt' s' hs', ?_⟩
    refine (done_of_mayWrite hs hw (mayWrite_of_reset hG hh)).imp id fun hne => ?_
    have hown := hf.own
    omega

theorem Inv.resumed (hp : Inv p) {i k : Nat} (hk : p.1.mux.ready[i]? = some k)
    (hG : p.1.mux.streams.length + 1 < 2 ^ 32) :
    Inv ({ mux := p.1.mux.resume i k, writers := p.1.writers ++ [.headers] }, p.2) where
  writers := by simp [WebSocketMux.resume, hp.writers]
  count := by
    simpa [WebSocketMux.resume] using hG
  ready := fun j hj => hp.ready j (List.mem_of_mem_eraseIdx hj)
  logged := by
    intro x hx
    have := hp.logged x hx
    simp only [WebSocketMux.resume, List.length_append, List.length_singleton]
    omega
  framed := by
    intro h s writer hs hw
    rcases Store.getElem?_concat.mp hs with hold | ⟨rfl, rfl⟩
    · have hlt : h < p.1.writers.length := by
        rw [hp.writers]
        exact (hp.lt hold).1
      rw [List.getElem?_append_left hlt] at hw
      exact (hp.framed h s writer hold hw).kept (Nat.le_refl _) id
    · -- the log has nothing with the new ID
      obtain rfl : writer = .headers := by
        rw [← hp.writers] at hw
        simpa using hw.symm
      have hforeign : ∀ x ∈ p.2, wireId x.stream ≠ wireId p.1.mux.streams.length := by
        intro x hx heq
        have hlt := hp.logged x hx
        have := wireId_inj (by omega) hG heq
        omega
      obtain ⟨hflags, hnoreset⟩ := foreign hforeign
      refine ⟨wellFramed_of_foreign hforeign, hp.ready k (List.mem_of_getElem? hk),
        fun _ => hflags, fun h => absurd rfl h, ?_, ?_⟩
      · intro hmem
        rw [hflags] at hmem
        cases hmem
      · rintro ⟨x, hx, hreset⟩
        rw [hnoreset x hx] at hreset
        cases hreset

/-- `closeStream`, called by a writer that aborts or by `iterate`. -/
theorem Inv.closed (hp : Inv p) {ev : CallEvent} {h : Nat} {writer after : Writer}
    (hev : p.1.resetStreams ev = []) (hw : p.1.writers[h]? = some writer)
    (hafter : after = writer ∨ writer = .messages ∧ after = .aborted)
    (hG : p.1.mux.sendsReset h = true → flagsOf (wireId h) p.2 ≠ [] ∧
      mayWrite { mux := p.1.mux.closeStream h, writers := p.1.writers.set h after } h = false) :
    Inv ({ mux := p.1.mux.closeStream h, writers := p.1.writers.set h after }, p.2 ++
      p.1.observe ev { mux := p.1.mux.closeStream h, writers := p.1.writers.set h after }) := by
  have hlt : h < p.1.mux.streams.length := by
    rw [← hp.writers]
    exact (List.getElem?_eq_some_iff.mp hw).1
  obtain ⟨s, hs⟩ : ∃ s, p.1.mux.streams[h]? = some s := ⟨_, List.getElem?_eq_getElem hlt⟩
  have hkept := WebSocketMux.kept_closeStream p.1.mux h
  have hobserve :
      p.1.observe ev { mux := p.1.mux.closeStream h, writers := p.1.writers.set h after } =
      if p.1.mux.sendsReset h then [.sent h (Core.encodeEnvelope flagEnvelopeReset [])] else [] :=
    observe_of_gains hev (WebSocketMux.gains_closeStream p.1.mux h)
  refine hp.sent hs hkept hw rfl (congrArg (p.2 ++ ·) hobserve) ?_
  intro s' hs' hsocket hf
  have hrank : p.1.mux.rank s.socket ≤ (p.1.mux.closeStream h).rank s'.socket := by
    rw [hsocket]
    exact hkept.rank _
  rw [hobserve]
  refine hf.released hrank (WebSocketMux.unregistered_closeStream hs') hafter ?_
  intro hsends
  obtain ⟨hne, hmay⟩ := hG hsends
  refine ⟨?_, hne, ?_⟩
  · simp only [WebSocketMux.sendsReset, hs, Bool.and_eq_true] at hsends
    exact hsends.1.1
  · have hlt' : h < p.1.writers.length := (List.getElem?_eq_some_iff.mp hw).1
    exact done_of_mayWrite hs' (List.getElem?_set_self hlt') hmay

theorem Inv.step (hp : Inv p) {ev : CallEvent} (hG : WritersStopped p ev) {closeWhenIdle : Bool}
    (hstep : (wire closeWhenIdle).step p ev = some q) : Inv q := by
  obtain ⟨c, log⟩ := p
  obtain ⟨c', log'⟩ := q
  obtain ⟨hcalls, hlog⟩ := (Machine.logged_step _).mp hstep
  obtain rfl : log' = log ++ c.observe ev c' := hlog
  cases stepped hcalls with
  | quiet hquiet hreset => exact hp.quiet hquiet hreset hG
  | @resumed i k hk =>
      have hobserve : c.observe (.mux (.resume i))
          { mux := c.mux.resume i k, writers := c.writers ++ [.headers] } = [] := by
        simp [observe, resetStreams, WebSocketMux.resume]
      rw [hobserve, List.append_nil]
      exact hp.resumed hk hG
  | @wrote _ h s before after flag data hev hw hs hwrites =>
      have hkept := WebSocketMux.kept_sendOn c.mux s.socket h (Core.encodeEnvelope flag data)
      have hobserve : c.observe ev
          { mux := c.mux.sendOn s.socket h (Core.encodeEnvelope flag data)
            writers := c.writers.set h after } =
          if c.mux.rank s.socket = 1 then [.sent h (Core.encodeEnvelope flag data)] else [] :=
        observe_of_gains hev (WebSocketMux.gains_sendOn s.socket h _)
      refine hp.sent hs hkept hw rfl (congrArg (log ++ ·) hobserve) ?_
      intro s' hs' _ hf
      obtain rfl : s = s' := Option.some.inj (hs.symm.trans hs')
      rw [hobserve]
      refine hf.wrote hwrites ?_
      simp only [WebSocketMux.rank, WebSocketMux.sendOn, List.getElem?_modify, if_true]
      cases c.mux.sockets[s.socket]? with
      | none => rfl
      | some w => simp [WebSocketMux.readyState_send]
  | @failed h hw =>
      refine hp.closed rfl hw (Or.inr ⟨rfl, rfl⟩) fun hsends => ⟨hG hsends, ?_⟩
      exact mayWrite_of_finished (List.getElem?_set_self (List.getElem?_eq_some_iff.mp hw).1) rfl
  | @released h writer hw _ =>
      have hset : c.writers.set h writer = c.writers := by
        obtain ⟨hlt, rfl⟩ := List.getElem?_eq_some_iff.mp hw
        exact List.set_getElem_self hlt
      have hclosed := @Inv.closed (c, log) hp (.release h) h writer writer rfl hw (Or.inl rfl)
      rw [hset] at hclosed
      refine hclosed fun hsends => ?_
      obtain ⟨hne, hstopped⟩ := hG hsends
      exact ⟨hne, (mayWrite_closeStream hsends).mpr hstopped⟩

-- ============================================================================
-- A writer that is not stopped
-- ============================================================================

/-- Once a reset of a stream has been seen whose writer is still at work on an
    open socket, the next thing its task does is sent. -/
theorem sends_after_reset (closeWhenIdle : Bool) {c : Calls} {log : List Seen} {h : Nat}
    (hmay : c.mayWrite h = true) {x : Seen} (hx : x ∈ log) (hreset : x.resets (wireId h) = true) :
    ∃ ev q, (wire closeWhenIdle).step (c, log) ev = some q ∧ ¬ WellFramed (wireId h) q.2 := by
  unfold mayWrite at hmay
  split at hmay
  · rename_i s writer hs hw
    simp only [Bool.and_eq_true, Bool.not_eq_true'] at hmay
    obtain ⟨hunfinished, hopen⟩ := hmay
    have hrank := WebSocketMux.readyStateIs_opened.mp hopen
    -- the frame of the headers or of the next message
    have hnext : ∃ ev after envelope, c.step ev = some
        { mux := c.mux.sendOn s.socket h envelope, writers := c.writers.set h after } ∧
          c.resetStreams ev = [] := by
      cases writer with
      | headers =>
          refine ⟨.headers h [], .messages, Core.encodeEnvelope flagEnvelopeHeaders [], ?_, rfl⟩
          simp [step, write, hw, WebSocketMux.step, WebSocketMux.onStream, hs]
      | messages =>
          refine ⟨.message h [], .messages, Core.encodeEnvelope flagEnvelopeData [], ?_, rfl⟩
          simp [step, write, hw, WebSocketMux.step, WebSocketMux.onStream, hs]
      | closed => cases hunfinished
      | aborted => cases hunfinished
    obtain ⟨ev, after, envelope, hstep, hev⟩ := hnext
    have hobserve : c.observe ev
        { mux := c.mux.sendOn s.socket h envelope, writers := c.writers.set h after } =
        if c.mux.rank s.socket = 1 then [.sent h envelope] else [] :=
      observe_of_gains hev (WebSocketMux.gains_sendOn s.socket h _)
    rw [if_pos hrank] at hobserve
    refine ⟨ev, (_, log ++ [.sent h envelope]), (Machine.logged_step _).mpr ⟨hstep, ?_⟩, ?_⟩
    · exact congrArg (log ++ ·) hobserve.symm
    · intro hwell
      have hpair := (List.pairwise_append.mp hwell.silent).2.2 x hx _ (List.mem_singleton.mpr rfl)
      simpa [Seen.sends] using hpair hreset
  · cases hmay

theorem mayWrite_onmessage {k : Nat} {message : Bytes}
    (hstep : c.step (.mux (.onmessage k message)) = some c') (h : Nat) :
    c'.mayWrite h = c.mayWrite h := by
  obtain ⟨mux, hmux, rfl⟩ := Option.map_eq_some_iff.mp hstep
  obtain ⟨w, -, -, -, rfl⟩ := WebSocketMux.onSocket_eq_some hmux
  have hroute : ∀ {f : Stream → Stream} {j : Nat}, (∀ s, (f s).socket = s.socket) →
      mayWrite { c with mux := { c.mux with streams := c.mux.streams.modify j f } } h =
        c.mayWrite h := by
    intro f j hf
    simp only [mayWrite, List.getElem?_modify, WebSocketMux.readyStateIs]
    cases hs : c.mux.streams[h]? with
    | none => rfl
    | some s =>
        by_cases hjh : j = h
        · subst hjh
          cases hw : c.writers[j]? with
          | none => simp
          | some writer => simp [hf]
        · simp [hjh]
  unfold WebSocketMux.route
  split
  · split
    · rfl
    · split
      · exact hroute fun _ => rfl
      · exact hroute fun _ => rfl
  · rfl

/-- A step against the condition breaks the order at once, or leaves a writer
    whose next frame does. -/
theorem broken_of_not_writersStopped {closeWhenIdle : Bool} {ev : CallEvent}
    (hev : ∀ i, ev ≠ .mux (.resume i)) (hG : ¬ WritersStopped p ev)
    (hstep : (wire closeWhenIdle).step p ev = some q) :
    ∃ more q', (wire closeWhenIdle).exec q more = some q' ∧ ∃ id, ¬ WellFramed id q'.2 := by
  obtain ⟨c, log⟩ := p
  obtain ⟨c', log'⟩ := q
  obtain ⟨hcalls, hlog⟩ := (Machine.logged_step _).mp hstep
  obtain rfl : log' = log ++ c.observe ev c' := hlog
  have hsent : ∀ {h : Nat} {x : Seen}, c'.mayWrite h = true → x ∈ log ++ c.observe ev c' →
      x.resets (wireId h) = true → ∃ more q', (wire closeWhenIdle).exec
        (c', log ++ c.observe ev c') more = some q' ∧ ∃ id, ¬ WellFramed id q'.2 := by
    intro h x hmay hx hreset
    obtain ⟨e, q', hq', hbroken⟩ := sends_after_reset closeWhenIdle hmay hx hreset
    exact ⟨[e], q', (Machine.exec_cons _).mpr ⟨q', hq', rfl⟩, wireId h, hbroken⟩
  -- a reset before the headers is out of order already
  have hunsent : ∀ {h : Nat}, c.observe ev c' =
      [.sent h (Core.encodeEnvelope flagEnvelopeReset [])] → flagsOf (wireId h) log = [] →
      ∃ more q', (wire closeWhenIdle).exec (c', log ++ c.observe ev c') more = some q' ∧
        ∃ id, ¬ WellFramed id q'.2 := by
    intro h hobserve hflags
    refine ⟨[], _, rfl, wireId h, fun hwell => ?_⟩
    have hordered := hwell.ordered
    rw [hobserve, Framed.flagsOf_concat_own, hflags] at hordered
    rcases hordered with hnil | ⟨data, ends, resets, -, -, heq⟩
    · cases hnil
    · cases congrArg List.head? heq
  cases ev with
  | mux ev =>
      cases ev with
      | onmessage k message =>
          simp only [WritersStopped, not_forall, Bool.not_eq_false] at hG
          obtain ⟨h, hmem, hmay⟩ := hG
          have hseen : Seen.reset h ∈ log ++ c.observe (.mux (.onmessage k message)) c' := by
            have hreset :
                Seen.reset h ∈ (c.resetStreams (.mux (.onmessage k message))).map .reset :=
              List.mem_map_of_mem hmem
            exact List.mem_append_right _ (List.mem_append_left _ hreset)
          refine hsent (h := h) ?_ hseen (by simp [Seen.resets])
          rw [mayWrite_onmessage hcalls]
          exact hmay
      | resume i => exact absurd rfl (hev i)
      | _ => exact absurd trivial hG
  | headers h headersBytes => exact absurd trivial hG
  | message h msg => exact absurd trivial hG
  | finish h => exact absurd trivial hG
  | fail h =>
      obtain ⟨hw, mux, hmux, rfl⟩ := write_eq_some hcalls
      cases hmux
      obtain ⟨hsends, hflags⟩ : c.mux.sendsReset h = true ∧ flagsOf (wireId h) log = [] := by
        simpa [WritersStopped] using hG
      refine hunsent ?_ hflags
      rw [observe_of_gains rfl (WebSocketMux.gains_closeStream c.mux h), if_pos hsends]
  | release h =>
      have hrelease : (if c.leaves h then some { c with mux := c.mux.closeStream h } else none) =
          some c' := hcalls
      split at hrelease
      · cases hrelease
        obtain ⟨hsends, hG⟩ : c.mux.sendsReset h = true ∧ ¬ (flagsOf (wireId h) log ≠ [] ∧
            (c.mayWrite h = false ∨ c.closesOwn h = true)) := by
          simpa only [WritersStopped, Classical.not_imp] using hG
        have hobserve : c.observe (.release h) { c with mux := c.mux.closeStream h } =
            [.sent h (Core.encodeEnvelope flagEnvelopeReset [])] := by
          rw [observe_of_gains rfl (WebSocketMux.gains_closeStream c.mux h), if_pos hsends]
        by_cases hflags : flagsOf (wireId h) log = []
        · exact hunsent hobserve hflags
        · have hmay : mayWrite { c with mux := c.mux.closeStream h } h = true := by
            refine Bool.of_not_eq_false fun hstopped => hG ⟨hflags, ?_⟩
            exact (mayWrite_closeStream hsends).mp hstopped
          refine hsent hmay (x := .sent h (Core.encodeEnvelope flagEnvelopeReset [])) ?_ ?_
          · rw [hobserve]
            simp
          · simp [Seen.resets, Core.encodeEnvelope]
      · cases hrelease

end Calls

/-- In every run in which each reset finds the writer of its stream stopped,
    what is sent with a stream ID is one request, and nothing follows a reset. -/
theorem frames_in_order [ConnectPackage] (closeWhenIdle : Bool) (evs : List CallEvent) {c : Calls}
    {log : List Seen} (hrun : (wire closeWhenIdle).run evs = some (c, log))
    (hG : (wire closeWhenIdle).Meets WritersStopped (wire closeWhenIdle).init evs) (id : UInt32) :
    WellFramed id log := by
  have hinv : Calls.Inv (c, log) := by
    refine Machine.exec_invariant_of_meets (I := Calls.Inv) _ ?_ (Calls.inv_init closeWhenIdle) hG
      hrun
    intro p ev q hp hguard hstep
    exact hp.step hguard hstep
  exact hinv.wellFramed id

open Connectrpc in
/-- The request ends before the response breaks off with an envelope that
    `iterate` does not expect: one reset, and nothing after it. -/
theorem finished_request_in_order :
    ∃ p, (wire false).run [.mux .openStream, .mux (.onopen 0), .mux (.resume 0),
        .headers 0 [123, 125], .mux (.pull 0), .mux (.read 0), .message 0 [1], .finish 0,
        .mux (.onmessage 0 [0, 0, 0, 1, 6, 0, 0, 0, 2, 123, 125]), .mux (.settle 0),
        .mux (.pull 0), .mux (.read 0), .mux (.onmessage 0 [0, 0, 0, 1, 3, 0, 0, 0, 0]),
        .mux (.settle 0), .release 0] = some p ∧ WellFramed 1 p.2 :=
  ⟨_, rfl, frames_in_order false [.mux .openStream, .mux (.onopen 0), .mux (.resume 0),
        .headers 0 [123, 125], .mux (.pull 0), .mux (.read 0), .message 0 [1], .finish 0,
        .mux (.onmessage 0 [0, 0, 0, 1, 6, 0, 0, 0, 2, 123, 125]), .mux (.settle 0),
        .mux (.pull 0), .mux (.read 0), .mux (.onmessage 0 [0, 0, 0, 1, 3, 0, 0, 0, 0]),
        .mux (.settle 0), .release 0] rfl (by decide) 1⟩

open Connectrpc in
/-- The response breaks off with an envelope that `iterate` does not expect
    while the request goes on: the next request message follows the reset. -/
theorem message_after_reset :
    ¬ ∀ closeWhenIdle evs c log, (wire closeWhenIdle).run evs = some (c, log) →
      ∀ id, WellFramed id log := by
  intro h
  have hwell := h false [.mux .openStream, .mux (.onopen 0), .mux (.resume 0),
    .headers 0 [123, 125], .mux (.pull 0), .mux (.read 0),
    .mux (.onmessage 0 [0, 0, 0, 1, 6, 0, 0, 0, 2, 123, 125]), .mux (.settle 0),
    .mux (.pull 0), .mux (.read 0), .mux (.onmessage 0 [0, 0, 0, 1, 3, 0, 0, 0, 0]),
    .mux (.settle 0), .release 0, .message 0 [1]] _ _ rfl 1
  exact absurd hwell.silent (by decide)

end Web
end BidiWeb
