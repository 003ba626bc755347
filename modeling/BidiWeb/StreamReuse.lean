/-
  BidiWeb.StreamReuse

  How many RPCs one stream ID gets on one connection, for both servers.

  Both remember the streams that are live and no others.  A headers frame
  with the ID of a live stream is handed to its RPC; one with an ID that has
  become free again opens another RPC, as if the ID were new.
-/

import BidiWeb.Core.MuxedStreams
import BidiWeb.ConnectWebSocket.ServerStreams
import BidiWeb.ConnectWebSocket.Written
import Mathlib.Data.List.Nodup

namespace BidiWeb

open BidiWeb.Lib

-- ============================================================================
-- handleMuxedBidiSocket
-- ============================================================================

namespace Core.MuxedSocket

/-- No stream ID has had two RPCs. -/
def OncePerId (c : MuxedSocket) : Prop := c.ids.Nodup

/-- A headers frame that repeats an ID finds the stream it opened registered. -/
def RepeatsLive (c : MuxedSocket) (ev : MuxedEvent) : Prop :=
  ∀ message f, ev = .receive message → c.ended = none → decodeStreamFrame message = .ok f →
    f.flag = flagEnvelopeHeaders → f.streamId ∈ c.ids → (c.streams f.streamId).isSome = true

variable {c c' : MuxedSocket} {setup : MuxedSetup}

theorem OncePerId.step (hc : c.OncePerId) {ev : MuxedEvent} (hlive : RepeatsLive c ev)
    (hstep : Stepped setup c ev c') : c'.OncePerId := by
  rcases ids_step hstep with hsame | ⟨message, f, hev, hopen, hframe, hheaders, hfree, hmore⟩
  · rw [OncePerId, hsame]
    exact hc
  · have hnew : f.streamId ∉ c.ids := fun hmem => by
      have := hlive message f hev hopen hframe hheaders hmem
      rw [hfree] at this
      cases this
    rw [OncePerId, hmore, ← List.concat_eq_append]
    exact (List.nodup_concat _ _).mpr ⟨hnew, hc⟩

theorem repeatsLive_of_oncePerId {ev : MuxedEvent}
    (hnext : ∀ c', c.step setup ev = some c' → c'.OncePerId) : RepeatsLive c ev := by
  rintro message f rfl hopen hframe hheaders hmem
  cases hfree : c.streams f.streamId with
  | some h => rfl
  | none =>
      have hstep : c.step setup (.receive message) =
          some (c.startStream f.streamId f.envelope) := by
        simp [step, hopen, hframe, dispatch, hfree, hheaders]
      have hnodup := hnext _ hstep
      rw [OncePerId, ids_startStream, ← List.concat_eq_append] at hnodup
      exact absurd hmem ((List.nodup_concat _ _).mp hnodup).1

end Core.MuxedSocket

-- ============================================================================
-- ServeHTTP
-- ============================================================================

namespace ConnectWebSocket.MuxConn

/-- No stream ID has had two RPCs. -/
def OncePerId (c : MuxConn) : Prop := c.ids.Nodup

/-- `lookup` finds the stream of a headers frame that repeats an ID
    registered. -/
def RepeatsLive (c : MuxConn) (ev : ConnEvent) : Prop :=
  ∀ f, ev = .advance → c.loop = .got f → f.env.flag = flagEnvelopeHeaders → f.id ∈ c.ids →
    (c.streams f.id).isSome = true

/-- What `startStream` is about to be called for is new. -/
def MissingNew (c : MuxConn) : Prop :=
  ∀ f, c.loop = .missing f → f.env.flag = flagEnvelopeHeaders → f.id ∉ c.ids

variable {c c' : MuxConn}

/-- A server makes a stream in a step of its read loop. -/
theorem advance_of_created (htable : c.Table) {ev : ConnEvent} {o : StreamObject}
    (hstep : Stepped c ev c') (hobjs : c'.objs = c.objs ++ [o]) : ev = .advance := by
  have hlen : c'.objs.length = c.objs.length + 1 := by simp [hobjs]
  cases hstep with
  | found | missing | start | skip | reset | deliver | resetTerminate => rfl
  | newStream _ hrole | close _ _ hrole | shutdown hrole =>
      rw [htable.role] at hrole
      cases hrole
  | read | cancel | handlerReturn | taskWrite | taskTerminate =>
      simp [MuxConn.modify, MuxConn.terminate, setTask, writeFrame] at hlen
  | _ => exact absurd hlen (Nat.ne_of_lt (Nat.lt_succ_self _))

/-- A server makes a stream for a headers frame that `lookup` has missed. -/
theorem missing_of_created (htable : c.Table) {ev : ConnEvent} {o : StreamObject}
    (hstep : c.step ev = some c') (hobjs : c'.objs = c.objs ++ [o]) :
    ∃ f, c.loop = .missing f ∧ f.env.flag = flagEnvelopeHeaders ∧ o.stream.id = f.id ∧
      c'.loop = .reading := by
  cases (wrote_step hstep).opens hobjs with
  | client hrole _ =>
      rw [htable.role] at hrole
      cases hrole
  | server f _ hl hheaders hid _ _ =>
      obtain rfl := advance_of_created htable (stepped hstep) hobjs
      refine ⟨f, hl, hheaders, hid, ?_⟩
      simp only [MuxConn.step, advance, hl, htable.role, hheaders, and_self, if_true,
        Option.some.injEq] at hstep
      rw [← hstep]

/-- `lookup` has missed a stream in this step, or before it. -/
theorem missing_step {ev : ConnEvent} {f : Frame} (hstep : Stepped c ev c')
    (hl : c'.loop = .missing f) :
    c.loop = .missing f ∨ ev = .advance ∧ c.loop = .got f ∧ c.streams f.id = none := by
  cases hstep with
  | missing g hgot hfree =>
      obtain rfl : g = f := Loop.missing.inj hl
      exact .inr ⟨rfl, hgot, hfree⟩
  | recv | recvFails | found | start | skip | reset | deliver | resetTerminate | drop => cases hl
  | newStream dedicated =>
      rcases c.newStream_cases dedicated with ⟨next, hnone⟩ | ⟨-, id, -, hinsert⟩
      · rw [hnone] at hl
        exact .inl hl
      · rw [hinsert] at hl
        exact .inl hl
  | _ => exact .inl hl

theorem OncePerId.step (hc : c.OncePerId) (hnew : c.MissingNew) (htable : c.Table) {ev : ConnEvent}
    (hlive : RepeatsLive c ev) (hstep : c.step ev = some c') :
    c'.OncePerId ∧ c'.MissingNew := by
  rcases (wrote_step hstep).ids_cases with hsame | ⟨o, hobjs, hmore⟩
  · refine ⟨?_, fun f hl hheaders => ?_⟩
    · rw [OncePerId, hsame]
      exact hc
    · rw [hsame]
      rcases missing_step (stepped hstep) hl with hbefore | ⟨hev, hgot, hfree⟩
      · exact hnew f hbefore hheaders
      · intro hmem
        have hreg := hlive f hev hgot hheaders hmem
        rw [hfree] at hreg
        cases hreg
  · obtain ⟨f, hl, hheaders, hid, hloop⟩ := missing_of_created htable hstep hobjs
    refine ⟨?_, fun g hg => ?_⟩
    · rw [OncePerId, hmore, ← List.concat_eq_append, hid]
      exact (List.nodup_concat _ _).mpr ⟨hnew f hl hheaders, hc⟩
    · rw [hloop] at hg
      cases hg

/-- Where `lookup` misses a stream that was there, the next step of the read
    loop opens another RPC under its ID. -/
theorem reopens_of_not_repeatsLive (htable : c.Table) {ev : ConnEvent}
    (hdead : ¬ RepeatsLive c ev) :
    ∃ c₁ c₂, c.step ev = some c₁ ∧ c₁.step .advance = some c₂ ∧ ¬ c₂.OncePerId := by
  simp only [RepeatsLive, not_forall] at hdead
  obtain ⟨f, rfl, hgot, hheaders, hmem, hgone⟩ := hdead
  have hfree : c.streams f.id = none := by simpa using hgone
  let c₁ : MuxConn := { c with loop := .missing f }
  have hlookup : c.step .advance = some c₁ := by
    simp [MuxConn.step, advance, hgot, hfree, c₁]
  have hstart : c₁.step .advance = some { c₁.startStream f with loop := .reading } := by
    simp [MuxConn.step, advance, htable.role, hheaders, c₁]
  have hopen : ¬ (c.closed = true ∨ (c.streams f.id).isSome = true) := by
    rintro (hclosed | hreg)
    · rw [htable.closed hclosed] at hgot
      cases hgot
    · exact hgone hreg
  have hids : ({ c₁.startStream f with loop := .reading } : MuxConn).ids = c.ids ++ [f.id] := by
    simp [ids, startStream, hopen, MuxConn.insert, c₁]
  refine ⟨_, _, hlookup, hstart, fun honce => ?_⟩
  rw [OncePerId, hids, ← List.concat_eq_append] at honce
  exact ((List.nodup_concat _ _).mp honce).1 hmem

end ConnectWebSocket.MuxConn

-- ============================================================================
-- Whole runs
-- ============================================================================

/-- The read loop of `ServeHTTP` starts at most one RPC for each stream ID as
    long as `lookup` finds the stream of every headers frame that repeats an
    ID; where it does not, the loop's next step starts a second one. -/
theorem serveHTTP_once_of_repeatsLive (evs : List ConnectWebSocket.ConnEvent) :
    (ConnectWebSocket.serveHTTP.Meets ConnectWebSocket.MuxConn.RepeatsLive
        ConnectWebSocket.serveHTTP.init evs →
      ConnectWebSocket.serveHTTP.Always ConnectWebSocket.MuxConn.OncePerId
        ConnectWebSocket.serveHTTP.init evs) ∧
    (¬ ConnectWebSocket.serveHTTP.Meets ConnectWebSocket.MuxConn.RepeatsLive
        ConnectWebSocket.serveHTTP.init evs →
      ∃ pre, pre <+: evs ∧ ¬ ConnectWebSocket.serveHTTP.Always ConnectWebSocket.MuxConn.OncePerId
        ConnectWebSocket.serveHTTP.init (pre ++ [.advance])) := by
  constructor
  · refine Machine.always_of_meets
      (I := fun c => c.Table ∧ ConnectWebSocket.MuxConn.OncePerId c ∧ c.MissingNew) _ ?_
      (fun _ hc => hc.2.1) ?_
    · rintro c ev c' ⟨htable, hc, hnew⟩ hlive hstep
      exact ⟨htable.step (ConnectWebSocket.MuxConn.stepped hstep),
        hc.step hnew htable hlive hstep⟩
    · exact ⟨ConnectWebSocket.MuxConn.table_init, List.nodup_nil, fun _ h => by cases h⟩
  · intro hdead
    obtain ⟨pre, ev, c, hpre, hrun, -, hbreaks⟩ := Machine.exists_of_not_meets _ hdead
    have htable : c.Table := ConnectWebSocket.serveHTTP.exec_invariant
      (fun _ _ _ htable hstep => htable.step (ConnectWebSocket.MuxConn.stepped hstep))
      ConnectWebSocket.MuxConn.table_init hrun
    obtain ⟨c₁, c₂, hlookup, hstart, htwice⟩ :=
      ConnectWebSocket.MuxConn.reopens_of_not_repeatsLive htable hbreaks
    refine ⟨pre ++ [ev], hpre, fun hall => htwice (Machine.of_always _ hall ?_)⟩
    rw [List.append_assoc]
    exact (Machine.exec_append _).mpr ⟨c, hrun, (Machine.exec_cons _).mpr
      ⟨c₁, hlookup, (Machine.exec_cons _).mpr ⟨c₂, hstart, rfl⟩⟩⟩

/-- Whatever the frames and the schedule, either server starts at most one RPC
    for each stream ID exactly if every headers frame that repeats an ID finds
    the stream that had it still registered.  The read loop of `ServeHTTP`
    looks the stream up and starts the RPC in two steps. -/
theorem one_rpc_per_id_iff (setup : Core.MuxedSetup) (muxedEvs : List Core.MuxedEvent)
    (connEvs : List ConnectWebSocket.ConnEvent) :
    ((Core.handleMuxedBidiSocket setup).Always Core.MuxedSocket.OncePerId
          (Core.handleMuxedBidiSocket setup).init muxedEvs ↔
        (Core.handleMuxedBidiSocket setup).Meets Core.MuxedSocket.RepeatsLive
          (Core.handleMuxedBidiSocket setup).init muxedEvs) ∧
      (ConnectWebSocket.serveHTTP.Meets ConnectWebSocket.MuxConn.RepeatsLive
          ConnectWebSocket.serveHTTP.init connEvs →
        ConnectWebSocket.serveHTTP.Always ConnectWebSocket.MuxConn.OncePerId
          ConnectWebSocket.serveHTTP.init connEvs) ∧
      (¬ ConnectWebSocket.serveHTTP.Meets ConnectWebSocket.MuxConn.RepeatsLive
          ConnectWebSocket.serveHTTP.init connEvs →
        ∃ pre, pre <+: connEvs ∧
          ¬ ConnectWebSocket.serveHTTP.Always ConnectWebSocket.MuxConn.OncePerId
            ConnectWebSocket.serveHTTP.init (pre ++ [.advance])) := by
  refine ⟨?_, serveHTTP_once_of_repeatsLive connEvs⟩
  refine Machine.always_iff_meets (I := Core.MuxedSocket.OncePerId) _ ?_ (fun _ hc => hc) ?_ ?_
    muxedEvs
  · exact fun c ev c' hc hlive hstep => hc.step hlive (Core.MuxedSocket.stepped hstep)
  · exact fun c ev _ hnext => Core.MuxedSocket.repeatsLive_of_oncePerId hnext
  · exact List.nodup_nil

/-- On either server a client gets a second RPC by sending the headers frame
    of a finished one again. -/
theorem repeated_headers_reopen :
    (¬ ∀ setup evs, (Core.handleMuxedBidiSocket setup).Always Core.MuxedSocket.OncePerId
        (Core.handleMuxedBidiSocket setup).init evs) ∧
    ¬ ∀ evs, ConnectWebSocket.serveHTTP.Always ConnectWebSocket.MuxConn.OncePerId
        ConnectWebSocket.serveHTTP.init evs := by
  constructor
  · intro h
    have hrun := h {} [
      .receive (Core.encodeStreamFrame 1 (Core.encodeEnvelope flagEnvelopeHeaders [])),
      .rpcFinish 0, .rpcReaderCancelled 0, .rpcWriterClosed 0, .rpcSettled 0,
      .receive (Core.encodeStreamFrame 1 (Core.encodeEnvelope flagEnvelopeHeaders []))]
    have hlast := (((((hrun.2 _ rfl).2 _ rfl).2 _ rfl).2 _ rfl).2 _ rfl).2 _ rfl
    exact absurd (List.mem_singleton_self _) (List.nodup_cons.mp hlast).1
  · intro h
    have hrun := h [
      .recv ⟨1, ⟨flagEnvelopeHeaders, []⟩⟩, .advance, .advance,
      .handlerReturn 0, .task 0, .task 0,
      .recv ⟨1, ⟨flagEnvelopeHeaders, []⟩⟩, .advance, .advance]
    have hfinished := (((((hrun.2 _ rfl).2 _ rfl).2 _ rfl).2 _ rfl).2 _ rfl).2 _ rfl
    have hlast := ((hfinished.2 _ rfl).2 _ rfl).2 _ rfl
    exact absurd (List.mem_singleton_self _) (List.nodup_cons.mp hlast).1

end BidiWeb
