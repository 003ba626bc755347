/-
  BidiWeb.Interop.TsServer

  `handleMuxedBidiSocket` as the answerer of a connection, whatever the
  client is.  What its handlers are given and have written is already
  compared with the log of the connection; here the log is compared with the
  messages taken.
-/

import BidiWeb.Core.Demultiplexing
import BidiWeb.Interop.Messages
import BidiWeb.Lib.Star

namespace BidiWeb
namespace Core

open BidiWeb.Lib
open BidiWeb.Interop

def MuxedEvent.takes : MuxedEvent → Option Bytes
  | .receive message => some message
  | .readFailed | .readDone | .idleTimeout | .abortSignal _ | .rpcRead _ | .rpcWrite _ _
  | .rpcFinish _ | .rpcReaderCancelled _ | .rpcWriterClosed _ | .rpcSettled _ | .finish => none

/-- `handleMuxedBidiSocket` at the other end of a connection, with its log. -/
def tsServer (setup : MuxedSetup) :
    Peer (MuxedSocket × List SocketObs) MuxedEvent Bytes where
  toMachine := (handleMuxedBidiSocket setup).logged observe
  takes := MuxedEvent.takes
  sent p := p.1.sent

/-- The message of an entry of the log. -/
def SocketObs.message : SocketObs → Option Bytes
  | .frame f => some (encodeStreamFrame f.streamId f.envelope)
  | .wrote .. | .completed _ | .teardown => none

/-- The messages a log has taken. -/
def taken (log : List SocketObs) : List Bytes := log.filterMap SocketObs.message

theorem taken_append (log more : List SocketObs) : taken (log ++ more) = taken log ++ taken more :=
  List.filterMap_append ..

namespace MuxedSocket

/-- RPC `h` as its handler and the connection see it. -/
def session (c : MuxedSocket) (log : List SocketObs) (h : Nat) (r : Rpc) :
    Session UInt32 Bytes where
  id := r.streamId
  put := (outputOf r.streamId h log).filter isEnvelope
  got := r.readable.received
  buffered := r.readable.queue
  live := c.streams r.streamId = some h ∧ r.phase = .serving

def sessions (c : MuxedSocket) (log : List SocketObs) : List (Session UInt32 Bytes) :=
  c.rpcs.mapIdx (c.session log)

variable {c c' : MuxedSocket} {setup : MuxedSetup} {log : List SocketObs} {heard : List Bytes}

theorem mem_sessions {s : Session UInt32 Bytes} :
    s ∈ c.sessions log ↔
      ∃ (h : Nat) (r : Rpc), c.rpcs[h]? = some r ∧ s = c.session log h r := by
  rw [sessions, List.mem_iff_getElem?]
  constructor
  · rintro ⟨h, hs⟩
    rw [List.getElem?_mapIdx] at hs
    obtain ⟨r, hr, rfl⟩ := Option.map_eq_some_iff.mp hs
    exact ⟨h, r, hr, rfl⟩
  · rintro ⟨h, r, hr, rfl⟩
    exact ⟨h, by rw [List.getElem?_mapIdx, hr]; rfl⟩

theorem ids_sessions (c : MuxedSocket) (log : List SocketObs) :
    (c.sessions log).map (·.id) = c.ids := by
  refine List.ext_getElem? fun h => ?_
  rw [sessions, ids, List.getElem?_map, List.getElem?_mapIdx, List.getElem?_map]
  cases c.rpcs[h]? <;> rfl

-- ============================================================================
-- The log and the messages taken
-- ============================================================================

/-- A frame as `decodeStreamFrame` returns it. -/
def Decoded (f : StreamFrame) : Prop := ∃ payload, f.envelope = encodeEnvelope f.flag payload

/-- The frames of a log are the messages taken, but for one that ends it. -/
structure Logs (c : MuxedSocket) (log : List SocketObs) (heard : List Bytes) : Prop where
  taken : taken log <+: heard
  reading : c.ended = none → Core.taken log = heard
  decoded : ∀ f, .frame f ∈ log → Decoded f

theorem decoded_of_ok {message : Bytes} {f : StreamFrame} (h : decodeStreamFrame message = .ok f) :
    Decoded f ∧ message = encodeStreamFrame f.streamId f.envelope := by
  obtain ⟨payload, hframe, henvelope⟩ := decodeStreamFrame_eq_ok.mp h
  refine ⟨⟨payload, henvelope⟩, ?_⟩
  rw [hframe.bytes, frameBytes_eq, henvelope]

theorem streamOf_frame {f : StreamFrame} (hf : Decoded f) :
    streamOf (encodeStreamFrame f.streamId f.envelope) =
      if f.flag = flagEnvelopeReset then none else some (f.streamId, f.envelope) := by
  obtain ⟨payload, henvelope⟩ := hf
  rw [streamOf_encodeStreamFrame]
  by_cases hreset : f.flag = flagEnvelopeReset <;>
    simp [isEnvelope, henvelope, encodeEnvelope, hreset]

/-- The loop does not start again. -/
theorem ended_of_step {ev : MuxedEvent} (hstep : Stepped setup c ev c') (h : c'.ended = none) :
    c.ended = none := by
  cases hstep with
  | malformed | endLoop | idle => cases h
  | start | late | reset | enqueue => assumption
  | _ => exact h

theorem observe_quiet {ev : MuxedEvent} (hev : ev.takes = none) (c c' : MuxedSocket) :
    taken (observe c ev c') = [] ∧ ∀ f, .frame f ∉ observe c ev c' := by
  cases ev with
  | receive message => cases hev
  | _ => simp [observe, taken, SocketObs.message]

theorem Logs.step (hc : Logs c log heard) {ev : MuxedEvent} (hstep : Stepped setup c ev c') :
    Logs c' (log ++ observe c ev c') (heard ++ ev.takes.toList) := by
  cases hev : ev.takes with
  | none =>
      obtain ⟨hnone, hframes⟩ := observe_quiet hev c c'
      rw [Option.toList_none, List.append_nil]
      refine ⟨?_, fun hopen => ?_, fun f hf => ?_⟩
      · rw [taken_append, hnone, List.append_nil]
        exact hc.taken
      · rw [taken_append, hnone, List.append_nil]
        exact hc.reading (ended_of_step hstep hopen)
      · rcases List.mem_append.mp hf with hold | hnew
        · exact hc.decoded f hold
        · exact absurd hnew (hframes f)
  | some message =>
      obtain rfl : ev = .receive message := by
        cases ev <;> simp_all [MuxedEvent.takes]
      have hopen : c.ended = none := by
        cases hstep <;> first | assumption | simp_all
      have hheard := hc.reading hopen
      show Logs c' (log ++ observe c (.receive message) c') (heard ++ [message])
      cases hdecode : decodeStreamFrame message with
      | error err =>
          have hobs : observe c (.receive message) c' = [.teardown] := by
            simp [observe, hdecode]
          have hdown : c'.ended.isSome = true := by
            cases hstep <;> simp_all [MuxedSocket.endLoop]
          rw [hobs]
          refine ⟨?_, fun hstill => ?_, fun f hf => ?_⟩
          · rw [taken_append, hheard]
            exact ⟨[message], by simp [Core.taken, SocketObs.message]⟩
          · rw [hstill] at hdown
            cases hdown
          · rcases List.mem_append.mp hf with hold | hnew
            · exact hc.decoded f hold
            · simp at hnew
      | ok f =>
          obtain ⟨hdecoded, hmessage⟩ := decoded_of_ok hdecode
          have hall : Core.taken (log ++ observe c (.receive message) c') = heard ++ [message] := by
            rw [taken_append, hheard, observe_frame hdecode, hmessage]
            split <;> simp [Core.taken, SocketObs.message]
          refine ⟨by rw [hall], fun _ => hall, fun g hg => ?_⟩
          rcases List.mem_append.mp hg with hold | hnew
          · exact hc.decoded g hold
          · rw [observe_frame hdecode] at hnew
            split at hnew <;> simp_all

-- ============================================================================
-- The invariant
-- ============================================================================

/-- What holds of a server for any messages. -/
structure Answers (setup : MuxedSetup) (c : MuxedSocket) (log : List SocketObs)
    (heard : List Bytes) : Prop where
  owned : c.Owned setup
  logs : c.Logs log heard
  demultiplexes : c.ids.Nodup → c.Demultiplexes setup log
  /-- The RPCs are those that the messages taken started. -/
  started : c.ids.Sublist (openers streamOf opensStream (taken log))
  /-- It writes for the RPCs it has started. -/
  owner : ∀ m ∈ c.sent, ∃ id ∈ c.ids, ∃ chunk, m = encodeStreamFrame id chunk

theorem answers_init : Answers setup (handleMuxedBidiSocket setup).init [] [] where
  owned := owned_init
  logs := ⟨List.prefix_rfl, fun _ => rfl, fun _ h => by cases h⟩
  demultiplexes := fun _ => demultiplexes_init
  started := List.nil_sublist _
  owner := fun _ h => by cases h

theorem openers_headers {f : StreamFrame} (hf : Decoded f) (h : f.flag = flagEnvelopeHeaders) :
    openers streamOf opensStream [encodeStreamFrame f.streamId f.envelope] = [f.streamId] := by
  have hlabel := streamOf_frame hf
  rw [if_neg (by rw [h]; decide)] at hlabel
  have hopened : openedBy streamOf opensStream (encodeStreamFrame f.streamId f.envelope) =
      some f.streamId := by
    obtain ⟨payload, henvelope⟩ := hf
    exact openedBy_eq_some.mpr
      ⟨_, hlabel, by simp [opensStream, henvelope, encodeEnvelope, h]⟩
  simp [openers, hopened]

theorem started_step {ev : MuxedEvent} (hstep : Stepped setup c ev c')
    (hc : c.ids.Sublist (openers streamOf opensStream (taken log))) :
    c'.ids.Sublist (openers streamOf opensStream (taken (log ++ observe c ev c'))) := by
  rw [taken_append, openers_append]
  rcases ids_step hstep with hsame | ⟨message, f, rfl, -, hdecode, hheaders, -, hmore⟩
  · rw [hsame]
    exact hc.trans (List.sublist_append_left _ _)
  · have htaken : taken (observe c (.receive message) c') =
        [encodeStreamFrame f.streamId f.envelope] := by
      rw [observe_frame hdecode]
      split <;> simp [taken, SocketObs.message]
    rw [hmore, htaken, openers_headers (decoded_of_ok hdecode).1 hheaders]
    exact hc.append (List.Sublist.refl _)

theorem sent_step {ev : MuxedEvent} (hstep : Stepped setup c ev c') :
    c'.sent = c.sent ∨ ∃ (h : Nat) (r : Rpc) (chunk : Bytes), c.rpcs[h]? = some r ∧
      c'.sent = c.sent ++ [encodeStreamFrame r.streamId chunk] := by
  cases hstep with
  | write h chunk r hr => exact .inr ⟨h, r, chunk, hr, rfl⟩
  | enqueue message f h =>
      refine .inl ?_
      unfold MuxedSocket.enqueue
      split
      · rfl
      · split <;> rfl
  | _ => exact .inl rfl

theorem owner_step {ev : MuxedEvent} (hstep : Stepped setup c ev c')
    (hc : ∀ m ∈ c.sent, ∃ id ∈ c.ids, ∃ chunk, m = encodeStreamFrame id chunk) :
    ∀ m ∈ c'.sent, ∃ id ∈ c'.ids, ∃ chunk, m = encodeStreamFrame id chunk := by
  have hids : ∀ id ∈ c.ids, id ∈ c'.ids := fun id hid => by
    rcases ids_step hstep with hsame | ⟨-, f, -, -, -, -, -, hmore⟩
    · exact hsame ▸ hid
    · exact hmore ▸ List.mem_append_left _ hid
  have hold : ∀ m ∈ c.sent, ∃ id ∈ c'.ids, ∃ chunk, m = encodeStreamFrame id chunk :=
    fun m hm => by
      obtain ⟨id, hid, hchunk⟩ := hc m hm
      exact ⟨id, hids id hid, hchunk⟩
  rcases sent_step hstep with hsame | ⟨h, r, chunk, hr, hmore⟩
  · rw [hsame]
    exact hold
  · rw [hmore]
    intro m hm
    rcases List.mem_append.mp hm with hm | hm
    · exact hold m hm
    · exact ⟨r.streamId, hids _ (mem_ids hr), chunk, List.mem_singleton.mp hm⟩

theorem Answers.step (hc : c.Answers setup log heard) {ev : MuxedEvent}
    (hstep : Stepped setup c ev c') :
    c'.Answers setup (log ++ observe c ev c') (heard ++ ev.takes.toList) where
  owned := hc.owned.step hstep
  logs := hc.logs.step hstep
  demultiplexes := fun hids =>
    (hc.demultiplexes (nodup_of_step hstep hids)).step hc.owned hstep hids
      (nodup_of_step hstep hids)
  started := started_step hstep hc.started
  owner := owner_step hstep hc.owner

-- ============================================================================
-- The window of a stream in the messages taken
-- ============================================================================

/-- Until its reset, the envelopes of a stream are what the messages carry. -/
theorem carried_entries {id : UInt32} {h : Nat} {entries : List SocketObs}
    (hframes : ∀ f, .frame f ∈ entries → Decoded f)
    (hresets : ∀ x ∈ entries, SocketObs.ends id h x = false) :
    entries.filterMap (SocketObs.envelopeFor id) = carried streamOf id (taken entries) := by
  induction entries with
  | nil => rfl
  | cons x rest ih =>
      have hrest := ih (fun f hf => hframes f (List.mem_cons_of_mem x hf))
        fun y hy => hresets y (List.mem_cons_of_mem x hy)
      have hcons : taken (x :: rest) = taken [x] ++ taken rest := taken_append [x] rest
      have hsplit : (x :: rest).filterMap (SocketObs.envelopeFor id) =
          [x].filterMap (SocketObs.envelopeFor id) ++ rest.filterMap (SocketObs.envelopeFor id) :=
        List.filterMap_append (l := [x])
      rw [hsplit, hrest, hcons, carried_append]
      refine congrArg (· ++ _) ?_
      cases x with
      | frame f =>
          have hlabel := streamOf_frame (hframes f List.mem_cons_self)
          have htaken : taken [.frame f] = [encodeStreamFrame f.streamId f.envelope] := rfl
          rw [htaken, carried_singleton]
          by_cases hid : f.streamId = id
          · subst hid
            have hplain : f.flag ≠ flagEnvelopeReset := fun hreset => by
              have hno := hresets _ List.mem_cons_self
              simp [SocketObs.ends, SocketObs.silences, hreset] at hno
            rw [if_neg hplain] at hlabel
            rw [carries_of_label hlabel]
            simp [SocketObs.envelopeFor]
          · have hnone : carries streamOf id (encodeStreamFrame f.streamId f.envelope) = none := by
              by_cases hreset : f.flag = flagEnvelopeReset
              · rw [if_pos hreset] at hlabel
                exact carries_of_none hlabel
              · rw [if_neg hreset] at hlabel
                exact carries_of_ne hlabel hid
            rw [hnone]
            simp [SocketObs.envelopeFor, hid]
      | wrote | completed | teardown => rfl

/-- What opens a window of the log opens the stream. -/
theorem ends_of_opens {id : UInt32} {h : Nat} {x : SocketObs} (hx : x.opens id = true) :
    SocketObs.ends id h x = false := by
  cases x with
  | frame f =>
      obtain ⟨-, hflag⟩ : f.streamId = id ∧ f.flag = flagEnvelopeHeaders := by
        simpa [SocketObs.opens] using hx
      simp [SocketObs.ends, SocketObs.silences, hflag, flagEnvelopeHeaders, flagEnvelopeReset]
  | wrote | completed | teardown => cases hx

/-- The entries of a window that its stream opens with its only headers
    envelope, in the messages taken. -/
theorem entries_carried {id : UInt32} {h : Nat} {pre rest post : List SocketObs} {x : SocketObs}
    (hframes : ∀ f, .frame f ∈ pre ++ x :: rest ++ post → Decoded f) (hx : x.opens id = true)
    (hrest : ∀ y ∈ rest, SocketObs.ends id h y = false)
    (honce : OpensFirst opensStream (carried streamOf id (taken (pre ++ x :: rest ++ post)))) :
    carried streamOf id (taken (pre ++ x :: rest ++ post)) =
      (x :: rest).filterMap (SocketObs.envelopeFor id) ++ carried streamOf id (taken post) := by
  have hentries : (x :: rest).filterMap (SocketObs.envelopeFor id) =
      carried streamOf id (taken (x :: rest)) := by
    refine carried_entries (h := h)
      (fun f hf => hframes f (List.mem_append_left _ (List.mem_append_right _ hf))) fun y hy => ?_
    rcases List.mem_cons.mp hy with rfl | hy
    · exact ends_of_opens hx
    · exact hrest y hy
  have hfirst : ∃ e more, (x :: rest).filterMap (SocketObs.envelopeFor id) = e :: more ∧
      opensStream e = true := by
    cases x with
    | frame f =>
        obtain ⟨hid, hflag⟩ : f.streamId = id ∧ f.flag = flagEnvelopeHeaders := by
          simpa [SocketObs.opens] using hx
        obtain ⟨payload, henvelope⟩ := hframes f
          (List.mem_append_left _ (List.mem_append_right _ List.mem_cons_self))
        refine ⟨f.envelope, rest.filterMap (SocketObs.envelopeFor id), ?_, ?_⟩
        · exact List.filterMap_cons_some (by simp [SocketObs.envelopeFor, hid])
        · simp [opensStream, henvelope, encodeEnvelope, hflag]
    | wrote | completed | teardown => cases hx
  obtain ⟨e, more, hcons, he⟩ := hfirst
  rw [taken_append, taken_append, carried_append, carried_append, ← hentries] at honce ⊢
  rw [hcons, List.append_assoc, List.cons_append] at honce
  rw [honce.eq_nil he, List.nil_append]

-- ============================================================================
-- The sessions of a server
-- ============================================================================

theorem carries_eq_payload (id : UInt32) (m : Bytes) :
    carries streamOf id m = (payloadFor id m).filter isEnvelope := by
  match m with
  | [] | [_] | [_, _] | [_, _, _] => rfl
  | [i₀, i₁, i₂, i₃] =>
      show none = (if getUint32 i₀ i₁ i₂ i₃ = id then some [] else none).filter isEnvelope
      split <;> rfl
  | i₀ :: i₁ :: i₂ :: i₃ :: flag :: rest =>
      have hlabel : streamOf (i₀ :: i₁ :: i₂ :: i₃ :: flag :: rest) =
          if flag = flagEnvelopeReset then none
          else some (getUint32 i₀ i₁ i₂ i₃, flag :: rest) := rfl
      show _ = (if getUint32 i₀ i₁ i₂ i₃ = id then some (flag :: rest) else none).filter isEnvelope
      by_cases hreset : flag = flagEnvelopeReset
      · rw [if_pos hreset] at hlabel
        rw [carries_of_none hlabel]
        split
        · simp [Option.filter, isEnvelope, hreset]
        · rfl
      · rw [if_neg hreset] at hlabel
        by_cases hid : getUint32 i₀ i₁ i₂ i₃ = id
        · rw [hid] at hlabel
          rw [carries_of_label hlabel, if_pos hid]
          simp [Option.filter, isEnvelope, hreset]
        · rw [carries_of_ne hlabel hid, if_neg hid]
          rfl

theorem carried_eq_payloads (id : UInt32) (ms : List Bytes) :
    carried streamOf id ms = (ms.filterMap (payloadFor id)).filter isEnvelope := by
  rw [List.filter_filterMap]
  exact List.filterMap_congr fun m _ => carries_eq_payload id m

theorem Demultiplexes.carried_sent (hd : c.Demultiplexes setup log) {h : Nat} {r : Rpc}
    (hr : c.rpcs[h]? = some r) :
    carried streamOf r.streamId c.sent = (outputOf r.streamId h log).filter isEnvelope := by
  have hout := hd.output h r hr
  rw [carried_eq_payloads, outputOf]
  cases hwin : outputWindow r.streamId log with
  | before =>
      rw [hwin] at hout
      exact hout.elim
  | during entries | after entries =>
      rw [hwin] at hout
      exact congrArg (List.filter isEnvelope) hout.2

/-- What RPC `h` has been given of the messages taken. -/
theorem Answers.given (hc : c.Answers setup log heard)
    (honce : ∀ i, OpensFirst opensStream (carried streamOf i heard)) {h : Nat} {r : Rpc}
    (hr : c.rpcs[h]? = some r) :
    r.readable.received <+: carried streamOf r.streamId heard ∧
      (c.streams r.streamId = some h → r.phase = .serving →
        r.readable.received ++ r.readable.queue = carried streamOf r.streamId heard) := by
  have hids : c.ids.Nodup := by
    have hopened : ∀ i, OpensFirst opensStream (carried streamOf i (taken log)) := fun i =>
      (honce i).mono (carried_mono hc.logs.taken)
    exact (nodup_openers hopened).sublist hc.started
  have hin := (hc.demultiplexes hids).input h r hr
  have htaken : carried streamOf r.streamId (taken log) <+: carried streamOf r.streamId heard :=
    carried_mono hc.logs.taken
  have honce' := (honce r.streamId).mono htaken
  have hcut := Window.cut_window (SocketObs.opens r.streamId) (SocketObs.ends r.streamId h) log
  change c.InputOk setup h r (Window.window _ _ log) at hin
  generalize Window.window _ _ log = w at hin hcut
  cases hcut with
  | before => exact hin.elim
  | during pre x rest hlog hx hrest =>
      have hlog' : log = pre ++ x :: rest ++ [] := by rw [hlog, List.append_nil]
      rw [hlog'] at honce' htaken
      have hall := entries_carried (h := h) (hlog' ▸ hc.logs.decoded) hx hrest honce'
      have hentries : (x :: rest).filterMap (SocketObs.envelopeFor r.streamId) =
          carried streamOf r.streamId (taken log) := by
        rw [hlog', hall]
        exact (List.append_nil _).symm
      obtain ⟨-, hwhole, hpre⟩ := hin
      rw [hentries] at hwhole hpre
      refine ⟨hpre.trans (hlog' ▸ htaken), fun hreg hserving => ?_⟩
      have hopen : c.ended = none := by
        cases hended : c.ended with
        | none => rfl
        | some cause =>
            rw [hc.owned.ended (by rw [hended]; rfl)] at hreg
            cases hreg
      rw [hwhole (.inl hserving), hc.logs.reading hopen]
  | after pre x rest post hlog hx hrest =>
      rw [hlog] at honce' htaken
      have hall := entries_carried (h := h) (hlog ▸ hc.logs.decoded) hx hrest honce'
      obtain ⟨hgone, -, hpre⟩ := hin
      refine ⟨(hpre.trans ?_).trans htaken, fun hreg _ => absurd hreg hgone⟩
      rw [hall]
      exact List.prefix_append ..

theorem Answers.ids_sublist (hc : c.Answers setup log heard) :
    c.ids.Sublist (openers streamOf opensStream heard) := by
  obtain ⟨more, hmore⟩ := hc.logs.taken
  rw [← hmore, openers_append]
  exact hc.started.trans (List.sublist_append_left _ _)

theorem Answers.sent_named (hc : c.Answers setup log heard) {id : UInt32}
    (h : names streamOf id c.sent) : id ∈ c.ids := by
  obtain ⟨m, hm, e, hlabel⟩ := h
  obtain ⟨j, hj, chunk, rfl⟩ := hc.owner m hm
  rw [streamOf_encodeStreamFrame] at hlabel
  split at hlabel
  · obtain ⟨rfl, -⟩ := Prod.mk.inj (Option.some.inj hlabel)
    exact hj
  · cases hlabel

theorem Answers.answerer (hc : c.Answers setup log heard) :
    Answerer streamOf opensStream (c.sessions log) c.sent heard where
  asked := fun _ hname => names_of_mem_openers (hc.ids_sublist.subset (hc.sent_named hname))
  opened := fun s hs => by
    refine names_of_mem_openers (hc.ids_sublist.subset ?_)
    rw [← ids_sessions c log]
    exact List.mem_map_of_mem hs
  owner := fun i hname => by
    have hid := hc.sent_named hname
    rw [← ids_sessions c log] at hid
    exact List.mem_map.mp hid
  nodup := fun honce => by
    rw [ids_sessions]
    exact (nodup_openers honce).sublist hc.ids_sublist
  served := fun honce s hs => by
    obtain ⟨h, r, hr, rfl⟩ := mem_sessions.mp hs
    have hids : c.ids.Nodup := (nodup_openers honce).sublist hc.ids_sublist
    obtain ⟨hgot, hlive⟩ := hc.given honce hr
    exact ⟨(hc.demultiplexes hids).carried_sent hr, hgot, fun hboth => hlive hboth.1 hboth.2⟩

end MuxedSocket

theorem tsServer_upholds (setup : MuxedSetup) :
    (tsServer setup).Upholds fun p heard => p.1.Answers setup p.2 heard where
  init := MuxedSocket.answers_init
  quiet := fun p heard ev q hp htakes hstep => by
    obtain ⟨hnext, hlog⟩ := ((handleMuxedBidiSocket setup).logged_step).mp hstep
    have hafter := hp.step (MuxedSocket.stepped hnext)
    rw [show ev.takes = none from htakes, Option.toList_none, List.append_nil] at hafter
    exact hlog ▸ hafter
  hears := fun p heard ev q m hp htakes hstep => by
    obtain ⟨hnext, hlog⟩ := ((handleMuxedBidiSocket setup).logged_step).mp hstep
    have hafter := hp.step (MuxedSocket.stepped hnext)
    rw [show ev.takes = some m from htakes] at hafter
    exact hlog ▸ hafter
  grows := fun p ev q hstep => by
    obtain ⟨hnext, -⟩ := ((handleMuxedBidiSocket setup).logged_step).mp hstep
    rcases MuxedSocket.sent_step (MuxedSocket.stepped hnext) with hsame | ⟨-, r, chunk, -, hmore⟩
    · show p.1.sent <+: q.1.sent
      rw [hsame]
    · show p.1.sent <+: q.1.sent
      rw [hmore]
      exact List.prefix_append ..

end Core
end BidiWeb
