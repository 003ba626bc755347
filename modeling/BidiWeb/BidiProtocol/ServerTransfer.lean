/-
  BidiWeb.BidiProtocol.ServerTransfer

  The messages of an RPC on the server.  Whatever the handler does, it has
  received what the messages read decode to, and what it has sent is written
  behind headers that name the compressor of the response.
-/

import BidiWeb.BidiProtocol.RpcStatus
import BidiWeb.BidiProtocol.Transfer

namespace BidiWeb
namespace BidiProtocol

open BidiWeb.ConnectProtocol
open BidiWeb.Lib

variable {κ μ : Type}

-- ============================================================================
-- The log of a handler
-- ============================================================================

namespace ServerStream

variable (srv : ServerConfig κ μ) (codec : Codec μ)

/-- What the calls of a handler have transferred. -/
def transfers (ss : ServerStream κ) : Handler μ → List (Transfer μ)
  | .ret _ => []
  | .setResponseHeader key values next =>
      let responseHeader := setAllValues ss.callInfo.responseHeader [(key, values)]
      transfers { ss with callInfo := { ss.callInfo with responseHeader } } next
  | .setResponseTrailer key values next =>
      let responseTrailer := setAllValues ss.callInfo.responseTrailer [(key, values)]
      transfers { ss with callInfo := { ss.callInfo with responseTrailer } } next
  | .sendHeaders next =>
      let (err, ss) := ss.sendHeaders srv codec
      transfers ss (next err)
  | .send msg next =>
      let (err, ss) := ss.send srv codec msg
      Transfer.ofSend msg err ++ transfers ss (next err)
  | .receive next =>
      let (result, ss) := ss.receive srv codec
      result.toOption.toList.map .received ++ transfers ss (next result)

/-- The compressor that a request with these headers negotiates. -/
def negotiatedFor (requestHeader : Header) : Option (GoString × Compressor) :=
  negotiateCompression (requestHeader.get acceptEncoding) srv.opts.compressors

/-- The compressor is announced by the headers of the response. -/
def Announced (requestHeader : Header) (env : Envelope) : Prop :=
  ∃ headers, Opens env headers ∧
    ∀ p ∈ negotiatedFor srv requestHeader, headers.get contentEncoding = p.1

/-- What a handler has transferred so far, in a request that `opening` opens. -/
structure Exchanged (opening : Envelope) (requestHeader : Header) (ss : ServerStream κ)
    (log : List (Transfer μ)) : Prop where
  reads : ∃ tail, ss.session.reads = (.headers, .ok opening) :: tail ∧
    ∀ r ∈ tail, r.1 = Awaits.message
  request : ss.callInfo.requestHeader = requestHeader
  canonical : CanonicalKeys ss.callInfo.responseHeader
  received : receivedMessages log =
    ss.session.messages.filterMap
      (decode codec srv.opts.compressors (requestHeader.get contentEncoding))
  sent : (ss.sendHeadersOnce ≠ some none ∧ ss.session.written = [] ∧ sentMessages log = []) ∨
    (ss.sendHeadersOnce = some none ∧
      ss.responseCompressor = (negotiatedFor srv requestHeader).map (·.2) ∧
      ∃ env envs, ss.session.written = env :: envs ∧ Announced srv requestHeader env ∧
        List.Forall₂ (Encodes codec ss.responseCompressor srv.opts.sendMaxBytes)
          (sentMessages log) envs)

variable {srv codec} {opening : Envelope} {requestHeader : Header} {ss : ServerStream κ}
    {log : List (Transfer μ)}

/-- The headers of the response name the compressor last. -/
theorem responseHeader_announced (srv : ServerConfig κ μ) (codec : Codec μ)
    (hrequest : ss.callInfo.requestHeader = requestHeader)
    (hcanonical : CanonicalKeys ss.callInfo.responseHeader) :
    WireKeys (ss.responseHeader srv codec) ∧
      ∀ p ∈ negotiatedFor srv requestHeader,
        (ss.responseHeader srv codec).get contentEncoding = p.1 := by
  have hnegotiated : ss.negotiated srv = negotiatedFor srv requestHeader := by
    rw [← hrequest]
    rfl
  have hbase : WireKeys (Header.set (Header.insertAll ∅ ss.callInfo.responseHeader)
      "Content-Type".toList ("application/connect+".toList ++ codec.name)) :=
    (wireKeys_insertAll hcanonical).set _ _
  unfold ServerStream.responseHeader
  rw [hnegotiated]
  cases negotiatedFor srv requestHeader with
  | none =>
      simp only
      refine ⟨?_, fun p hp => by cases hp⟩
      split
      · exact hbase.set _ _
      · exact hbase
  | some p =>
      obtain ⟨encoding, c⟩ := p
      simp only
      refine ⟨?_, ?_⟩
      · split
        · exact (hbase.set _ _).set _ _
        · exact hbase.set _ _
      · rintro p ⟨⟩
        split
        · rw [get_set_of_ne _ _ (by decide)]
          exact get_set_self _ _ _
        · exact get_set_self _ _ _

/-- The headers are written at most once, before any message. -/
theorem Exchanged.sendHeaders (h : Exchanged srv codec opening requestHeader ss log) :
    Exchanged srv codec opening requestHeader (ss.sendHeaders srv codec).2 log ∧
      ((ss.sendHeaders srv codec).1 = none →
        (ss.sendHeaders srv codec).2.sendHeadersOnce = some none) := by
  cases hsent : ss.sendHeadersOnce with
  | some err =>
      rw [ServerStream.sendHeaders_of_sent hsent]
      refine ⟨h, fun herr => ?_⟩
      rw [hsent]
      exact congrArg some herr
  | none =>
      obtain ⟨data, hdata⟩ : ∃ data, marshalHeaders (ss.responseHeader srv codec) = .ok data :=
        ⟨_, rfl⟩
      obtain ⟨hkeys, hannounced⟩ :=
        responseHeader_announced srv codec h.request h.canonical
      obtain ⟨hempty, hnothing⟩ : ss.session.written = [] ∧ sentMessages log = [] := by
        rcases h.sent with ⟨-, hempty, hnothing⟩ | ⟨hdone, -⟩
        · exact ⟨hempty, hnothing⟩
        · rw [hsent] at hdone
          cases hdone
      have hnegotiated : ss.negotiated srv = negotiatedFor srv requestHeader := by
        rw [← h.request]
        rfl
      rcases hwrite : ss.session.writeEnvelope srv.conn ⟨flagEnvelopeHeaders, data⟩ with
        ⟨err, session⟩
      rw [ServerStream.sendHeaders_of_unsent hsent hdata hwrite]
      have hmessages := Session.messages_of_writeEnvelope hwrite
      have hwritten := Session.written_of_writeEnvelope hwrite
      rw [hempty] at hwritten
      have hreads := Session.reads_of_writeEnvelope hwrite
      refine ⟨⟨by simpa only [hreads] using h.reads, h.request, h.canonical, ?_, ?_⟩, congrArg some⟩
      · simp only [hmessages]
        exact h.received
      · cases err with
        | some err => exact Or.inl ⟨by simp, hwritten, hnothing⟩
        | none =>
            refine Or.inr ⟨rfl, congrArg (Option.map (·.2)) hnegotiated, _, [], hwritten, ?_, ?_⟩
            · exact ⟨_, ⟨rfl, hkeys, hdata⟩, hannounced⟩
            · rw [hnothing]
              exact .nil

theorem encode_eq_ok {ss : ServerStream κ} {msg : μ} {env : Envelope}
    (h : ss.encode srv codec msg = .ok env) :
    Encodes codec ss.responseCompressor srv.opts.sendMaxBytes msg env := by
  unfold ServerStream.encode at h
  split at h
  · cases h
  · rename_i payload hmarshal
    exact ⟨payload, hmarshal, h⟩

theorem Exchanged.send (h : Exchanged srv codec opening requestHeader ss log) (msg : μ) :
    Exchanged srv codec opening requestHeader (ss.send srv codec msg).2
      (log ++ Transfer.ofSend msg (ss.send srv codec msg).1) := by
  obtain ⟨hheaders, hdone⟩ := h.sendHeaders
  unfold ServerStream.send
  rcases hsend : ss.sendHeaders srv codec with ⟨err, ss₁⟩
  rw [hsend] at hheaders hdone
  cases err with
  | some err =>
      rw [Transfer.ofSend, List.append_nil]
      exact hheaders
  | none =>
      simp only
      cases henv : ss₁.encode srv codec msg with
      | error err =>
          simp only
          rw [Transfer.ofSend, List.append_nil]
          exact hheaders
      | ok env =>
          simp only
          obtain ⟨hreads, hrequest, hcanonical, hreceived, hsent⟩ := hheaders
          rcases hwrite : ss₁.session.writeEnvelope srv.conn env with ⟨err, session⟩
          rw [← Session.reads_of_writeEnvelope hwrite] at hreads
          have hmessages := Session.messages_of_writeEnvelope hwrite
          have hwritten := Session.written_of_writeEnvelope hwrite
          cases err with
          | some err =>
              simp only at hwritten ⊢
              rw [Transfer.ofSend, List.append_nil]
              refine ⟨hreads, hrequest, hcanonical, ?_, ?_⟩
              · rw [hmessages]
                exact hreceived
              · rw [hwritten]
                exact hsent
          | none =>
              simp only at hwritten ⊢
              refine ⟨hreads, hrequest, hcanonical, ?_, ?_⟩
              · rw [hmessages, receivedMessages_append, hreceived]
                exact List.append_nil _
              · rcases hsent with ⟨hnot, -⟩ | ⟨hsome, hcompressor, first, envs, hold, hfirst, hall⟩
                · exact absurd (hdone rfl) hnot
                · refine Or.inr ⟨hsome, hcompressor, first, envs ++ [env], ?_, hfirst, ?_⟩
                  · rw [hwritten, hold]
                    rfl
                  · rw [sentMessages_append]
                    exact List.rel_append hall (.cons (encode_eq_ok henv) .nil)

/-- What `Receive` returns is what the envelope it has read decodes to. -/
theorem receive_spec (codec : Codec μ) (hlimit : srv.opts.readMaxBytes ≤ 0) (ss : ServerStream κ) :
    (ss.receive srv codec).2 =
        { ss with session := (ss.session.readEnvelope srv.conn .message).2 } ∧
      (ss.receive srv codec).1.toOption =
        (messageOf (.message, (ss.session.readEnvelope srv.conn .message).1)).bind
          (decode codec srv.opts.compressors (ss.callInfo.requestHeader.get contentEncoding)) := by
  unfold ServerStream.receive
  rcases ss.session.readEnvelope srv.conn .message with ⟨r, session⟩
  refine ⟨rfl, ?_⟩
  cases r with
  | error err => rfl
  | ok env =>
      simp only [messageOf]
      cases hmessage : env.isMessage with
      | true =>
          obtain ⟨hheaders, hend, hknown⟩ := flags_of_isMessage hmessage
          rw [if_neg hheaders, if_neg hend, if_neg hknown, exceeds_eq_false hlimit,
            if_neg (by simp), if_pos rfl, Option.bind_some, decode]
          unfold contentEncoding
          split
          · rename_i hdecode
            simp only [hdecode]
            rfl
          · rename_i payload hdecode
            simp only [hdecode]
            cases codec.unmarshalRead payload with
            | error err => rfl
            | ok msg => rfl
      | false =>
          have hunknown := flags_of_not_isMessage hmessage
          rw [if_pos hunknown]
          split
          · rfl
          · split
            · rfl
            · rfl

theorem Exchanged.receive (hlimit : srv.opts.readMaxBytes ≤ 0)
    (h : Exchanged srv codec opening requestHeader ss log) :
    Exchanged srv codec opening requestHeader (ss.receive srv codec).2
      (log ++ (ss.receive srv codec).1.toOption.toList.map .received) := by
  obtain ⟨hstream, hresult⟩ := receive_spec codec hlimit ss
  have hmessages := Session.messages_readEnvelope srv.conn ss.session .message
  rw [hstream, hresult]
  refine ⟨?_, h.request, h.canonical, ?_, ?_⟩
  · obtain ⟨tail, hreads, htail⟩ := h.reads
    refine ⟨tail ++ [(.message, (srv.conn.readEnvelope ss.session.conn).1)], ?_, ?_⟩
    · show ss.session.reads ++ _ = _
      rw [hreads]
      rfl
    · intro r hr
      rcases List.mem_append.mp hr with hold | hnew
      · exact htail r hold
      · rw [List.mem_singleton.mp hnew]
  · rw [receivedMessages_append, h.received, hmessages, List.filterMap_append, h.request,
      receivedMessages_received]
    apply congrArg
    exact (filterMap_toList _ _).symm
  · rw [sentMessages_append, sentMessages_received, List.append_nil]
    exact h.sent

theorem Exchanged.run (hlimit : srv.opts.readMaxBytes ≤ 0) (handler : Handler μ)
    (h : Exchanged srv codec opening requestHeader ss log) :
    Exchanged srv codec opening requestHeader (ServerStream.run srv codec ss handler).2
      (log ++ ss.transfers srv codec handler) := by
  induction handler generalizing ss log with
  | ret err =>
      rw [ServerStream.transfers, List.append_nil]
      exact h
  | setResponseHeader key values next ih =>
      exact ih ⟨h.reads, h.request, h.canonical.setAllValues [(key, values)], h.received, h.sent⟩
  | setResponseTrailer key values next ih =>
      exact ih ⟨h.reads, h.request, h.canonical, h.received, h.sent⟩
  | sendHeaders next ih => exact ih _ h.sendHeaders.1
  | send msg next ih =>
      have hnext := ih (ss.send srv codec msg).1 (h.send msg)
      rw [List.append_assoc] at hnext
      exact hnext
  | receive next ih =>
      have hnext := ih (ss.receive srv codec).1 (h.receive hlimit)
      rw [List.append_assoc] at hnext
      exact hnext

end ServerStream

-- ============================================================================
-- The log of an RPC
-- ============================================================================

variable (srv : ServerConfig κ μ)

/-- The headers, the codec and the session with which `HandleRPC` calls the
    handler, if it does. -/
def dispatched (session : Session κ) : Option (Header × Codec μ × Session κ) :=
  match session.readEnvelope srv.conn .headers with
  | (.error _, _) => none
  | (.ok env, session) =>
      if env.flag ≠ flagEnvelopeHeaders then none
      else
        match unmarshalHeaders srv.rangeHeaders env.payload with
        | none => none
        | some headers =>
            if procedureOf headers = [] then none
            else
              (negotiateCodec srv (headers.get "Content-Type".toList)).map fun codec =>
                (headers, codec, session)

/-- What the handler of a call transfers. -/
def callTransfers (headers : Header) (codec : Codec μ) (session : Session κ) : List (Transfer μ) :=
  ServerStream.transfers srv codec { session, callInfo := requestInfo srv headers }
    (srv.call
      { procedure := procedureOf headers
        callInfo := requestInfo srv headers
        codec
        timeout := requestTimeout headers })

/-- What the handler of an RPC transfers. -/
def rpcTransfers (session : Session κ) : List (Transfer μ) :=
  (dispatched srv session).elim [] fun (headers, codec, session) =>
    callTransfers srv headers codec session

/-- The error that the handler of an RPC returns. -/
def rpcError (session : Session κ) : Option GoError :=
  (dispatched srv session).bind fun (headers, codec, session) =>
    (handled srv headers codec session).1

variable {srv} {session after : Session κ} {headers : Header} {codec : Codec μ}

theorem handleRPC_cases (h : handleRPC srv session = some after) :
    (∃ headers codec session', dispatched srv session = some (headers, codec, session') ∧
        after = serveCall srv headers codec session') ∨
      dispatched srv session = none ∧ after = (session.readEnvelope srv.conn .headers).2 := by
  unfold handleRPC at h
  unfold dispatched
  rcases hread : session.readEnvelope srv.conn .headers with ⟨r, session'⟩
  rw [hread] at h
  cases r with
  | error err => exact Or.inr ⟨rfl, (Option.some.inj h).symm⟩
  | ok env =>
      simp only at h ⊢
      split at h
      · rename_i hflag
        rw [if_pos hflag]
        exact Or.inr ⟨rfl, (Option.some.inj h).symm⟩
      · rename_i hflag
        rw [if_neg hflag]
        cases hheaders : unmarshalHeaders srv.rangeHeaders env.payload with
        | none =>
            rw [hheaders] at h
            exact Or.inr ⟨rfl, (Option.some.inj h).symm⟩
        | some headers =>
            rw [hheaders] at h
            simp only at h ⊢
            split at h
            · rename_i hprocedure
              rw [if_pos hprocedure]
              exact Or.inr ⟨rfl, (Option.some.inj h).symm⟩
            · rename_i hprocedure
              rw [if_neg hprocedure]
              obtain ⟨codec, hcodec, hserve⟩ := Option.map_eq_some_iff.mp h
              refine Or.inl ⟨headers, codec, session', ?_, hserve.symm⟩
              rw [hcodec]
              rfl

theorem dispatched_eq_some {session' : Session κ}
    (h : dispatched srv session = some (headers, codec, session')) :
    ∃ opening, session.readEnvelope srv.conn .headers = (.ok opening, session') ∧
      opening.flag = flagEnvelopeHeaders ∧
      unmarshalHeaders srv.rangeHeaders opening.payload = some headers ∧
      negotiateCodec srv (headers.get "Content-Type".toList) = some codec := by
  unfold dispatched at h
  rcases hread : session.readEnvelope srv.conn .headers with ⟨r, session₁⟩
  rw [hread] at h
  cases r with
  | error err => cases h
  | ok env =>
      simp only at h
      split at h
      · cases h
      · rename_i hflag
        split at h
        · cases h
        · rename_i headers' hheaders
          split at h
          · cases h
          · obtain ⟨codec', hcodec, heq⟩ := Option.map_eq_some_iff.mp h
            cases heq
            exact ⟨env, rfl, not_not.mp hflag, hheaders, hcodec⟩

/-- What a call has read and written, against the log of its handler. -/
structure Served (srv : ServerConfig κ μ) (headers : Header) (codec : Codec μ)
    (opening ending : Envelope) (after : Session κ) (log : List (Transfer μ)) : Prop where
  reads : ∃ tail, after.reads = (.headers, .ok opening) :: tail ∧
    ∀ r ∈ tail, r.1 = Awaits.message
  received : receivedMessages log =
    after.messages.filterMap
      (decode codec srv.opts.compressors
        ((requestInfo srv headers).requestHeader.get contentEncoding))
  written : ∃ ends, (ends = [] ∨ ends = [ending]) ∧
    (after.written = ends ∧ sentMessages log = [] ∨
      ∃ env envs, after.written = env :: (envs ++ ends) ∧
        ServerStream.Announced srv (requestInfo srv headers).requestHeader env ∧
        List.Forall₂
          (Encodes codec
            ((ServerStream.negotiatedFor srv (requestInfo srv headers).requestHeader).map (·.2))
            srv.opts.sendMaxBytes)
          (sentMessages log) envs)

theorem served (hlimit : srv.opts.readMaxBytes ≤ 0) {opening : Envelope}
    (hreads : session.reads = [(.headers, .ok opening)]) (hwrites : session.writes = []) :
    Served srv headers codec opening
      ⟨flagEnvelopeEndStream, endPayload srv headers codec session⟩
      (serveCall srv headers codec session) (callTransfers srv headers codec session) := by
  have hmessages : session.messages = [] := by
    rw [Session.messages, hreads]
    rfl
  have hwritten : session.written = [] := by
    rw [Session.written, hwrites]
    rfl
  have hstart : ServerStream.Exchanged srv codec opening (requestInfo srv headers).requestHeader
      { session, callInfo := requestInfo srv headers } [] := by
    refine ⟨⟨[], hreads, by simp⟩, rfl, canonicalKeys_empty, ?_, Or.inl ⟨by simp, hwritten, rfl⟩⟩
    rw [hmessages]
    rfl
  have hhandled := hstart.run hlimit
    (srv.call
      { procedure := procedureOf headers
        callInfo := requestInfo srv headers
        codec
        timeout := requestTimeout headers })
  obtain ⟨hafter, -⟩ := hhandled.sendHeaders
  rw [List.nil_append] at hafter
  rw [serveCall_eq]
  -- the end-stream is all that is still missing
  rcases hwrite :
    ((handled srv headers codec session).2.sendHeaders srv codec).2.session.writeEnvelope
      srv.conn ⟨flagEnvelopeEndStream, endPayload srv headers codec session⟩ with ⟨err, after⟩
  have hreads' := Session.reads_of_writeEnvelope hwrite
  have hmessages' := Session.messages_of_writeEnvelope hwrite
  have hwritten' := Session.written_of_writeEnvelope hwrite
  obtain ⟨ends, hends, happend⟩ : ∃ ends : List Envelope,
      (ends = [] ∨ ends = [⟨flagEnvelopeEndStream, endPayload srv headers codec session⟩]) ∧
        after.written =
          ((handled srv headers codec session).2.sendHeaders srv codec).2.session.written ++
            ends := by
    cases err with
    | some err => exact ⟨[], Or.inl rfl, hwritten'.trans (List.append_nil _).symm⟩
    | none => exact ⟨_, Or.inr rfl, hwritten'⟩
  refine ⟨?_, ?_, ends, hends, ?_⟩
  · rw [hreads']
    exact hafter.reads
  · rw [hmessages']
    exact hafter.received
  · rw [happend]
    rcases hafter.sent with
      ⟨-, hempty, hnothing⟩ | ⟨-, hcompressor, env, envs, hfirst, hopens, hall⟩
    · refine Or.inl ⟨?_, hnothing⟩
      show ((handled srv headers codec session).2.sendHeaders srv codec).2.session.written ++
        ends = ends
      exact (congrArg (· ++ ends) hempty).trans (List.nil_append _)
    · rw [hcompressor] at hall
      exact Or.inr ⟨env, envs, congrArg (· ++ ends) hfirst, hopens, hall⟩

end BidiProtocol
end BidiWeb
