/-
  BidiWeb.BidiProtocol.ResponseOrder

  The order of a response on a `Conn` that may start to fail at any write.
  `SendHeaders` is attempted once; where its write fails there is nothing
  after it, and where it succeeds the stream is in the body of its response
  until the end-stream.
-/

import BidiWeb.BidiProtocol.AnsweredRpc
import BidiWeb.BidiProtocol.ServerTransfer

namespace BidiWeb
namespace BidiProtocol

open BidiWeb.ConnectProtocol
open BidiWeb.Lib

variable {κ μ : Type}

namespace Session

/-- Once a write has failed all later ones fail. -/
def FailsForGood (s : Session κ) : Prop :=
  s.writes.Pairwise fun w w' => w.2.isSome = true → w'.2.isSome = true

/-- Some write has failed. -/
def Failed (s : Session κ) : Prop := ∃ w ∈ s.writes, w.2.isSome = true

theorem writes_of_writeEnvelope {c : Conn κ} {s s' : Session κ} {env : Envelope}
    {err : Option GoError} (h : s.writeEnvelope c env = (err, s')) :
    s'.writes = s.writes ++ [(env, err)] := by
  obtain ⟨herr, hs'⟩ := Prod.mk.inj h
  rw [← hs', ← herr]

/-- After a failure the next write fails as well. -/
theorem FailsForGood.next {c : Conn κ} {s s' : Session κ} {env : Envelope} {err : Option GoError}
    (hgood : s'.FailsForGood) (hfailed : s.Failed) (h : s.writeEnvelope c env = (err, s')) :
    err.isSome = true := by
  obtain ⟨w, hw, hsome⟩ := hfailed
  rw [FailsForGood, writes_of_writeEnvelope h, List.pairwise_append] at hgood
  obtain ⟨-, -, hafter⟩ := hgood
  exact hafter w hw _ (List.mem_singleton_self _) hsome

end Session

namespace ServerStream

variable (srv : ServerConfig κ μ)

/-- The flag of the messages of a response. -/
def messageFlag (requestHeader : Header) : UInt8 :=
  match negotiatedFor srv requestHeader with
  | none => flagEnvelopeData
  | some _ => flagEnvelopeCompressed

/-- What has been written of the response to a request: nothing, nothing but
    headers that failed, or headers and messages. -/
structure Responding (requestHeader : Header) (ss : ServerStream κ) : Prop where
  request : ss.callInfo.requestHeader = requestHeader
  canonical : CanonicalKeys ss.callInfo.responseHeader
  sent : (ss.sendHeadersOnce = none ∧ ss.session.writes = []) ∨
    ((∃ err, ss.sendHeadersOnce = some (some err)) ∧ ss.session.written = [] ∧
      ss.session.Failed) ∨
    (ss.sendHeadersOnce = some none ∧
      ss.responseCompressor = (negotiatedFor srv requestHeader).map (·.2) ∧
      ∃ first messages, ss.session.written = first :: messages ∧
        Announced srv requestHeader first ∧
        ∀ m ∈ messages, m.flag = messageFlag srv requestHeader)

variable {srv} {codec : Codec μ} {requestHeader : Header} {ss : ServerStream κ}

theorem encode_flag {msg : μ} {env : Envelope} (h : ss.encode srv codec msg = .ok env)
    (hcompressor : ss.responseCompressor = (negotiatedFor srv requestHeader).map (·.2)) :
    env.flag = messageFlag srv requestHeader := by
  obtain ⟨payload, -, hencode⟩ := encode_eq_ok h
  rw [hcompressor] at hencode
  unfold messageFlag
  cases hnegotiated : negotiatedFor srv requestHeader with
  | none =>
      rw [hnegotiated] at hencode
      rw [← limitSize_eq_ok hencode]
  | some p =>
      rw [hnegotiated] at hencode
      simp only [Option.map_some, encodePayload] at hencode
      split at hencode
      · cases hencode
      · rw [← limitSize_eq_ok hencode]

theorem Responding.sendHeaders (codec : Codec μ) (h : Responding srv requestHeader ss) :
    Responding srv requestHeader (ss.sendHeaders srv codec).2 ∧
      (ss.sendHeaders srv codec).2.sendHeadersOnce = some (ss.sendHeaders srv codec).1 := by
  cases hsent : ss.sendHeadersOnce with
  | some err =>
      rw [ServerStream.sendHeaders_of_sent hsent]
      exact ⟨h, hsent⟩
  | none =>
      obtain ⟨data, hdata⟩ : ∃ data, marshalHeaders (ss.responseHeader srv codec) = .ok data :=
        ⟨_, rfl⟩
      obtain ⟨hkeys, hannounced⟩ := responseHeader_announced srv codec h.request h.canonical
      have hnone : ss.session.writes = [] := by
        rcases h.sent with ⟨-, hwrites⟩ | ⟨⟨err, herr⟩, -⟩ | ⟨hdone, -⟩
        · exact hwrites
        · rw [hsent] at herr
          cases herr
        · rw [hsent] at hdone
          cases hdone
      have hempty : ss.session.written = [] := by
        rw [Session.written, hnone]
        rfl
      have hnegotiated : ss.negotiated srv = negotiatedFor srv requestHeader := by
        rw [← h.request]
        rfl
      rcases hwrite : ss.session.writeEnvelope srv.conn ⟨flagEnvelopeHeaders, data⟩ with
        ⟨err, session⟩
      rw [ServerStream.sendHeaders_of_unsent hsent hdata hwrite]
      have hwrites := Session.writes_of_writeEnvelope hwrite
      have hwritten := Session.written_of_writeEnvelope hwrite
      refine ⟨⟨h.request, h.canonical, ?_⟩, rfl⟩
      cases err with
      | some err =>
          refine Or.inr (Or.inl ⟨⟨err, rfl⟩, hwritten.trans hempty, ?_⟩)
          refine ⟨(⟨flagEnvelopeHeaders, data⟩, some err), ?_, rfl⟩
          show _ ∈ session.writes
          rw [hwrites]
          exact List.mem_append_right _ (List.mem_singleton_self _)
      | none =>
          rw [hempty] at hwritten
          refine Or.inr (Or.inr ⟨rfl, congrArg (Option.map (·.2)) hnegotiated, _, [], hwritten,
            ?_, ?_⟩)
          · exact ⟨_, ⟨rfl, hkeys, hdata⟩, hannounced⟩
          · intro m hm
            cases hm

theorem Responding.send (h : Responding srv requestHeader ss) (msg : μ) :
    Responding srv requestHeader (ss.send srv codec msg).2 := by
  obtain ⟨hheaders, hdone⟩ := h.sendHeaders codec
  unfold ServerStream.send
  rcases hsend : ss.sendHeaders srv codec with ⟨err, ss₁⟩
  rw [hsend] at hheaders hdone
  cases err with
  | some err => exact hheaders
  | none =>
      simp only
      cases henv : ss₁.encode srv codec msg with
      | error err => exact hheaders
      | ok env =>
          simp only
          obtain ⟨hrequest, hcanonical, hsent⟩ := hheaders
          rcases hwrite : ss₁.session.writeEnvelope srv.conn env with ⟨err, session⟩
          have hwritten := Session.written_of_writeEnvelope hwrite
          refine ⟨hrequest, hcanonical, Or.inr (Or.inr ?_)⟩
          rcases hsent with ⟨hnot, -⟩ | ⟨⟨err', hnot⟩, -⟩ | ⟨hsome, hcompressor, first, messages,
            hold, hfirst, hflags⟩
          · rw [hdone] at hnot
            cases hnot
          · rw [hdone] at hnot
            cases hnot
          · have hflag := encode_flag henv hcompressor
            cases err with
            | some err =>
                exact ⟨hsome, hcompressor, first, messages, hwritten.trans hold, hfirst, hflags⟩
            | none =>
                refine ⟨hsome, hcompressor, first, messages ++ [env], ?_, hfirst, ?_⟩
                · refine hwritten.trans ?_
                  rw [hold]
                  rfl
                · intro m hm
                  rcases List.mem_append.mp hm with hm | hm
                  · exact hflags m hm
                  · rw [List.mem_singleton.mp hm]
                    exact hflag

/-- Whatever the handler does. -/
theorem Responding.run (codec : Codec μ) (handler : Handler μ)
    (h : Responding srv requestHeader ss) :
    Responding srv requestHeader (ServerStream.run srv codec ss handler).2 := by
  induction handler generalizing ss with
  | ret err => exact h
  | setResponseHeader key values next ih =>
      exact ih ⟨h.request, h.canonical.setAllValues [(key, values)], h.sent⟩
  | setResponseTrailer key values next ih => exact ih ⟨h.request, h.canonical, h.sent⟩
  | sendHeaders next ih => exact ih _ (h.sendHeaders codec).1
  | send msg next ih => exact ih _ (h.send msg)
  | receive next ih => exact ih _ ⟨h.request, h.canonical, h.sent⟩

end ServerStream

-- ============================================================================
-- HandleRPC
-- ============================================================================

open ServerStream (Announced negotiatedFor messageFlag Responding)

variable {srv : ServerConfig κ μ}

/-- The response to a request with these headers, as far as it is written:
    headers that announce the compressor, messages, and the end-stream. -/
structure Response (srv : ServerConfig κ μ) (requestHeader : Header) (es : List Envelope) :
    Prop where
  order : InOrder es
  flags : ∀ m ∈ es, m.isMessage = true →
    (m.flag = flagEnvelopeCompressed ↔ (negotiatedFor srv requestHeader).isSome = true)
  names : ∀ m ∈ es, m.flag = flagEnvelopeHeaders → Announced srv requestHeader m

theorem messageFlag_isMessage (srv : ServerConfig κ μ) (requestHeader : Header) {m : Envelope}
    (h : m.flag = messageFlag srv requestHeader) :
    m.isMessage = true ∧
      (m.flag = flagEnvelopeCompressed ↔ (negotiatedFor srv requestHeader).isSome = true) ∧
      m.flag ≠ flagEnvelopeHeaders := by
  unfold messageFlag at h
  cases hnegotiated : negotiatedFor srv requestHeader with
  | none =>
      rw [hnegotiated] at h
      simp [Envelope.isMessage, h, flagEnvelopeData, flagEnvelopeCompressed, flagEnvelopeHeaders]
  | some p =>
      rw [hnegotiated] at h
      simp [Envelope.isMessage, h, flagEnvelopeData, flagEnvelopeCompressed, flagEnvelopeHeaders]

theorem Response.nil (srv : ServerConfig κ μ) (requestHeader : Header) :
    Response srv requestHeader [] where
  order := rfl
  flags := by
    intro m hm
    cases hm
  names := by
    intro m hm
    cases hm

/-- Headers, messages and at most one end-stream. -/
theorem Response.of_parts {requestHeader : Header} {first : Envelope}
    {messages ends : List Envelope} (hfirst : Announced srv requestHeader first)
    (hflags : ∀ m ∈ messages, m.flag = messageFlag srv requestHeader)
    (hends : ∀ e ∈ ends, e.flag = flagEnvelopeEndStream) (hone : ends.length ≤ 1) :
    Response srv requestHeader (first :: (messages ++ ends)) := by
  obtain ⟨headers, hopens, -⟩ := id hfirst
  have hmessages : ∀ m ∈ messages, m.isMessage := fun m hm =>
    (messageFlag_isMessage srv requestHeader (hflags m hm)).1
  have hnot : ∀ e ∈ ends, e.isMessage = false := fun e he => not_isMessage_endStream (hends e he)
  have hbody : ∃ p, envelopeOrder.exec .body (messages ++ ends) = some p := by
    match ends, hends, hone with
    | [], _, _ =>
        rw [List.append_nil]
        exact ⟨.body, exec_body_messages hmessages⟩
    | [e], hends, _ =>
        exact ⟨.ended, exec_body_iff.mpr
          (Or.inr ⟨rfl, messages, e, rfl, hmessages, hends e (List.mem_singleton_self _)⟩)⟩
  obtain ⟨p, hp⟩ := hbody
  have hcases : ∀ m ∈ first :: (messages ++ ends),
      m = first ∨ m.flag = messageFlag srv requestHeader ∨ m ∈ ends := by
    intro m hm
    rcases List.mem_cons.mp hm with rfl | hm
    · exact Or.inl rfl
    · rcases List.mem_append.mp hm with hm | hm
      · exact Or.inr (Or.inl (hflags m hm))
      · exact Or.inr (Or.inr hm)
  refine ⟨?_, ?_, ?_⟩
  · rw [InOrder, run_cons_iff.mpr ⟨hopens.flag, hp⟩]
    rfl
  · intro m hm hmessage
    rcases hcases m hm with rfl | hflag | hend
    · simp [Envelope.isMessage, hopens.flag, flagEnvelopeData, flagEnvelopeCompressed,
        flagEnvelopeHeaders] at hmessage
    · exact (messageFlag_isMessage srv requestHeader hflag).2.1
    · rw [hnot m hend] at hmessage
      cases hmessage
  · intro m hm hheaders
    rcases hcases m hm with rfl | hflag | hend
    · exact hfirst
    · exact absurd hheaders (messageFlag_isMessage srv requestHeader hflag).2.2
    · rw [hends m hend] at hheaders
      cases hheaders

/-- From the dispatch on, up to the end-stream. -/
theorem serveCall_response {headers : Header} {codec : Codec μ} {session : Session κ}
    (hnew : session.writes = [])
    (hgood : (serveCall srv headers codec session).FailsForGood) :
    Response srv (requestInfo srv headers).requestHeader
      (serveCall srv headers codec session).written := by
  have hstart : Responding srv (requestInfo srv headers).requestHeader
      { session, callInfo := requestInfo srv headers } :=
    ⟨rfl, canonicalKeys_empty, Or.inl ⟨rfl, hnew⟩⟩
  have hhandled := hstart.run codec
    (srv.call
      { procedure := procedureOf headers
        callInfo := requestInfo srv headers
        codec
        timeout := requestTimeout headers })
  obtain ⟨hheaders, hdone⟩ := hhandled.sendHeaders codec
  rw [serveCall_eq] at hgood ⊢
  rcases hwrite :
    ((handled srv headers codec session).2.sendHeaders srv codec).2.session.writeEnvelope
      srv.conn ⟨flagEnvelopeEndStream, endPayload srv headers codec session⟩ with ⟨err, after⟩
  rw [hwrite] at hgood
  have hwritten := Session.written_of_writeEnvelope hwrite
  rcases hheaders.sent with ⟨hnot, -⟩ | ⟨-, hempty, hfailed⟩ | ⟨-, -, first, messages, hsent,
    hfirst, hflags⟩
  · cases hdone.symm.trans hnot
  · -- the headers failed, so the end-stream fails too
    have herr := hgood.next hfailed hwrite
    cases err with
    | none => cases herr
    | some err =>
        rw [show after.written = [] from hwritten.trans hempty]
        exact .nil srv _
  · cases err with
    | some err =>
        have hall : after.written = first :: (messages ++ []) := by
          rw [List.append_nil]
          exact hwritten.trans hsent
        rw [hall]
        exact .of_parts hfirst hflags (by simp) (by simp)
    | none =>
        have hall : after.written = first :: (messages ++
            [⟨flagEnvelopeEndStream, endPayload srv headers codec session⟩]) := by
          refine hwritten.trans ?_
          exact congrArg (· ++ _) hsent
        rw [hall]
        exact .of_parts hfirst hflags (by simp) (by simp)

/-- For every `Conn` whose failures last, every handler and every request:
    what `HandleRPC` writes is in order, its messages are compressed exactly
    if a compressor was negotiated, and then its headers name it. -/
theorem response_in_order (srv : ServerConfig κ μ) (k : κ) (after : Session κ)
    (hreturn : handleRPC srv { conn := k } = some after) (hgood : after.FailsForGood) :
    InOrder after.written ∧
      ∀ headers codec session, dispatched srv { conn := k } = some (headers, codec, session) →
        Response srv (requestInfo srv headers).requestHeader after.written := by
  rcases handleRPC_cases hreturn with ⟨headers, codec, session, hdispatch, rfl⟩ | ⟨hnone, rfl⟩
  · have hnew : session.writes = [] := by
      obtain ⟨opening, hread, -⟩ := dispatched_eq_some hdispatch
      have hsession : _ = session := congrArg Prod.snd hread
      rw [← hsession]
      rfl
    have hresponse := serveCall_response hnew hgood
    refine ⟨hresponse.order, ?_⟩
    intro headers' codec' session' hdispatch'
    rw [hdispatch] at hdispatch'
    cases hdispatch'
    exact hresponse
  · refine ⟨rfl, ?_⟩
    intro headers codec session hdispatch
    rw [hnone] at hdispatch
    cases hdispatch

/-- A `Conn` on which as many writes succeed as its state says. -/
def failingConn (payload : Bytes) : Conn Nat where
  readEnvelope := fun n => (.ok ⟨flagEnvelopeHeaders, payload⟩, n)
  writeEnvelope := fun n _ => if n = 0 then (some .canceled, 0) else (none, n - 1)
  closeSend := fun n => (none, n)
  close := fun n => (none, n)

/-- A server that sends two messages, whatever becomes of the first. -/
def persistentServer (payload : Bytes) : ServerConfig Nat Bytes where
  conn := failingConn payload
  opts := { codecs := (greeter payload).opts.codecs }
  call := fun _ => .send [1] fun _ => .send [2] fun err => .ret err
  lib := (greeter payload).lib

/-- The second message and the end-stream are not written any more. -/
theorem response_of_failing_conn :
    ∃ after, handleRPC (persistentServer namedRequest) { conn := 2 } = some after ∧
      after.writes.length = 4 ∧ after.written.length = 2 ∧ InOrder after.written := by
  have hlengths : (handleRPC (persistentServer namedRequest) { conn := 2 }).map
      (fun after => (after.writes.length, after.written.length)) = some (4, 2) := by
    decide +kernel
  have hfails : (handleRPC (persistentServer namedRequest) { conn := 2 }).map
      (fun after => after.writes.map fun w => w.2.isSome) =
        some [false, false, true, true] := by
    decide +kernel
  obtain ⟨after, hreturn, hlength⟩ := Option.map_eq_some_iff.mp hlengths
  obtain ⟨hwrites, hwritten⟩ := Prod.mk.inj hlength
  rw [hreturn, Option.map_some, Option.some.injEq] at hfails
  refine ⟨after, hreturn, hwrites, hwritten, ?_⟩
  refine (response_in_order (persistentServer namedRequest) 2 after hreturn ?_).1
  have hpairs : (after.writes.map fun w => w.2.isSome).Pairwise
      fun b b' => b = true → b' = true := by
    rw [hfails]
    decide
  exact List.pairwise_map.mp hpairs

end BidiProtocol
end BidiWeb
