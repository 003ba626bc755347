/-
  BidiWeb.BidiProtocol.WholeResponse

  A call of the client and the RPC that serves it, over any transport that
  gives either end the first envelopes the other has written.

  The end-stream is the last envelope of a response, so a client that has
  read it where it awaited a message has read the whole response.
-/

import BidiWeb.BidiProtocol.MessageTransfer

namespace BidiWeb
namespace BidiProtocol

open BidiWeb.ConnectProtocol
open BidiWeb.Lib

variable {κ κ' μ : Type} {cfg : ClientConfig κ μ} {srv : ServerConfig κ' μ} {codec : Codec μ}

/-- A handler has been called for the request of `cs`, with the request it has
    received and the response it has written. -/
structure Answered (cfg : ClientConfig κ μ) (srv : ServerConfig κ' μ) (codec : Codec μ)
    (clientLog log : List (Transfer μ)) (after : Session κ') (headers : Header) : Prop where
  offers : ClientStream.Offers cfg (requestInfo srv headers).requestHeader
  request : Lossless (sentMessages clientLog) (receivedMessages log) after.messages
  served : ∃ opening ending, ending.flag = flagEnvelopeEndStream ∧
    Served srv headers codec opening ending after log

/-- A request is answered by a handler, or with nothing. -/
theorem answered_or_refused {cs : ClientStream κ} {log : List (Transfer μ)} {conn : κ'}
    {after : Session κ'} (hagreed : Agreed cfg srv codec)
    (hsending : ClientStream.Sending cfg cs log)
    (hserve : handleRPC srv { conn := conn } = some after)
    (hup : List.IsPrefix (after.received.filter fun env => env.flag ≠ flagEnvelopeEndStream)
      cs.session.written) :
    (∃ headers, Answered cfg srv codec log (rpcTransfers srv { conn := conn }) after headers) ∨
      rpcTransfers srv { conn := conn } = [] ∧ after.written = [] := by
  rcases handleRPC_cases hserve with ⟨headers, codec', session, hdispatched, rfl⟩ | ⟨hnot, rfl⟩
  · refine Or.inl ⟨headers, ?_⟩
    obtain ⟨opening, hread, hopening, hheaders, hcodec⟩ := dispatched_eq_some hdispatched
    obtain ⟨hreads, hwrites⟩ : session.reads = [(.headers, .ok opening)] ∧ session.writes = [] := by
      obtain ⟨hfirst, rfl⟩ := Prod.mk.inj hread
      exact ⟨congrArg (fun r => [(Awaits.headers, r)]) hfirst, rfl⟩
    have hserved : Served srv headers codec' opening
        ⟨flagEnvelopeEndStream, endPayload srv headers codec' session⟩
        (serveCall srv headers codec' session) (callTransfers srv headers codec' session) :=
      served hagreed.unlimited.2 hreads hwrites
    obtain ⟨hrequests, envs, hmessages, hall⟩ := hserved.request hsending hopening hup
    obtain ⟨hoffers, hinfo⟩ := requests_received hrequests hheaders
    obtain rfl : codec' = codec := by
      rw [hoffers.contentType, hagreed.negotiated] at hcodec
      exact (Option.some.inj hcodec).symm
    have htransfers : rpcTransfers srv { conn := conn } =
        callTransfers srv headers codec' session := by
      rw [rpcTransfers, hdispatched]
      rfl
    rw [htransfers]
    refine ⟨hinfo, ?_, opening, _, rfl, hserved⟩
    rw [hserved.received]
    exact lossless_of_prefix hagreed.codecs.1 (hagreed.request_decompresses hinfo) hall hmessages
  · refine Or.inr ⟨?_, rfl⟩
    rw [rpcTransfers, hnot]
    rfl

/-- The handler has received the first messages of the client. -/
theorem request_le {cs : ClientStream κ} {log : List (Transfer μ)} {conn : κ'}
    {after : Session κ'} (hagreed : Agreed cfg srv codec)
    (hsending : ClientStream.Sending cfg cs log)
    (hserve : handleRPC srv { conn := conn } = some after)
    (hup : List.IsPrefix (after.received.filter fun env => env.flag ≠ flagEnvelopeEndStream)
      cs.session.written) :
    receivedMessages (rpcTransfers srv { conn := conn }) <+: sentMessages log := by
  rcases answered_or_refused hagreed hsending hserve hup with ⟨headers, hanswered⟩ | ⟨hnone, -⟩
  · exact hanswered.request.1
  · rw [hnone]
    exact List.nil_prefix

/-- An end-stream that was read where a message was awaited is the last
    envelope of the response. -/
theorem received_whole {opening ending env : Envelope} {headers : Header} {after : Session κ'}
    {log : List (Transfer μ)} {received : List Envelope}
    (hserved : Served srv headers codec opening ending after log)
    (hdown : List.IsPrefix received after.written) (henv : env ∈ received)
    (hend : env.flag = flagEnvelopeEndStream) : received = after.written := by
  obtain ⟨ends, hends, hwritten⟩ := hserved.written
  have hlast : ∀ front : List Envelope, (∀ e ∈ front, e.flag ≠ flagEnvelopeEndStream) →
      after.written = front ++ ends → received = after.written := by
    intro front hfront hsplit
    refine hdown.eq_of_length_le ?_
    by_contra hshort
    -- what is missing is the end-stream, so it has not been read
    have hle : received.length ≤ front.length := by
      rw [hsplit, List.length_append] at hshort
      rcases hends with rfl | rfl <;> simp at hshort <;> omega
    rw [hsplit] at hdown
    have hread := List.prefix_of_prefix_length_le hdown (List.prefix_append front ends) hle
    exact hfront env (hread.subset henv) hend
  rcases hwritten with ⟨hwritten, -⟩ | ⟨first, envs, hwritten, ⟨sent, hopens, -⟩, hall⟩
  · exact hlast [] (fun e he => absurd he List.not_mem_nil) hwritten
  · refine hlast (first :: envs) (fun e he => ?_) hwritten
    rcases List.mem_cons.mp he with rfl | he
    · rw [hopens.flag]
      decide
    · exact (flags_of_isMessage (isMessage_of_encodes hall e he)).2.1

/-- A streaming call has received the first messages of its handler. -/
theorem response_le {cs : ClientStream κ} {log : List (Transfer μ)} {conn : κ'}
    {after : Session κ'} (hagreed : Agreed cfg srv codec)
    (hsending : ClientStream.Sending cfg cs log) (hreceiving : ClientStream.Receiving cfg cs log)
    (hserve : handleRPC srv { conn := conn } = some after)
    (hup : List.IsPrefix (after.received.filter fun env => env.flag ≠ flagEnvelopeEndStream)
      cs.session.written)
    (hdown : List.IsPrefix cs.session.received after.written) (hstreaming : cfg.unary = false) :
    receivedMessages log <+: sentMessages (rpcTransfers srv { conn := conn }) := by
  rcases answered_or_refused hagreed hsending hserve hup with
    ⟨headers, hinfo, -, opening, ending, hending, hserved⟩ | ⟨-, hnil⟩
  · obtain ⟨-, hall⟩ := hserved.response hagreed hinfo hreceiving hending hdown
    exact (hall fun r hr => absurd (hreceiving.unary hr) (by simp [hstreaming])).1
  · rw [hnil] at hdown
    rw [(hreceiving.of_received_nil (List.prefix_nil.mp hdown)).1]
    exact List.nil_prefix

/-- A streaming call that has read the end of the response where it awaited a
    message has received every message of the handler. -/
theorem response_whole {cs : ClientStream κ} {log : List (Transfer μ)} {conn : κ'}
    {after : Session κ'} (hagreed : Agreed cfg srv codec)
    (hsending : ClientStream.Sending cfg cs log) (hreceiving : ClientStream.Receiving cfg cs log)
    (hserve : handleRPC srv { conn := conn } = some after)
    (hup : List.IsPrefix (after.received.filter fun env => env.flag ≠ flagEnvelopeEndStream)
      cs.session.written)
    (hdown : List.IsPrefix cs.session.received after.written) (hstreaming : cfg.unary = false)
    {env : Envelope} (hread : (Awaits.message, Except.ok env) ∈ cs.session.reads)
    (hend : env.flag = flagEnvelopeEndStream) :
    receivedMessages log = sentMessages (rpcTransfers srv { conn := conn }) := by
  have henv : env ∈ cs.session.received := List.mem_filterMap.mpr ⟨_, hread, rfl⟩
  obtain ⟨headers, hinfo, -, opening, ending, hending, hserved⟩ :
      ∃ headers, Answered cfg srv codec log (rpcTransfers srv { conn := conn }) after headers := by
    refine (answered_or_refused hagreed hsending hserve hup).resolve_right fun ⟨_, hnil⟩ => ?_
    rw [hnil] at hdown
    rw [List.prefix_nil.mp hdown] at henv
    cases henv
  have hnoEnd : ∀ r, (Awaits.endStream, r) ∉ cs.session.reads := fun r hr =>
    absurd (hreceiving.unary hr) (by simp [hstreaming])
  obtain ⟨-, hall⟩ := hserved.response hagreed hinfo hreceiving hending hdown
  obtain ⟨hle, hlength⟩ := hall fun r hr => absurd hr (hnoEnd r)
  have hopen : cs.recvHeadersOnce = some none := by
    by_contra hclosed
    cases (hreceiving.closed hclosed).1 _ hread
  obtain ⟨first, info, -, hsurfaced, hbehind⟩ := hreceiving.opened hopen
  obtain ⟨tail, hreads, htail⟩ := hbehind.first
  have hmessages : cs.session.messages = after.written.filter Envelope.isMessage := by
    rw [← received_whole hserved hdown henv hend]
    apply filterMap_messageOf
    intro awaits e he hother
    cases awaits with
    | message => exact absurd rfl hother
    | endStream => exact absurd he (hnoEnd _)
    | headers =>
        rw [hreads] at he
        rcases List.mem_cons.mp he with hfirst | hrest
        · obtain rfl := Except.ok.inj (Prod.mk.inj hfirst).2
          exact isMessage_opening hsurfaced.flag
        · exact absurd rfl (htail _ hrest)
  refine hle.eq_of_length_le ?_
  rw [hlength, hmessages]
  obtain ⟨ends, hends, hsent⟩ := hserved.written
  have hendsFlag : ∀ e ∈ ends, e.isMessage = false := by
    intro e he
    have hflag : e.flag = flagEnvelopeEndStream := by
      rcases hends with rfl | rfl
      · cases he
      · rw [List.mem_singleton.mp he, hending]
    exact isMessage_of_flag hflag (by decide)
  rcases hsent with ⟨-, hnone⟩ | ⟨front, envs, hwritten, ⟨sent, hopens, -⟩, hencodes⟩
  · rw [hnone]
    exact Nat.zero_le _
  · rw [hwritten, filter_isMessage (isMessage_opening hopens.flag) (isMessage_of_encodes hencodes)
      hendsFlag, hencodes.length_eq]

/-- What has come of the messages of a call, given the logs of either end. -/
structure Exchanged (cfg : ClientConfig κ μ) (reads : List (Awaits × Except GoError Envelope))
    (clientLog log : List (Transfer μ)) : Prop where
  /-- The handler has received the first messages of the client, in order. -/
  request : receivedMessages log <+: sentMessages clientLog
  response : cfg.unary = false → receivedMessages clientLog <+: sentMessages log
  /-- A streaming call that is told of the end has received all. -/
  whole : cfg.unary = false → ∀ env, (Awaits.message, Except.ok env) ∈ reads →
    env.flag = flagEnvelopeEndStream → receivedMessages clientLog = sentMessages log

/-- The calls made on a `ClientStream` from its creation on. -/
def Calls (cfg : ClientConfig κ μ) (cs : ClientStream κ) (log : List (Transfer μ)) : Prop :=
  ∃ (info : CallInfo) (sets : List (GoString × List GoString)) (conn : κ)
    (ops : List (ClientOp μ)),
    (ClientStream.logMachine cfg conn
      (some { info with requestHeader := setAllValues ∅ sets })).run ops = some (cs, log)

theorem exchanged {cs : ClientStream κ} {log : List (Transfer μ)} {conn : κ'}
    {after : Session κ'} (hagreed : Agreed cfg srv codec) (hcalls : Calls cfg cs log)
    (hserve : handleRPC srv { conn := conn } = some after)
    (hup : List.IsPrefix (after.received.filter fun env => env.flag ≠ flagEnvelopeEndStream)
      cs.session.written) (hdown : List.IsPrefix cs.session.received after.written) :
    Exchanged cfg cs.session.reads log (rpcTransfers srv { conn := conn }) := by
  obtain ⟨info, sets, conn₀, ops, hrun⟩ := hcalls
  obtain ⟨hsending, hreceiving⟩ := ClientStream.transferred_of_run hagreed.unlimited.1
    (canonicalKeys_empty.setAllValues sets) hrun
  exact
    { request := request_le hagreed hsending hserve hup
      response := response_le hagreed hsending hreceiving hserve hup hdown
      whole := fun hstreaming env hread hend =>
        response_whole hagreed hsending hreceiving hserve hup hdown hstreaming hread hend }

/-- A `ClientStream` writes no end-stream. -/
theorem Calls.noEnd {cs : ClientStream κ} {log : List (Transfer μ)}
    (hlimit : cfg.opts.readMaxBytes ≤ 0) (hcalls : Calls cfg cs log) :
    ∀ env ∈ cs.session.written, env.flag ≠ flagEnvelopeEndStream := by
  obtain ⟨info, sets, conn, ops, hrun⟩ := hcalls
  obtain ⟨hsending, -⟩ := ClientStream.transferred_of_run hlimit
    (canonicalKeys_empty.setAllValues sets) hrun
  rcases hsending.sent with
    ⟨-, hempty, -⟩ | ⟨-, opening, envs, hwritten, ⟨headers, hopens, -⟩, hall⟩
  · rw [hempty]
    exact nofun
  · intro env henv
    rw [hwritten] at henv
    rcases List.mem_cons.mp henv with rfl | henv
    · rw [hopens.flag]
      decide
    · exact (flags_of_isMessage (isMessage_of_encodes hall env henv)).2.1

-- ============================================================================
-- One call
-- ============================================================================

/-- The call of `echoCaller` as a streaming one: a message, and what comes back
    until the end. -/
def streamingCaller : ClientConfig (List Envelope) Bytes := { echoCaller with unary := false }

def streamed (response : List Envelope) :
    Option (ClientStream (List Envelope) × List (Transfer Bytes)) :=
  (ClientStream.logMachine streamingCaller response (some {})).run
    [.send [1, 2], .receive, .receive]

def streamedRequest : List Envelope := (streamed []).elim [] fun p => p.1.session.written

def streamedResponse : List Envelope :=
  (handleRPC echoServer { conn := streamedRequest }).elim [] Session.written

theorem agreed_streaming : Agreed streamingCaller echoServer plainDefaults.binary where
  options := agreed_echo.options
  negotiated := agreed_echo.negotiated
  codecs := agreed_echo.codecs
  compressors := agreed_echo.compressors
  sendCompressor := agreed_echo.sendCompressor
  tokens := agreed_echo.tokens
  unlimited := agreed_echo.unlimited

/-- The call against its answer, and the end of it as the caller reads it. -/
theorem exists_streamed : ∃ cs log after, streamed streamedResponse = some (cs, log) ∧
    handleRPC echoServer { conn := streamedRequest } = some after ∧
    (cs.session.written = streamedRequest ∧ cs.session.received = streamedResponse) ∧
    (after.written = streamedResponse ∧ after.received = streamedRequest) ∧
    ∃ env, (Awaits.message, Except.ok env) ∈ cs.session.reads ∧
      env.flag = flagEnvelopeEndStream := by
  have hclient : (streamed streamedResponse).map (fun p =>
      (p.1.session.written, p.1.session.received)) = some (streamedRequest, streamedResponse) := by
    decide +kernel
  have hlast : (streamed streamedResponse).map (fun p =>
      p.1.session.reads[2]?.map fun r => (r.1, r.2.toOption)) =
        some (some (.message, some ⟨flagEnvelopeEndStream, [123, 125]⟩)) := by
    decide +kernel
  have hserver : (handleRPC echoServer { conn := streamedRequest }).map (fun s =>
      (s.written, s.received)) = some (streamedResponse, streamedRequest) := by
    decide +kernel
  obtain ⟨⟨cs, log⟩, hrun, hcalling⟩ := Option.map_eq_some_iff.mp hclient
  obtain ⟨after, hserve, hhandling⟩ := Option.map_eq_some_iff.mp hserver
  rw [hrun, Option.map_some, Option.some.injEq] at hlast
  obtain ⟨⟨awaits, result⟩, hread, hend⟩ := Option.map_eq_some_iff.mp hlast
  obtain ⟨rfl, hresult⟩ := Prod.mk.inj hend
  refine ⟨cs, log, after, hrun, hserve, Prod.mk.inj hcalling, Prod.mk.inj hhandling, ?_⟩
  cases result with
  | error err => cases hresult
  | ok env =>
      obtain rfl := Option.some.inj hresult
      exact ⟨_, List.mem_of_getElem? hread, rfl⟩

end BidiProtocol
end BidiWeb
