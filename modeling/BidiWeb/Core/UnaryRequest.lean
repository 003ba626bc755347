/-
  BidiWeb.Core.UnaryRequest

  What a unary handler is called with, against the envelopes of its request.

  `readUnaryRequestBody` strips the envelopes and joins what is left: how many
  there were, and with which flags, does not reach the handler, which finds
  out from the headers alone whether its message is compressed.  The headers
  envelope is the only one that is refused.
-/

import BidiWeb.Core.AnsweredRequest

namespace BidiWeb
namespace Core

open BidiWeb.Lib

-- ============================================================================
-- What the envelopes say
-- ============================================================================

/-- The envelopes before the request half-closes. -/
def beforeHalfClose (requests : List Envelope) : List Envelope :=
  requests.takeWhile fun e => e.flag ≠ flagEnvelopeEndStream

/-- The request half-closes, by an end-stream envelope or with the stream. -/
def HalfCloses (readError : Option Thrown) (requests : List Envelope) : Prop :=
  (∃ e ∈ requests, e.flag = flagEnvelopeEndStream) ∨ readError = none

/-- The coding a header value names: none, if it is empty or the identity. -/
def coding (value : HeaderValue) : Option JsString :=
  let name := value.normalize.toLowerCase
  if name = [] ∨ name = js "identity" then none else some name

/-- The coding the request headers name for compressed messages: unary clients
    may do so in the header of HTTP. -/
def requestCoding (headers : Headers) : Option JsString :=
  ((headers.get headerStreamEncoding).or (headers.get headerUnaryEncoding)).bind coding

/-- The message that the envelopes of a unary request carry, with the coding it
    is compressed with; `none` for a protocol error. -/
def unaryMessage (headers : Headers) : List Envelope → Option (Option JsString × Bytes)
  | [e] =>
      if e.flag = flagEnvelopeData then some (none, e.payload)
      else if e.flag = flagEnvelopeCompressed then
        (requestCoding headers).map fun name => (some name, e.payload)
      else none
  | _ => none

/-- What a unary handler takes its request for. -/
def UniversalServerRequest.message (request : UniversalServerRequest) :
    Except Thrown (Option JsString × Bytes) :=
  (concatAsyncIterable request.body).map fun bytes =>
    ((request.header.get headerUnaryEncoding).bind coding, bytes)

def Thrown.IsProtocolError : Thrown → Prop
  | .connectError e => js "protocol error" <+: e.rawMessage
  | .jsError _ | .value _ => False

-- ============================================================================
-- The handler call
-- ============================================================================

variable (platform : Platform) (socket : DuplexByteStream)

/-- The handler that `handleBidiSocket` calls, and with what. -/
def calledWith (handlers : List UniversalHandler) :
    Option (UniversalHandler × UniversalServerRequest) :=
  match socket.requests with
  | [] => none
  | first :: requests =>
      if first.flag ≠ flagEnvelopeHeaders then none
      else
        match decodeHeadersFrame first.payload with
        | .error _ => none
        | .ok frame =>
            match findHandler handlers frame.path with
            | none => none
            | some handler =>
                match newRequest platform socket handler frame.headers requests with
                | .error _ => none
                | .ok request => some (handler, request)

/-- What `handleBidiSocket` does with the outcome of the handler. -/
def respond (handler : UniversalHandler) :
    Except Thrown UniversalServerResponse → Async Unit
  | .error err =>
      let error := platform.connectErrorFrom err Code.internal
      ignoringPeerDisconnect (writeErrorResponse platform socket error {} {})
  | .ok response =>
      ignoringPeerDisconnect (writeResponse platform socket handler.methodKind response)

/-- From the dispatch on: a request that cannot be built rejects the promise,
    and after the call of the handler only its outcome counts. -/
theorem run_of_frame {handlers : List UniversalHandler} {payload : Bytes} {requests : List Envelope}
    (hrequests : socket.requests = ⟨flagEnvelopeHeaders, payload⟩ :: requests)
    {frame : HeadersFrame} (hframe : decodeHeadersFrame payload = .ok frame)
    {handler : UniversalHandler}
    (hhandler : findHandler handlers frame.path = some handler) (written : List Write) :
    (handleBidiSocket platform socket handlers).run written =
      match newRequest platform socket handler frame.headers requests with
      | .error err => (.error err, written)
      | .ok request => (respond platform socket handler (handler.call request)).run written := by
  unfold handleBidiSocket
  rw [hrequests]
  simp only [ne_eq, not_true, if_false]
  rw [hframe]
  have hthrowing : (Async.throwing (.ok frame)).run written = (.ok frame, written) := rfl
  rw [Async.run_bind_ok hthrowing]
  unfold serveRequest
  rw [hhandler]
  cases hnew : newRequest platform socket handler frame.headers requests with
  | error err => simp only [hnew, Async.throw]
  | ok request => cases hcall : handler.call request <;> simp only [hnew, hcall, respond]

theorem calledWith_of_frame {handlers : List UniversalHandler} {payload : Bytes}
    {requests : List Envelope}
    (hrequests : socket.requests = ⟨flagEnvelopeHeaders, payload⟩ :: requests)
    {frame : HeadersFrame} (hframe : decodeHeadersFrame payload = .ok frame)
    {handler : UniversalHandler} (hhandler : findHandler handlers frame.path = some handler) :
    calledWith platform socket handlers =
      match newRequest platform socket handler frame.headers requests with
      | .error _ => none
      | .ok request => some (handler, request) := by
  unfold calledWith
  rw [hrequests]
  simp only [ne_eq, not_true, if_false, hframe, hhandler]

-- ============================================================================
-- The body
-- ============================================================================

theorem beforeHalfClose_cons {e : Envelope} {es : List Envelope} :
    beforeHalfClose (e :: es) =
      if e.flag = flagEnvelopeEndStream then [] else e :: beforeHalfClose es := by
  unfold beforeHalfClose
  rw [List.takeWhile_cons]
  by_cases hend : e.flag = flagEnvelopeEndStream <;> simp [hend]

theorem HalfCloses.tail {readError : Option Thrown} {e : Envelope} {es : List Envelope}
    (h : HalfCloses readError (e :: es)) (hend : e.flag ≠ flagEnvelopeEndStream) :
    HalfCloses readError es := by
  refine h.imp_left fun ⟨e', hmem, hflag⟩ => ?_
  rcases List.mem_cons.mp hmem with rfl | hrest
  · exact absurd hflag hend
  · exact ⟨e', hrest, hflag⟩

/-- The body is the payloads of all envelopes, if none of them is a headers
    envelope. -/
theorem readUnaryRequestBody_eq {readError : Option Thrown} {requests : List Envelope}
    (hclosed : HalfCloses readError requests) :
    readUnaryRequestBody readError requests =
      if ∃ e ∈ beforeHalfClose requests, e.flag = flagEnvelopeHeaders then .error unexpectedHeaders
      else .ok ((beforeHalfClose requests).flatMap (·.payload)) := by
  induction requests with
  | nil =>
      have hnone : readError = none := hclosed.resolve_left fun ⟨_, hmem, _⟩ => by cases hmem
      simp [readUnaryRequestBody, hnone, beforeHalfClose]
  | cons e es ih =>
      rw [readUnaryRequestBody, beforeHalfClose_cons]
      by_cases hend : e.flag = flagEnvelopeEndStream
      · simp [hend]
      · rw [if_neg hend, if_neg hend]
        by_cases hheaders : e.flag = flagEnvelopeHeaders
        · simp [hheaders]
        · rw [if_neg hheaders, ih (hclosed.tail hend)]
          by_cases hlater : ∃ e' ∈ beforeHalfClose es, e'.flag = flagEnvelopeHeaders
          · rw [if_pos hlater, if_pos (hlater.imp fun _ h => ⟨List.mem_cons_of_mem _ h.1, h.2⟩)]
            rfl
          · rw [if_neg hlater, if_neg]
            · rfl
            · rintro ⟨e', hmem, hflag⟩
              rcases List.mem_cons.mp hmem with rfl | hrest
              · exact hheaders hflag
              · exact hlater ⟨e', hrest, hflag⟩

-- ============================================================================
-- The headers
-- ============================================================================

theorem coding_normalize (v : HeaderValue) : coding v.normalize = coding v := by
  rw [coding, coding, HeaderValue.normalize_normalize]

theorem get_renameHeader {headers : Headers} {old new n : HeaderName} (hold : n ≠ old)
    (hnew : n ≠ new) : (renameHeader headers old new).get n = headers.get n := by
  unfold renameHeader
  split
  · rfl
  · rw [Headers.get_delete_of_ne _ hold, Headers.get_set_of_ne _ hnew]

theorem get_renameHeader_new {headers : Headers} {old new : HeaderName} (hne : new ≠ old) :
    ((renameHeader headers old new).get new).bind coding =
      ((headers.get old).or (headers.get new)).bind coding := by
  unfold renameHeader
  cases hvalue : headers.get old with
  | none => rfl
  | some value =>
      simp only
      rw [Headers.get_delete_of_ne _ hne, Headers.get_set_self]
      exact coding_normalize value

/-- The bridge hands on the coding that the request headers name, whatever the
    flags of the envelopes. -/
theorem coding_normalizeUnaryRequestHeaders (headers : Headers) :
    ((normalizeUnaryRequestHeaders platform headers).get headerUnaryEncoding).bind coding =
      requestCoding headers := by
  have htyped : ∀ typed : Headers,
      typed.get headerStreamEncoding = headers.get headerStreamEncoding →
      typed.get headerUnaryEncoding = headers.get headerUnaryEncoding →
      ((renameHeader (renameHeader typed headerStreamEncoding headerUnaryEncoding)
          headerStreamAcceptEncoding headerUnaryAcceptEncoding).get headerUnaryEncoding).bind
            coding =
        requestCoding headers := by
    intro typed hstream hunary
    rw [get_renameHeader (by decide) (by decide), get_renameHeader_new (by decide), hstream, hunary]
    rfl
  unfold normalizeUnaryRequestHeaders
  cases hparsed : platform.parseContentType (headers.get headerContentType) with
  | none => exact htyped headers rfl rfl
  | some parsed =>
      simp only
      split
      · refine htyped _ ?_ ?_
        · exact Headers.get_set_of_ne _ (by decide) _
        · exact Headers.get_set_of_ne _ (by decide) _
      · exact htyped headers rfl rfl

-- ============================================================================
-- The request
-- ============================================================================

theorem newRequest_unary {handler : UniversalHandler} (hunary : handler.methodKind = .unary)
    {url : JsString} (hurl : platform.newURL handler.requestPath = .ok url) (headers : Headers)
    {requests : List Envelope} (hclosed : HalfCloses socket.readError requests) :
    newRequest platform socket handler headers requests =
      if ∃ e ∈ beforeHalfClose requests, e.flag = flagEnvelopeHeaders then .error unexpectedHeaders
      else
        .ok
          { httpVersion := "2"
            method := "POST"
            url
            header := normalizeUnaryRequestHeaders platform headers
            body := { chunks := [(beforeHalfClose requests).flatMap (·.payload)] } } := by
  unfold newRequest
  rw [hurl, readUnaryRequestBody_eq hclosed]
  by_cases hheaders : ∃ e ∈ beforeHalfClose requests, e.flag = flagEnvelopeHeaders
  · rw [if_pos hheaders, if_pos hheaders]
    simp [hunary, Except.mapError, bind, Except.bind]
  · rw [if_neg hheaders, if_neg hheaders]
    simp [hunary, Except.mapError, bind, Except.bind, pure, Except.pure]

theorem message_unary (headers : Headers) (url : JsString) (body : Bytes) :
    UniversalServerRequest.message
        { httpVersion := "2"
          method := "POST"
          url
          header := normalizeUnaryRequestHeaders platform headers
          body := { chunks := [body] } } =
      .ok (requestCoding headers, body) := by
  simp [UniversalServerRequest.message, concatAsyncIterable, coding_normalizeUnaryRequestHeaders,
    Except.map]

theorem protocolError_unexpectedHeaders : unexpectedHeaders.IsProtocolError := by
  show js "protocol error" <+: js "protocol error: unexpected headers envelope in request body"
  decide +kernel

/-- A unary request means what its envelopes say: the handler is called with
    their message, and if they have none the request ends in a protocol error. -/
structure UnaryMeans (platform : Platform) (socket : DuplexByteStream)
    (handlers : List UniversalHandler) (headers : Headers) (envelopes : List Envelope) : Prop where
  called : ∀ handler request, calledWith platform socket handlers = some (handler, request) →
    ∃ message, unaryMessage headers envelopes = some message ∧ request.message = .ok message
  refused : unaryMessage headers envelopes = none →
    calledWith platform socket handlers = none ∧
      ∃ err, (handleBidiSocket platform socket handlers).run [] = (.error err, []) ∧
        err.IsProtocolError

/-- A headers envelope among those of the request, or a single message whose
    flag and the headers agree on its compression. -/
def UnaryFits (headers : Headers) (envelopes : List Envelope) : Prop :=
  (∃ e ∈ envelopes, e.flag = flagEnvelopeHeaders) ∨
    ∃ e, envelopes = [e] ∧
      (e.flag = flagEnvelopeData ∧ requestCoding headers = none ∨
        e.flag = flagEnvelopeCompressed ∧ requestCoding headers ≠ none)

/-- What the handler makes of its request is what a single envelope says. -/
theorem unaryMessage_eq_iff {headers : Headers} {envelopes : List Envelope} :
    unaryMessage headers envelopes =
        some (requestCoding headers, envelopes.flatMap (·.payload)) ↔
      ∃ e, envelopes = [e] ∧
        (e.flag = flagEnvelopeData ∧ requestCoding headers = none ∨
          e.flag = flagEnvelopeCompressed ∧ requestCoding headers ≠ none) := by
  match envelopes with
  | [] => simp [unaryMessage]
  | e :: e' :: es => simp [unaryMessage]
  | [e] =>
      have hne : flagEnvelopeCompressed ≠ flagEnvelopeData := by decide
      have hsingle : (∃ e', [e] = [e'] ∧
            (e'.flag = flagEnvelopeData ∧ requestCoding headers = none ∨
              e'.flag = flagEnvelopeCompressed ∧ requestCoding headers ≠ none)) ↔
          (e.flag = flagEnvelopeData ∧ requestCoding headers = none ∨
            e.flag = flagEnvelopeCompressed ∧ requestCoding headers ≠ none) := by
        simp
      rw [hsingle, unaryMessage]
      by_cases hdata : e.flag = flagEnvelopeData
      · cases requestCoding headers <;> simp [hdata, hne.symm]
      · rw [if_neg hdata]
        by_cases hcompressed : e.flag = flagEnvelopeCompressed
        · cases requestCoding headers <;> simp [hcompressed, hne]
        · simp [hdata, hcompressed]

/-- For every unary request that half-closes: the handler is called with what
    the envelopes say, or not at all, exactly if one of them is a headers
    envelope, or there is one and its flag agrees with the headers. -/
theorem unary_means_iff (platform : Platform) (socket : DuplexByteStream)
    (handlers : List UniversalHandler) (payload : Bytes) (requests : List Envelope)
    (frame : HeadersFrame) (handler : UniversalHandler) (url : JsString)
    (hrequests : socket.requests = ⟨flagEnvelopeHeaders, payload⟩ :: requests)
    (hframe : decodeHeadersFrame payload = .ok frame)
    (hhandler : findHandler handlers frame.path = some handler)
    (hunary : handler.methodKind = .unary) (hurl : platform.newURL handler.requestPath = .ok url)
    (hclosed : HalfCloses socket.readError requests) :
    UnaryMeans platform socket handlers frame.headers (beforeHalfClose requests) ↔
      UnaryFits frame.headers (beforeHalfClose requests) := by
  have hcalled := calledWith_of_frame platform socket hrequests hframe hhandler
  have hrun := run_of_frame platform socket hrequests hframe hhandler []
  rw [newRequest_unary platform socket hunary hurl frame.headers hclosed] at hcalled hrun
  by_cases hheaders : ∃ e ∈ beforeHalfClose requests, e.flag = flagEnvelopeHeaders
  · refine iff_of_true ⟨?_, fun _ => ⟨?_, unexpectedHeaders, ?_, ?_⟩⟩ (.inl hheaders)
    · intro handler' request h
      rw [hcalled, if_pos hheaders] at h
      cases h
    · rw [hcalled, if_pos hheaders]
    · rw [hrun, if_pos hheaders]
    · exact protocolError_unexpectedHeaders
  · rw [if_neg hheaders] at hcalled hrun
    rw [UnaryFits, or_iff_right hheaders, ← unaryMessage_eq_iff]
    constructor
    · intro h
      obtain ⟨message, hmessage, hrequest⟩ := h.called _ _ hcalled
      rw [message_unary] at hrequest
      rw [hmessage, ← Except.ok.inj hrequest]
    · refine fun hmessage => ⟨fun handler' request h => ?_, fun hnone => ?_⟩
      · rw [hcalled] at h
        obtain ⟨rfl, rfl⟩ := Prod.mk.inj (Option.some.inj h)
        exact ⟨_, hmessage, message_unary platform frame.headers _ _⟩
      · rw [hmessage] at hnone
        cases hnone

-- ============================================================================
-- Two requests
-- ============================================================================

/-- The headers payload of a request for `/x`, without other headers. -/
def pathPayload : Bytes := "\x7b\"metadata\":\x7b\":path\":[\"/x\"]\x7d\x7d".toUTF8.toList

/-- A unary request for `/x` with these messages, from a peer that stays. -/
def messagesRequest (messages : List Bytes) : DuplexByteStream where
  requests :=
    ⟨flagEnvelopeHeaders, pathPayload⟩ ::
      (messages.map (⟨flagEnvelopeData, ·⟩) ++ [⟨flagEnvelopeEndStream, []⟩])

/-- A handler for `/x` that answers with nothing. -/
def emptyHandler : UniversalHandler := unaryHandler { chunks := [] }

theorem decode_pathPayload :
    ∃ frame, decodeHeadersFrame pathPayload = .ok frame ∧
      findHandler [emptyHandler] frame.path = some emptyHandler ∧ frame.headers = {} := by
  have hdecoded : (match decodeHeadersFrame pathPayload with
      | .ok frame => (findHandler [emptyHandler] frame.path).isSome && decide (frame.headers = {})
      | .error _ => false) = true := by
    decide +kernel
  cases hframe : decodeHeadersFrame pathPayload with
  | error err =>
      rw [hframe] at hdecoded
      cases hdecoded
  | ok frame =>
      rw [hframe] at hdecoded
      obtain ⟨hsome, hheaders⟩ := (Bool.and_eq_true ..).mp hdecoded
      refine ⟨frame, rfl, ?_, of_decide_eq_true hheaders⟩
      obtain ⟨handler, hhandler⟩ := Option.isSome_iff_exists.mp hsome
      have hmem : handler ∈ [emptyHandler] := by
        unfold findHandler at hhandler
        split at hhandler
        · exact List.mem_of_find?_eq_some hhandler
        · cases hhandler
      rw [hhandler, List.mem_singleton.mp hmem]

/-- One uncompressed message means what it says. -/
theorem single_message_means :
    ∃ frame, decodeHeadersFrame pathPayload = .ok frame ∧
      UnaryMeans lenientPlatform (messagesRequest [[1]]) [emptyHandler] frame.headers
        [⟨flagEnvelopeData, [1]⟩] := by
  obtain ⟨frame, hframe, hhandler, hheaders⟩ := decode_pathPayload
  refine ⟨frame, hframe, ?_⟩
  refine (unary_means_iff lenientPlatform (messagesRequest [[1]]) [emptyHandler] pathPayload _
    frame emptyHandler _ rfl hframe hhandler rfl rfl (.inr rfl)).mpr (.inr ⟨_, rfl, .inl ⟨rfl, ?_⟩⟩)
  rw [hheaders]
  decide

/-- Two messages are taken for one. -/
theorem two_messages_joined :
    ¬ ∀ (platform : Platform) (socket : DuplexByteStream) (handlers : List UniversalHandler)
        (payload : Bytes) (requests : List Envelope) (frame : HeadersFrame)
        (handler : UniversalHandler) (url : JsString),
      socket.requests = ⟨flagEnvelopeHeaders, payload⟩ :: requests →
      decodeHeadersFrame payload = .ok frame → findHandler handlers frame.path = some handler →
      handler.methodKind = .unary → platform.newURL handler.requestPath = .ok url →
      HalfCloses socket.readError requests →
        UnaryMeans platform socket handlers frame.headers (beforeHalfClose requests) := by
  intro h
  obtain ⟨frame, hframe, hhandler, -⟩ := decode_pathPayload
  have hmeans := h lenientPlatform (messagesRequest [[1], [2]]) [emptyHandler] pathPayload _ frame
    emptyHandler _ rfl hframe hhandler rfl rfl (.inr rfl)
  obtain ⟨hnot, -⟩ := hmeans.refused rfl
  have hcalled := calledWith_of_frame lenientPlatform (messagesRequest [[1], [2]]) rfl hframe
      hhandler
  rw [newRequest_unary lenientPlatform (messagesRequest [[1], [2]]) rfl rfl frame.headers
    (.inr rfl),
    hnot] at hcalled
  cases hcalled

end Core
end BidiWeb
