/-
  BidiWeb.Core.AnsweredRequest

  Which requests `handleBidiSocket` answers.  What fails before the dispatch
  rejects its promise; what fails while a response is being written is taken
  for a disconnect.  Either way the response stops where it is, so that it is
  complete exactly when nothing on its way can throw.
-/

import BidiWeb.Core.HandleBidiSocket
import BidiWeb.Wire.Splitter

namespace BidiWeb
namespace Core

open BidiWeb.Lib

-- ============================================================================
-- What has been written
-- ============================================================================

/-- The envelopes of what was written, if it is envelopes to the end; `pending`
    are the chunks so far. -/
def envelopesFrom (pending : Bytes) : List Write → Option (List Envelope)
  | [] => wholeEnvelopes pending
  | .chunk bytes :: ws => envelopesFrom (pending ++ bytes) ws
  | .envelope e :: ws => do
      let before ← wholeEnvelopes pending
      let after ← envelopesFrom [] ws
      some (before ++ e :: after)

/-- A complete response, and nothing else. -/
def Answered (ws : List Write) : Prop := ∃ es ∈ envelopesFrom [] ws, Complete es

instance (ws : List Write) : Decidable (Answered ws) :=
  match h : envelopesFrom [] ws with
  | some es => decidable_of_iff (Complete es) (by simp [Answered, h])
  | none => isFalse (by simp [Answered, h])

theorem envelopesFrom_chunks (pending : Bytes) (chunks : List Bytes) :
    envelopesFrom pending (chunks.map .chunk) = wholeEnvelopes (pending ++ chunks.flatten) := by
  induction chunks generalizing pending with
  | nil => simp [envelopesFrom]
  | cons chunk chunks ih =>
      rw [List.map_cons, envelopesFrom, ih, List.flatten_cons, List.append_assoc]

theorem envelopesFrom_envelopes (es : List Envelope) :
    envelopesFrom [] (es.map .envelope) = some es := by
  induction es with
  | nil => rfl
  | cons e es ih =>
      rw [List.map_cons, envelopesFrom, ih]
      rfl

/-- What completes a response once its headers are written. -/
theorem answered_cons {h : Envelope} {ws : List Write} (hflag : h.flag = flagEnvelopeHeaders) :
    Answered (.envelope h :: ws) ↔
      ∃ es ∈ envelopesFrom [] ws, envelopeOrder.exec .body es = some .ended := by
  have hcons : ∀ es, Complete (h :: es) ↔ envelopeOrder.exec .body es = some .ended := by
    intro es
    rw [Complete, run_cons_iff]
    exact and_iff_right hflag
  have hfrom : envelopesFrom [] (.envelope h :: ws) = (envelopesFrom [] ws).map (h :: ·) := by
    rw [envelopesFrom]
    cases envelopesFrom [] ws <;> rfl
  unfold Answered
  rw [hfrom]
  constructor
  · rintro ⟨es, hes, hcomplete⟩
    obtain ⟨es', hes', rfl⟩ := Option.map_eq_some_iff.mp hes
    exact ⟨es', hes', (hcons es').mp hcomplete⟩
  · rintro ⟨es, hes, hended⟩
    exact ⟨h :: es, Option.map_eq_some_iff.mpr ⟨es, hes, rfl⟩, (hcons es).mpr hended⟩

theorem not_answered_nil : ¬ Answered [] := by
  decide

/-- Headers and messages alone are no answer. -/
theorem not_answered_messages {h : Envelope} (ms : List Envelope)
    (hflag : h.flag = flagEnvelopeHeaders) (hms : ∀ m ∈ ms, m.isMessage) :
    ¬ Answered (.envelope h :: ms.map .envelope) := by
  rw [answered_cons hflag, envelopesFrom_envelopes]
  rintro ⟨es, hes, hended⟩
  obtain rfl := Option.some.inj hes
  rw [exec_body_messages hms] at hended
  cases hended

-- ============================================================================
-- Writing, while the peer is there
-- ============================================================================

/-- The peer has neither disconnected nor reset the stream. -/
structure DuplexByteStream.Connected (socket : DuplexByteStream) : Prop where
  reads : socket.readError = none
  writes : ∀ written, socket.writeError written = none

namespace Async

variable {α β : Type} {f : Async α} {g : α → Async β} {ws ws' : List Write}

theorem run_bind_ok {a : α} (h : f.run ws = (.ok a, ws')) :
    (f >>= g).run ws = (g a).run ws' := by
  show (Async.bind f g).run ws = _
  unfold Async.bind
  simp only [h]

theorem run_bind_error {err : Thrown} (h : f.run ws = (.error err, ws')) :
    (f >>= g).run ws = (.error err, ws') := by
  show (Async.bind f g).run ws = _
  unfold Async.bind
  simp only [h]

end Async

variable {platform : Platform} {socket : DuplexByteStream}

-- ============================================================================
-- Responses that can be written
-- ============================================================================

def Serializable (platform : Platform) (metadata : Headers) (error : Option ConnectError) : Prop :=
  ∃ payload, platform.serializeEndStream metadata error = .ok payload

/-- Messages and one end-stream, encoded. -/
def EndsResponse (b : Bytes) : Prop :=
  ∃ ms e, wholeEnvelopes b = some (ms ++ [e]) ∧ (∀ m ∈ ms, m.isMessage) ∧
    e.flag = flagEnvelopeEndStream

def AnswerableUnary (platform : Platform) (response : UniversalServerResponse) : Prop :=
  ∃ header trailer, platform.trailerDemux response.headers = .ok (header, trailer) ∧
    EncodableHeaders header ∧ (∀ body, response.body = some body → body.failure = none) ∧
    Serializable platform trailer none

def AnswerableStreaming (platform : Platform) (response : UniversalServerResponse) : Prop :=
  EncodableHeaders response.headers ∧
    match response.body with
    | some body => EndsResponse body.chunks.flatten
    | none => Serializable platform {} none

def AnswerableFailure (platform : Platform) (error : ConnectError)
    (response : UniversalServerResponse) : Prop :=
  ∃ header trailer, platform.trailerDemux response.headers = .ok (header, trailer) ∧
    EncodableHeaders header ∧ Serializable platform trailer (some error)

/-- Nothing throws while the response is being written. -/
def AnswerableResponse (platform : Platform) (methodKind : MethodKind)
    (response : UniversalServerResponse) : Prop :=
  if response.status = 200 then
    if methodKind = .unary then AnswerableUnary platform response
    else AnswerableStreaming platform response
  else AnswerableFailure platform (responseError platform methodKind response) response

theorem encodable_mirror {headers : Headers} :
    EncodableHeaders (mirrorUnaryResponseEncoding headers) ↔ EncodableHeaders headers := by
  unfold mirrorUnaryResponseEncoding
  cases headers.get headerUnaryEncoding with
  | none => exact Iff.rfl
  | some encoding =>
      have hmirrored : ¬ isInherited headerStreamEncoding.units := by decide
      constructor
      · intro h name hname
        exact h name (headers.mem_set_keys.mpr (Or.inr hname))
      · intro h name hname
        rcases headers.mem_set_keys.mp hname with rfl | hold
        · exact hmirrored
        · exact h name hold

theorem bodyBytes_ok_iff {response : UniversalServerResponse} :
    (∃ bytes, response.bodyBytes = .ok bytes) ↔
      ∀ body, response.body = some body → body.failure = none := by
  unfold UniversalServerResponse.bodyBytes concatAsyncIterable
  cases response.body with
  | none => simp
  | some body => cases hfailure : body.failure <;> simp [hfailure]

theorem isMessage_unaryDataFlag {header : Headers} {payload : Bytes} :
    (⟨unaryDataFlag header, payload⟩ : Envelope).isMessage := by
  unfold unaryDataFlag
  cases header.get headerUnaryEncoding with
  | none => rfl
  | some encoding =>
      simp only
      split
      · rfl
      · rfl

-- ============================================================================
-- Writing them
-- ============================================================================

/-- A call that throws before anything is written leaves no answer. -/
theorem throwing_answers_iff {α : Type} {x : Except JsError α} {g : α → Async Unit} :
    Answered ((Async.throwing x >>= g).run []).2 ↔
      ∃ a, x = .ok a ∧ Answered ((g a).run []).2 := by
  cases x with
  | ok a =>
      rw [Async.run_bind_ok (f := Async.throwing (.ok a)) rfl]
      simp
  | error err =>
      rw [Async.run_bind_error (f := Async.throwing (.error err)) rfl]
      simp [not_answered_nil]

section

variable (hwrites : ∀ written, socket.writeError written = none)
include hwrites

theorem run_write (w : Write) (ws : List Write) :
    (write socket w).run ws = (.ok (), ws ++ [w]) := by
  unfold write
  simp only
  rw [hwrites]

theorem run_writeHeaders {headers : Headers} {payload : Bytes}
    (hencode : encodeHeadersFrame headers {} = .ok payload) (ws : List Write) :
    (writeHeaders socket headers).run ws =
      (.ok (), ws ++ [.envelope ⟨flagEnvelopeHeaders, payload⟩]) := by
  rw [writeHeaders, hencode]
  exact run_write hwrites _ ws

theorem run_writeEndStream {metadata : Headers} {error : Option ConnectError} {payload : Bytes}
    (hserialize : platform.serializeEndStream metadata error = .ok payload) (ws : List Write) :
    (writeEndStream platform socket metadata error).run ws =
      (.ok (), ws ++ [.envelope ⟨flagEnvelopeEndStream, payload⟩]) := by
  rw [writeEndStream, hserialize]
  exact run_write hwrites _ ws

end

section Connected

variable (hconn : socket.Connected)
include hconn

/-- The headers come first; the rest is up to what follows them. -/
theorem writeHeaders_answers_iff {headers : Headers} {g : Unit → Async Unit} {P : Prop}
    (hP : ∀ payload,
      Answered ((g ()).run [.envelope ⟨flagEnvelopeHeaders, payload⟩]).2 ↔ P) :
    Answered ((writeHeaders socket headers >>= g).run []).2 ↔ EncodableHeaders headers ∧ P := by
  rw [← encodeHeadersFrame_ok_iff headers {}]
  cases hencode : encodeHeadersFrame headers {} with
  | error err =>
      have hrun : (writeHeaders socket headers).run [] = (.error (.jsError err), []) := by
        rw [writeHeaders, hencode]
        rfl
      rw [Async.run_bind_error hrun]
      simp [not_answered_nil]
  | ok payload =>
      rw [Async.run_bind_ok (run_writeHeaders hconn.writes hencode []), List.nil_append, hP payload]
      simp

/-- An end-stream completes a response whose headers and messages are written. -/
theorem writeEndStream_answers_iff {metadata : Headers} {error : Option ConnectError}
    {h : Envelope} (ms : List Envelope) (hflag : h.flag = flagEnvelopeHeaders)
    (hms : ∀ m ∈ ms, m.isMessage) :
    Answered ((writeEndStream platform socket metadata error).run
        (.envelope h :: ms.map .envelope)).2 ↔ Serializable platform metadata error := by
  cases hpayload : platform.serializeEndStream metadata error with
  | error err =>
      have hunserializable : ¬ Serializable platform metadata error := by
        rintro ⟨payload, hserialize⟩
        cases hpayload.symm.trans hserialize
      rw [writeEndStream, hpayload]
      exact iff_of_false (not_answered_messages ms hflag hms) hunserializable
  | ok payload =>
      refine iff_of_true ?_ ⟨payload, hpayload⟩
      let e : Envelope := ⟨flagEnvelopeEndStream, payload⟩
      have hwritten : Answered (.envelope h :: (ms ++ [e]).map .envelope) := by
        rw [answered_cons hflag, envelopesFrom_envelopes]
        exact ⟨ms ++ [e], rfl, exec_body_iff.mpr (Or.inr ⟨rfl, ms, e, rfl, hms, rfl⟩)⟩
      rw [List.map_append] at hwritten
      rw [run_writeEndStream hconn.writes hpayload]
      exact hwritten

theorem writeErrorResponse_answers_iff {error : ConnectError} {header trailer : Headers} :
    Answered ((writeErrorResponse platform socket error header trailer).run []).2 ↔
      EncodableHeaders header ∧ Serializable platform trailer (some error) :=
  writeHeaders_answers_iff hconn fun _ =>
    writeEndStream_answers_iff hconn [] rfl (by simp)

theorem writeUnaryBody_answers_iff {response : UniversalServerResponse} {header trailer : Headers}
    {h : Envelope} (hflag : h.flag = flagEnvelopeHeaders) :
    Answered ((writeUnaryBody platform socket response header trailer).run [.envelope h]).2 ↔
      (∀ body, response.body = some body → body.failure = none) ∧
        Serializable platform trailer none := by
  rw [← bodyBytes_ok_iff]
  unfold writeUnaryBody
  cases response.bodyBytes with
  | error err =>
      -- the headers are out, and nothing follows
      refine iff_of_false (not_answered_messages [] hflag (by simp)) ?_
      rintro ⟨⟨bytes, h⟩, -⟩
      cases h
  | ok bodyBytes =>
      let m : Envelope := ⟨unaryDataFlag header, bodyBytes⟩
      have hmessage : ∀ m' ∈ [m], m'.isMessage := by
        intro m' hm'
        obtain rfl := List.mem_singleton.mp hm'
        exact isMessage_unaryDataFlag
      have hrun := run_write hconn.writes (.envelope m) [.envelope h]
      simp only
      rw [Async.run_bind_ok hrun]
      refine (writeEndStream_answers_iff hconn [m] hflag hmessage).trans ?_
      simp

theorem writeUnaryResponse_answers_iff {response : UniversalServerResponse} :
    Answered ((writeUnaryResponse platform socket response).run []).2 ↔
      AnswerableUnary platform response := by
  unfold writeUnaryResponse AnswerableUnary
  rw [throwing_answers_iff]
  have hrest : ∀ header trailer : Headers,
      Answered ((writeHeaders socket (mirrorUnaryResponseEncoding header) >>= fun _ =>
          writeUnaryBody platform socket response (mirrorUnaryResponseEncoding header)
            trailer).run []).2 ↔
        EncodableHeaders header ∧ (∀ body, response.body = some body → body.failure = none) ∧
          Serializable platform trailer none := by
    intro header trailer
    rw [← encodable_mirror]
    exact writeHeaders_answers_iff hconn fun _ => writeUnaryBody_answers_iff hconn rfl
  constructor
  · rintro ⟨⟨header, trailer⟩, hdemux, hanswered⟩
    exact ⟨header, trailer, hdemux, (hrest header trailer).mp hanswered⟩
  · rintro ⟨header, trailer, hdemux, hanswerable⟩
    exact ⟨(header, trailer), hdemux, (hrest header trailer).mpr hanswerable⟩

/-- Every chunk of a body is forwarded, also of one that throws then. -/
theorem run_forwardBody (body : Body) (ws : List Write) :
    ((forwardBody socket body).run ws).2 = ws ++ body.chunks.map .chunk := by
  have hchunks : ∀ (chunks : List Bytes) (ws : List Write),
      (chunks.forM fun chunk => write socket (.chunk chunk)).run ws =
        (.ok (), ws ++ chunks.map .chunk) := by
    intro chunks
    induction chunks with
    | nil =>
        intro ws
        rw [List.map_nil, List.append_nil]
        rfl
    | cons chunk chunks ih =>
        intro ws
        have hrun := run_write hconn.writes (.chunk chunk) ws
        show (write socket (.chunk chunk) >>= fun _ =>
          chunks.forM fun chunk => write socket (.chunk chunk)).run ws = _
        rw [Async.run_bind_ok hrun, ih, List.map_cons, List.append_assoc]
        rfl
  unfold forwardBody
  rw [Async.run_bind_ok (hchunks body.chunks ws)]
  cases body.failure <;> rfl

theorem writeStreamingResponse_answers_iff {response : UniversalServerResponse} :
    Answered ((writeStreamingResponse platform socket response).run []).2 ↔
      AnswerableStreaming platform response := by
  refine writeHeaders_answers_iff hconn fun payload => ?_
  unfold writeStreamingBody
  cases response.body with
  | none => exact writeEndStream_answers_iff hconn [] rfl (by simp)
  | some body =>
      simp only
      rw [run_forwardBody hconn, List.singleton_append, answered_cons rfl, envelopesFrom_chunks,
        List.nil_append]
      constructor
      · rintro ⟨es, hes, hended⟩
        rcases exec_body_iff.mp hended with ⟨h, -⟩ | ⟨-, ms, e, rfl, hms, he⟩
        · cases h
        · exact ⟨ms, e, hes, hms, he⟩
      · rintro ⟨ms, e, hes, hms, he⟩
        exact ⟨_, hes, exec_body_iff.mpr (Or.inr ⟨rfl, ms, e, rfl, hms, he⟩)⟩

theorem writeResponse_answers_iff {methodKind : MethodKind} {response : UniversalServerResponse} :
    Answered ((writeResponse platform socket methodKind response).run []).2 ↔
      AnswerableResponse platform methodKind response := by
  unfold writeResponse AnswerableResponse
  by_cases hstatus : response.status = 200
  · rw [if_pos hstatus, if_pos hstatus]
    by_cases hkind : methodKind = .unary
    · rw [if_pos hkind, if_pos hkind]
      exact writeUnaryResponse_answers_iff hconn
    · rw [if_neg hkind, if_neg hkind]
      exact writeStreamingResponse_answers_iff hconn
  · rw [if_neg hstatus, if_neg hstatus]
    unfold AnswerableFailure
    rw [throwing_answers_iff]
    constructor
    · rintro ⟨⟨header, trailer⟩, hdemux, hanswered⟩
      obtain ⟨hencodable, hserializable⟩ := (writeErrorResponse_answers_iff hconn).mp hanswered
      exact ⟨header, trailer, hdemux, encodable_mirror.mp hencodable, hserializable⟩
    · rintro ⟨header, trailer, hdemux, hencodable, hserializable⟩
      exact ⟨(header, trailer), hdemux, (writeErrorResponse_answers_iff hconn).mpr
        ⟨encodable_mirror.mpr hencodable, hserializable⟩⟩

end Connected

-- ============================================================================
-- Requests that can be answered
-- ============================================================================

/-- No headers envelope before the end of the request. -/
def NoHeaders (requests : List Envelope) : Prop :=
  ∀ e ∈ requests.takeWhile fun e => e.flag ≠ flagEnvelopeEndStream, e.flag ≠ flagEnvelopeHeaders

theorem noHeaders_cons {e : Envelope} {es : List Envelope} :
    NoHeaders (e :: es) ↔
      e.flag = flagEnvelopeEndStream ∨ e.flag ≠ flagEnvelopeHeaders ∧ NoHeaders es := by
  unfold NoHeaders
  by_cases hend : e.flag = flagEnvelopeEndStream
  · rw [List.takeWhile_cons_of_neg (by simpa using hend)]
    simp [hend]
  · rw [List.takeWhile_cons_of_pos (by simpa using hend), List.forall_mem_cons]
    simp [hend]

theorem readUnaryRequestBody_ok_iff {requests : List Envelope} :
    (∃ bytes, readUnaryRequestBody none requests = .ok bytes) ↔ NoHeaders requests := by
  induction requests with
  | nil => simp [readUnaryRequestBody, NoHeaders]
  | cons e es ih =>
      rw [noHeaders_cons, ← ih]
      simp only [readUnaryRequestBody]
      by_cases hend : e.flag = flagEnvelopeEndStream
      · simp [hend]
      · rw [if_neg hend, or_iff_right hend]
        by_cases hheaders : e.flag = flagEnvelopeHeaders
        · rw [if_pos hheaders]
          exact iff_of_false (by simp) fun h => h.1 hheaders
        · rw [if_neg hheaders, and_iff_right hheaders]
          cases readUnaryRequestBody none es <;> simp [Except.map]

/-- Nothing throws before the handler is called. -/
def Dispatchable (platform : Platform) (handler : UniversalHandler) (requests : List Envelope) :
    Prop :=
  (∃ url, platform.newURL handler.requestPath = .ok url) ∧
    (handler.methodKind = .unary → NoHeaders requests)

theorem newRequest_ok_iff (hconn : socket.Connected) (headers : Headers)
    {handler : UniversalHandler} {requests : List Envelope} :
    (∃ request, newRequest platform socket handler headers requests = .ok request) ↔
      Dispatchable platform handler requests := by
  unfold newRequest Dispatchable
  cases hurl : platform.newURL handler.requestPath with
  | error err => simp [Except.mapError, bind, Except.bind]
  | ok url =>
      by_cases hunary : handler.methodKind = .unary
      · rw [hconn.reads, ← readUnaryRequestBody_ok_iff]
        cases readUnaryRequestBody none requests <;>
          simp [hunary, Except.mapError, bind, Except.bind, pure, Except.pure]
      · simp [hunary, Except.mapError, bind, Except.bind, pure, Except.pure]

/-- What a handler answers a request with can be written. -/
def AnswerableOutcome (platform : Platform) (methodKind : MethodKind) :
    Except Thrown UniversalServerResponse → Prop
  | .ok response => AnswerableResponse platform methodKind response
  | .error err => Serializable platform {} (some (platform.connectErrorFrom err Code.internal))

def AnswerableFrame (platform : Platform) (socket : DuplexByteStream)
    (handlers : List UniversalHandler) (requests : List Envelope) (frame : HeadersFrame) : Prop :=
  match findHandler handlers frame.path with
  | none => ∃ path, frame.path.toText platform.numberText = some path ∧
      Serializable platform {} (some (unknownProcedure path))
  | some handler => Dispatchable platform handler requests ∧
      ∀ request, newRequest platform socket handler frame.headers requests = .ok request →
        AnswerableOutcome platform handler.methodKind (handler.call request)

theorem serveRequest_answers_iff (hconn : socket.Connected) {handlers : List UniversalHandler}
    {frame : HeadersFrame} {requests : List Envelope} :
    Answered ((serveRequest platform socket handlers frame requests).run []).2 ↔
      AnswerableFrame platform socket handlers requests frame := by
  -- an error response has no headers of its own
  have hencodable : EncodableHeaders {} := by decide
  unfold serveRequest AnswerableFrame
  cases findHandler handlers frame.path with
  | none =>
      cases frame.path.toText platform.numberText with
      | none => exact iff_of_false not_answered_nil (by simp)
      | some path =>
          refine (writeErrorResponse_answers_iff hconn).trans ?_
          simp [hencodable]
  | some handler =>
      simp only
      rw [← newRequest_ok_iff hconn frame.headers]
      cases newRequest platform socket handler frame.headers requests with
      | error err => exact iff_of_false not_answered_nil (by simp)
      | ok request =>
          have honly : (∀ request', Except.ok (ε := Thrown) request = .ok request' →
                AnswerableOutcome platform handler.methodKind (handler.call request')) ↔
              AnswerableOutcome platform handler.methodKind (handler.call request) :=
            ⟨fun h => h request rfl, fun h _ heq => Except.ok.inj heq ▸ h⟩
          rw [honly, and_iff_right ⟨request, rfl⟩]
          dsimp only
          cases handler.call request with
          | error err =>
              exact (writeErrorResponse_answers_iff hconn).trans (and_iff_right hencodable)
          | ok response => exact writeResponse_answers_iff hconn

/-- For every sequence of requests that starts with a headers envelope, every
    list of handlers and whatever these do: while the peer is there, the
    response is complete if and only if the headers can be decoded, and
    nothing throws on the way to the last write. -/
theorem request_answered_iff (platform : Platform) (socket : DuplexByteStream)
    (handlers : List UniversalHandler) (payload : Bytes) (requests : List Envelope)
    (hconn : socket.Connected)
    (hrequests : socket.requests = ⟨flagEnvelopeHeaders, payload⟩ :: requests) :
    Answered ((handleBidiSocket platform socket handlers).run []).2 ↔
      DecodablePayload payload ∧ ∀ frame, decodeHeadersFrame payload = .ok frame →
        AnswerableFrame platform socket handlers requests frame := by
  unfold handleBidiSocket
  rw [hrequests, ← decodeHeadersFrame_ok_iff]
  simp only [ne_eq, not_true, if_false]
  rw [throwing_answers_iff]
  constructor
  · rintro ⟨frame, hframe, hanswered⟩
    refine ⟨⟨frame, hframe⟩, ?_⟩
    intro frame' hframe'
    obtain rfl := Except.ok.inj (hframe.symm.trans hframe')
    exact (serveRequest_answers_iff hconn).mp hanswered
  · rintro ⟨⟨frame, hframe⟩, hanswerable⟩
    exact ⟨frame, hframe, (serveRequest_answers_iff hconn).mpr (hanswerable frame hframe)⟩

/-- A platform on which nothing throws. -/
def lenientPlatform : Platform where
  numberText := fun literal => Unicode.encodeUtf16 literal
  newURL := fun path => .ok (js "https://bidi.invalid" ++ path)
  parseContentType := fun _ => none
  trailerDemux := fun headers => .ok (headers, {})
  validateResponse := fun _ _ _ => .ok none
  errorFromJsonBytes := fun _ _ error => .ok error
  codeFromHttpStatus := fun _ => Code.unknown
  connectErrorFrom := fun _ code => { rawMessage := [], code }
  serializeEndStream := fun _ _ => .ok "\x7b\x7d".toUTF8.toList

/-- A unary request for `/x`, from a peer that stays. -/
def unaryRequest : DuplexByteStream where
  requests :=
    [⟨flagEnvelopeHeaders,
        "\x7b\"metadata\":\x7b\":path\":[\"/x\"]\x7d\x7d".toUTF8.toList⟩,
      ⟨flagEnvelopeData, [1]⟩, ⟨flagEnvelopeEndStream, []⟩]

def unaryHandler (body : Body) : UniversalHandler where
  requestPath := js "/x"
  methodKind := .unary
  call := fun _ => .ok { status := 200, body }

theorem unary_request_answerable :
    ∃ payload requests,
      unaryRequest.requests = ⟨flagEnvelopeHeaders, payload⟩ :: requests ∧
      DecodablePayload payload ∧ ∀ frame, decodeHeadersFrame payload = .ok frame →
        AnswerableFrame lenientPlatform unaryRequest [unaryHandler { chunks := [[1]] }]
          requests frame := by
  refine ⟨_, _, rfl, ?_⟩
  refine (request_answered_iff lenientPlatform unaryRequest [unaryHandler { chunks := [[1]] }]
    _ _ ⟨rfl, fun _ => rfl⟩ rfl).mp ?_
  decide +kernel

/-- The headers are written, the body throws, and the promise resolves. -/
theorem failing_body_unanswered :
    let body : Body := { chunks := [[1]], failure := some (.jsError (.error "broken")) }
    let settled := (handleBidiSocket lenientPlatform unaryRequest [unaryHandler body]).run []
    settled.1.isOk ∧ settled.2.length = 1 ∧ ¬ Answered settled.2 := by
  decide +kernel

end Core
end BidiWeb
