/-
  BidiWeb.Interop.BrowserSessionCalls

  The calls of a browser and the handlers of a Go server on the streams of one
  WebTransport session: what `parseResponseBody()` yields, and what `unary()`
  returns.
-/

import BidiWeb.ConnectWebTransport.Calls
import BidiWeb.Interop.BrowserCalls
import BidiWeb.Interop.BrowserSession
import BidiWeb.Web.CompressedResponse

namespace BidiWeb
namespace Interop

open BidiWeb.BidiProtocol (Codec ServerConfig handleRPC receivedMessages rpcTransfers sentMessages)
open BidiWeb.ConnectWebTransport (PipeEvent)
open BidiWeb.Core (JsError)
open BidiWeb.Lib (Headers ReadableStream)
open BidiWeb.Web

variable {κ μ : Type}

-- ============================================================================
-- Unary calls
-- ============================================================================

section Unary

variable {call : StreamCall μ} {headers trailer trailer' : Headers} {ending : Ending}
  {data : Option Bytes} {message : μ} {answer : List μ} {envs ends es : List Envelope}

/-- A response without an end-stream is no response. -/
theorem unaryLoop_nil :
    unaryLoop call.parse call.endStreamFromJson headers ending [] data false trailer ≠
      .response message trailer' := by
  intro h
  cases ending <;> cases h

/-- What is returned at the end of the response is the message before it. -/
theorem unaryLoop_endStream {env : Envelope} (hend : env.flag = flagEnvelopeEndStream)
    (h : unaryLoop call.parse call.endStreamFromJson headers ending [env] data false trailer =
      .response message trailer') :
    ∃ payload, data = some payload ∧ call.parse payload = .ok message := by
  have hother : ¬ (env.flag = flagEnvelopeData ∨ env.flag = flagEnvelopeCompressed) := by
    rw [hend]
    decide
  simp only [unaryLoop, if_neg hother, if_pos hend] at h
  split at h
  · cases h
  · split at h
    · cases h
    · cases ending with
      | waiting => cases h
      | thrown error => cases h
      | done =>
          cases data with
          | none => cases h
          | some payload =>
              simp only [if_true] at h
              refine ⟨payload, rfl, ?_⟩
              split at h <;> cases h
              assumption

theorem unaryLoop_reads {msg : μ} {env : Envelope} (hmsg : call.Reads msg env)
    (rest : List Envelope) :
    unaryLoop call.parse call.endStreamFromJson headers ending (env :: rest) none false trailer =
      unaryLoop call.parse call.endStreamFromJson headers ending rest (some env.payload) false
        trailer := by
  simp only [unaryLoop, hmsg.1, true_or, if_true]

/-- A unary call that returns a response has read one message, and the end. -/
theorem answer_of_unaryLoop (hreads : List.Forall₂ call.Reads answer envs)
    (hends : ends = [] ∨ ∃ env, env.flag = flagEnvelopeEndStream ∧ ends = [env])
    (hes : es <+: envs ++ ends)
    (h : unaryLoop call.parse call.endStreamFromJson headers ending es none false trailer =
      .response message trailer') : answer = [message] := by
  have hlast : ∀ {rest data}, rest <+: ends →
      unaryLoop call.parse call.endStreamFromJson headers ending rest data false trailer =
        .response message trailer' →
      ∃ payload, data = some payload ∧ call.parse payload = .ok message := by
    intro rest data hrest hresponse
    cases rest with
    | nil => exact absurd hresponse unaryLoop_nil
    | cons env rest =>
        rcases hends with rfl | ⟨last, hlast, rfl⟩
        · cases List.prefix_nil.mp hrest
        · obtain ⟨rfl, hnil⟩ := List.cons_prefix_cons.mp hrest
          obtain rfl := List.prefix_nil.mp hnil
          exact unaryLoop_endStream hlast hresponse
  cases hreads with
  | nil =>
      obtain ⟨payload, hnone, -⟩ := hlast hes h
      cases hnone
  | @cons msg env answer envs hmsg hreads =>
      cases es with
      | nil => exact absurd h unaryLoop_nil
      | cons env' es =>
          obtain ⟨rfl, hrest⟩ := List.cons_prefix_cons.mp hes
          rw [unaryLoop_reads hmsg] at h
          cases hreads with
          | nil =>
              obtain ⟨payload, hsome, hparse⟩ := hlast hrest h
              cases hsome
              rw [hmsg.2] at hparse
              cases hparse
              rfl
          | @cons msg₂ env₂ answer envs hmsg₂ hreads =>
              -- a second message is refused
              cases es with
              | nil => exact absurd h unaryLoop_nil
              | cons env₂' es =>
                  obtain ⟨rfl, -⟩ := List.cons_prefix_cons.mp hrest
                  simp only [unaryLoop, hmsg₂.1, true_or, if_true] at h
                  cases h

/-- One message and an end-stream without an error are a response. -/
theorem unaryLoop_of_answer {env last : Envelope} (hmsg : call.Reads message env)
    (hend : last.flag = flagEnvelopeEndStream) {metadata : Headers}
    (htold : call.endStreamFromJson last.payload = .ok { metadata }) :
    ∃ trailer', unaryLoop call.parse call.endStreamFromJson headers .done [env, last] none false
      trailer = .response message trailer' := by
  have hother : ¬ (last.flag = flagEnvelopeData ∨ last.flag = flagEnvelopeCompressed) := by
    rw [hend]
    decide
  rw [unaryLoop_reads hmsg]
  simp only [unaryLoop, if_neg hother, if_pos hend, htold, hmsg.2, if_true]
  exact ⟨_, rfl⟩

end Unary

/-- What a unary call makes of the answer of a handler, given how its reads of
    the response have settled. -/
structure UnaryAnswered (call : StreamCall μ) (answer : List μ)
    (response : ReadableStream Envelope JsError) : Prop where
  /-- It returns nothing but the one message of the handler. -/
  returns : ∀ (writePromise : WritePromise) (headers : Headers) (message : μ) (trailer : Headers),
    unary call.parse call.endStreamFromJson writePromise headers response.received.tail =
      .response message trailer → answer = [message]
  /-- And that it returns, once it has read that all is well, to the end. -/
  whole : .done ∈ response.results →
    ∀ (headers : Headers) (message : μ) (metadata : Headers), answer = [message] →
      ∀ env ∈ response.received.tail, env.flag = flagEnvelopeEndStream →
        call.endStreamFromJson env.payload = .ok { metadata } →
          ∃ trailer, unary call.parse call.endStreamFromJson .fulfilled headers
            response.received.tail = .response message trailer

theorem unaryAnswered {call : StreamCall μ} {answer : List μ} {envs ends : List Envelope}
    {response : ReadableStream Envelope JsError}
    (hreads : List.Forall₂ call.Reads answer envs)
    (hends : ends = [] ∨ ∃ env, env.flag = flagEnvelopeEndStream ∧ ends = [env])
    (hread : response.received.tail <+: envs ++ ends) : UnaryAnswered call answer response where
  returns := by
    intro writePromise headers message trailer h
    rw [unary, readResponseBody_eq] at h
    exact answer_of_unaryLoop hreads hends ((isPrefix_seen _ _).trans hread) h
  whole := by
    rintro - headers message metadata rfl env henv hend htold
    rw [unary, readResponseBody_eq]
    cases hreads with
    | @cons _ first _ _ hmsg hreads =>
        cases hreads
        -- the end-stream is the last of the two
        have hlast : ends = [env] := by
          have hmem := hread.subset henv
          rcases List.mem_append.mp hmem with hmem | hmem
          · obtain rfl := List.mem_singleton.mp hmem
            rw [hmsg.1] at hend
            cases hend
          · rcases hends with rfl | ⟨last, -, rfl⟩
            · cases hmem
            · rw [List.mem_singleton.mp hmem]
        have hall : response.received.tail = [first, env] := by
          rw [hlast] at hread
          cases htail : response.received.tail with
          | nil =>
              rw [htail] at henv
              cases henv
          | cons a rest =>
              rw [htail] at hread henv
              obtain ⟨rfl, hrest⟩ := List.cons_prefix_cons.mp hread
              cases rest with
              | nil =>
                  have hflag := hmsg.1
                  rw [← List.mem_singleton.mp henv, hend] at hflag
                  cases hflag
              | cons b rest =>
                  obtain ⟨rfl, hnil⟩ := List.cons_prefix_cons.mp hrest
                  rw [List.prefix_nil.mp hnil]
        show ∃ trailer, unaryLoop _ _ headers .done response.received.tail none false {} = _
        rw [hall]
        exact unaryLoop_of_answer hmsg hend htold

-- ============================================================================
-- The streams of a session
-- ============================================================================

section Session

variable {s : BrowserSession} {i : Nat} {stream : CallStream} {call : StreamCall μ}
  {srv : ServerConfig κ μ} {codec : Codec μ} {sent : List μ} {conn : κ}
  {after : BidiProtocol.Session κ}

/-- What a handler has read is what the call has begun to write. -/
theorem filter_received_le [ConnectPackage] (hserved : stream.Served)
    (hrequested : call.Requested sent stream.bidi.up.started)
    (hhandling : ConnectWebTransport.Handling after stream.bidi) :
    List.IsPrefix (after.received.filter fun env => env.flag ≠ flagEnvelopeEndStream)
      stream.bidi.up.started := by
  refine hrequested.filter_le ?_
  rw [hhandling.read]
  exact (hserved.up.le.trans hserved.wrote_le).trans (List.prefix_append _ _)

/-- Whatever else goes on in the session, the handler of a stream receives
    what its call sends, and a streaming call what the handler sends. -/
theorem browserSessionCalls_transfer [ConnectPackage] [ConnectPackage.Lawful]
    (evs : List BrowserSessionEvent) (hfits : ∀ ev ∈ evs, ev.Fits)
    (hrun : browserSession.run evs = some s) (hstream : s.streams[i]? = some stream)
    (hagreed : call.Agreed srv codec) (hrequested : call.Requested sent stream.bidi.up.started)
    (hserve : handleRPC srv { conn := conn } = some after)
    (hhandling : ConnectWebTransport.Handling after stream.bidi) (responseHeaders : Headers)
    (ending : Ending) :
    BrowserExchanged call srv codec conn sent stream.response.consumed
      (fun es => parseLoop call.parse call.endStreamFromJson responseHeaders ending es false {})
      (call.toldBefore responseHeaders ending) := by
  have hserved := (browserSession_inv hfits hrun i stream hstream).served
  refine browserExchanged hagreed (yields_parseLoop call responseHeaders ending {}) hrequested
    hserve (filter_received_le hserved hrequested hhandling) ?_
  rw [hhandling.wrote]
  exact hserved.response

/-- An envelope of the call goes to the handler. -/
def sessionSends (ev : StreamEvent) (env : Envelope) : List StreamEvent := [
  ev, .accept (5 + env.payload.length), .up .readEnvelope, .up (.take 5),
  .up (.take env.payload.length)]

/-- An envelope of the handler goes to the call. -/
def sessionReads (env : Envelope) : List StreamEvent := [
  .down (.writeEnvelope env), .down (.accept 5), .down (.accept env.payload.length), .pull,
  .arrive (5 + env.payload.length), .settle, .read]

/-- The handler returns, and the call reads the end of the response. -/
def sessionEnds : List StreamEvent :=
  [.handleRPCReturns, .deferred .canceled, .deferred .canceled, .pull, .close, .settle, .read]

def sessionEcho : List BrowserSessionEvent :=
  .createBidirectionalStream :: (.acceptStream ::
    sessionSends (.headers echoCallHeaders) ⟨flagEnvelopeHeaders, echoCallHeaders⟩ ++
    sessionSends (.message [1, 2]) (echoCall.message [1, 2]) ++
    echoCallResponse.flatMap sessionReads ++ sessionEnds).map (.stream 0)

open Connectrpc in
/-- The call, its stream and its handler. -/
theorem exists_sessionEcho : ∃ s stream after, browserSession.run sessionEcho = some s ∧
    s.streams[0]? = some stream ∧ echoCall.Requested [[1, 2]] stream.bidi.up.started ∧
    handleRPC BidiProtocol.echoServer { conn := echoCallRequest } = some after ∧
    ConnectWebTransport.Handling after stream.bidi ∧
    stream.response.consumed = echoCallResponse ∧ .done ∈ stream.response.envelopes.results := by
  have hstreams : (browserSession.run sessionEcho).map (fun s =>
      s.streams.map fun stream => (stream.bidi.up.started, stream.bidi.up.read)) =
        some [(echoCallRequest, echoCallRequest)] := by
    decide +kernel
  have hanswers : (browserSession.run sessionEcho).map (fun s =>
      s.streams.map fun stream => (stream.bidi.down.wrote, stream.response.consumed)) =
        some [(echoCallResponse, echoCallResponse)] := by
    decide +kernel
  have hends : (browserSession.run sessionEcho).map (fun s =>
      s.streams.map fun stream => stream.response.envelopes.results.getLast?) =
        some [some .done] := by
    decide +kernel
  have hserve : (handleRPC BidiProtocol.echoServer { conn := echoCallRequest }).map (fun after =>
      (after.written, after.received)) = some (echoCallResponse, echoCallRequest) := by
    decide +kernel
  have hencode : Core.encodeHeadersFrame echoCall.header (pathHeader echoCall.path) =
      .ok echoCallHeaders := by
    decide +kernel
  obtain ⟨s, hrun, hstreams⟩ := Option.map_eq_some_iff.mp hstreams
  rw [hrun, Option.map_some, Option.some.injEq] at hanswers hends
  obtain ⟨after, hserve, hsession⟩ := Option.map_eq_some_iff.mp hserve
  obtain ⟨stream, hstream, hup⟩ := List.map_eq_singleton_iff.mp hstreams
  rw [hstream, List.map_singleton, List.singleton_inj] at hanswers hends
  obtain ⟨hstarted, hread⟩ := Prod.mk.inj hup
  obtain ⟨hwrote, hconsumed⟩ := Prod.mk.inj hanswers
  obtain ⟨hwritten, hreceived⟩ := Prod.mk.inj hsession
  have hget : s.streams[0]? = some stream := by rw [hstream]; rfl
  have hrequested : echoCall.Requested [[1, 2]] stream.bidi.up.started := by
    rw [hstarted]
    exact .opened [[1, 2]] hencode
  exact ⟨s, stream, after, hrun, hget, hrequested, hserve,
    ⟨hwritten.trans hwrote.symm, hreceived.trans hread.symm⟩, hconsumed,
    List.mem_of_getLast? hends⟩

theorem fits_sessionEcho : ∀ ev ∈ sessionEcho, ev.Fits := by
  decide +kernel

open Connectrpc in
theorem sessionEcho_transfer :
    (parseLoop echoCall.parse echoCall.endStreamFromJson {} .waiting echoCallResponse.tail false
        {}).messages =
      sentMessages (rpcTransfers BidiProtocol.echoServer { conn := echoCallRequest }) := by
  obtain ⟨s, stream, after, hrun, hstream, hrequested, hserve, hhandling, hread, -⟩ :=
    exists_sessionEcho
  have hexchanged := browserSessionCalls_transfer sessionEcho fits_sessionEcho hrun hstream
    agreed_echoCall hrequested hserve hhandling {} .waiting
  rw [hread] at hexchanged
  have hend : ∃ env ∈ echoCallResponse.tail, env.flag = flagEnvelopeEndStream := by
    decide +kernel
  obtain ⟨env, henv, hflag⟩ := hend
  exact (hexchanged.whole _ List.prefix_rfl env henv hflag).1

/-- And a unary call returns the message of its handler. -/
theorem browserSessionUnary_answered [ConnectPackage] [ConnectPackage.Lawful]
    (evs : List BrowserSessionEvent) (hfits : ∀ ev ∈ evs, ev.Fits)
    (hrun : browserSession.run evs = some s) (hstream : s.streams[i]? = some stream)
    (hagreed : call.Agreed srv codec) (hrequested : call.Requested sent stream.bidi.up.started)
    (hserve : handleRPC srv { conn := conn } = some after)
    (hhandling : ConnectWebTransport.Handling after stream.bidi) :
    receivedMessages (rpcTransfers srv { conn := conn }) <+: sent ∧
      UnaryAnswered call (sentMessages (rpcTransfers srv { conn := conn }))
        stream.response.envelopes := by
  have hserved := (browserSession_inv hfits hrun i stream hstream).served
  have hup := filter_received_le hserved hrequested hhandling
  have hdown : stream.response.consumed <+: after.written := by
    rw [hhandling.wrote]
    exact hserved.response
  obtain ⟨hrequest, envs, ends, hreads, hends, hread⟩ :=
    responded hagreed hrequested hserve hup hdown
  exact ⟨hrequest, unaryAnswered hreads hends hread⟩

open Connectrpc in
theorem sessionEcho_answered :
    ∃ trailer, unary echoCall.parse echoCall.endStreamFromJson .fulfilled {}
      echoCallResponse.tail = .response [1, 2] trailer := by
  obtain ⟨s, stream, after, hrun, hstream, hrequested, hserve, hhandling, hread, hdone⟩ :=
    exists_sessionEcho
  have hanswered := (browserSessionUnary_answered sessionEcho fits_sessionEcho hrun hstream
    agreed_echoCall hrequested hserve hhandling).2
  have hanswer : sentMessages (rpcTransfers BidiProtocol.echoServer { conn := echoCallRequest }) =
      [[1, 2]] := by
    decide +kernel
  have hend : ∃ env ∈ echoCallResponse.tail, env.flag = flagEnvelopeEndStream := by
    decide +kernel
  obtain ⟨env, henv, hflag⟩ := hend
  rw [EnvelopeReader.consumed] at hread
  rw [← hread] at henv ⊢
  exact hanswered.whole hdone {} [1, 2] {} hanswer env henv hflag rfl

end Session

end Interop
end BidiWeb
