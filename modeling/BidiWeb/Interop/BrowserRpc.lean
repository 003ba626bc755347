/-
  BidiWeb.Interop.BrowserRpc

  A streaming call of a browser and the RPC of a Go server that serves it,
  over any transport that gives either end the first envelopes the other has
  written.

  The two ends share no code.  The request headers are stringified in one
  language and unmarshalled in the other.  As they accept no compressor, the
  messages of the response are what the codec has made of them, which is all
  that the loops of the browser can read.
-/

import BidiWeb.BidiProtocol.WholeResponse
import BidiWeb.Core.HandleBidiSocket
import BidiWeb.HeadersFormat
import BidiWeb.Web.ResponseBody
import Mathlib.Data.List.Infix

namespace BidiWeb
namespace Interop

open BidiWeb.BidiProtocol
open BidiWeb.ConnectProtocol
open BidiWeb.Core (JsError encodeHeadersFrame headerContentType headerStreamAcceptEncoding)
open BidiWeb.HeadersFormat
open BidiWeb.Lib (HeaderName HeaderValue Headers JsString PlainObject js)
open BidiWeb.Lib.Unicode
open BidiWeb.Web (Ending EndStream Item iterateLoop iterateLoop_cons item parseLoop parseLoop_cons)

variable {κ μ : Type}

-- ============================================================================
-- The call
-- ============================================================================

/-- The arguments of `stream` of a browser transport, with what
    `@connectrpc/connect` makes of messages and end-streams. -/
structure StreamCall (μ : Type) where
  /-- `req.header` -/
  header : Headers
  path : JsString
  serialize : μ → Bytes
  parse : Bytes → Except JsError μ
  endStreamFromJson : Bytes → Except JsError EndStream

/-- `{ ":path": path }` -/
def pathHeader (path : JsString) : PlainObject JsString where
  properties := [(js ":path", path)]
  nodup := List.nodup_singleton _

namespace StreamCall

variable (call : StreamCall μ)

/-- `encodeEnvelope(writeDataFlag, msg)` -/
def message (msg : μ) : Envelope := ⟨flagEnvelopeData, call.serialize msg⟩

/-- What `runWebTransportCall` has written, but for the end of the request,
    when the request iterator has yielded these messages. -/
inductive Requested : List μ → List Envelope → Prop
  | unopened : Requested [] []
  | opened {headersBytes : Bytes} (sent : List μ) :
      encodeHeadersFrame call.header (pathHeader call.path) = .ok headersBytes →
      Requested sent (⟨flagEnvelopeHeaders, headersBytes⟩ :: sent.map call.message)

/-- The server understands the call; `codec` is the one that it picks. -/
structure Agreed (srv : ServerConfig κ μ) (codec : Codec μ) : Prop where
  path : IsWellFormed call.path
  negotiated : ∃ contentType, call.header.get headerContentType = some contentType ∧
    negotiateCodec srv (decodeUtf16 contentType.units) = some codec
  /-- No compressor is accepted, and none goes without a name. -/
  accept : headerStreamAcceptEncoding ∉ call.header.keys
  unnamed : srv.opts.compressors.lookup [] = none
  serialize : ∀ msg, codec.unmarshalRead (call.serialize msg) = .ok msg
  parse : ∀ msg payload, codec.marshalWrite msg = .ok payload → call.parse payload = .ok msg
  /-- The server does not limit what it reads. -/
  unlimited : srv.opts.readMaxBytes ≤ 0

end StreamCall

-- ============================================================================
-- Headers
-- ============================================================================

section Headers

variable {call : StreamCall μ} {headers : Header}

theorem get?_pathHeader {path key value : JsString} :
    (pathHeader path).get? key = some value ↔ key = js ":path" ∧ value = path := by
  unfold PlainObject.get? pathHeader
  by_cases hkey : js ":path" = key
  · subst hkey
    simp [eq_comm]
  · simp [hkey, Ne.symm hkey]

theorem pseudoHeaders_pathHeader {path : JsString} (hpath : IsWellFormed path) :
    PseudoHeaders (pathHeader path) := by
  intro key value h
  obtain ⟨rfl, rfl⟩ := get?_pathHeader.mp h
  exact ⟨by decide, by decide, hpath⟩

/-- The keys of a request, as Go reads them. -/
theorem wireKeys_of_unmarshals
    (h : Unmarshals call.header (pathHeader call.path) headers) : WireKeys headers := by
  intro k hk
  rcases h.keys k hk with ⟨name, -, hspells⟩ | ⟨key, hkey, rfl⟩
  · right
    rw [h.once name k hk hspells]
    exact canonicalHeaderKey_canonicalHeaderKey _
  · left
    obtain rfl := List.mem_singleton.mp hkey
    show isPseudo (decodeUtf16 (js ":path")) = true
    decide

theorem procedureOf_unmarshals
    (h : Unmarshals call.header (pathHeader call.path) headers) :
    procedureOf headers = decodeUtf16 call.path := by
  have hlookup := h.pseudoKeys (js ":path") call.path (get?_pathHeader.mpr ⟨rfl, rfl⟩)
  rw [show decodeUtf16 (js ":path") = ":path".toList by decide] at hlookup
  rw [procedureOf, Header.values, hlookup]
  rfl

/-- A header that is not `set-cookie` has one value in Go, the one it has in
    the browser. -/
theorem get_unmarshals (h : Unmarshals call.header (pathHeader call.path) headers)
    {name : HeaderName} {key : GoString} {value : HeaderValue}
    (hkey : canonicalHeaderKey key = canonicalHeaderKey (decodeUtf16 name.units))
    (hcookie : name ≠ Headers.setCookie) (hvalue : call.header.get name = some value) :
    headers.get key = decodeUtf16 value.units := by
  have hyielded : call.header.yielded name = [value] := by
    rw [Headers.yielded, if_neg hcookie, hvalue]
    rfl
  have hmem : name ∈ call.header.keys := by
    rw [← Headers.yielded_ne_nil, hyielded]
    exact List.cons_ne_nil _ _
  rw [Header.get, Header.values, hkey, h.values name hmem, hyielded]
  rfl

theorem get_unmarshals_none (h : Unmarshals call.header (pathHeader call.path) headers)
    {name : HeaderName} {key : GoString}
    (hkey : canonicalHeaderKey key = canonicalHeaderKey (decodeUtf16 name.units))
    (habsent : name ∉ call.header.keys) : headers.get key = [] := by
  have hnone : headers.lookup (canonicalHeaderKey key) = none := by
    rw [AList.lookup_eq_none]
    intro hmem
    have hspells : Spells (canonicalHeaderKey key) name := hkey ▸ spells_canonical name
    rcases h.keys _ hmem with ⟨name', hname', hspells'⟩ | ⟨pseudo, hpseudo, heq⟩
    · rw [spells_unique hspells hspells'] at habsent
      exact habsent hname'
    · obtain rfl := List.mem_singleton.mp hpseudo
      have hnot := not_isPseudo_of_spells hspells
      rw [← heq] at hnot
      have hpath : isPseudo (decodeUtf16 (js ":path")) = true := by decide
      cases hpath.symm.trans hnot
  rw [Header.get, Header.values, hnone]
  rfl

end Headers

-- ============================================================================
-- The request
-- ============================================================================

section Request

variable {call : StreamCall μ} {srv : ServerConfig κ μ} {codec : Codec μ} {sent : List μ}
  {written : List Envelope} {conn : κ} {after : BidiProtocol.Session κ}

/-- A handler has been called with the headers of a call. -/
structure Answered (call : StreamCall μ) (srv : ServerConfig κ μ) (codec : Codec μ)
    (sent : List μ) (after : BidiProtocol.Session κ) (log : List (Transfer μ))
    (headers : Header) : Prop where
  unmarshals : Unmarshals call.header (pathHeader call.path) headers
  request : receivedMessages log <+: sent
  served : ∃ opening ending, ending.flag = flagEnvelopeEndStream ∧
    Served srv headers codec opening ending after log

theorem StreamCall.Requested.cases (h : call.Requested sent written) {env : Envelope}
    {rest : List Envelope} (hle : env :: rest <+: written) :
    env.flag = flagEnvelopeHeaders ∧
      encodeHeadersFrame call.header (pathHeader call.path) = .ok env.payload ∧
      rest <+: sent.map call.message := by
  cases h with
  | unopened => cases List.prefix_nil.mp hle
  | opened sent hencode =>
      obtain ⟨rfl, hrest⟩ := List.cons_prefix_cons.mp hle
      exact ⟨rfl, hencode, hrest⟩

/-- What the browser has serialized the server unmarshals. -/
theorem filterMap_decode_message
    (hserialize : ∀ msg, codec.unmarshalRead (call.serialize msg) = .ok msg)
    (compressors : AList (fun _ : GoString => Compressor)) (encoding : GoString) (sent : List μ) :
    (sent.map call.message).filterMap (decode codec compressors encoding) = sent := by
  have hdecode : ∀ msg, decode codec compressors encoding (call.message msg) = some msg := by
    intro msg
    have hpayload : decodePayload compressors encoding (call.message msg) =
        .ok (call.serialize msg) := if_neg (by decide : flagEnvelopeData ≠ flagEnvelopeCompressed)
    rw [decode, hpayload]
    simp only [hserialize]
    rfl
  rw [List.filterMap_map]
  have hsome : (decode codec compressors encoding ∘ call.message) = some := funext hdecode
  rw [hsome, List.filterMap_some]

/-- No message ends a request. -/
theorem filter_isMessage_filter (envs : List Envelope) :
    (envs.filter fun env => env.flag ≠ flagEnvelopeEndStream).filter Envelope.isMessage =
      envs.filter Envelope.isMessage := by
  rw [List.filter_filter]
  refine List.filter_congr fun env _ => ?_
  cases hmessage : env.isMessage with
  | false => rfl
  | true => exact decide_eq_true (flags_of_isMessage hmessage).2.1

theorem answered_or_refused (hagreed : call.Agreed srv codec)
    (hrequested : call.Requested sent written)
    (hserve : handleRPC srv { conn := conn } = some after)
    (hup : List.IsPrefix (after.received.filter fun env => env.flag ≠ flagEnvelopeEndStream)
      written) :
    (∃ headers session, dispatched srv { conn := conn } = some (headers, codec, session) ∧
        Answered call srv codec sent after (rpcTransfers srv { conn := conn }) headers) ∨
      dispatched srv { conn := conn } = none ∧ rpcTransfers srv { conn := conn } = [] ∧
        after.written = [] := by
  rcases handleRPC_cases hserve with ⟨headers, codec', session, hdispatched, rfl⟩ | ⟨hnot, rfl⟩
  · obtain ⟨opening, hread, hopening, hheaders, hcodec⟩ := dispatched_eq_some hdispatched
    obtain ⟨hreads, hwrites⟩ :
        session.reads = [(.headers, .ok opening)] ∧ session.writes = [] := by
      obtain ⟨hfirst, rfl⟩ := Prod.mk.inj hread
      exact ⟨congrArg (fun r => [(Awaits.headers, r)]) hfirst, rfl⟩
    have htransfers : rpcTransfers srv { conn := conn } =
        callTransfers srv headers codec' session := by
      rw [rpcTransfers, hdispatched]
      rfl
    rw [htransfers]
    have hserved : Served srv headers codec' opening
        ⟨flagEnvelopeEndStream, endPayload srv headers codec' session⟩
        (serveCall srv headers codec' session) (callTransfers srv headers codec' session) :=
      served hagreed.unlimited hreads hwrites
    obtain ⟨⟨rest, hreceived⟩, hmessages⟩ := hserved.messages hopening
    -- what the server has read are the headers, and messages up to the end
    have hnoEnd : opening.flag ≠ flagEnvelopeEndStream := by
      rw [hopening]
      decide
    have hsplit : (opening :: rest).filter (fun env => env.flag ≠ flagEnvelopeEndStream) =
        opening :: rest.filter fun env => env.flag ≠ flagEnvelopeEndStream :=
      List.filter_cons_of_pos (decide_eq_true hnoEnd)
    rw [hreceived, hsplit] at hup
    obtain ⟨-, hencode, hrest⟩ := hrequested.cases hup
    obtain ⟨headers', hunmarshal, hunmarshals⟩ := unmarshals_encoded srv.rangeHeaders
      (pseudoHeaders_pathHeader hagreed.path) hencode
    obtain rfl : headers' = headers := Option.some.inj (hunmarshal.symm.trans hheaders)
    obtain ⟨contentType, hcontentType, hnegotiated⟩ := hagreed.negotiated
    have hget : headers'.get "Content-Type".toList = decodeUtf16 contentType.units :=
      get_unmarshals hunmarshals (by decide +kernel) (by decide) hcontentType
    obtain rfl : codec' = codec := by
      rw [hget, hnegotiated] at hcodec
      exact (Option.some.inj hcodec).symm
    refine Or.inl ⟨headers', session, hdispatched, hunmarshals, ?_, opening, _, rfl, hserved⟩
    rw [hserved.received, hmessages, hreceived,
      List.filter_cons_of_neg (by simp [isMessage_opening hopening])]
    have hall : rest.filter Envelope.isMessage <+: sent.map call.message := by
      have hmessage : ∀ env ∈ sent.map call.message, env.isMessage = true := by
        intro env henv
        obtain ⟨msg, -, rfl⟩ := List.mem_map.mp henv
        rfl
      have hboth := hrest.filter Envelope.isMessage
      rw [filter_isMessage_filter, List.filter_eq_self.mpr hmessage] at hboth
      exact hboth
    have hdecoded := hall.filterMap (decode codec' srv.opts.compressors
      ((requestInfo srv headers').requestHeader.get contentEncoding))
    rw [filterMap_decode_message hagreed.serialize] at hdecoded
    exact hdecoded
  · refine Or.inr ⟨hnot, ?_, rfl⟩
    rw [rpcTransfers, hnot]
    rfl

end Request

-- ============================================================================
-- The response
-- ============================================================================

section Response

variable {call : StreamCall μ} {srv : ServerConfig κ μ} {codec : Codec μ} {answer : List μ}
  {envs ends : List Envelope}

/-- A browser accepts no compressor, so the server uses none. -/
theorem negotiatedFor_eq_none (hagreed : call.Agreed srv codec) {headers : Header}
    (h : Unmarshals call.header (pathHeader call.path) headers) :
    ServerStream.negotiatedFor srv (requestInfo srv headers).requestHeader = none := by
  have hget :
      headers.get acceptEncoding = [] := get_unmarshals_none h (by decide +kernel) hagreed.accept
  rw [ServerStream.negotiatedFor, get_requestInfo srv (wireKeys_of_unmarshals h) (by decide), hget]
  show ([[]].findSome? fun part => (srv.opts.compressors.lookup (trimSpace part)).map _) = none
  rw [List.findSome?_singleton, show trimSpace [] = [] from rfl, hagreed.unnamed]
  rfl

namespace StreamCall

variable (call : StreamCall μ)

/-- The loops read message `msg` off `env`. -/
def Reads (msg : μ) (env : Envelope) : Prop :=
  env.flag = flagEnvelopeData ∧ call.parse env.payload = .ok msg

/-- How an end-stream ends `iterate()`. -/
def told (payload : Bytes) : Ending :=
  match call.endStreamFromJson payload with
  | .error reason => .thrown { reason }
  | .ok { error := some error, .. } => .thrown error
  | .ok { error := none, .. } => .done

/-- How an end-stream ends `parseResponseBody()` in front of the end of the
    stream. -/
def toldBefore (responseHeaders : Headers) (ending : Ending) (payload : Bytes) : Ending :=
  match call.endStreamFromJson payload with
  | .error reason => .thrown { reason }
  | .ok { error := some error, .. } =>
      .thrown { error with
        metadata := responseHeaders.entries.foldl (fun t e => t.append e.1 e.2) error.metadata }
  | .ok { error := none, .. } => ending

end StreamCall

theorem item_of_reads {msg : μ} {env : Envelope} (h : call.Reads msg env) :
    item call.parse call.endStreamFromJson env = .message msg := by
  have hend : env.flag ≠ flagEnvelopeEndStream := by
    rw [h.1]
    decide
  have hmessage : env.isMessage = true := Envelope.isMessage_iff.mpr (Or.inl h.1)
  rw [item, if_neg hend, if_pos hmessage, h.2]

/-- A loop yields the messages up to the end-stream, which tells how it ends. -/
structure Yields (call : StreamCall μ) (loop : List Envelope → Web.Decoded μ)
    (told : Bytes → Ending) : Prop where
  nil : (loop []).messages = []
  message : ∀ msg env rest, call.Reads msg env → loop (env :: rest) = (loop rest).yield msg
  endStream : ∀ env, env.flag = flagEnvelopeEndStream →
    (loop [env]).messages = [] ∧ (loop [env]).ending = told env.payload

theorem yields_iterateLoop (call : StreamCall μ) (ending : Ending) (t : Headers) :
    Yields call (fun es => iterateLoop call.parse call.endStreamFromJson ending es t)
      call.told where
  nil := rfl
  message := by
    intro msg env rest hmsg
    simp only [iterateLoop_cons, item_of_reads hmsg]
  endStream := by
    intro env hend
    simp only [iterateLoop, if_pos hend, StreamCall.told]
    cases call.endStreamFromJson env.payload with
    | error reason => exact ⟨rfl, rfl⟩
    | ok endStream =>
        obtain ⟨metadata, error⟩ := endStream
        cases error <;> exact ⟨rfl, rfl⟩

theorem yields_parseLoop (call : StreamCall μ) (responseHeaders : Headers) (ending : Ending)
    (t : Headers) :
    Yields call
      (fun es => parseLoop call.parse call.endStreamFromJson responseHeaders ending es false t)
      (call.toldBefore responseHeaders ending) where
  nil := by cases ending <;> rfl
  message := by
    intro msg env rest hmsg
    simp only [parseLoop_cons, item_of_reads hmsg]
  endStream := by
    intro env hend
    have hother : ¬ (env.flag = flagEnvelopeData ∨ env.flag = flagEnvelopeCompressed) := by
      rw [hend]
      decide
    simp only [parseLoop, if_neg hother, if_pos hend, StreamCall.toldBefore]
    cases call.endStreamFromJson env.payload with
    | error reason => exact ⟨rfl, rfl⟩
    | ok endStream =>
        obtain ⟨metadata, error⟩ := endStream
        cases error with
        | some error => exact ⟨rfl, rfl⟩
        | none => cases ending <;> exact ⟨rfl, rfl⟩

variable {loop : List Envelope → Web.Decoded μ} {told : Bytes → Ending}

/-- Behind the messages, which it reads, a loop finds the end of the response. -/
theorem Yields.responded (hloop : Yields call loop told)
    (hreads : List.Forall₂ call.Reads answer envs)
    (hends : ends = [] ∨ ∃ env, env.flag = flagEnvelopeEndStream ∧ ends = [env])
    {es : List Envelope} (hes : es <+: envs ++ ends) :
    (loop es).messages <+: answer ∧
      ∀ env ∈ es, env.flag = flagEnvelopeEndStream →
        (loop es).messages = answer ∧ (loop es).ending = told env.payload := by
  induction hreads generalizing es with
  | nil =>
      cases es with
      | nil => exact ⟨hloop.nil ▸ List.prefix_rfl, nofun⟩
      | cons env rest =>
          rcases hends with rfl | ⟨last, hlast, rfl⟩
          · cases List.prefix_nil.mp hes
          · obtain ⟨rfl, hrest⟩ := List.cons_prefix_cons.mp hes
            obtain rfl := List.prefix_nil.mp hrest
            obtain ⟨hnone, hending⟩ := hloop.endStream env hlast
            refine ⟨hnone ▸ List.prefix_rfl, fun e he _ => ?_⟩
            obtain rfl := List.mem_singleton.mp he
            exact ⟨hnone, hending⟩
  | @cons msg env answer envs hmsg hreads ih =>
      cases es with
      | nil => exact ⟨hloop.nil ▸ List.nil_prefix, nofun⟩
      | cons env' rest =>
          obtain ⟨rfl, hrest⟩ := List.cons_prefix_cons.mp hes
          obtain ⟨hle, hwhole⟩ := ih hrest
          rw [hloop.message msg env' rest hmsg]
          refine ⟨List.cons_prefix_cons.mpr ⟨rfl, hle⟩, fun e he hend => ?_⟩
          have hbehind : e ∈ rest := by
            rcases List.mem_cons.mp he with rfl | he
            · rw [hmsg.1] at hend
              cases hend
            · exact he
          obtain ⟨hmessages, hending⟩ := hwhole e hbehind hend
          exact ⟨congrArg (msg :: ·) hmessages, hending⟩

/-- The messages and the end of the response, as they come behind its headers. -/
theorem Answered.response (hagreed : call.Agreed srv codec) {sent : List μ}
    {after : BidiProtocol.Session κ} {log : List (Transfer μ)} {headers : Header}
    (h : Answered call srv codec sent after log headers) :
    ∃ envs ends, List.Forall₂ call.Reads (sentMessages log) envs ∧
      (ends = [] ∨ ∃ env, env.flag = flagEnvelopeEndStream ∧ ends = [env]) ∧
      after.written.tail <+: envs ++ ends := by
  obtain ⟨opening, ending, hending, hserved⟩ := h.served
  obtain ⟨ends, hends, hwritten⟩ := hserved.written
  have hends' : ends = [] ∨ ∃ env, env.flag = flagEnvelopeEndStream ∧ ends = [env] :=
    hends.imp id fun hone => ⟨ending, hending, hone⟩
  rw [negotiatedFor_eq_none hagreed h.unmarshals] at hwritten
  rcases hwritten with ⟨hwritten, hnone⟩ | ⟨first, envs, hwritten, -, hall⟩
  · -- without headers there is nothing behind them
    refine ⟨[], [], hnone ▸ .nil, Or.inl rfl, ?_⟩
    rw [hwritten]
    rcases hends with rfl | rfl <;> exact List.prefix_rfl
  · refine ⟨envs, ends, hall.imp fun msg env henv => ?_, hends', hwritten ▸ List.prefix_rfl⟩
    rcases henv.cases with ⟨hflag, hmarshal⟩ | ⟨c, payload, hsome, -⟩
    · exact ⟨hflag, hagreed.parse msg env.payload hmarshal⟩
    · cases hsome

end Response

-- ============================================================================
-- The call and its RPC
-- ============================================================================

/-- What has come of the messages of a call, of which the browser has read
    the envelopes `read`. -/
structure BrowserExchanged (call : StreamCall μ) (srv : ServerConfig κ μ) (codec : Codec μ)
    (conn : κ) (sent : List μ) (read : List Envelope) (loop : List Envelope → Web.Decoded μ)
    (told : Bytes → Ending) : Prop where
  /-- A handler is called for the path of the call, and with its headers. -/
  called : ∀ headers codec' session,
    dispatched srv { conn := conn } = some (headers, codec', session) →
      procedureOf headers = decodeUtf16 call.path ∧
        Unmarshals call.header (pathHeader call.path) headers
  /-- It has received the first messages of the browser, in order. -/
  request : receivedMessages (rpcTransfers srv { conn := conn }) <+: sent
  /-- However far the loop has got, it has yielded the first ones of the handler. -/
  response : ∀ es, es <+: read.tail →
    (loop es).messages <+: sentMessages (rpcTransfers srv { conn := conn })
  /-- A loop that has come to the end-stream has yielded all, and ends as told. -/
  whole : ∀ es, es <+: read.tail → ∀ env ∈ es, env.flag = flagEnvelopeEndStream →
    (loop es).messages = sentMessages (rpcTransfers srv { conn := conn }) ∧
      (loop es).ending = told env.payload

/-- What a browser has read behind the headers are the messages of the handler
    and the end of the response, as far as it has got. -/
theorem responded {call : StreamCall μ} {srv : ServerConfig κ μ} {codec : Codec μ} {sent : List μ}
    {written read : List Envelope} {conn : κ} {after : BidiProtocol.Session κ}
    (hagreed : call.Agreed srv codec) (hrequested : call.Requested sent written)
    (hserve : handleRPC srv { conn := conn } = some after)
    (hup : List.IsPrefix (after.received.filter fun env => env.flag ≠ flagEnvelopeEndStream)
      written)
    (hdown : read <+: after.written) :
    receivedMessages (rpcTransfers srv { conn := conn }) <+: sent ∧
      ∃ envs ends, List.Forall₂ call.Reads (sentMessages (rpcTransfers srv { conn := conn })) envs ∧
        (ends = [] ∨ ∃ env, env.flag = flagEnvelopeEndStream ∧ ends = [env]) ∧
        read.tail <+: envs ++ ends := by
  have htail : read.tail <+: after.written.tail := by
    simpa only [List.drop_one] using hdown.drop 1
  rcases answered_or_refused hagreed hrequested hserve hup with
    ⟨headers, session, -, hanswered⟩ | ⟨-, hlog, hempty⟩
  · obtain ⟨envs, ends, hreads, hends, hbehind⟩ := hanswered.response hagreed
    exact ⟨hanswered.request, envs, ends, hreads, hends, htail.trans hbehind⟩
  · rw [hempty] at htail
    rw [hlog]
    exact ⟨List.nil_prefix, [], [], .nil, Or.inl rfl, htail⟩

theorem browserExchanged {call : StreamCall μ} {srv : ServerConfig κ μ} {codec : Codec μ}
    {sent : List μ} {written read : List Envelope} {conn : κ} {after : BidiProtocol.Session κ}
    {loop : List Envelope → Web.Decoded μ} {told : Bytes → Ending}
    (hagreed : call.Agreed srv codec) (hloop : Yields call loop told)
    (hrequested : call.Requested sent written)
    (hserve : handleRPC srv { conn := conn } = some after)
    (hup : List.IsPrefix (after.received.filter fun env => env.flag ≠ flagEnvelopeEndStream)
      written)
    (hdown : read <+: after.written) :
    BrowserExchanged call srv codec conn sent read loop told := by
  obtain ⟨hrequest, envs, ends, hreads, hends, hread⟩ :=
    responded hagreed hrequested hserve hup hdown
  have hresponded : ∀ es, es <+: read.tail → _ := fun es hes =>
    hloop.responded hreads hends (hes.trans hread)
  refine ⟨fun headers' codec' session' h => ?_, hrequest, fun es hes => (hresponded es hes).1,
    fun es hes => (hresponded es hes).2⟩
  rcases answered_or_refused hagreed hrequested hserve hup with
    ⟨headers, session, hdispatched, hanswered⟩ | ⟨hnot, -, -⟩
  · obtain ⟨rfl, -⟩ := Prod.mk.inj (Option.some.inj (hdispatched.symm.trans h))
    exact ⟨procedureOf_unmarshals hanswered.unmarshals, hanswered.unmarshals⟩
  · rw [hnot] at h
    cases h

end Interop
end BidiWeb
