/-
  BidiWeb.Core.UnaryFailure

  What `writeResponse` makes of a unary response that is not a success: the
  end-stream carries an error, and the body of the response has one in JSON.

  The body is parsed as it is.  One that is encoded is taken for no error at
  all, and the status, which says less, stands in for it.
-/

import BidiWeb.Core.AnsweredRequest

namespace BidiWeb
namespace Core

open BidiWeb.Lib

-- ============================================================================
-- Errors in JSON
-- ============================================================================

/-- What an error says. -/
structure ErrorContent where
  code : Code
  message : JsString
  details : List (JsString × Bytes)
deriving DecidableEq

def ConnectError.content (e : ConnectError) : ErrorContent := ⟨e.code, e.rawMessage, e.details⟩

/-- The functions of `@connectrpc/connect` by which JSON is an error. -/
structure ErrorFormat where
  codeFromString : JsString → Option Code
  base64Decode : JsString → Option Bytes
  /-- `errorFromJson`: what it returns, or else throws, given a fallback. -/
  errorFromJson : Json → ErrorContent → ErrorContent

def stringProperty (v : Json) (name : JsString) : Option JsString :=
  match v.property name with
  | some (some (.str units)) => some units
  | _ => none

/-- An empty message is left out. -/
def errorMessage (v : Json) : Option JsString :=
  match v.property (js "message") with
  | some none => some []
  | some (some (.str units)) => some units
  | _ => none

namespace ErrorFormat

variable (fmt : ErrorFormat)

def errorDetail (v : Json) : Option (JsString × Bytes) := do
  let type ← stringProperty v (js "type")
  let text ← stringProperty v (js "value")
  let value ← fmt.base64Decode text
  some (type, value)

def errorDetails (v : Json) : Option (List (JsString × Bytes)) :=
  match v.property (js "details") with
  | some none => some []
  | some (some (.arr details)) => details.mapM fmt.errorDetail
  | _ => none

/-- The error that a value is the Connect JSON encoding of. -/
def readError (v : Json) : Option ErrorContent := do
  let name ← stringProperty v (js "code")
  let code ← fmt.codeFromString name
  let message ← errorMessage v
  let details ← fmt.errorDetails v
  some ⟨code, message, details⟩

/-- The error that a text is the Connect JSON encoding of. -/
def readText (text : Bytes) : Option ErrorContent := (parsePayload text).bind fmt.readError

/-- What the bytes of a body come to as they are. -/
def readPlain (body : Bytes) (fallback : ErrorContent) : ErrorContent :=
  match parsePayload body with
  | none => fallback
  | some v => fmt.errorFromJson v fallback

/-- The error of an end-stream. -/
def endStreamError (payload : Bytes) : Option ErrorContent :=
  (parsePayload payload).bind fun message =>
    match message.property (js "error") with
    | some (some v) => fmt.readError v
    | _ => none

def Carries (payload : Bytes) (content : ErrorContent) : Prop :=
  fmt.endStreamError payload = some content

/-- A code that has a name. -/
def IsCode (code : Code) : Prop := ∃ name, fmt.codeFromString name = some code

end ErrorFormat

/-- The content type is one of JSON. -/
def namesJson (platform : Platform) (headers : Headers) : Bool :=
  match platform.parseContentType (headers.get headerContentType) with
  | some parsed => !parsed.binary
  | none => false

def statusContent (platform : Platform) (status : Nat) : ErrorContent :=
  (statusError platform status).content

/-- What is relied on of `@connectrpc/connect`. -/
structure ErrorFormat.Documented (fmt : ErrorFormat) (platform : Platform) : Prop where
  /-- `errorFromJson` reads what is the encoding of an error. -/
  accepts : ∀ v content fallback, fmt.readError v = some content →
    fmt.errorFromJson v fallback = content
  /-- `errorFromJsonBytes` parses plain JSON, and decompresses nothing. -/
  fromBytes : ∀ body headers fallback, ∃ e : ConnectError,
    (platform.errorFromJsonBytes body headers fallback = .ok e ∨
      platform.errorFromJsonBytes body headers fallback = .error (.connectError e)) ∧
    e.content = fmt.readPlain body fallback.content
  /-- `validateResponse` returns the error of the status for a body in JSON. -/
  unaryError : ∀ status headers, status ≠ 200 → namesJson platform headers = true →
    ∃ e, platform.validateResponse .unary status headers = .ok (some e) ∧
      e.content = statusContent platform status
  /-- It throws that error for any other. -/
  rejected : ∀ status headers, status ≠ 200 → namesJson platform headers = false →
    ∃ e, platform.validateResponse .unary status headers = .error (.connectError e) ∧
      e.content = statusContent platform status
  /-- `endStreamSerialization` writes the error of an end-stream in JSON. -/
  serializes : ∀ trailer (e : ConnectError), fmt.IsCode e.code →
    ∃ payload, platform.serializeEndStream trailer (some e) = .ok payload ∧
      fmt.Carries payload e.content
  isCode_status : ∀ status, fmt.IsCode (platform.codeFromHttpStatus status)
  isCode_errorFromJson : ∀ v fallback, fmt.IsCode fallback.code →
    fmt.IsCode (fmt.errorFromJson v fallback).code

-- ============================================================================
-- Encoded bodies
-- ============================================================================

/-- What decodes a body, for the name of its encoding. -/
abbrev Decoders := JsString → Option (Bytes → Option Bytes)

/-- The headers name no encoding, or that of bytes as they are. -/
def Unencoded (headers : Headers) : Prop :=
  ∀ encoding, headers.get headerUnaryEncoding = some encoding →
    encoding.toLowerCase = js "identity"

/-- `body` is `text` in the encoding that the headers name, if any. -/
def EncodesText (decoders : Decoders) (headers : Headers) (body text : Bytes) : Prop :=
  match headers.get headerUnaryEncoding with
  | none => body = text
  | some encoding =>
      if encoding.toLowerCase = js "identity" then body = text
      else ∃ decode, decoders encoding.units = some decode ∧ decode body = some text

theorem EncodesText.of_unencoded {decoders : Decoders} {headers : Headers} {body text : Bytes}
    (h : EncodesText decoders headers body text) (hplain : Unencoded headers) : body = text := by
  unfold EncodesText at h
  cases hencoding : headers.get headerUnaryEncoding with
  | none =>
      rw [hencoding] at h
      exact h
  | some encoding =>
      rw [hencoding] at h
      simp only [hplain encoding hencoding, if_true] at h
      exact h

-- ============================================================================
-- The error of a response
-- ============================================================================

/-- Nothing throws on the way to the end-stream of an error. -/
def Writable (platform : Platform) (response : UniversalServerResponse) : Prop :=
  ∃ header trailer, platform.trailerDemux response.headers = .ok (header, trailer) ∧
    EncodableHeaders header

variable {fmt : ErrorFormat} {platform : Platform} {response : UniversalServerResponse}
  {body : Bytes}

/-- The body counts for a content type of JSON, and only as it is. -/
theorem content_responseError (hdoc : fmt.Documented platform) (hstatus : response.status ≠ 200)
    (hbody : response.bodyBytes = .ok body) :
    (responseError platform .unary response).content =
      if namesJson platform response.headers then
        fmt.readPlain body (statusContent platform response.status)
      else statusContent platform response.status := by
  unfold responseError
  cases hjson : namesJson platform response.headers with
  | false =>
      obtain ⟨e, hthrown, hcontent⟩ := hdoc.rejected response.status response.headers hstatus hjson
      rw [hthrown]
      exact hcontent
  | true =>
      obtain ⟨e, hvalid, hcontent⟩ := hdoc.unaryError response.status response.headers hstatus hjson
      rw [hvalid, hbody, if_pos rfl, ← hcontent]
      obtain ⟨e', hread, hcontent'⟩ := hdoc.fromBytes body response.headers e
      rw [← hcontent']
      rcases hread with hok | herror
      · simp only [bind, Except.bind, hok]
      · simp only [bind, Except.bind, herror]

theorem isCode_responseError (hdoc : fmt.Documented platform) (hstatus : response.status ≠ 200)
    (hbody : response.bodyBytes = .ok body) :
    fmt.IsCode (responseError platform .unary response).code := by
  have hfallback : fmt.IsCode (statusContent platform response.status).code :=
    hdoc.isCode_status response.status
  show fmt.IsCode (responseError platform .unary response).content.code
  rw [content_responseError hdoc hstatus hbody]
  split
  · unfold ErrorFormat.readPlain
    split
    · exact hfallback
    · exact hdoc.isCode_errorFromJson _ _ hfallback
  · exact hfallback

-- ============================================================================
-- What is written
-- ============================================================================

variable {socket : DuplexByteStream}

/-- An end-stream envelope is written that carries an error. -/
def Emits (fmt : ErrorFormat) (written : List Write) (content : ErrorContent) : Prop :=
  ∃ payload, .envelope ⟨flagEnvelopeEndStream, payload⟩ ∈ written ∧ fmt.Carries payload content

theorem not_emits_nil (content : ErrorContent) : ¬ Emits fmt [] content := by
  rintro ⟨payload, hmem, -⟩
  cases hmem

/-- Of an error response, the end-stream is the only one. -/
theorem emits_envelopes_iff {headersPayload payload : Bytes} {content content' : ErrorContent}
    (hcarries : fmt.Carries payload content) :
    Emits fmt [.envelope ⟨flagEnvelopeHeaders, headersPayload⟩,
        .envelope ⟨flagEnvelopeEndStream, payload⟩] content' ↔ content = content' := by
  constructor
  · rintro ⟨payload', hmem, hcarries'⟩
    rcases List.mem_cons.mp hmem with hheaders | hend
    · cases hheaders
    · obtain rfl : payload' = payload := by
        cases List.mem_singleton.mp hend
        rfl
      exact Option.some.inj (hcarries.symm.trans hcarries')
  · rintro rfl
    exact ⟨payload, List.mem_cons_of_mem _ (List.mem_singleton_self _), hcarries⟩

theorem writeErrorResponse_emits_iff (hwrites : ∀ written, socket.writeError written = none)
    (hdoc : fmt.Documented platform) {error : ConnectError} (hcode : fmt.IsCode error.code)
    {header trailer : Headers} {content : ErrorContent} :
    Emits fmt ((writeErrorResponse platform socket error header trailer).run []).2 content ↔
      EncodableHeaders header ∧ error.content = content := by
  rw [← encodeHeadersFrame_ok_iff header {}]
  unfold writeErrorResponse
  cases hencode : encodeHeadersFrame header {} with
  | error err =>
      have hrun : (writeHeaders socket header).run [] = (.error (.jsError err), []) := by
        rw [writeHeaders, hencode]
        rfl
      rw [Async.run_bind_error hrun]
      refine iff_of_false (not_emits_nil content) ?_
      rintro ⟨⟨payload, hok⟩, -⟩
      cases hok
  | ok headersPayload =>
      obtain ⟨payload, hserialize, hcarries⟩ := hdoc.serializes trailer error hcode
      rw [Async.run_bind_ok (run_writeHeaders hwrites hencode []),
        run_writeEndStream hwrites hserialize]
      exact (emits_envelopes_iff hcarries).trans (and_iff_right ⟨headersPayload, rfl⟩).symm

/-- For a unary response that is no success, its end-stream carries the error
    that `writeResponse` has come to. -/
theorem writeResponse_emits_iff (hwrites : ∀ written, socket.writeError written = none)
    (hdoc : fmt.Documented platform) (hstatus : response.status ≠ 200)
    (hbody : response.bodyBytes = .ok body) {content : ErrorContent} :
    Emits fmt ((writeResponse platform socket .unary response).run []).2 content ↔
      Writable platform response ∧
        (responseError platform .unary response).content = content := by
  unfold writeResponse Writable
  rw [if_neg hstatus]
  cases hdemux : platform.trailerDemux response.headers with
  | error err =>
      refine iff_of_false ?_ ?_
      · exact not_emits_nil content
      · rintro ⟨⟨header, trailer, hok, -⟩, -⟩
        cases hok
  | ok demuxed =>
      obtain ⟨header, trailer⟩ := demuxed
      have hcode := isCode_responseError hdoc hstatus hbody
      refine (writeErrorResponse_emits_iff hwrites hdoc hcode).trans (and_congr_left fun _ => ?_)
      rw [encodable_mirror]
      constructor
      · exact fun hencodable => ⟨header, trailer, rfl, hencodable⟩
      · rintro ⟨header', trailer', hok, hencodable⟩
        cases hok
        exact hencodable

-- ============================================================================
-- Errors that are kept
-- ============================================================================

theorem readPlain_of_readText (hdoc : fmt.Documented platform) {text : Bytes}
    {content : ErrorContent} (htext : fmt.readText text = some content)
    (fallback : ErrorContent) : fmt.readPlain text fallback = content := by
  obtain ⟨v, hparse, hread⟩ := Option.bind_eq_some_iff.mp htext
  rw [ErrorFormat.readPlain, hparse]
  exact hdoc.accepts v content fallback hread

/-- A plain body counts for what it says. -/
theorem content_of_unencoded (hdoc : fmt.Documented platform) (hstatus : response.status ≠ 200)
    (hbody : response.bodyBytes = .ok body) {decoders : Decoders} {text : Bytes}
    (hencodes : EncodesText decoders response.headers body text) {content : ErrorContent}
    (htext : fmt.readText text = some content)
    (hjson : namesJson platform response.headers = true) (hplain : Unencoded response.headers) :
    (responseError platform .unary response).content = content := by
  rw [content_responseError hdoc hstatus hbody, if_pos hjson, hencodes.of_unencoded hplain]
  exact readPlain_of_readText hdoc htext _

/-- An error that says more than the status comes from a body that is JSON as
    it is. -/
theorem json_of_content (hdoc : fmt.Documented platform) (hstatus : response.status ≠ 200)
    (hbody : response.bodyBytes = .ok body) {content : ErrorContent}
    (hmore : content ≠ statusContent platform response.status)
    (hcontent : (responseError platform .unary response).content = content) :
    namesJson platform response.headers = true ∧ (parsePayload body).isSome = true := by
  rw [content_responseError hdoc hstatus hbody] at hcontent
  split at hcontent
  · rename_i hjson
    refine ⟨hjson, ?_⟩
    cases hparse : parsePayload body with
    | none =>
        rw [ErrorFormat.readPlain, hparse] at hcontent
        exact absurd hcontent.symm hmore
    | some v => rfl
  · exact absurd hcontent.symm hmore

/-- The first byte of a gzip file is no start of JSON. -/
theorem parsePayload_gzip (rest : Bytes) : parsePayload (0x1F :: rest) = none := by
  have hfirst : Unicode.firstChar (0x1F :: rest) = (some (Char.ofNat 0x1F), 1) := rfl
  have htext : Unicode.decodeUtf8 (0x1F :: rest) =
      Char.ofNat 0x1F :: Unicode.decodeUtf8With id rest.length rest :=
    Unicode.decodeUtf8With_of_firstChar (List.cons_ne_nil _ _) hfirst
  have hmark : ¬ Char.ofNat 0x1F = Char.ofNat 0xFEFF := by decide
  simp only [parsePayload, htext, List.head?_cons, Option.some.injEq, if_neg hmark]
  rfl

theorem gzip_error_iff (hdoc : fmt.Documented platform)
    (hwrites : ∀ written, socket.writeError written = none) (hstatus : response.status ≠ 200)
    {rest : Bytes} (hbody : response.bodyBytes = .ok (0x1F :: rest)) {content : ErrorContent} :
    Emits fmt ((writeResponse platform socket .unary response).run []).2 content ↔
      Writable platform response ∧ statusContent platform response.status = content := by
  rw [writeResponse_emits_iff hwrites hdoc hstatus hbody, content_responseError hdoc hstatus hbody,
    ErrorFormat.readPlain, parsePayload_gzip, ite_self]

/-- For every unary response that is no success, with an error in JSON for its
    body, in the encoding that its headers name: the end-stream carries that
    error if the headers can be written, and name JSON and no encoding.  An
    error that says more than the status is carried only if the headers can be
    written and name JSON, and the body is JSON as it is. -/
theorem unary_error_carried (fmt : ErrorFormat) (platform : Platform)
    (hdoc : fmt.Documented platform) (socket : DuplexByteStream)
    (response : UniversalServerResponse) (decoders : Decoders) (body text : Bytes)
    (content : ErrorContent) (hwrites : ∀ written, socket.writeError written = none)
    (hstatus : response.status ≠ 200) (hbody : response.bodyBytes = .ok body)
    (hencodes : EncodesText decoders response.headers body text)
    (htext : fmt.readText text = some content) :
    (Writable platform response ∧ namesJson platform response.headers = true ∧
        Unencoded response.headers →
      Emits fmt ((writeResponse platform socket .unary response).run []).2 content) ∧
    (content ≠ statusContent platform response.status →
      Emits fmt ((writeResponse platform socket .unary response).run []).2 content →
        Writable platform response ∧ namesJson platform response.headers = true ∧
          (parsePayload body).isSome = true) := by
  rw [writeResponse_emits_iff hwrites hdoc hstatus hbody]
  constructor
  · rintro ⟨hwritable, hjson, hplain⟩
    exact ⟨hwritable, content_of_unencoded hdoc hstatus hbody hencodes htext hjson hplain⟩
  · rintro hmore ⟨hwritable, hcontent⟩
    exact ⟨hwritable, json_of_content hdoc hstatus hbody hmore hcontent⟩

/-- The codes by their names. -/
def codeNames : List (JsString × Code) :=
  [("canceled", 1), ("unknown", 2), ("invalid_argument", 3), ("deadline_exceeded", 4),
    ("not_found", 5), ("already_exists", 6), ("permission_denied", 7), ("resource_exhausted", 8),
    ("failed_precondition", 9), ("aborted", 10), ("out_of_range", 11), ("unimplemented", 12),
    ("internal", 13), ("unavailable", 14), ("data_loss", 15), ("unauthenticated", 16)].map
      fun e => (js e.1, e.2)

def codeOfName (name : JsString) : Option Code :=
  (codeNames.find? fun e => e.1 = name).map (·.2)

def nameOfCode (code : Code) : JsString :=
  ((codeNames.find? fun e => e.2 = code).map (·.1)).getD []

/-- Errors with their values in Latin-1. -/
def latinFormat : ErrorFormat where
  codeFromString := codeOfName
  base64Decode := fun text => some (text.map (·.toUInt8))
  errorFromJson := fun v fallback =>
    let fmt : ErrorFormat :=
      { codeFromString := codeOfName
        base64Decode := fun text => some (text.map (·.toUInt8))
        errorFromJson := fun _ fallback => fallback }
    (fmt.readError v).getD fallback

def detailJson (detail : JsString × Bytes) : Json :=
  .obj [(js "type", .str detail.1), (js "value", .str (detail.2.map (·.toUInt16)))]

/-- An empty message, and no details, are left out. -/
def errorMembers (content : ErrorContent) : List (JsString × Json) :=
  (js "code", .str (nameOfCode content.code)) ::
    ((if content.message = [] then [] else [(js "message", .str content.message)]) ++
      if content.details = [] then []
      else [(js "details", .arr (content.details.map detailJson))])

/-- The metadata of an end-stream: the trailers, and those of its error. -/
def endStreamMetadata (trailer : Headers) (e : ConnectError) : List (JsString × Json) :=
  (trailer.entries ++ e.metadata.entries).map fun entry =>
    (entry.1.units, .arr [.str entry.2.units])

def endStreamMembers (trailer : Headers) (e : ConnectError) : List (JsString × Json) :=
  (js "error", .obj (errorMembers e.content)) ::
    if endStreamMetadata trailer e = [] then []
    else [(js "metadata", .obj (endStreamMetadata trailer e))]

theorem codeOfName_nameOfCode {code : Code} (hcode : latinFormat.IsCode code) :
    codeOfName (nameOfCode code) = some code := by
  have hall : ∀ e ∈ codeNames, codeOfName (nameOfCode e.2) = some e.2 := by decide +kernel
  obtain ⟨name, hname⟩ := hcode
  obtain ⟨e, he, rfl⟩ := Option.map_eq_some_iff.mp hname
  exact hall e (List.mem_of_find?_eq_some he)

theorem errorDetail_detailJson (detail : JsString × Bytes) :
    latinFormat.errorDetail (detailJson detail) = some detail := by
  let members : List (JsString × Json) :=
    [(js "type", .str detail.1), (js "value", .str (detail.2.map (·.toUInt16)))]
  have hnodup : (members.map (·.1)).Nodup := by
    show [js "type", js "value"].Nodup
    decide
  have htype : stringProperty (detailJson detail) (js "type") = some detail.1 := by
    rw [stringProperty, detailJson, Json.property_of_mem hnodup List.mem_cons_self]
  have hvalue : stringProperty (detailJson detail) (js "value") =
      some (detail.2.map (·.toUInt16)) := by
    rw [stringProperty, detailJson,
      Json.property_of_mem hnodup (List.mem_cons_of_mem _ List.mem_cons_self)]
  have hlatin : (detail.2.map (·.toUInt16)).map (·.toUInt8) = detail.2 := by
    rw [List.map_map]
    exact (List.map_congr_left fun b _ => UInt8.toUInt8_toUInt16 b).trans (List.map_id _)
  rw [ErrorFormat.errorDetail, htype, hvalue]
  exact congrArg (fun value => some (detail.1, value)) hlatin

theorem mapM_errorDetail (details : List (JsString × Bytes)) :
    (details.map detailJson).mapM latinFormat.errorDetail = some details := by
  induction details with
  | nil => rfl
  | cons detail details ih =>
      rw [List.map_cons, List.mapM_cons, errorDetail_detailJson, ih]
      rfl

theorem nodup_errorMembers (content : ErrorContent) :
    ((errorMembers content).map (·.1)).Nodup := by
  have hnames : [js "code", js "message", js "details"].Nodup := by decide
  refine List.Nodup.sublist ?_ hnames
  unfold errorMembers
  split <;> split <;> simp

theorem errorMessage_obj (content : ErrorContent) :
    errorMessage (.obj (errorMembers content)) = some content.message := by
  have hother : js "message" ≠ js "code" ∧ js "message" ≠ js "details" := by decide
  unfold errorMessage
  by_cases hempty : content.message = []
  · rw [Json.property_of_notMem (nodup_errorMembers content), hempty]
    simp only [errorMembers, if_pos hempty]
    split <;> simp [hother]
  · rw [Json.property_of_mem (nodup_errorMembers content) (v := .str content.message)]
    simp [errorMembers, hempty]

theorem errorDetails_obj (content : ErrorContent) :
    latinFormat.errorDetails (.obj (errorMembers content)) = some content.details := by
  have hother : js "details" ≠ js "code" ∧ js "details" ≠ js "message" := by decide
  unfold ErrorFormat.errorDetails
  by_cases hempty : content.details = []
  · rw [Json.property_of_notMem (nodup_errorMembers content), hempty]
    simp only [errorMembers, if_pos hempty]
    split <;> simp [hother]
  · rw [Json.property_of_mem (nodup_errorMembers content)
      (v := .arr (content.details.map detailJson))]
    · exact mapM_errorDetail content.details
    · simp [errorMembers, hempty]

/-- What is written of an error is read back. -/
theorem readError_errorMembers {content : ErrorContent}
    (hcode : latinFormat.IsCode content.code) :
    latinFormat.readError (.obj (errorMembers content)) = some content := by
  have hname : stringProperty (.obj (errorMembers content)) (js "code") =
      some (nameOfCode content.code) := by
    rw [stringProperty, Json.property_of_mem (nodup_errorMembers content) List.mem_cons_self]
  have hknown : latinFormat.codeFromString (nameOfCode content.code) = some content.code :=
    codeOfName_nameOfCode hcode
  rw [ErrorFormat.readError, hname, errorMessage_obj, errorDetails_obj]
  simp only [Option.bind_eq_bind, Option.bind_some, hknown]

theorem reads_errorMembers (depth : Nat) (content : ErrorContent) :
    Json.Reads (depth + 3) (Json.obj (errorMembers content)).stringify
      (.obj (errorMembers content)) := by
  have hdetail : ∀ detail : JsString × Bytes,
      Json.Reads (depth + 1) (detailJson detail).stringify (detailJson detail) := by
    intro detail
    apply Json.reads_stringify_obj
    intro m hm
    simp only [List.mem_cons, List.not_mem_nil, or_false] at hm
    rcases hm with rfl | rfl
    · exact Json.reads_stringify_str depth _
    · exact Json.reads_stringify_str depth _
  apply Json.reads_stringify_obj
  intro m hm
  rcases List.mem_cons.mp hm with rfl | hm
  · exact Json.reads_stringify_str (depth + 2) _
  · rcases List.mem_append.mp hm with hmessage | hdetails
    · split at hmessage
      · cases hmessage
      · obtain rfl := List.mem_singleton.mp hmessage
        exact Json.reads_stringify_str (depth + 2) _
    · split at hdetails
      · cases hdetails
      · obtain rfl := List.mem_singleton.mp hdetails
        apply Json.reads_stringify_arr
        intro v hv
        obtain ⟨detail, -, rfl⟩ := List.mem_map.mp hv
        exact hdetail detail

theorem reads_endStreamMembers (depth : Nat) (trailer : Headers) (e : ConnectError) :
    Json.Reads (depth + 4) (Json.obj (endStreamMembers trailer e)).stringify
      (.obj (endStreamMembers trailer e)) := by
  apply Json.reads_stringify_obj
  intro m hm
  rcases List.mem_cons.mp hm with rfl | hm
  · exact reads_errorMembers depth e.content
  · split at hm
    · cases hm
    · obtain rfl := List.mem_singleton.mp hm
      apply Json.reads_stringify_obj
      intro m hm
      obtain ⟨entry, -, rfl⟩ := List.mem_map.mp hm
      apply Json.reads_stringify_arr
      intro v hv
      obtain rfl := List.mem_singleton.mp hv
      exact Json.reads_stringify_str (depth + 1) _

/-- What is written of an end-stream is read back. -/
theorem carries_endStreamMembers {trailer : Headers} {e : ConnectError}
    (hcode : latinFormat.IsCode e.code) :
    latinFormat.Carries (Unicode.encodeUtf8 (Json.obj (endStreamMembers trailer e)).stringify)
      e.content := by
  have hnodup : ((endStreamMembers trailer e).map (·.1)).Nodup := by
    have hnames : [js "error", js "metadata"].Nodup := by decide
    refine List.Nodup.sublist ?_ hnames
    unfold endStreamMembers
    split <;> simp
  have hparse := parsePayload_stringify (fun d => reads_endStreamMembers d trailer e)
    (Json.four_le_length_stringify _ _)
  rw [ErrorFormat.Carries, ErrorFormat.endStreamError, hparse, Option.bind_some,
    Json.property_of_mem hnodup List.mem_cons_self]
  exact readError_errorMembers hcode

/-- `codeFromHttpStatus` -/
def httpCode : Nat → Code
  | 400 => 13
  | 401 => 16
  | 403 => 7
  | 404 => 12
  | 429 | 502 | 503 | 504 => 14
  | _ => 2

def parseJsonType (value : Option HeaderValue) : Option ParsedContentType :=
  if value.map (·.units) = some (js "application/json") then
    some { stream := false, binary := false }
  else none

def httpError (status : Nat) (headers : Headers) : ConnectError :=
  { rawMessage := js "HTTP " ++ js status.repr, code := httpCode status, metadata := headers }

def contentError (content : ErrorContent) (headers : Headers) : ConnectError where
  rawMessage := content.message
  code := content.code
  details := content.details
  metadata := headers

def validateStatus (methodKind : MethodKind) (status : Nat) (headers : Headers) :
    Except Thrown (Option ConnectError) :=
  if status = 200 then .ok none
  else
    match parseJsonType (headers.get headerContentType) with
    | some parsed =>
        if methodKind = .unary ∧ parsed.binary = false then .ok (some (httpError status headers))
        else .error (.connectError (httpError status headers))
    | none => .error (.connectError (httpError status headers))

def errorFromBody (body : Bytes) (headers : Headers) (fallback : ConnectError) :
    Except Thrown ConnectError :=
  match parsePayload body with
  | none => .error (.connectError fallback)
  | some v => .ok (contentError (latinFormat.errorFromJson v fallback.content) headers)

def serializeError (trailer : Headers) : Option ConnectError → Except JsError Bytes
  | some e => .ok (Unicode.encodeUtf8 (Json.obj (endStreamMembers trailer e)).stringify)
  | none => .ok "\x7b\x7d".toUTF8.toList

/-- A platform that reads and writes errors so. -/
def errorPlatform : Platform :=
  { lenientPlatform with
    parseContentType := parseJsonType
    codeFromHttpStatus := httpCode
    validateResponse := validateStatus
    errorFromJsonBytes := errorFromBody
    serializeEndStream := serializeError }

theorem isCode_httpCode (status : Nat) : latinFormat.IsCode (httpCode status) := by
  have hall : ([13, 16, 7, 12, 14, 2] : List Code).all
      (fun code => codeOfName (nameOfCode code) = some code) = true := by
    decide +kernel
  refine ⟨_, of_decide_eq_true (List.all_eq_true.mp hall _ ?_)⟩
  unfold httpCode
  split <;> simp

theorem isCode_errorFromJson {v : Json} {fallback : ErrorContent}
    (hcode : latinFormat.IsCode fallback.code) :
    latinFormat.IsCode (latinFormat.errorFromJson v fallback).code := by
  show latinFormat.IsCode ((latinFormat.readError v).getD fallback).code
  cases hread : latinFormat.readError v with
  | none => exact hcode
  | some content =>
      obtain ⟨name, -, hread⟩ := Option.bind_eq_some_iff.mp hread
      obtain ⟨code, hname, hread⟩ := Option.bind_eq_some_iff.mp hread
      obtain ⟨message, -, hread⟩ := Option.bind_eq_some_iff.mp hread
      obtain ⟨details, -, hread⟩ := Option.bind_eq_some_iff.mp hread
      obtain rfl := Option.some.inj hread
      exact ⟨name, hname⟩

/-- Only what the content type says counts. -/
theorem validateStatus_unary {status : Nat} {headers : Headers} (hstatus : status ≠ 200) :
    validateStatus .unary status headers =
      if namesJson errorPlatform headers then .ok (some (httpError status headers))
      else .error (.connectError (httpError status headers)) := by
  have hnames : namesJson errorPlatform headers =
      (parseJsonType (headers.get headerContentType)).any fun parsed => !parsed.binary := by
    unfold namesJson
    have hparse : errorPlatform.parseContentType = parseJsonType := rfl
    rw [hparse]
    cases parseJsonType (headers.get headerContentType) <;> rfl
  unfold validateStatus
  rw [if_neg hstatus, hnames]
  cases parseJsonType (headers.get headerContentType) with
  | none => rfl
  | some parsed => cases hbinary : parsed.binary <;> simp [hbinary]

theorem errorPlatform_documented : latinFormat.Documented errorPlatform where
  accepts v content fallback h := by
    have hread : (latinFormat.readError v).getD fallback = content := by
      rw [h]
      rfl
    exact hread
  fromBytes body headers fallback := by
    show ∃ e : ConnectError, (errorFromBody body headers fallback = .ok e ∨
      errorFromBody body headers fallback = .error (.connectError e)) ∧ _
    unfold ErrorFormat.readPlain errorFromBody
    cases parsePayload body with
    | none => exact ⟨fallback, .inr rfl, rfl⟩
    | some v => exact ⟨contentError _ headers, .inl rfl, rfl⟩
  unaryError status headers hstatus hjson :=
    ⟨httpError status headers, (validateStatus_unary hstatus).trans (if_pos hjson), rfl⟩
  rejected status headers hstatus hjson :=
    ⟨httpError status headers,
      (validateStatus_unary hstatus).trans (if_neg (Bool.eq_false_iff.mp hjson)), rfl⟩
  serializes trailer e hcode := ⟨_, rfl, carries_endStreamMembers hcode⟩
  isCode_status := isCode_httpCode
  isCode_errorFromJson v fallback hcode := isCode_errorFromJson hcode

def notFound : ErrorContent := ⟨5, js "no such user", []⟩

def notFoundText : Bytes :=
  "\x7b\"code\":\"not_found\",\"message\":\"no such user\"\x7d".toUTF8.toList

/-- The response of a unary call that has failed so. -/
def failedResponse (encoding : List (HeaderName × HeaderValue)) (body : Bytes) :
    UniversalServerResponse where
  status := 404
  header := some ⟨(headerContentType, contentTypeUnaryJson) :: encoding⟩
  body := some { chunks := [body] }

def gzipEncoding : HeaderValue := ⟨js "gzip", .refl true⟩

/-- What is behind the magic number of gzip. -/
def gzipDecoders : Decoders := fun name =>
  if name = gzipEncoding.units then
    some fun body =>
      match body with
      | 0x1F :: 0x8B :: text => some text
      | _ => none
  else none

theorem readText_notFoundText : latinFormat.readText notFoundText = some notFound := by
  decide +kernel

theorem plain_error_carried :
    Emits latinFormat ((writeResponse errorPlatform unaryRequest .unary
      (failedResponse [] notFoundText)).run []).2 notFound := by
  refine (unary_error_carried latinFormat errorPlatform errorPlatform_documented unaryRequest
    (failedResponse [] notFoundText) gzipDecoders notFoundText notFoundText notFound
    (fun _ => rfl) (by decide) (congrArg Except.ok (List.append_nil _)) rfl
    readText_notFoundText).1 ⟨?_, ?_, nofun⟩
  · exact ⟨_, _, rfl, by decide +kernel⟩
  · decide +kernel

/-- Compressed, the error is lost: the client is told `unimplemented`. -/
theorem compressed_error_lost :
    let response := failedResponse [(headerUnaryEncoding, gzipEncoding)]
      (0x1F :: 0x8B :: notFoundText)
    let written := ((writeResponse errorPlatform unaryRequest .unary response).run []).2
    latinFormat.Documented errorPlatform ∧
      EncodesText gzipDecoders response.headers (0x1F :: 0x8B :: notFoundText) notFoundText ∧
      latinFormat.readText notFoundText = some notFound ∧
      Emits latinFormat written ⟨Code.unimplemented, js "HTTP 404", []⟩ ∧
      ¬ Emits latinFormat written notFound := by
  intro response written
  have hbody : response.bodyBytes = .ok (0x1F :: 0x8B :: notFoundText) :=
    congrArg Except.ok (List.append_nil _)
  have hstatus : response.status ≠ 200 := by decide
  have hemits : ∀ content : ErrorContent, Emits latinFormat written content ↔
      Writable errorPlatform response ∧ statusContent errorPlatform response.status = content :=
    fun content => gzip_error_iff errorPlatform_documented (fun _ => rfl) hstatus hbody
  refine ⟨errorPlatform_documented, ?_, readText_notFoundText, (hemits _).mpr ⟨?_, ?_⟩, ?_⟩
  · exact ⟨_, if_pos rfl, rfl⟩
  · exact ⟨_, _, rfl, by decide +kernel⟩
  · decide +kernel
  · rw [hemits]
    rintro ⟨-, hcontent⟩
    revert hcontent
    decide +kernel

end Core
end BidiWeb
