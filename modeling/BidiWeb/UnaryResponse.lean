/-
  BidiWeb.UnaryResponse

  A unary response in two languages: `writeResponse` of
  `ts/packages/core/src/handle-bidi-socket.ts`, and `Receive` of
  `internal/bidiprotocol/client_stream.go`.

  The bridge finds the encoding of the body in a header of HTTP and writes it
  into the flag of an envelope and a header of another name; the client reads
  it from there.  The trailers are among the headers of the response, with a
  prefix, and leave them for the end-stream.
-/

import BidiWeb.HeadersFormat
import BidiWeb.Core.AnsweredRequest
import BidiWeb.BidiProtocol.ReadLimit

namespace BidiWeb

open BidiWeb.Lib
open BidiWeb.Lib.Unicode
open BidiWeb.ConnectProtocol
open BidiWeb.Core
open BidiWeb.HeadersFormat
open BidiWeb.BidiProtocol (Awaits CallInfo ClientConfig ClientStream Compressor Conn Holds Received
  decodePayload exceeds setAllValues)

namespace UnaryResponse

-- ============================================================================
-- What `@connectrpc/connect` does
-- ============================================================================

/-- What is put before the name of a trailer among headers. -/
def trailerMark : JsString := js "trailer-"

def isTrailer (name : HeaderName) : Bool := trailerMark.isPrefixOf name.units

/-- The name of a trailer among headers. -/
def muxedName (name : HeaderName) : HeaderName where
  units := trailerMark ++ name.units
  isToken := by
    refine ⟨List.append_ne_nil_of_right_ne_nil _ name.isToken.1, ?_⟩
    rw [List.all_append, name.isToken.2]
    rfl
  isLower := by
    rw [List.map_append, name.isLower]
    rfl

/-- `trailerDemux` takes `headers` apart: what has the mark is a trailer by
    the rest of its name. -/
structure Demuxes (platform : Platform) (headers header trailer : Headers) : Prop where
  accepted : platform.trailerDemux headers = .ok (header, trailer)
  header : header.list =
    (headers.entries.filter fun e => !isTrailer e.1).map fun e => (e.1, e.2.normalize)
  trailer : trailer.list.map (fun e => (muxedName e.1, e.2)) =
    (headers.entries.filter fun e => isTrailer e.1).map fun e => (e.1, e.2.normalize)

/-- A message without an `error`; without trailers it has no `metadata` either. -/
def endStreamMessage (trailer : Headers) (metadata : PlainObject (List JsString)) : Json :=
  if trailer.list = [] then .obj [] else headersMessage metadata

/-- `endStreamSerialization` writes trailers as JSON, the value of each in a
    list.  Assigning to `__proto__` makes no property. -/
structure Serializes (platform : Platform) (trailer : Headers)
    (metadata : PlainObject (List JsString)) (payload : Bytes) : Prop where
  accepted : platform.serializeEndStream trailer none = .ok payload
  text : payload = encodeUtf8 (endStreamMessage trailer metadata).stringify
  carries : ∀ name value, trailer.get name = some value → name.units ≠ js "__proto__" →
    metadata.get? name.units = some [value.units]
  nothingElse : ∀ key values, metadata.get? key = some values →
    ∃ name value, trailer.get name = some value ∧ name.units = key ∧ values = [value.units]

theorem muxedName_injective {name name' : HeaderName} (h : muxedName name = muxedName name') :
    name = name' :=
  HeaderName.ext (List.append_cancel_left (congrArg HeaderName.units h))

theorem isTrailer_muxedName (name : HeaderName) : isTrailer (muxedName name) = true :=
  List.isPrefixOf_iff_prefix.mpr (List.prefix_append trailerMark name.units)

/-- A cookie is no trailer, so a trailer has one value. -/
theorem yielded_muxedName (headers : Headers) (name : HeaderName) :
    headers.yielded (muxedName name) = (headers.get (muxedName name)).toList := by
  have hcookie : muxedName name ≠ Headers.setCookie := by
    intro heq
    have htrailer := isTrailer_muxedName name
    rw [heq] at htrailer
    revert htrailer
    decide
  exact if_neg hcookie

/-- Headers that have a value once, or not at all. -/
theorem get_of_valuesOf_map {headers : Headers} {name : HeaderName} {value : Option HeaderValue}
    (h : headers.valuesOf name = value.toList.map (·.normalize)) :
    headers.get name = value.map (·.normalize) := by
  rw [Headers.get, h]
  cases value <;> rfl

namespace Demuxes

variable {platform : Platform} {headers header trailer : Headers}
  (hdemux : Demuxes platform headers header trailer)
include hdemux

theorem valuesOf_header {name : HeaderName} (hname : isTrailer name = false) :
    header.valuesOf name = (headers.yielded name).map (·.normalize) := by
  have hkept : (headers.entries.filter fun e => !isTrailer e.1).filter (fun e => e.1 = name) =
      headers.entries.filter fun e => e.1 = name := by
    rw [List.filter_filter]
    refine List.filter_congr fun e _ => ?_
    by_cases he : e.1 = name
    · simp [he, hname]
    · simp [he]
  rw [Headers.valuesOf, hdemux.header, List.filter_map, List.map_map]
  show ((headers.entries.filter fun e => !isTrailer e.1).filter (fun e => e.1 = name)).map _ = _
  rw [hkept, headers.filter_entries, List.map_map]
  rfl

theorem valuesOf_trailer (name : HeaderName) :
    trailer.valuesOf name = (headers.yielded (muxedName name)).map (·.normalize) := by
  have hkept : (headers.entries.filter fun e => isTrailer e.1).filter
      (fun e => e.1 = muxedName name) = headers.entries.filter fun e => e.1 = muxedName name := by
    rw [List.filter_filter]
    refine List.filter_congr fun e _ => ?_
    by_cases he : e.1 = muxedName name
    · simp [he, isTrailer_muxedName]
    · simp [he]
  have hmuxed : trailer.valuesOf name =
      ((trailer.list.map fun e => (muxedName e.1, e.2)).filter
        fun e => e.1 = muxedName name).map (·.2) := by
    rw [Headers.valuesOf, List.filter_map, List.map_map]
    refine congrArg (List.map _) (List.filter_congr fun e _ => ?_)
    exact decide_eq_decide.mpr ⟨congrArg muxedName, muxedName_injective⟩
  rw [hmuxed, hdemux.trailer, List.filter_map, List.map_map]
  show ((headers.entries.filter fun e => isTrailer e.1).filter
    (fun e => e.1 = muxedName name)).map _ = _
  rw [hkept, headers.filter_entries, List.map_map]
  rfl

theorem get_trailer (name : HeaderName) :
    trailer.get name = (headers.get (muxedName name)).map (·.normalize) := by
  apply get_of_valuesOf_map
  rw [hdemux.valuesOf_trailer, yielded_muxedName]

theorem get_encoding :
    header.get headerUnaryEncoding = (headers.get headerUnaryEncoding).map (·.normalize) := by
  apply get_of_valuesOf_map
  rw [hdemux.valuesOf_header (by decide), Headers.yielded, if_neg (by decide)]

theorem mem_header {name : HeaderName} (hname : name ∈ header.keys) :
    name ∈ headers.keys ∧ isTrailer name = false := by
  rw [Headers.keys, hdemux.header, List.map_map] at hname
  obtain ⟨e, he, rfl⟩ := List.mem_map.mp hname
  obtain ⟨hmem, hnot⟩ := List.mem_filter.mp he
  have hkey : e.1 ∈ headers.entries.map (·.1) := List.mem_map_of_mem hmem
  exact ⟨headers.mem_entries_keys.mp hkey, by simpa using hnot⟩

theorem encodable (hencodable : EncodableHeaders headers) : EncodableHeaders header :=
  fun name hname => hencodable name (hdemux.mem_header hname).1

end Demuxes

-- ============================================================================
-- What the bridge writes
-- ============================================================================

/-- The encoding that headers name, without white space at its ends. -/
def namedEncoding (headers : Headers) : Option HeaderValue :=
  (headers.get headerUnaryEncoding).map (·.normalize)

/-- `body` is `decoded` in the encoding that the headers name, if any. -/
def Encoded (compressors : AList (fun _ : GoString => Compressor)) (headers : Headers)
    (body decoded : Bytes) : Prop :=
  match namedEncoding headers with
  | none => body = decoded
  | some encoding =>
      if encoding.toLowerCase = js "identity" then body = decoded
      else ∃ compressor, compressors.lookup (decodeUtf16 encoding.units) = some compressor ∧
        compressor.decompress body = .ok decoded

theorem get_mirrored_encoding (header : Headers) :
    (mirrorUnaryResponseEncoding header).get headerUnaryEncoding =
      header.get headerUnaryEncoding := by
  have hnames : headerUnaryEncoding ≠ headerStreamEncoding := by decide
  unfold mirrorUnaryResponseEncoding
  split
  · rfl
  · exact header.get_set_of_ne hnames _

/-- A header that is mirrored is there under its other name. -/
theorem get_mirrored {header : Headers} {encoding : HeaderValue}
    (h : header.get headerUnaryEncoding = some encoding) :
    (mirrorUnaryResponseEncoding header).get headerStreamEncoding = some encoding.normalize := by
  rw [mirrorUnaryResponseEncoding, h]
  exact header.get_set_self headerStreamEncoding encoding

theorem not_isTrailer_mirrored {header : Headers}
    (h : ∀ name ∈ header.keys, isTrailer name = false) :
    ∀ name ∈ (mirrorUnaryResponseEncoding header).keys, isTrailer name = false := by
  unfold mirrorUnaryResponseEncoding
  cases header.get headerUnaryEncoding with
  | none => exact h
  | some encoding =>
      intro name hname
      rcases header.mem_set_keys.mp hname with rfl | hold
      · decide
      · exact h name hold

/-- The envelope of the body holds what was encoded, for a client whose
    header names the encoding as the header of the response does. -/
theorem holds_encoded {compressors : AList (fun _ : GoString => Compressor)}
    {headers header : Headers} {body decoded : Bytes}
    (hencoded : Encoded compressors headers body decoded)
    (hget : header.get headerUnaryEncoding = namedEncoding headers) {name : GoString}
    (hname : ∀ encoding, namedEncoding headers = some encoding →
      name = decodeUtf16 encoding.units) :
    Holds compressors (some name) ⟨unaryDataFlag (mirrorUnaryResponseEncoding header), body⟩
      decoded := by
  unfold Encoded at hencoded
  unfold unaryDataFlag
  rw [get_mirrored_encoding, hget]
  cases hencoding : namedEncoding headers with
  | none =>
      rw [hencoding] at hencoded
      exact Or.inl ⟨rfl, hencoded⟩
  | some encoding =>
      rw [hencoding] at hencoded
      simp only at hencoded ⊢
      by_cases hidentity : encoding.toLowerCase = js "identity"
      · rw [if_pos hidentity] at hencoded
        rw [if_neg (not_not_intro hidentity)]
        exact Or.inl ⟨rfl, hencoded⟩
      · rw [if_neg hidentity] at hencoded
        rw [if_pos hidentity]
        obtain ⟨compressor, hlookup, hdecompress⟩ := hencoded
        refine Or.inr ⟨rfl, name, rfl, compressor, ?_, hdecompress⟩
        rw [hname encoding hencoding]
        exact hlookup

/-- The envelopes of a unary response whose parts are all there. -/
theorem run_writeResponse {platform : Platform} {socket : DuplexByteStream}
    {response : UniversalServerResponse} {header trailer : Headers}
    {body headersPayload endPayload : Bytes}
    (hwrites : ∀ written, socket.writeError written = none) (hstatus : response.status = 200)
    (hdemux : platform.trailerDemux response.headers = .ok (header, trailer))
    (hencode : encodeHeadersFrame (mirrorUnaryResponseEncoding header) {} = .ok headersPayload)
    (hbody : response.bodyBytes = .ok body)
    (hserialize : platform.serializeEndStream trailer none = .ok endPayload) :
    (writeResponse platform socket .unary response).run [] =
      (.ok (), [.envelope ⟨flagEnvelopeHeaders, headersPayload⟩,
        .envelope ⟨unaryDataFlag (mirrorUnaryResponseEncoding header), body⟩,
        .envelope ⟨flagEnvelopeEndStream, endPayload⟩]) := by
  rw [writeResponse, if_pos hstatus, if_pos rfl, writeUnaryResponse, hdemux]
  show (writeHeaders socket (mirrorUnaryResponseEncoding header) >>= fun _ => writeUnaryBody
    platform socket response (mirrorUnaryResponseEncoding header) trailer).run [] = _
  rw [Async.run_bind_ok (run_writeHeaders hwrites hencode []), writeUnaryBody, hbody]
  simp only
  rw [Async.run_bind_ok (run_write hwrites _ _), run_writeEndStream hwrites hserialize]
  rfl

-- ============================================================================
-- What the client reads
-- ============================================================================

/-- Reading the `Conn` in its state gives these envelopes, one after another. -/
def Delivers {κ : Type} (conn : Conn κ) : κ → List Envelope → Prop
  | _, [] => True
  | k, e :: es => (conn.readEnvelope k).1 = .ok e ∧ Delivers conn (conn.readEnvelope k).2 es

/-- Nothing of the response has been received, and it is `es`. -/
structure Awaiting {κ μ : Type} (cfg : ClientConfig κ μ) (cs : ClientStream κ) (info : CallInfo)
    (es : List Envelope) : Prop where
  headers : cs.recvHeadersOnce = none
  notEnded : cs.rxEnd = false
  callInfo : cs.callInfo = some info
  delivers : Delivers cfg.conn cs.session.conn es

/-- The trailers among `headers` have become response trailers, and none of
    them a response header. -/
structure TrailersDelivered (headers : Headers) (info info' : CallInfo) : Prop where
  delivered : ∀ name value, headers.get (muxedName name) = some value →
    name.units ≠ js "__proto__" →
      info'.responseTrailer.lookup (canonicalHeaderKey (decodeUtf16 name.units)) =
        some [decodeUtf16 value.normalize.units]
  nothingElse : ∀ k ∈ info'.responseTrailer, k ∈ info.responseTrailer ∨
    ∃ name, muxedName name ∈ headers.keys ∧ canonicalHeaderKey (decodeUtf16 name.units) = k
  noneLeft : ∀ k ∈ info'.responseHeader, ∀ name, Spells k name → isTrailer name = true →
    k ∈ info.responseHeader

section

variable {κ μ : Type} {cfg : ClientConfig κ μ} {cs : ClientStream κ} {info : CallInfo}

theorem readEnvelope_delivers {e : Envelope} {es : List Envelope} (awaits : Awaits)
    (h : Delivers cfg.conn cs.session.conn (e :: es)) :
    ∃ session, cs.readEnvelope cfg awaits = (.ok e, { cs with session }) ∧
      Delivers cfg.conn session.conn es := by
  obtain ⟨hread, hrest⟩ := h
  refine ⟨(cs.session.readEnvelope cfg.conn awaits).2, ?_, hrest⟩
  have hresult : (cs.session.readEnvelope cfg.conn awaits).1 = .ok e := hread
  exact congrArg (fun result => (result, _)) hresult

/-- The response headers of a call, once it has received `h`. -/
def receivedHeaders (cfg : ClientConfig κ μ) (info : CallInfo) (h : Header) : CallInfo :=
  { info with
    responseHeader := setAllValues info.responseHeader
      ((cfg.range.visit h).filter fun e => !isPseudo e.1) }

/-- Headers that the bridge has encoded are received. -/
theorem recvHeaders_encoded {headers : Headers} {payload : Bytes} {es : List Envelope}
    (hencode : encodeHeadersFrame headers {} = .ok payload)
    (hawait : Awaiting cfg cs info (⟨flagEnvelopeHeaders, payload⟩ :: es)) :
    ∃ h cs', Unmarshals headers {} h ∧ cs.recvHeaders cfg = (none, cs') ∧
      cs'.callInfo = some (receivedHeaders cfg info h) ∧ cs'.rxEnd = false ∧
      Delivers cfg.conn cs'.session.conn es := by
  have hpseudo : PseudoHeaders {} := by
    intro key value hget
    cases hget
  obtain ⟨h, hunmarshal, hall⟩ := unmarshals_encoded cfg.range hpseudo hencode
  obtain ⟨session, hread, hrest⟩ := readEnvelope_delivers .headers hawait.delivers
  refine ⟨h, { ({ cs with session } : ClientStream κ).setResponseHeader cfg h with
    recvHeadersOnce := some none }, hall, ?_, ?_, hawait.notEnded, hrest⟩
  · rw [ClientStream.recvHeaders, hawait.headers]
    simp only
    rw [ClientStream.readHeaders, hread]
    simp only [ne_eq, not_true, if_false, hunmarshal]
    rfl
  · show cs.callInfo.map _ = _
    rw [hawait.callInfo]
    rfl

theorem lookup_receivedHeaders {headers : Headers} {h : Header} (hall : Unmarshals headers {} h)
    {k : GoString} (hk : isPseudo k = false) :
    (receivedHeaders cfg info h).responseHeader.lookup k =
      (h.lookup k).or (info.responseHeader.lookup k) := by
  apply BidiProtocol.lookup_setAllValues_filter cfg.range _ ?_ hk
  intro k hmem
  rcases hall.keys k hmem with ⟨name, -, hspells⟩ | ⟨key, hkey, -⟩
  · rw [hall.once name k hmem hspells]
    exact Or.inr (canonicalHeaderKey_canonicalHeaderKey _)
  · cases hkey

/-- The client finds the mirrored encoding. -/
theorem get_receivedHeaders {headers : Headers} {h : Header} (hall : Unmarshals headers {} h)
    {encoding : HeaderValue} (hget : headers.get headerStreamEncoding = some encoding) :
    (receivedHeaders cfg info h).responseHeader.get BidiProtocol.contentEncoding =
      decodeUtf16 encoding.units := by
  have hcanonical : canonicalHeaderKey (decodeUtf16 headerStreamEncoding.units) =
      canonicalHeaderKey BidiProtocol.contentEncoding := by
    decide +kernel
  have hyielded : headers.yielded headerStreamEncoding = [encoding] := by
    rw [Headers.yielded, if_neg (by decide), hget]
    rfl
  have hkey : headerStreamEncoding ∈ headers.keys := by
    rw [← headers.yielded_ne_nil, hyielded]
    exact List.cons_ne_nil _ _
  have hvalues := hall.values headerStreamEncoding hkey
  rw [hcanonical, hyielded] at hvalues
  rw [Header.get, Header.values, lookup_receivedHeaders hall (by decide +kernel), hvalues]
  rfl

/-- Headers without trailers leave none behind. -/
theorem noneLeft_receivedHeaders {headers : Headers} {h : Header} (hall : Unmarshals headers {} h)
    (hnone : ∀ name ∈ headers.keys, isTrailer name = false) {k : GoString} {name : HeaderName}
    (hk : k ∈ (receivedHeaders cfg info h).responseHeader) (hspells : Spells k name)
    (hname : isTrailer name = true) : k ∈ info.responseHeader := by
  rw [← AList.lookup_isSome, lookup_receivedHeaders hall (not_isPseudo_of_spells hspells),
    Option.isSome_or, Bool.or_eq_true, AList.lookup_isSome, AList.lookup_isSome] at hk
  refine hk.resolve_left fun hmem => ?_
  rcases hall.keys k hmem with ⟨name', hmem', hspells'⟩ | ⟨key, hkey, -⟩
  · rw [spells_unique hspells hspells', hnone name' hmem'] at hname
    cases hname
  · cases hkey

end

section

variable {platform : Platform} {trailer : Headers} {metadata : PlainObject (List JsString)}
  {payload : Bytes} (hserializes : Serializes platform trailer metadata payload)
include hserializes

theorem Serializes.formed : FormedMetadata metadata := by
  intro key values hget
  obtain ⟨name, value, -, rfl, rfl⟩ := hserializes.nothingElse key values hget
  refine ⟨isWellFormed_name name, fun v hv => ?_⟩
  obtain rfl := List.mem_singleton.mp hv
  exact isWellFormed_value value

/-- The client takes the trailers, and no error, from the text. -/
theorem unmarshalEndStream_serialized (lib : Library) :
    ∃ trailers, unmarshalEndStream lib payload = .ok (none, trailers) ∧
      ∀ k, trailers.lookup k =
        (metadata.get? (encodeUtf16 k)).map fun values => values.map decodeUtf16 := by
  have htext := hserializes.text
  unfold endStreamMessage at htext
  by_cases hempty : trailer.list = []
  · rw [if_pos hempty] at htext
    have hreads : Json.Reads maxNestingDepth (Json.obj []).stringify (.obj []) :=
      @Json.reads_stringify_obj 9999 [] (by simp)
    refine ⟨∅, ?_, ?_⟩
    · rw [unmarshalEndStream, htext, parseJson_encode, Json.parse_of_reads hreads]
      rfl
    · intro k
      cases hget : metadata.get? (encodeUtf16 k) with
      | none => rfl
      | some values =>
          obtain ⟨name, value, hvalue, -⟩ := hserializes.nothingElse _ _ hget
          rw [Headers.get, Headers.valuesOf, hempty] at hvalue
          cases hvalue
  · rw [if_neg hempty] at htext
    have hformed := hserializes.formed
    have herror : fieldValues "error".toList
        ([metadataField metadata].map fun f => (encodeUtf16 f.name, f.value)) = [] :=
      (fieldValues_map _ [metadataField metadata]).trans rfl
    refine ⟨_, ?_, lookup_goEntries hformed⟩
    rw [unmarshalEndStream, htext, parseJson_headersMessage hformed, Option.bind_some, fieldsJson,
      unmarshalEndStreamMessage, herror, unmarshal_metadataField]
    rfl

end

section

variable {platform : Platform} {headers header trailer : Headers}
  {metadata : PlainObject (List JsString)} {payload : Bytes}
  (hdemux : Demuxes platform headers header trailer)
  (hserializes : Serializes platform trailer metadata payload) {trailers : Header}
  (htrailers : ∀ k, trailers.lookup k =
    (metadata.get? (encodeUtf16 k)).map fun values => values.map decodeUtf16)
include hdemux hserializes htrailers

/-- Every trailer that is unmarshalled is one among the headers. -/
theorem trailer_of_lookup {k : GoString} {vs : List GoString} (h : trailers.lookup k = some vs) :
    ∃ name value, headers.get (muxedName name) = some value ∧ decodeUtf16 name.units = k ∧
      vs = [decodeUtf16 value.normalize.units] := by
  rw [htrailers, Option.map_eq_some_iff] at h
  obtain ⟨values, hvalues, rfl⟩ := h
  obtain ⟨name, value, hget, hname, rfl⟩ := hserializes.nothingElse _ _ hvalues
  rw [hdemux.get_trailer, Option.map_eq_some_iff] at hget
  obtain ⟨muxed, hmuxed, rfl⟩ := hget
  refine ⟨name, muxed, hmuxed, ?_, rfl⟩
  rw [hname, decodeUtf16_encode]

theorem lookup_of_trailer {name : HeaderName} {value : HeaderValue}
    (hget : headers.get (muxedName name) = some value) (hname : name.units ≠ js "__proto__") :
    trailers.lookup (decodeUtf16 name.units) = some [decodeUtf16 value.normalize.units] := by
  have htrailer : trailer.get name = some value.normalize := by
    rw [hdemux.get_trailer, hget]
    rfl
  rw [htrailers, isWellFormed_name name, hserializes.carries name _ htrailer hname]
  rfl

/-- Setting them makes them response trailers, by their canonical keys. -/
theorem trailersDelivered (range : RangeOrder (List GoString)) {info info' : CallInfo}
    (hset : info'.responseTrailer = setAllValues info.responseTrailer (range.visit trailers))
    (hleft : ∀ k ∈ info'.responseHeader, ∀ name, Spells k name → isTrailer name = true →
      k ∈ info.responseHeader) : TrailersDelivered headers info info' := by
  have hentry : ∀ k b, (k, b) ∈ (range.visit trailers).map
      (fun e => (canonicalHeaderKey e.1, e.2)) →
        ∃ name value, headers.get (muxedName name) = some value ∧
          canonicalHeaderKey (decodeUtf16 name.units) = k ∧
          b = [decodeUtf16 value.normalize.units] := by
    intro k b hmem
    obtain ⟨⟨k₀, b₀⟩, hvisit, heq⟩ := List.mem_map.mp hmem
    obtain ⟨rfl, rfl⟩ := Prod.mk.inj heq
    obtain ⟨name, value, hget, rfl, hb⟩ :=
      trailer_of_lookup hdemux hserializes htrailers ((mem_visit range).mp hvisit)
    exact ⟨name, value, hget, rfl, hb⟩
  rw [BidiProtocol.setAllValues_eq] at hset
  refine ⟨?_, ?_, hleft⟩
  · intro name value hget hname
    rw [hset]
    apply lookup_insertAll_of_mem
    · refine List.mem_map.mpr ⟨(decodeUtf16 name.units, _), (mem_visit range).mpr ?_, rfl⟩
      exact lookup_of_trailer hdemux hserializes htrailers hget hname
    · intro b hb
      obtain ⟨name', value', hget', hkey, rfl⟩ := hentry _ b hb
      have hsame : name' = name :=
        spells_unique (hkey ▸ spells_canonical name') (spells_canonical name)
      rw [hsame, hget] at hget'
      rw [Option.some.inj hget']
  · intro k hk
    rw [hset] at hk
    obtain ⟨b, hb⟩ := Option.isSome_iff_exists.mp (AList.lookup_isSome.mpr hk)
    rcases mem_of_lookup_insertAll hb with hmem | hold
    · obtain ⟨name, value, hget, hkey, -⟩ := hentry k b hmem
      refine Or.inr ⟨name, ?_, hkey⟩
      rw [← headers.yielded_ne_nil, yielded_muxedName, hget]
      exact List.cons_ne_nil _ _
    · exact Or.inl (mem_of_lookup hold)

end

-- ============================================================================
-- A response, written and received
-- ============================================================================

section

variable {κ μ : Type} {cfg : ClientConfig κ μ} {cs : ClientStream κ}

/-- `Receive` of a unary call, given a message and a clean end-stream. -/
theorem receiveMessage_unary {info : CallInfo} {env : Envelope} {payload decoded : Bytes} {msg : μ}
    {trailers : Header} (hunary : cfg.unary = true)
    (hlimit : exceeds env.payload cfg.opts.readMaxBytes = false) (hmessage : env.isMessage = true)
    (hinfo : cs.callInfo = some info)
    (hholds : Holds cfg.opts.compressors
      (some (info.responseHeader.get BidiProtocol.contentEncoding)) env decoded)
    (hcodec : cfg.codec.unmarshalRead decoded = .ok msg)
    (hend : Delivers cfg.conn cs.session.conn [⟨flagEnvelopeEndStream, payload⟩])
    (htrailers : unmarshalEndStream cfg.lib payload = .ok (none, trailers)) :
    ∃ cs', cs.receiveMessage cfg env = (.message msg, cs') ∧ cs'.rxEnd = true ∧
      cs'.callInfo = some { info with
        responseTrailer := setAllValues info.responseTrailer (cfg.range.visit trailers) } := by
  have hpresent : ¬ (env.flag = flagEnvelopeCompressed ∧ cs.callInfo.isNone = true) := by
    rw [hinfo]
    simp
  have hdecode : decodePayload cfg.opts.compressors
      ((cs.callInfo.getD {}).responseHeader.get "Connect-Content-Encoding".toList) env =
        .ok decoded := by
    rw [hinfo]
    exact (BidiProtocol.holds_iff_decodePayload hmessage).mp hholds
  obtain ⟨session, hread, -⟩ := readEnvelope_delivers .endStream hend
  have hended : cs.readUnaryEndStream cfg = (none, ({ cs with session, rxEnd := true } :
      ClientStream κ).setResponseTrailers cfg trailers) := by
    rw [ClientStream.readUnaryEndStream, hread]
    simp only [ne_eq, not_true, if_false]
    rw [ClientStream.endStream, htrailers]
  refine ⟨({ cs with session, rxEnd := true } : ClientStream κ).setResponseTrailers cfg trailers,
    ?_, rfl, ?_⟩
  · rw [ClientStream.receiveMessage, hlimit, if_neg Bool.false_ne_true, if_neg hpresent]
    simp only [hdecode, hcodec, hunary, if_true, hended]
  · show cs.callInfo.map _ = _
    rw [hinfo]
    rfl

end

/-- For every unary response with status 200 that the bridge can write, with a
    body that is encoded as its headers say: it is written as three envelopes,
    and a client that has the compressor, and no limit below the size of the
    body, receives from these what the codec makes of the decoded body, and
    the trailers. -/
theorem unary_response_readable {κ μ : Type} (platform : Platform) (socket : DuplexByteStream)
    (response : UniversalServerResponse) (header trailer : Headers)
    (metadata : PlainObject (List JsString)) (endPayload body decoded : Bytes)
    (cfg : ClientConfig κ μ) (msg : μ)
    (hwrites : ∀ written, socket.writeError written = none) (hstatus : response.status = 200)
    (hdemux : Demuxes platform response.headers header trailer)
    (hserializes : Serializes platform trailer metadata endPayload)
    (hencodable : EncodableHeaders response.headers)
    (hbody : response.bodyBytes = .ok body)
    (hencoded : Encoded cfg.opts.compressors response.headers body decoded)
    (hlimit : exceeds body cfg.opts.readMaxBytes = false) (hunary : cfg.unary = true)
    (hcodec : cfg.codec.unmarshalRead decoded = .ok msg) :
    ∃ headersPayload dataFlag, (dataFlag = flagEnvelopeData ∨ dataFlag = flagEnvelopeCompressed) ∧
      (writeResponse platform socket .unary response).run [] =
        (.ok (), [.envelope ⟨flagEnvelopeHeaders, headersPayload⟩, .envelope ⟨dataFlag, body⟩,
          .envelope ⟨flagEnvelopeEndStream, endPayload⟩]) ∧
      ∀ (cs sent : ClientStream κ) (info : CallInfo), cs.sendHeaders cfg = (none, sent) →
        Awaiting cfg sent info [⟨flagEnvelopeHeaders, headersPayload⟩, ⟨dataFlag, body⟩,
          ⟨flagEnvelopeEndStream, endPayload⟩] →
        ∃ cs' info', cs.receive cfg = (.message msg, cs') ∧ cs'.rxEnd = true ∧
          cs'.callInfo = some info' ∧ TrailersDelivered response.headers info info' := by
  have hmirrored := encodable_mirror.mpr (hdemux.encodable hencodable)
  obtain ⟨headersPayload, hencode⟩ :=
    (encodeHeadersFrame_ok_iff (mirrorUnaryResponseEncoding header) {}).mpr hmirrored
  have hmessage := @isMessage_unaryDataFlag (mirrorUnaryResponseEncoding header) body
  have hwritten :=
    run_writeResponse hwrites hstatus hdemux.accepted hencode hbody hserializes.accepted
  refine ⟨headersPayload, unaryDataFlag (mirrorUnaryResponseEncoding header), ?_, hwritten, ?_⟩
  · exact Envelope.isMessage_iff.mp hmessage
  · intro cs sent info hsend hawait
    -- the headers
    obtain ⟨h, cs₂, hall, hheaders, hinfo, hopen, hrest⟩ := recvHeaders_encoded hencode hawait
    have hholds : Holds cfg.opts.compressors
        (some ((receivedHeaders cfg info h).responseHeader.get BidiProtocol.contentEncoding))
        ⟨unaryDataFlag (mirrorUnaryResponseEncoding header), body⟩ decoded := by
      refine holds_encoded hencoded hdemux.get_encoding ?_
      intro encoding hencoding
      have hget := get_mirrored (hdemux.get_encoding.trans hencoding)
      rw [get_receivedHeaders hall hget]
      obtain ⟨value, -, rfl⟩ := Option.map_eq_some_iff.mp hencoding
      rw [HeaderValue.normalize_normalize]
    have hnone := not_isTrailer_mirrored fun name hname => (hdemux.mem_header hname).2
    -- the message
    obtain ⟨session, hread, hend⟩ := readEnvelope_delivers .message hrest
    have hreceive := BidiProtocol.client_receive_eq hsend hheaders hopen
      (congrArg Prod.fst hread) hmessage
    rw [hread] at hreceive
    -- the end-stream
    obtain ⟨trailers, htrailers, hlookup⟩ := unmarshalEndStream_serialized hserializes cfg.lib
    obtain ⟨cs', hmsg, hended, hafter⟩ := @receiveMessage_unary _ _ cfg { cs₂ with session } _ _ _
      _ _ _ hunary hlimit hmessage hinfo hholds hcodec hend htrailers
    refine ⟨cs', _, hreceive.trans hmsg, hended, hafter, ?_⟩
    refine trailersDelivered hdemux hserializes hlookup cfg.range rfl ?_
    intro k hk name hspells hname
    exact noneLeft_receivedHeaders hall hnone hk hspells hname

/-- What `trailerDemux` does with one header. -/
def demuxEntry (headers : Headers × Headers) (e : HeaderName × HeaderValue) :
    Except JsError (Headers × Headers) :=
  if isTrailer e.1 then
    match HeaderName.ofString? (e.1.units.drop trailerMark.length) with
    | some name => .ok (headers.1, headers.2.append name e.2)
    | none => .error (.typeError "invalid header name")
  else .ok (headers.1.append e.1 e.2, headers.2)

def trailerMetadata (trailer : Headers) : PlainObject (List JsString) :=
  (trailer.entries.map fun e => (e.1.units, e.2.units)).foldl assignPseudo {}

/-- A platform that takes trailers apart, and writes them. -/
def muxingPlatform : Platform :=
  { lenientPlatform with
    trailerDemux := fun headers => headers.entries.foldlM demuxEntry ({}, {})
    serializeEndStream := fun trailer _ =>
      .ok (encodeUtf8 (endStreamMessage trailer (trailerMetadata trailer)).stringify) }

/-- The envelopes of a response. -/
def bridged (response : UniversalServerResponse) : List Envelope :=
  (envelopesFrom [] ((writeResponse muxingPlatform unaryRequest .unary response).run []).2).getD []

/-- A call that has sent its request, and is answered with them. -/
def answeredWith (response : UniversalServerResponse) : ClientStream (List Envelope) where
  session := { conn := bridged response }
  sendHeadersOnce := some none

def xTrailer : HeaderName := muxedName xTag

/-- Two bytes behind the magic number of gzip, and a trailer. -/
def gzipResponse : UniversalServerResponse where
  status := 200
  header := some ⟨[(headerUnaryEncoding, ⟨js "gzip", by decide⟩), (xTrailer, ⟨js "7", by decide⟩)]⟩
  body := some { chunks := [[0x1f, 0x8b, 1], [2]] }

def gzipHeader : Headers := ⟨[(headerUnaryEncoding, ⟨js "gzip", by decide⟩)]⟩

def gzipTrailer : Headers := ⟨[(xTag, ⟨js "7", by decide⟩)]⟩

theorem gzip_response_readable :
    (bridged gzipResponse).length = 3 ∧
    ∃ cs' info', (answeredWith gzipResponse).receive BidiProtocol.echoCaller =
        (.message [1, 2], cs') ∧
      cs'.callInfo = some info' ∧
      info'.responseTrailer.lookup "X-Tag".toList = some ["7".toList] := by
  have hdemux : Demuxes muxingPlatform gzipResponse.headers gzipHeader gzipTrailer :=
    ⟨by decide +kernel, by decide +kernel, by decide +kernel⟩
  obtain ⟨endPayload, hserializes⟩ : ∃ endPayload,
      Serializes muxingPlatform gzipTrailer (trailerMetadata gzipTrailer) endPayload := by
    have hproperties : (trailerMetadata gzipTrailer).properties = [(xTag.units, [js "7"])] := by
      decide +kernel
    refine ⟨_, rfl, rfl, ?_, ?_⟩
    · intro name value hget _
      have hname : name ∈ gzipTrailer.keys := by
        rw [← gzipTrailer.valuesOf_ne_nil]
        intro hnone
        rw [Headers.get, hnone] at hget
        cases hget
      obtain rfl := List.mem_singleton.mp hname
      obtain rfl := Option.some.inj hget
      rw [PlainObject.get?_eq_some_iff, hproperties]
      exact List.mem_singleton_self _
    · intro key values hget
      rw [PlainObject.get?_eq_some_iff, hproperties] at hget
      obtain ⟨rfl, rfl⟩ := Prod.mk.inj (List.mem_singleton.mp hget)
      exact ⟨xTag, ⟨js "7", by decide⟩, rfl, rfl, rfl⟩
  have hencoded : Encoded BidiProtocol.echoCaller.opts.compressors gzipResponse.headers
      [0x1f, 0x8b, 1, 2] [1, 2] := by
    have hnamed : namedEncoding gzipResponse.headers = some ⟨js "gzip", by decide⟩ := by
      decide +kernel
    have hname : decodeUtf16 (js "gzip") = "gzip".toList := by decide +kernel
    rw [Encoded, hnamed]
    simp only
    rw [if_neg (by decide +kernel), hname]
    exact ⟨BidiProtocol.plainDefaults.gzip, rfl, rfl⟩
  obtain ⟨headersPayload, dataFlag, -, hwritten, hreadable⟩ :=
    unary_response_readable muxingPlatform unaryRequest gzipResponse gzipHeader gzipTrailer _ _
      [0x1f, 0x8b, 1, 2] [1, 2] BidiProtocol.echoCaller [1, 2] (fun _ => rfl) rfl hdemux
      hserializes (by decide +kernel) rfl hencoded (by decide) rfl rfl
  have hbridged : bridged gzipResponse = [⟨flagEnvelopeHeaders, headersPayload⟩,
      ⟨dataFlag, [0x1f, 0x8b, 1, 2]⟩, ⟨flagEnvelopeEndStream, endPayload⟩] := by
    rw [bridged, hwritten]
    rfl
  have hawait : Awaiting BidiProtocol.echoCaller (answeredWith gzipResponse) {}
      (bridged gzipResponse) := by
    refine ⟨rfl, rfl, rfl, ?_⟩
    rw [answeredWith, hbridged]
    exact ⟨rfl, rfl, rfl, trivial⟩
  rw [hbridged] at hawait
  obtain ⟨cs', info', hreceive, -, hinfo, htrailers⟩ :=
    hreadable (answeredWith gzipResponse) _ {} rfl hawait
  have hkey : canonicalHeaderKey (decodeUtf16 xTag.units) = "X-Tag".toList := by decide +kernel
  refine ⟨congrArg List.length hbridged, cs', info', hreceive, hinfo, ?_⟩
  rw [← hkey, htrailers.delivered xTag ⟨js "7", by decide⟩ rfl (by decide)]
  decide +kernel

/-- A client that takes one byte. -/
def limitedCaller : ClientConfig (List Envelope) Bytes :=
  { BidiProtocol.echoCaller with
    opts := { BidiProtocol.echoCaller.opts with readMaxBytes := 1 } }

/-- Two bytes as they are, and one more header. -/
def identityResponse (name : HeaderName) : UniversalServerResponse where
  status := 200
  header := some
    ⟨[(headerUnaryEncoding, ⟨js "Identity", by decide⟩), (name, ⟨js "7", by decide⟩)]⟩
  body := some { chunks := [[1, 2]] }

def protoTrailer : HeaderName := muxedName ⟨js "__proto__", by decide, by decide⟩

def namelessTrailer : HeaderName := ⟨trailerMark, by decide, by decide⟩

/-- The client has a limit; a trailer is lost on the way into JSON; one
    without a name cannot be taken apart, and nothing is written. -/
theorem identity_response_unreadable :
    (∀ name ∈ [xTrailer, protoTrailer, namelessTrailer],
      EncodableHeaders (identityResponse name).headers ∧
        Encoded BidiProtocol.echoCaller.opts.compressors (identityResponse name).headers
          [1, 2] [1, 2]) ∧
    ((answeredWith (identityResponse xTrailer)).receive limitedCaller).1.toOption = none ∧
    (((answeredWith (identityResponse protoTrailer)).receive
      BidiProtocol.echoCaller).2.callInfo.map fun info => info.responseTrailer.entries) =
        some [] ∧
    bridged (identityResponse namelessTrailer) = [] := by
  refine ⟨?_, ?_, ?_, ?_⟩
  · have hnamed : ∀ name ∈ [xTrailer, protoTrailer, namelessTrailer],
        EncodableHeaders (identityResponse name).headers ∧
          namedEncoding (identityResponse name).headers = some ⟨js "Identity", by decide⟩ := by
      decide +kernel
    intro name hname
    obtain ⟨hencodable, hencoding⟩ := hnamed name hname
    refine ⟨hencodable, ?_⟩
    rw [Encoded, hencoding]
    simp only
    rw [if_pos (by decide +kernel)]
    trivial
  · decide +kernel
  · decide +kernel
  · decide +kernel

end UnaryResponse
end BidiWeb
