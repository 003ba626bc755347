/-
  BidiWeb.BidiProtocol.CodecChoice

  The codec of an RPC.  The client writes the name of its own into the
  `Content-Type`, where `negotiateCodec` of the server looks for `json` and
  for nothing else.
-/

import BidiWeb.BidiProtocol.MessageTransfer

namespace BidiWeb
namespace BidiProtocol

open BidiWeb.ConnectProtocol

variable {κ κ' μ : Type}

-- ============================================================================
-- Registered codecs
-- ============================================================================

/-- The codecs of `connectproto` have the names that they are registered by. -/
structure Defaults.Named (d : Defaults μ) : Prop where
  binary : d.binary.name = codecNameProto
  json : d.json.name = codecNameJSON

/-- Every codec is found by its name, those of `connectproto` among them. -/
structure Options.Named (o : Options μ) : Prop where
  proto : codecNameProto ∈ o.codecs
  json : codecNameJSON ∈ o.codecs
  named : ∀ name codec, o.codecs.lookup name = some codec → codec.name = name

theorem Options.Named.congr {o o' : Options μ} (ho : o.Named) (hcodecs : o'.codecs = o.codecs) :
    o'.Named := by
  obtain ⟨hproto, hjson, hnamed⟩ := ho
  rw [← hcodecs] at hproto hjson hnamed
  exact ⟨hproto, hjson, hnamed⟩

theorem named_newServerOptions {d : Defaults μ} (hd : d.Named) : (newServerOptions d).Named := by
  refine ⟨?_, ?_, ?_⟩
  · apply (AList.mem_insert _).mpr
    exact Or.inr (List.mem_singleton_self _)
  · apply (AList.mem_insert _).mpr
    exact Or.inl rfl
  · intro name codec hlookup
    have hcodecs : (newServerOptions d).codecs =
        (AList.singleton codecNameProto d.binary).insert codecNameJSON d.json := rfl
    rw [hcodecs] at hlookup
    by_cases hjson : name = codecNameJSON
    · subst hjson
      rw [AList.lookup_insert] at hlookup
      obtain rfl := Option.some.inj hlookup
      exact hd.json
    · rw [AList.lookup_insert_ne hjson] at hlookup
      cases List.mem_singleton.mp (AList.mem_lookup_iff.mp hlookup)
      exact hd.binary

theorem Options.Named.addCodecs {o : Options μ} (ho : o.Named) (codecs : List (Codec μ)) :
    (o.addCodecs codecs).Named := by
  induction codecs generalizing o with
  | nil => exact ho
  | cons codec codecs ih =>
      apply @ih { o with codecs := o.codecs.insert codec.name codec }
      refine ⟨?_, ?_, ?_⟩
      · exact (AList.mem_insert _).mpr (Or.inr ho.proto)
      · exact (AList.mem_insert _).mpr (Or.inr ho.json)
      · intro name codec' hlookup
        by_cases hname : name = codec.name
        · subst hname
          rw [AList.lookup_insert] at hlookup
          rw [Option.some.inj hlookup]
        · rw [AList.lookup_insert_ne hname] at hlookup
          exact ho.named name codec' hlookup

/-- Compressors do not concern codecs. -/
theorem addCompressors_codecs (o : Options μ) (compressors : List Compressor) :
    (o.addCompressors compressors).codecs = o.codecs := by
  induction compressors generalizing o with
  | nil => rfl
  | cons compressor compressors ih => exact ih _

theorem Options.Named.applyServer {o : Options μ} (ho : o.Named) (opt : TransportOption μ) :
    (opt.applyServer o).Named := by
  cases opt with
  | withSendCodec name => exact ho
  | withCodecs codecs => exact ho.addCodecs codecs
  | withSendCompressor name => exact ho
  | withCompressors compressors => exact ho.congr (addCompressors_codecs o compressors)
  | withReadMaxBytes maxBytes => exact ho.congr rfl
  | withSendMaxBytes maxBytes => exact ho.congr rfl

theorem named_serverOptions {d : Defaults μ} (hd : d.Named) (opts : List (TransportOption μ)) :
    (serverOptions d opts).Named := by
  have hfold : ∀ o : Options μ, o.Named →
      (opts.foldl (fun sopts opt => opt.applyServer sopts) o).Named := by
    induction opts with
    | nil => exact fun o ho => ho
    | cons opt opts ih => exact fun o ho => ih _ (ho.applyServer opt)
  exact (hfold _ (named_newServerOptions hd)).congr rfl

-- ============================================================================
-- The Content-Type
-- ============================================================================

/-- The `Content-Type` of a client. -/
def contentTypeOf (cfg : ClientConfig κ μ) : GoString :=
  "application/connect+".toList ++ cfg.codec.name

/-- Whatever headers the caller has set, and in any order of visits, the server
    reads from what `SendHeaders` has written the codec that it has registered
    by the name of the client's. -/
def SameCodec (cfg : ClientConfig κ μ) (srv : ServerConfig κ' μ) (conn : κ) : Prop :=
  ∀ caller : Option (List (GoString × List GoString)),
    ∃ payload err,
      ((ClientStream.freshStream conn caller).sendHeaders cfg).2.session.writes =
        [(⟨flagEnvelopeHeaders, payload⟩, err)] ∧
      ∀ rangeHeaders, ∃ headers, unmarshalHeaders rangeHeaders payload = some headers ∧
        ∀ rangeCodecs,
          negotiateCodec { srv with rangeCodecs } (headers.get "Content-Type".toList) =
            srv.opts.codecs.lookup cfg.codec.name

/-- What `sendHeaders` writes says the name of the codec. -/
theorem content_type_written (cfg : ClientConfig κ μ) (conn : κ)
    (caller : Option (List (GoString × List GoString))) :
    ∃ payload err,
      ((ClientStream.freshStream conn caller).sendHeaders cfg).2.session.writes =
        [(⟨flagEnvelopeHeaders, payload⟩, err)] ∧
      ∀ rangeHeaders, ∃ headers, unmarshalHeaders rangeHeaders payload = some headers ∧
        headers.get "Content-Type".toList = contentTypeOf cfg := by
  obtain ⟨payload, err, hwrites, hread⟩ := ClientStream.headers_written cfg conn caller
  refine ⟨payload, err, hwrites, fun rangeHeaders => ?_⟩
  obtain ⟨headers, hunmarshal, hlookup⟩ := hread rangeHeaders
  refine ⟨headers, hunmarshal, ?_⟩
  rw [get_congr _ (hlookup _)]
  exact (ClientStream.requestHeader_freshStream cfg conn caller).2.contentType

theorem sameCodec_iff (cfg : ClientConfig κ μ) (srv : ServerConfig κ' μ) (conn : κ) :
    SameCodec cfg srv conn ↔
      ∀ rangeCodecs, negotiateCodec { srv with rangeCodecs } (contentTypeOf cfg) =
        srv.opts.codecs.lookup cfg.codec.name := by
  constructor
  · intro hsame rangeCodecs
    obtain ⟨payload, err, hwrites, hread⟩ := hsame none
    obtain ⟨payload', err', hwrites', hread'⟩ := content_type_written cfg conn none
    rw [hwrites'] at hwrites
    cases hwrites
    obtain ⟨headers, hunmarshal, hnegotiate⟩ := hread .stored
    obtain ⟨headers', hunmarshal', hcontent⟩ := hread' .stored
    obtain rfl : headers' = headers := Option.some.inj (hunmarshal'.symm.trans hunmarshal)
    rw [← hcontent]
    exact hnegotiate rangeCodecs
  · intro hnegotiate caller
    obtain ⟨payload, err, hwrites, hread⟩ := content_type_written cfg conn caller
    refine ⟨payload, err, hwrites, fun rangeHeaders => ?_⟩
    obtain ⟨headers, hunmarshal, hcontent⟩ := hread rangeHeaders
    refine ⟨headers, hunmarshal, fun rangeCodecs => ?_⟩
    rw [hcontent]
    exact hnegotiate rangeCodecs

-- ============================================================================
-- Negotiation
-- ============================================================================

/-- The name that `negotiateCodec` looks up. -/
def chosenName (contentType : GoString) : GoString :=
  if contains contentType codecNameJSON then codecNameJSON else codecNameProto

theorem chosenName_cases (contentType : GoString) :
    chosenName contentType = codecNameProto ∨ chosenName contentType = codecNameJSON := by
  unfold chosenName
  split
  · exact Or.inr rfl
  · exact Or.inl rfl

theorem chosenName_proto :
    chosenName ("application/connect+".toList ++ codecNameProto) = codecNameProto := by
  decide +kernel

theorem chosenName_json :
    chosenName ("application/connect+".toList ++ codecNameJSON) = codecNameJSON := by
  decide +kernel

/-- With the codecs of `connectproto` registered no other is ever picked. -/
theorem negotiateCodec_eq (srv : ServerConfig κ' μ) (hnamed : srv.opts.Named)
    (contentType : GoString) :
    negotiateCodec srv contentType = srv.opts.codecs.lookup (chosenName contentType) := by
  have hmem : chosenName contentType ∈ srv.opts.codecs := by
    rcases chosenName_cases contentType with hname | hname
    · rw [hname]
      exact hnamed.proto
    · rw [hname]
      exact hnamed.json
  obtain ⟨codec, hcodec⟩ := Option.isSome_iff_exists.mp (AList.lookup_isSome.mpr hmem)
  have hlookup := hcodec
  unfold chosenName at hlookup
  unfold negotiateCodec
  simp only
  rw [hlookup, hcodec]

/-- A registered codec is the one picked only if it is one of `connectproto`. -/
theorem codec_shared_iff (d : Defaults μ) (hd : d.Named) (us : List (TransportOption μ))
    (cfg : ClientConfig κ μ) (srv : ServerConfig κ' μ) (conn : κ)
    (hopts : srv.opts = serverOptions d us) (hregistered : cfg.codec.name ∈ srv.opts.codecs) :
    SameCodec cfg srv conn ↔
      cfg.codec.name = codecNameProto ∨ cfg.codec.name = codecNameJSON := by
  have hnamed : srv.opts.Named := by
    rw [hopts]
    exact named_serverOptions hd us
  have hpicked : ∀ rangeCodecs, negotiateCodec { srv with rangeCodecs } (contentTypeOf cfg) =
      srv.opts.codecs.lookup (chosenName (contentTypeOf cfg)) :=
    fun rangeCodecs => negotiateCodec_eq { srv with rangeCodecs } hnamed _
  rw [sameCodec_iff]
  constructor
  · intro hsame
    obtain ⟨codec, hcodec⟩ := Option.isSome_iff_exists.mp (AList.lookup_isSome.mpr hregistered)
    have hchosen := (hpicked .stored).symm.trans (hsame .stored)
    rw [hcodec] at hchosen
    have hname : cfg.codec.name = chosenName (contentTypeOf cfg) :=
      (hnamed.named _ _ hcodec).symm.trans (hnamed.named _ _ hchosen)
    rw [hname]
    exact chosenName_cases _
  · intro hname rangeCodecs
    rw [hpicked]
    have hchosen : chosenName (contentTypeOf cfg) = cfg.codec.name := by
      rcases hname with hname | hname
      · have hcontent : contentTypeOf cfg = "application/connect+".toList ++ codecNameProto :=
          congrArg ("application/connect+".toList ++ ·) hname
        rw [hcontent, chosenName_proto]
        exact hname.symm
      · have hcontent : contentTypeOf cfg = "application/connect+".toList ++ codecNameJSON :=
          congrArg ("application/connect+".toList ++ ·) hname
        rw [hcontent, chosenName_json]
        exact hname.symm
    rw [hchosen]

theorem named_plainDefaults : plainDefaults.Named := ⟨rfl, rfl⟩

/-- A codec of the caller's own. -/
def cborCodec : Codec Bytes where
  name := "cbor".toList
  marshalWrite := .ok
  unmarshalRead := .ok

/-- A client that sends with `codec`. -/
def callerWith (codec : Codec Bytes) : ClientConfig (List Envelope) Bytes where
  conn := playback
  procedure := "/echo.Echo/Echo".toList
  unary := true
  opts := transportOptions plainDefaults [.withCodecs [cborCodec], .withSendCodec codec.name]
  codec
  lib := plainLibrary

/-- A server that has all codecs of the client. -/
def cborServer : ServerConfig (List Envelope) Bytes where
  conn := playback
  opts := serverOptions plainDefaults [.withCodecs [cborCodec]]
  call := fun _ => .ret none
  lib := plainLibrary

theorem json_codec_shared :
    ((callerWith plainDefaults.json).opts.streamCodec).isSome ∧
      SameCodec (callerWith plainDefaults.json) cborServer [] := by
  refine ⟨rfl, ?_⟩
  exact (codec_shared_iff plainDefaults named_plainDefaults _ _ cborServer [] rfl
    (AList.lookup_isSome.mp rfl)).mpr (Or.inr rfl)

/-- A registered codec of another name is not found. -/
theorem cbor_codec_not_shared :
    (callerWith cborCodec).opts.streamCodec = some cborCodec ∧
      cborServer.opts.codecs.lookup cborCodec.name = some cborCodec ∧
      ¬ SameCodec (callerWith cborCodec) cborServer [] := by
  refine ⟨rfl, rfl, ?_⟩
  rw [sameCodec_iff]
  intro hsame
  have hname : (negotiateCodec cborServer (contentTypeOf (callerWith cborCodec))).map (·.name) =
      (cborServer.opts.codecs.lookup cborCodec.name).map (·.name) :=
    congrArg _ (hsame .stored)
  revert hname
  decide +kernel

end BidiProtocol
end BidiWeb
