/-
  BidiWeb.BidiProtocol.Options

  `internal/bidiprotocol/options.go`, and the options of the transports that
  set its fields.  What is registered is what is listed, so a compressor that
  a server takes from the list is one that the client has.
-/

import BidiWeb.BidiProtocol.Conn
import BidiWeb.ConnectProtocol.Compression
import BidiWeb.ConnectProtocol.RoundTrip

namespace BidiWeb
namespace BidiProtocol

open BidiWeb.ConnectProtocol

variable {μ : Type}

-- ============================================================================
-- Construction
-- ============================================================================

/-- `connectprotocol.DefaultCompressors`; `gzip` is `connectgzip.New()`. -/
def defaultCompressors (gzip : Compressor) :
    AList (fun _ : GoString => Compressor) × List GoString :=
  (AList.singleton gzip.name gzip, [gzip.name])

/-- What the options start from: the codecs of `connectproto`, and
    `connectgzip.New()`. -/
structure Defaults (μ : Type) where
  binary : Codec μ
  json : Codec μ
  gzip : Compressor

def newOptions (d : Defaults μ) : Options μ where
  codecs := (AList.singleton codecNameProto d.binary).insert codecNameJSON d.json
  compressors := (defaultCompressors d.gzip).1
  compressorNames := (defaultCompressors d.gzip).2

def newClientOptions (d : Defaults μ) : Options μ :=
  { newOptions d with
    sendCodecName := codecNameProto
    sendCompressor := compressionNameIdentity }

def newServerOptions (d : Defaults μ) : Options μ := newOptions d

namespace Options

def addCodecs (o : Options μ) (codecs : List (Codec μ)) : Options μ :=
  codecs.foldl (fun o codec => { o with codecs := o.codecs.insert codec.name codec }) o

def addCompressors (o : Options μ) (compressors : List Compressor) : Options μ :=
  compressors.foldl
    (fun o compressor =>
      { o with
        compressors := o.compressors.insert compressor.name compressor
        compressorNames := o.compressorNames ++ [compressor.name] })
    o

/-- Resolve the derived fields. -/
def finalize (o : Options μ) : Options μ :=
  { o with
    sendCodec :=
      match o.codecs.lookup o.sendCodecName with
      | some codec => some codec
      | none => o.codecs.lookup codecNameProto
    acceptCompression := [','].intercalate o.compressorNames }

end Options

/-- An `Option` of `NewTransport`, as far as it concerns these options. -/
inductive TransportOption (μ : Type) where
  | withSendCodec (name : GoString)
  | withCodecs (codecs : List (Codec μ))
  | withSendCompressor (name : GoString)
  | withCompressors (compressors : List Compressor)
  | withReadMaxBytes (maxBytes : Int)
  | withSendMaxBytes (maxBytes : Int)

def TransportOption.applyTransport (opt : TransportOption μ) (topts : Options μ) : Options μ :=
  match opt with
  | .withSendCodec name => { topts with sendCodecName := name }
  | .withCodecs codecs => topts.addCodecs codecs
  | .withSendCompressor name => { topts with sendCompressor := name }
  | .withCompressors compressors => topts.addCompressors compressors
  | .withReadMaxBytes maxBytes => { topts with readMaxBytes := maxBytes }
  | .withSendMaxBytes maxBytes => { topts with sendMaxBytes := maxBytes }

/-- The options of `NewTransport`. -/
def transportOptions (d : Defaults μ) (opts : List (TransportOption μ)) : Options μ :=
  (opts.foldl (fun topts opt => opt.applyTransport topts) (newClientOptions d)).finalize

/-- The same options for `NewHandler`; a server sends with the codec and the
    compressor that its client asks for. -/
def TransportOption.applyServer (opt : TransportOption μ) (sopts : Options μ) : Options μ :=
  match opt with
  | .withSendCodec _ => sopts
  | .withCodecs codecs => sopts.addCodecs codecs
  | .withSendCompressor _ => sopts
  | .withCompressors compressors => sopts.addCompressors compressors
  | .withReadMaxBytes maxBytes => { sopts with readMaxBytes := maxBytes }
  | .withSendMaxBytes maxBytes => { sopts with sendMaxBytes := maxBytes }

/-- The options of `NewHandler`. -/
def serverOptions (d : Defaults μ) (opts : List (TransportOption μ)) : Options μ :=
  (opts.foldl (fun sopts opt => opt.applyServer sopts) (newServerOptions d)).finalize

/-- The codec that `NewClientStream` picks. -/
def Options.streamCodec (o : Options μ) : Option (Codec μ) :=
  match o.sendCodec with
  | some codec => some codec
  | none => o.codecs.lookup codecNameProto

-- ============================================================================
-- What is listed is registered
-- ============================================================================

/-- The names of the compressors are listed, and no others. -/
structure Options.Listed (o : Options μ) : Prop where
  some_listed : o.compressorNames ≠ []
  registered : ∀ name ∈ o.compressorNames, name ∈ o.compressors

theorem listed_newClientOptions (d : Defaults μ) : (newClientOptions d).Listed where
  some_listed := List.cons_ne_nil _ _
  registered := by
    intro name hname
    rw [List.mem_singleton.mp hname]
    exact List.mem_singleton_self _

/-- Adding codecs does not concern compressors. -/
theorem addCodecs_compressors (o : Options μ) (codecs : List (Codec μ)) :
    (o.addCodecs codecs).compressors = o.compressors ∧
      (o.addCodecs codecs).compressorNames = o.compressorNames := by
  induction codecs generalizing o with
  | nil => exact ⟨rfl, rfl⟩
  | cons codec codecs ih => exact ih _

theorem Options.Listed.addCompressors {o : Options μ} (ho : o.Listed)
    (compressors : List Compressor) : (o.addCompressors compressors).Listed := by
  induction compressors generalizing o with
  | nil => exact ho
  | cons compressor compressors ih =>
      apply @ih { o with
        compressors := o.compressors.insert compressor.name compressor
        compressorNames := o.compressorNames ++ [compressor.name] }
      refine ⟨by simp, ?_⟩
      intro name hname
      rw [AList.mem_insert]
      rcases List.mem_append.mp hname with hold | hnew
      · exact Or.inr (ho.registered name hold)
      · exact Or.inl (List.mem_singleton.mp hnew)

theorem Options.Listed.applyTransport {o : Options μ} (ho : o.Listed)
    (opt : TransportOption μ) : (opt.applyTransport o).Listed := by
  cases opt with
  | withSendCodec name => exact ⟨ho.some_listed, ho.registered⟩
  | withCodecs codecs =>
      obtain ⟨hcompressors, hnames⟩ := addCodecs_compressors o codecs
      refine ⟨?_, ?_⟩
      · rw [TransportOption.applyTransport, hnames]
        exact ho.some_listed
      · rw [TransportOption.applyTransport, hnames, hcompressors]
        exact ho.registered
  | withSendCompressor name => exact ⟨ho.some_listed, ho.registered⟩
  | withCompressors compressors => exact ho.addCompressors compressors
  | withReadMaxBytes maxBytes => exact ⟨ho.some_listed, ho.registered⟩
  | withSendMaxBytes maxBytes => exact ⟨ho.some_listed, ho.registered⟩

theorem listed_transportOptions (d : Defaults μ) (opts : List (TransportOption μ)) :
    (transportOptions d opts).Listed := by
  have hfold : ∀ o : Options μ, o.Listed →
      (opts.foldl (fun topts opt => opt.applyTransport topts) o).Listed := by
    induction opts with
    | nil => exact fun o ho => ho
    | cons opt opts ih => exact fun o ho => ih _ (ho.applyTransport opt)
  obtain ⟨hsome, hregistered⟩ := hfold _ (listed_newClientOptions d)
  exact ⟨hsome, hregistered⟩

-- ============================================================================
-- Negotiation
-- ============================================================================

/-- An HTTP token. -/
def IsToken (name : GoString) : Prop := name ≠ [] ∧ name.all validHeaderFieldByte = true

theorem not_comma_of_isToken {name : GoString} (h : IsToken name) : ',' ∉ name := by
  intro hmem
  have hcomma := List.all_eq_true.mp h.2 ',' hmem
  revert hcomma
  decide

theorem not_isSpaceRune_of_validHeaderFieldByte {c : Char} (hc : validHeaderFieldByte c = true) :
    isSpaceRune c = false := by
  have hlt := toNat_lt_of_validHeaderFieldByte hc
  revert hc
  refine Lib.Unicode.forall_char_lt c hlt ?_
  decide +kernel

theorem dropWhile_isSpaceRune {s : GoString} (h : ∀ c ∈ s, isSpaceRune c = false) :
    s.dropWhile isSpaceRune = s := by
  cases s with
  | nil => rfl
  | cons c s => rw [List.dropWhile_cons_of_neg (by simp [h c List.mem_cons_self])]

theorem trimSpace_of_isToken {name : GoString} (h : IsToken name) : trimSpace name = name := by
  have hspace : ∀ c ∈ name, isSpaceRune c = false := fun c hc =>
    not_isSpaceRune_of_validHeaderFieldByte (List.all_eq_true.mp h.2 c hc)
  have hreverse : ∀ c ∈ name.reverse, isSpaceRune c = false := fun c hc =>
    hspace c (List.mem_reverse.mp hc)
  rw [trimSpace, dropWhile_isSpaceRune hspace, dropWhile_isSpaceRune hreverse,
    List.reverse_reverse]

/-- The server takes a compressor that the client has listed. -/
theorem negotiateCompression_mem {γ : Type} {names : List GoString} (hne : names ≠ [])
    (htokens : ∀ name ∈ names, IsToken name) {compressors : AList (fun _ : GoString => γ)}
    {name : GoString} {compressor : γ}
    (h : negotiateCompression ([','].intercalate names) compressors = some (name, compressor)) :
    name ∈ names ∧ compressors.lookup name = some compressor := by
  unfold negotiateCompression at h
  rw [List.splitOn_intercalate ',' (fun l hl => not_comma_of_isToken (htokens l hl)) hne] at h
  obtain ⟨part, hpart, hsome⟩ := List.exists_of_findSome?_eq_some h
  obtain ⟨c, hc, heq⟩ := Option.map_eq_some_iff.mp hsome
  obtain ⟨rfl, rfl⟩ := Prod.mk.inj heq
  rw [trimSpace_of_isToken (htokens part hpart)] at hc ⊢
  exact ⟨hpart, hc⟩

end BidiProtocol
end BidiWeb
