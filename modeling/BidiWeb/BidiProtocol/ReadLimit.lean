/-
  BidiWeb.BidiProtocol.ReadLimit

  `ReadMaxBytes` on both sides.  `Receive` compares it with the payload of the
  envelope, which the codec is handed only after it has been decompressed.
-/

import BidiWeb.BidiProtocol.MessageTransfer
import BidiWeb.Lib.Callback

namespace BidiWeb
namespace BidiProtocol

open BidiWeb.ConnectProtocol
open BidiWeb.Lib
open BidiWeb.Core (Code)

variable {κ μ : Type}

-- ============================================================================
-- One message
-- ============================================================================

/-- A `Receive`, given how the codec unmarshals. -/
abbrev Receiver (μ : Type) : Type := (Bytes → Except GoError μ) → Received μ

/-- `env` holds `payload`, or what a registered compressor, which the headers
    name, decompresses to `payload`. -/
def Holds (compressors : AList (fun _ : GoString => Compressor)) (encoding : Option GoString)
    (env : Envelope) (payload : Bytes) : Prop :=
  env.flag = flagEnvelopeData ∧ env.payload = payload ∨
    env.flag = flagEnvelopeCompressed ∧ ∃ name ∈ encoding, ∃ compressor,
      compressors.lookup name = some compressor ∧ compressor.decompress env.payload = .ok payload

/-- The limit is one of what the codec is handed, and a larger message is
    refused. -/
structure Bounded (limit : Int) (compressors : AList (fun _ : GoString => Compressor))
    (encoding : Option GoString) (env : Envelope) (receive : Receiver μ) : Prop where
  handed : ∀ payload, Asks receive payload → payload.length ≤ limit
  refused : ∀ payload, Holds compressors encoding env payload → limit < payload.length →
    ∀ unmarshal, ∃ text, receive unmarshal = .error (.connectErrorf Code.resourceExhausted text)

/-- The message of an envelope within the limit is within it too. -/
def FitsDecompressed (limit : Int) (compressors : AList (fun _ : GoString => Compressor))
    (encoding : Option GoString) (env : Envelope) : Prop :=
  ∀ payload, env.flag = flagEnvelopeCompressed → env.payload.length ≤ limit →
    Holds compressors encoding env payload → payload.length ≤ limit

/-- What becomes of a message envelope. -/
structure Decides (limit : Int) (compressors : AList (fun _ : GoString => Compressor))
    (encoding : Option GoString) (env : Envelope) (receive : Receiver μ) : Prop where
  refused : exceeds env.payload limit = true →
    ∀ unmarshal, receive unmarshal = .error (sizeError "read" env.payload limit)
  handed : ∀ payload, exceeds env.payload limit = false → Holds compressors encoding env payload →
    ∃ k : Except GoError μ → Received μ,
      (∀ unmarshal, receive unmarshal = k (unmarshal payload)) ∧
        k (.error .eof) ≠ k (.error .canceled)
  other : exceeds env.payload limit = false →
    (∀ payload, ¬ Holds compressors encoding env payload) →
    ∀ unmarshal unmarshal', receive unmarshal = receive unmarshal'

variable {limit : Int} {compressors : AList (fun _ : GoString => Compressor)}
  {encoding : Option GoString} {env : Envelope} {receive : Receiver μ}

theorem exceeds_eq_false_iff (hlimit : 0 < limit) (payload : Bytes) :
    exceeds payload limit = false ↔ payload.length ≤ limit := by
  rw [exceeds, Bool.and_eq_false_iff, decide_eq_false_iff_not, decide_eq_false_iff_not]
  omega

/-- The size that is checked is that of the envelope. -/
theorem Decides.bounded_iff (h : Decides limit compressors encoding env receive)
    (hlimit : 0 < limit) :
    Bounded limit compressors encoding env receive ↔
      FitsDecompressed limit compressors encoding env := by
  constructor
  · intro hbounded payload _ hsize hholds
    obtain ⟨k, hk, hne⟩ := h.handed payload ((exceeds_eq_false_iff hlimit _).mpr hsize) hholds
    exact hbounded.handed payload (asks_of_ne hk hne)
  · intro hfits
    have hwithin : ∀ payload, env.payload.length ≤ limit →
        Holds compressors encoding env payload → payload.length ≤ limit := by
      intro payload hsize hholds
      rcases hholds with ⟨-, hplain⟩ | hcompressed
      · rw [← hplain]
        exact hsize
      · exact hfits payload hcompressed.1 hsize (Or.inr hcompressed)
    refine ⟨?_, ?_⟩
    · intro payload hasks
      cases hexceeds : exceeds env.payload limit with
      | true =>
          refine absurd hasks (not_asks_of_const (fun u u' => ?_) payload)
          rw [h.refused hexceeds, h.refused hexceeds]
      | false =>
          by_cases hnone : ∃ held, Holds compressors encoding env held
          · obtain ⟨held, hholds⟩ := hnone
            obtain ⟨k, hk, -⟩ := h.handed held hexceeds hholds
            rw [eq_of_asks hk hasks]
            exact hwithin held ((exceeds_eq_false_iff hlimit _).mp hexceeds) hholds
          · exact absurd hasks
              (not_asks_of_const (h.other hexceeds (not_exists.mp hnone)) payload)
    · intro payload hholds hlarge unmarshal
      cases hexceeds : exceeds env.payload limit with
      | true => exact ⟨_, h.refused hexceeds unmarshal⟩
      | false =>
          have hsmall := hwithin payload ((exceeds_eq_false_iff hlimit _).mp hexceeds) hholds
          omega

-- ============================================================================
-- Decompression
-- ============================================================================

theorem decompress_eq_ok {compressor : Compressor} {data payload : Bytes} :
    decompress compressor data = .ok payload ↔ compressor.decompress data = .ok payload := by
  unfold decompress
  cases compressor.decompress data with
  | ok decompressed => simp
  | error err =>
      cases err with
      | decompress err => simp
      | read err => simp

/-- What `decodePayload` yields is what the envelope holds. -/
theorem holds_iff_decodePayload (hmessage : env.isMessage = true) {name : GoString}
    {payload : Bytes} :
    Holds compressors (some name) env payload ↔
      decodePayload compressors name env = .ok payload := by
  have hflags : flagEnvelopeCompressed ≠ flagEnvelopeData := by decide
  unfold Holds decodePayload
  by_cases hcompressed : env.flag = flagEnvelopeCompressed
  · rw [if_pos hcompressed, hcompressed]
    cases hlookup : compressors.lookup name with
    | none => simp [hflags, hlookup]
    | some compressor => simp [hflags, hlookup, decompress_eq_ok]
  · have hdata : env.flag = flagEnvelopeData :=
      (Envelope.isMessage_iff.mp hmessage).resolve_right hcompressed
    rw [if_neg hcompressed, Except.ok.injEq, hdata]
    simp [hflags.symm]

-- ============================================================================
-- Both sides
-- ============================================================================

/-- The result of `Receive` on the server, as that of a client. -/
def Received.ofExcept : Except GoError μ → Received μ
  | .ok msg => .message msg
  | .error err => .error err

/-- `receive` is a call of `Receive` on either side that has read `env`, where
    the headers name `encoding`. -/
inductive ReadsMessage (limit : Int) (compressors : AList (fun _ : GoString => Compressor)) :
    Option GoString → Envelope → Receiver μ → Prop where
  | server {κ : Type} (srv : ServerConfig κ μ) (codec : Codec μ) (ss : ServerStream κ)
      (env : Envelope) :
      srv.opts.readMaxBytes = limit → srv.opts.compressors = compressors →
      (ss.session.readEnvelope srv.conn .message).1 = .ok env → env.isMessage = true →
      ReadsMessage limit compressors (some (ss.callInfo.requestHeader.get contentEncoding)) env
        fun unmarshalRead => .ofExcept (ss.receive srv { codec with unmarshalRead }).1
  /-- The headers of the response have been received before, or are now. -/
  | client {κ : Type} (cfg : ClientConfig κ μ) (cs cs₁ cs₂ : ClientStream κ) (env : Envelope) :
      cfg.opts.readMaxBytes = limit → cfg.opts.compressors = compressors →
      cs.sendHeaders cfg = (none, cs₁) → cs₁.recvHeaders cfg = (none, cs₂) → cs₂.rxEnd = false →
      (cs₂.readEnvelope cfg .message).1 = .ok env → env.isMessage = true →
      ReadsMessage limit compressors
        (cs₂.callInfo.map fun info => info.responseHeader.get contentEncoding) env
        fun unmarshalRead =>
          (cs.receive { cfg with codec := { cfg.codec with unmarshalRead } }).1

/-- Two errors of the codec that `Receive` reports differently. -/
theorem connectErrorf_ne (what : String) :
    GoError.connectErrorf Code.internal s!"{what}{GoError.eof.error}" ≠
      GoError.connectErrorf Code.internal s!"{what}{GoError.canceled.error}" := by
  intro heq
  have hlength := congrArg (fun err : GoError => err.error.length) heq
  simp only [GoError.connectErrorf, GoError.error, String.length_append] at hlength
  have hshort : (3 : Nat) = 16 := Nat.add_left_cancel hlength
  omega

/-- `Receive` of the server, once a message envelope has been read. -/
theorem server_receive_eq (srv : ServerConfig κ μ) (codec : Codec μ) (ss : ServerStream κ)
    {env : Envelope} (hread : (ss.session.readEnvelope srv.conn .message).1 = .ok env)
    (hmessage : env.isMessage = true) :
    (ss.receive srv codec).1 =
      if exceeds env.payload srv.opts.readMaxBytes then
        .error (sizeError "read" env.payload srv.opts.readMaxBytes)
      else
        match decodePayload srv.opts.compressors (ss.callInfo.requestHeader.get contentEncoding)
          env with
        | .error err => .error err
        | .ok payload =>
            match codec.unmarshalRead payload with
            | .error err =>
                .error (.connectErrorf Code.internal s!"failed to unmarshal request: {err.error}")
            | .ok msg => .ok msg := by
  obtain ⟨hheaders, hend, hflag⟩ := flags_of_isMessage hmessage
  rcases hsession : ss.session.readEnvelope srv.conn .message with ⟨result, session⟩
  rw [hsession] at hread
  obtain rfl : result = .ok env := hread
  unfold ServerStream.receive
  rw [hsession]
  show (if _ then _ else if _ then _ else if _ then _ else _) = _
  rw [if_neg hheaders, if_neg hend, if_neg hflag]
  rfl

theorem decides_server (srv : ServerConfig κ μ) (codec : Codec μ) (ss : ServerStream κ)
    {env : Envelope} (hread : (ss.session.readEnvelope srv.conn .message).1 = .ok env)
    (hmessage : env.isMessage = true) :
    Decides srv.opts.readMaxBytes srv.opts.compressors
      (some (ss.callInfo.requestHeader.get contentEncoding)) env
      fun unmarshalRead : Bytes → Except GoError μ =>
        .ofExcept (ss.receive srv { codec with unmarshalRead }).1 := by
  have hreceive := fun unmarshalRead : Bytes → Except GoError μ =>
    server_receive_eq srv { codec with unmarshalRead } ss hread hmessage
  refine ⟨?_, ?_, ?_⟩
  · intro hexceeds unmarshal
    rw [hreceive, if_pos hexceeds]
    rfl
  · intro payload hexceeds hholds
    have hdecode := (holds_iff_decodePayload hmessage).mp hholds
    refine ⟨fun answer => .ofExcept (match answer with
      | .error err =>
          .error (.connectErrorf Code.internal s!"failed to unmarshal request: {err.error}")
      | .ok msg => .ok msg), fun unmarshal => ?_, ?_⟩
    · rw [hreceive, hexceeds, if_neg Bool.false_ne_true, hdecode]
    · intro heq
      exact connectErrorf_ne "failed to unmarshal request: " (Received.error.inj heq)
  · intro hexceeds hnone unmarshal unmarshal'
    rw [hreceive, hreceive, hexceeds, if_neg Bool.false_ne_true]
    cases hdecode : decodePayload srv.opts.compressors
      (ss.callInfo.requestHeader.get contentEncoding) env with
    | error err => rfl
    | ok payload => exact absurd ((holds_iff_decodePayload hmessage).mpr hdecode) (hnone payload)

/-- `Receive` of the client, once a message envelope has been read. -/
theorem client_receive_eq {cfg : ClientConfig κ μ} {cs cs₁ cs₂ : ClientStream κ} {env : Envelope}
    (hsend : cs.sendHeaders cfg = (none, cs₁)) (hheaders : cs₁.recvHeaders cfg = (none, cs₂))
    (hopen : cs₂.rxEnd = false) (hread : (cs₂.readEnvelope cfg .message).1 = .ok env)
    (hmessage : env.isMessage = true) :
    cs.receive cfg = (cs₂.readEnvelope cfg .message).2.receiveMessage cfg env := by
  obtain ⟨hnotHeaders, hnotEnd, hflag⟩ := flags_of_isMessage hmessage
  rcases hnext : cs₂.readEnvelope cfg .message with ⟨result, cs₃⟩
  rw [hnext] at hread
  obtain rfl : result = .ok env := hread
  unfold ClientStream.receive
  rw [hsend]
  simp only
  rw [hheaders]
  simp only
  unfold ClientStream.receiveNext
  rw [hopen, if_neg Bool.false_ne_true, hnext]
  simp only
  rw [ClientStream.receiveEnvelope, if_neg hnotHeaders, if_neg hnotEnd, if_neg hflag]

/-- What `Receive` makes of the answer of the codec. -/
def ClientStream.deliver (cfg : ClientConfig κ μ) (cs : ClientStream κ) :
    Except GoError μ → Received μ
  | .error err =>
      .error (.connectErrorf Code.internal s!"failed to unmarshal response: {err.error}")
  | .ok msg =>
      if cfg.unary then
        match cs.readUnaryEndStream cfg with
        | (some err, _) => .error err
        | (none, _) => .message msg
      else .message msg

theorem receiveMessage_eq (cfg : ClientConfig κ μ) (cs : ClientStream κ) (env : Envelope) :
    (cs.receiveMessage cfg env).1 =
      if exceeds env.payload cfg.opts.readMaxBytes then
        .error (sizeError "read" env.payload cfg.opts.readMaxBytes)
      else if env.flag = flagEnvelopeCompressed ∧ cs.callInfo.isNone then .panic
      else
        match decodePayload cfg.opts.compressors
          ((cs.callInfo.getD {}).responseHeader.get contentEncoding) env with
        | .error err => .error err
        | .ok payload => cs.deliver cfg (cfg.codec.unmarshalRead payload) := by
  unfold ClientStream.receiveMessage
  split
  · rfl
  · split
    · rfl
    · show (Prod.fst (match decodePayload cfg.opts.compressors
        ((cs.callInfo.getD {}).responseHeader.get contentEncoding) env with
        | .error err => _
        | .ok payload => _)) = _
      cases decodePayload cfg.opts.compressors
        ((cs.callInfo.getD {}).responseHeader.get contentEncoding) env with
      | error err => rfl
      | ok payload =>
          simp only [ClientStream.deliver]
          cases cfg.codec.unmarshalRead payload with
          | error err => rfl
          | ok msg =>
              simp only
              split
              · rcases cs.readUnaryEndStream cfg with ⟨err | err, cs'⟩ <;> rfl
              · rfl

/-- Without a call info there is nothing that names a compressor. -/
theorem holds_callInfo (hmessage : env.isMessage = true) (info : Option CallInfo)
    (payload : Bytes) :
    Holds compressors (info.map fun info => info.responseHeader.get contentEncoding) env payload ↔
      ¬ (env.flag = flagEnvelopeCompressed ∧ info.isNone = true) ∧
        decodePayload compressors ((info.getD {}).responseHeader.get contentEncoding) env =
          .ok payload := by
  cases info with
  | some info =>
      have hholds := @holds_iff_decodePayload compressors env hmessage
        (info.responseHeader.get contentEncoding) payload
      rw [Option.map_some, hholds]
      simp
  | none =>
      have hflags : flagEnvelopeCompressed ≠ flagEnvelopeData := by decide
      rw [Option.map_none, Holds, decodePayload]
      by_cases hcompressed : env.flag = flagEnvelopeCompressed
      · simp [hcompressed, hflags]
      · have hdata : env.flag = flagEnvelopeData :=
          (Envelope.isMessage_iff.mp hmessage).resolve_right hcompressed
        simp [hdata, hflags.symm]

/-- What becomes of a message, given how the codec unmarshals. -/
theorem receiveMessage_unmarshal (cfg : ClientConfig κ μ) (cs : ClientStream κ) (env : Envelope)
    (unmarshalRead : Bytes → Except GoError μ) :
    (cs.receiveMessage { cfg with codec := { cfg.codec with unmarshalRead } } env).1 =
      if exceeds env.payload cfg.opts.readMaxBytes then
        .error (sizeError "read" env.payload cfg.opts.readMaxBytes)
      else if env.flag = flagEnvelopeCompressed ∧ cs.callInfo.isNone then .panic
      else
        match decodePayload cfg.opts.compressors
          ((cs.callInfo.getD {}).responseHeader.get contentEncoding) env with
        | .error err => .error err
        | .ok payload => cs.deliver cfg (unmarshalRead payload) := by
  rw [receiveMessage_eq]
  rfl

theorem decides_receiveMessage (cfg : ClientConfig κ μ) (cs : ClientStream κ) {env : Envelope}
    (hmessage : env.isMessage = true) :
    Decides cfg.opts.readMaxBytes cfg.opts.compressors
      (cs.callInfo.map fun info => info.responseHeader.get contentEncoding) env
      fun unmarshalRead : Bytes → Except GoError μ =>
        (cs.receiveMessage { cfg with codec := { cfg.codec with unmarshalRead } } env).1 := by
  refine ⟨?_, ?_, ?_⟩
  · intro hexceeds unmarshal
    rw [receiveMessage_unmarshal, if_pos hexceeds]
  · intro payload hexceeds hholds
    obtain ⟨hinfo, hdecode⟩ := (holds_callInfo hmessage cs.callInfo payload).mp hholds
    refine ⟨cs.deliver cfg, fun unmarshal => ?_, ?_⟩
    · rw [receiveMessage_unmarshal, hexceeds, if_neg Bool.false_ne_true, if_neg hinfo, hdecode]
    · intro heq
      exact connectErrorf_ne "failed to unmarshal response: " (Received.error.inj heq)
  · intro hexceeds hnone unmarshal unmarshal'
    rw [receiveMessage_unmarshal, receiveMessage_unmarshal, hexceeds]
    simp only [Bool.false_eq_true, if_false]
    by_cases hinfo : env.flag = flagEnvelopeCompressed ∧ cs.callInfo.isNone = true
    · rw [if_pos hinfo, if_pos hinfo]
    · rw [if_neg hinfo, if_neg hinfo]
      cases hdecode : decodePayload cfg.opts.compressors
        ((cs.callInfo.getD {}).responseHeader.get contentEncoding) env with
      | error err => rfl
      | ok payload =>
          exact absurd ((holds_callInfo hmessage cs.callInfo payload).mpr ⟨hinfo, hdecode⟩)
            (hnone payload)

theorem decides_client (cfg : ClientConfig κ μ) {cs cs₁ cs₂ : ClientStream κ} {env : Envelope}
    (hsend : cs.sendHeaders cfg = (none, cs₁)) (hheaders : cs₁.recvHeaders cfg = (none, cs₂))
    (hopen : cs₂.rxEnd = false) (hread : (cs₂.readEnvelope cfg .message).1 = .ok env)
    (hmessage : env.isMessage = true) :
    Decides cfg.opts.readMaxBytes cfg.opts.compressors
      (cs₂.callInfo.map fun info => info.responseHeader.get contentEncoding) env
      fun unmarshalRead : Bytes → Except GoError μ =>
        (cs.receive { cfg with codec := { cfg.codec with unmarshalRead } }).1 := by
  -- the headers do not depend on how the codec unmarshals
  have hreceive : (fun unmarshalRead : Bytes → Except GoError μ =>
      (cs.receive { cfg with codec := { cfg.codec with unmarshalRead } }).1) =
        fun unmarshalRead => ((cs₂.readEnvelope cfg .message).2.receiveMessage
          { cfg with codec := { cfg.codec with unmarshalRead } } env).1 := by
    funext unmarshalRead
    exact congrArg Prod.fst
      (@client_receive_eq _ _ { cfg with codec := { cfg.codec with unmarshalRead } } _ _ _ _
        hsend hheaders hopen hread hmessage)
  rw [hreceive]
  exact decides_receiveMessage cfg (cs₂.readEnvelope cfg .message).2 hmessage

/-- On both sides, a message is bounded unless it is only so while compressed. -/
theorem read_bounded_iff (limit : Int) (compressors : AList (fun _ : GoString => Compressor))
    (encoding : Option GoString) (env : Envelope) (receive : Receiver μ) (hlimit : 0 < limit)
    (hreads : ReadsMessage limit compressors encoding env receive) :
    Bounded limit compressors encoding env receive ↔
      FitsDecompressed limit compressors encoding env := by
  cases hreads with
  | server srv codec ss _ hmax hcompressors hread hmessage =>
      subst hmax hcompressors
      exact (decides_server srv codec ss hread hmessage).bounded_iff hlimit
  | client cfg cs cs₁ cs₂ _ hmax hcompressors hsend hheaders hopen hread hmessage =>
      subst hmax hcompressors
      exact (decides_client cfg hsend hheaders hopen hread hmessage).bounded_iff hlimit

/-- A server that reads messages of one byte. -/
def limitedServer : ServerConfig (List Envelope) Bytes where
  conn := playback
  opts := serverOptions
    { plainDefaults with
      gzip := { plainDefaults.gzip with decompress := fun payload => .ok (payload ++ payload) } }
    [.withReadMaxBytes 1]
  call := fun _ => .ret none
  lib := plainLibrary

/-- The stream of a request with `encoding` that has `env` as its message. -/
def streamOf (encoding : GoString) (env : Envelope) : ServerStream (List Envelope) where
  session := { conn := [env] }
  callInfo := { requestHeader := setAllValues ∅ [(contentEncoding, [encoding])] }

def limitedReceive (env : Envelope) : Receiver Bytes := fun unmarshalRead =>
  .ofExcept ((streamOf "gzip".toList env).receive limitedServer
    { plainDefaults.binary with unmarshalRead }).1

theorem reads_limited (env : Envelope) (hmessage : env.isMessage = true) :
    ReadsMessage 1 limitedServer.opts.compressors (some "gzip".toList) env
      (limitedReceive env) := by
  have hencoding : (streamOf "gzip".toList env).callInfo.requestHeader.get contentEncoding =
      "gzip".toList := by
    have hempty : (streamOf "gzip".toList env).callInfo =
      (streamOf "gzip".toList ⟨0, []⟩).callInfo := rfl
    rw [hempty]
    decide +kernel
  rw [← hencoding]
  exact .server limitedServer plainDefaults.binary (streamOf "gzip".toList env) env rfl rfl rfl
    hmessage

theorem small_message_bounded :
    Bounded 1 limitedServer.opts.compressors (some "gzip".toList) ⟨flagEnvelopeData, [7]⟩
      (limitedReceive ⟨flagEnvelopeData, [7]⟩) := by
  refine (read_bounded_iff 1 _ _ ⟨flagEnvelopeData, [7]⟩ _ (by decide)
    (reads_limited ⟨flagEnvelopeData, [7]⟩ (by decide))).mpr ?_
  intro payload hcompressed
  exact absurd hcompressed (by decide)

/-- One byte that decompresses to two. -/
theorem compressed_message_unbounded :
    ReadsMessage 1 limitedServer.opts.compressors (some "gzip".toList)
        ⟨flagEnvelopeCompressed, [7]⟩ (limitedReceive ⟨flagEnvelopeCompressed, [7]⟩) ∧
      ¬ Bounded 1 limitedServer.opts.compressors (some "gzip".toList)
        ⟨flagEnvelopeCompressed, [7]⟩ (limitedReceive ⟨flagEnvelopeCompressed, [7]⟩) := by
  refine ⟨reads_limited ⟨flagEnvelopeCompressed, [7]⟩ (by decide), fun hbounded => ?_⟩
  have hholds : Holds limitedServer.opts.compressors (some "gzip".toList)
      ⟨flagEnvelopeCompressed, [7]⟩ [7, 7] :=
    Or.inr ⟨rfl, _, rfl, _, rfl, rfl⟩
  obtain ⟨text, hrefused⟩ := hbounded.refused [7, 7] hholds (by decide) .ok
  have hreceived : (limitedReceive ⟨flagEnvelopeCompressed, [7]⟩ .ok).toOption = some [7, 7] := by
    decide +kernel
  rw [hrefused] at hreceived
  cases hreceived

end BidiProtocol
end BidiWeb
