/-
  BidiWeb.BidiProtocol.MessageTransfer

  Messages from a Go client to a Go server and back.  Three pieces of state
  have to agree: the list of compressors that the client accepts, the one that
  each side has picked, and the header that names it to the other side.
-/

import BidiWeb.BidiProtocol.ClientTransfer
import BidiWeb.BidiProtocol.Options
import BidiWeb.BidiProtocol.ServerTransfer

namespace BidiWeb
namespace BidiProtocol

open BidiWeb.ConnectProtocol
open BidiWeb.Lib

variable {κ κ' μ : Type}

-- ============================================================================
-- Messages among what has been read
-- ============================================================================

section Reads

variable {reads : List (Awaits × Except GoError Envelope)}

/-- The envelopes of a list of reads. -/
def envelopesOf (reads : List (Awaits × Except GoError Envelope)) : List Envelope :=
  reads.filterMap fun r => r.2.toOption

theorem sublist_filter_isMessage (reads : List (Awaits × Except GoError Envelope)) :
    List.Sublist (reads.filterMap messageOf) ((envelopesOf reads).filter Envelope.isMessage) := by
  induction reads with
  | nil => exact .slnil
  | cons r reads ih =>
      obtain ⟨awaits, result⟩ := r
      cases result with
      | error err => cases awaits <;> exact ih
      | ok env =>
          have hrest : envelopesOf ((awaits, .ok env) :: reads) = env :: envelopesOf reads := rfl
          rw [hrest]
          cases hmessage : env.isMessage with
          | false =>
              rw [List.filter_cons_of_neg (by simp [hmessage]),
                List.filterMap_cons_none (messageOf_of_not_isMessage hmessage awaits)]
              exact ih
          | true =>
              rw [List.filter_cons_of_pos hmessage]
              cases awaits with
              | message =>
                  rw [List.filterMap_cons_some (messageOf_of_isMessage hmessage)]
                  exact ih.cons_cons env
              | headers => exact ih.cons env
              | endStream => exact ih.cons env

/-- Where nothing else is a message, all messages have been awaited. -/
theorem filterMap_messageOf
    (h : ∀ awaits env, (awaits, Except.ok env) ∈ reads → awaits ≠ .message →
      env.isMessage = false) :
    reads.filterMap messageOf = (envelopesOf reads).filter Envelope.isMessage := by
  apply (sublist_filter_isMessage reads).eq_of_length
  induction reads with
  | nil => rfl
  | cons r reads ih =>
      have hlength := ih fun awaits env hr => h awaits env (List.mem_cons_of_mem _ hr)
      obtain ⟨awaits, result⟩ := r
      cases result with
      | error err => cases awaits <;> exact hlength
      | ok env =>
          have hrest : envelopesOf ((awaits, .ok env) :: reads) = env :: envelopesOf reads := rfl
          rw [hrest]
          cases hmessage : env.isMessage with
          | false =>
              rw [List.filter_cons_of_neg (by simp [hmessage]),
                List.filterMap_cons_none (messageOf_of_not_isMessage hmessage awaits)]
              exact hlength
          | true =>
              obtain rfl : awaits = .message := by
                by_contra hother
                have hfalse := h awaits env List.mem_cons_self hother
                rw [hmessage] at hfalse
                cases hfalse
              rw [List.filter_cons_of_pos hmessage,
                List.filterMap_cons_some (messageOf_of_isMessage hmessage), List.length_cons,
                List.length_cons, hlength]

end Reads

/-- Of a written stream, the messages: neither the headers in front nor what
    ends the stream. -/
theorem filter_isMessage {opening : Envelope} {envs ends : List Envelope}
    (hopening : opening.isMessage = false) (hmessages : ∀ env ∈ envs, env.isMessage = true)
    (hends : ∀ env ∈ ends, env.isMessage = false) :
    (opening :: (envs ++ ends)).filter Envelope.isMessage = envs := by
  have hnone : ends.filter Envelope.isMessage = [] := by
    apply List.filter_eq_nil_iff.mpr
    intro env henv
    rw [hends env henv]
    exact Bool.false_ne_true
  rw [List.filter_cons_of_neg (by simp [hopening]), List.filter_append,
    List.filter_eq_self.mpr hmessages, hnone, List.append_nil]

-- ============================================================================
-- Agreement
-- ============================================================================

/-- A client and a server whose options go together; `codec` is the one that
    the server picks. -/
structure Agreed (cfg : ClientConfig κ μ) (srv : ServerConfig κ' μ) (codec : Codec μ) : Prop where
  /-- The options of the client are those of a transport. -/
  options : ∃ d us, cfg.opts = transportOptions d us
  negotiated : negotiateCodec srv ("application/connect+".toList ++ cfg.codec.name) = some codec
  /-- This codec is the client's: each decodes what the other has encoded. -/
  codecs : cfg.codec.UndoneBy codec ∧ codec.UndoneBy cfg.codec
  /-- So do compressors of the same name. -/
  compressors : ∀ name c c', cfg.opts.compressors.lookup name = some c →
    srv.opts.compressors.lookup name = some c' → c.UndoneBy c' ∧ c'.UndoneBy c
  sendCompressor : cfg.opts.sendCompressor = [] ∨
    cfg.opts.sendCompressor = compressionNameIdentity ∨
    cfg.opts.sendCompressor ∈ cfg.opts.compressors ∧ cfg.opts.sendCompressor ∈ srv.opts.compressors
  tokens : ∀ name ∈ cfg.opts.compressorNames, IsToken name
  /-- Neither side limits what it reads. -/
  unlimited : cfg.opts.readMaxBytes ≤ 0 ∧ srv.opts.readMaxBytes ≤ 0

variable {cfg : ClientConfig κ μ} {srv : ServerConfig κ' μ} {codec : Codec μ}

theorem Agreed.listed (h : Agreed cfg srv codec) : cfg.opts.Listed := by
  obtain ⟨d, us, hopts⟩ := h.options
  rw [hopts]
  exact listed_transportOptions d us

theorem Agreed.accept (h : Agreed cfg srv codec) :
    cfg.opts.acceptCompression = [','].intercalate cfg.opts.compressorNames := by
  obtain ⟨d, us, hopts⟩ := h.options
  rw [hopts]
  rfl

theorem intercalate_ne_nil {names : List GoString} (hne : names ≠ [])
    (htokens : ∀ name ∈ names, IsToken name) : [','].intercalate names ≠ [] := by
  obtain ⟨name, rest, rfl⟩ := List.exists_cons_of_ne_nil hne
  have hname : name ≠ [] := (htokens name List.mem_cons_self).1
  cases rest with
  | nil => simpa [List.intercalate] using hname
  | cons name' rest => simp [List.intercalate]

/-- A pseudo-header aside, the call info has what the headers say. -/
theorem get_requestInfo (srv : ServerConfig κ' μ) {headers : Header} (hkeys : WireKeys headers)
    {key : GoString} (hkey : isPseudo (canonicalHeaderKey key) = false) :
    (requestInfo srv headers).requestHeader.get key = headers.get key := by
  apply get_congr
  rw [requestInfo, lookup_setAllValues_filter _ _ hkeys hkey, AList.lookup_empty, Option.or_none]

theorem WireKeys.congr {h h' : Header} (hh : WireKeys h) (hlookup : ∀ k, h'.lookup k = h.lookup k) :
    WireKeys h' := by
  intro k hk
  apply hh
  rw [← AList.lookup_isSome, ← hlookup, AList.lookup_isSome]
  exact hk

/-- What the server makes of the headers of a request. -/
theorem requests_received {opening : Envelope} (h : ClientStream.Requests cfg opening)
    {headers : Header}
    (hheaders : unmarshalHeaders srv.rangeHeaders opening.payload = some headers) :
    ClientStream.Offers cfg headers ∧ ClientStream.Offers cfg
      (requestInfo srv headers).requestHeader := by
  obtain ⟨sent, hopens, hoffers⟩ := h
  obtain ⟨headers', hunmarshal, hlookup⟩ := hopens.unmarshal srv.rangeHeaders
  obtain rfl : headers' = headers := Option.some.inj (hunmarshal.symm.trans hheaders)
  have hsame : ∀ key, headers'.get key = sent.get key := fun key => get_congr key (hlookup _)
  have hkeys : WireKeys headers' := hopens.keys.congr hlookup
  have hread : ClientStream.Offers cfg headers' := by
    refine ⟨?_, fun hc => ?_, fun hne => ?_⟩
    · rw [hsame]
      exact hoffers.contentType
    · rw [hsame]
      exact hoffers.encoding hc
    · rw [hsame]
      exact hoffers.accept hne
  refine ⟨hread, ?_, fun hc => ?_, fun hne => ?_⟩
  · rw [get_requestInfo srv hkeys (by decide)]
    exact hread.contentType
  · rw [get_requestInfo srv hkeys (by decide)]
    exact hread.encoding hc
  · rw [get_requestInfo srv hkeys (by decide)]
    exact hread.accept hne

/-- The server takes a compressor that the client lists, and has. -/
theorem Agreed.negotiatedFor (h : Agreed cfg srv codec) {requestHeader : Header}
    (hoffers : ClientStream.Offers cfg requestHeader) {name : GoString} {c : Compressor}
    (hnegotiated : ServerStream.negotiatedFor srv requestHeader = some (name, c)) :
    name ∈ cfg.opts.compressorNames ∧ name ∈ cfg.opts.compressors ∧
      srv.opts.compressors.lookup name = some c := by
  have hne := intercalate_ne_nil h.listed.some_listed h.tokens
  have haccept := hoffers.accept (by rw [h.accept]; exact hne)
  rw [ServerStream.negotiatedFor, haccept, h.accept] at hnegotiated
  obtain ⟨hmem, hlookup⟩ := negotiateCompression_mem h.listed.some_listed h.tokens hnegotiated
  exact ⟨hmem, h.listed.registered name hmem, hlookup⟩

/-- Every message that has been read has been received, and these are the
    first that were sent, in order. -/
def Lossless (sent received : List μ) (read : List Envelope) : Prop :=
  List.IsPrefix received sent ∧ received.length = read.length

theorem lossless_of_prefix {codec codec' : Codec μ} {compressor : Option Compressor}
    {sendMaxBytes : Int} {compressors : AList (fun _ : GoString => Compressor)}
    {encoding : GoString} {sent : List μ} {envs read : List Envelope}
    (hcodec : codec.UndoneBy codec') (hcompressor : Decompresses compressor compressors encoding)
    (hsent : List.Forall₂ (Encodes codec compressor sendMaxBytes) sent envs)
    (hread : List.IsPrefix read envs) :
    Lossless sent (read.filterMap (decode codec' compressors encoding)) read := by
  have hle : read.length ≤ sent.length := by
    rw [hsent.length_eq]
    exact hread.length_le
  rw [filterMap_decode hcodec hcompressor hsent hread]
  refine ⟨List.take_prefix _ _, ?_⟩
  rw [List.length_take]
  omega

-- ============================================================================
-- From the client to the server
-- ============================================================================

theorem requestCompressor_eq_some {c : Compressor}
    (h : ClientStream.requestCompressor cfg = some c) :
    ClientStream.Compresses cfg ∧ cfg.opts.compressors.lookup cfg.opts.sendCompressor = some c := by
  unfold ClientStream.requestCompressor at h
  split at h
  · rename_i hcompresses
    exact ⟨hcompresses, h⟩
  · cases h

theorem Agreed.registered (h : Agreed cfg srv codec) (hcompresses : ClientStream.Compresses cfg) :
    cfg.opts.sendCompressor ∈ srv.opts.compressors := by
  rcases h.sendCompressor with hempty | hidentity | ⟨-, hserver⟩
  · exact absurd hempty hcompresses.1
  · exact absurd hidentity hcompresses.2
  · exact hserver

theorem Agreed.request_decompresses (h : Agreed cfg srv codec) {requestHeader : Header}
    (hoffers : ClientStream.Offers cfg requestHeader) :
    Decompresses (ClientStream.requestCompressor cfg) srv.opts.compressors
      (requestHeader.get contentEncoding) := by
  intro c hc
  obtain ⟨hcompresses, hlookup⟩ := requestCompressor_eq_some hc
  obtain ⟨c', hc'⟩ := Option.isSome_iff_exists.mp
    (AList.lookup_isSome.mpr (h.registered hcompresses))
  rw [hoffers.encoding hcompresses]
  exact ⟨c', hc', (h.compressors _ c c' hlookup hc').1⟩

theorem isMessage_of_flag {env : Envelope} {flag : UInt8} (hflag : env.flag = flag)
    (hother : flag ≠ flagEnvelopeData ∧ flag ≠ flagEnvelopeCompressed) : env.isMessage = false := by
  rw [Envelope.isMessage, hflag, decide_eq_false hother.1, decide_eq_false hother.2]
  rfl

theorem exists_of_mem_forall₂ {α β : Type} {R : α → β → Prop} {as : List α} {bs : List β}
    (h : List.Forall₂ R as bs) {b : β} (hb : b ∈ bs) : ∃ a ∈ as, R a b := by
  induction h with
  | nil => cases hb
  | @cons a b' as bs hab _ ih =>
      rcases List.mem_cons.mp hb with rfl | hrest
      · exact ⟨a, List.mem_cons_self, hab⟩
      · obtain ⟨a', ha', hab'⟩ := ih hrest
        exact ⟨a', List.mem_cons_of_mem a ha', hab'⟩

theorem isMessage_of_encodes {compressor : Option Compressor} {sendMaxBytes : Int} {msgs : List μ}
    {envs : List Envelope} (h : List.Forall₂ (Encodes codec compressor sendMaxBytes) msgs envs) :
    ∀ env ∈ envs, env.isMessage = true := by
  intro env henv
  obtain ⟨msg, -, hmsg⟩ := exists_of_mem_forall₂ h henv
  exact hmsg.isMessage

theorem isMessage_opening {opening : Envelope} (h : opening.flag = flagEnvelopeHeaders) :
    opening.isMessage = false := isMessage_of_flag h (by decide)

/-- What a server has read is the headers and messages it has asked for. -/
theorem Served.messages {headers : Header} {opening ending : Envelope} {after : Session κ'}
    {log : List (Transfer μ)} (h : Served srv headers codec opening ending after log)
    (hopening : opening.flag = flagEnvelopeHeaders) :
    (∃ rest, after.received = opening :: rest) ∧
      after.messages = after.received.filter Envelope.isMessage := by
  obtain ⟨tail, hreads, htail⟩ := h.reads
  refine ⟨⟨envelopesOf tail, ?_⟩, ?_⟩
  · rw [Session.received, hreads]
    rfl
  · apply filterMap_messageOf
    intro awaits env henv hother
    rw [hreads] at henv
    rcases List.mem_cons.mp henv with hfirst | hrest
    · obtain rfl : env = opening := Except.ok.inj (Prod.mk.inj hfirst).2
      exact isMessage_opening hopening
    · exact absurd (htail _ hrest) hother

/-- Half-closing the stream aside, the server reads what the client has written. -/
theorem Served.request {headers : Header} {opening ending : Envelope} {after : Session κ'}
    {log : List (Transfer μ)} {cs : ClientStream κ} {clientLog : List (Transfer μ)}
    (hserved : Served srv headers codec opening ending after log)
    (hsending : ClientStream.Sending cfg cs clientLog)
    (hopening : opening.flag = flagEnvelopeHeaders)
    (hup : List.IsPrefix (after.received.filter fun env => env.flag ≠ flagEnvelopeEndStream)
      cs.session.written) :
    ClientStream.Requests cfg opening ∧
      ∃ envs, List.IsPrefix after.messages envs ∧
        List.Forall₂
          (Encodes cfg.codec (ClientStream.requestCompressor cfg) cfg.opts.sendMaxBytes)
          (sentMessages clientLog) envs := by
  obtain ⟨⟨rest, hreceived⟩, hmessages⟩ := hserved.messages hopening
  have hnoEnd : opening.flag ≠ flagEnvelopeEndStream := by
    rw [hopening]
    decide
  have hup' : List.IsPrefix (opening :: rest.filter fun env => env.flag ≠ flagEnvelopeEndStream)
      cs.session.written := by
    have hcons : (opening :: rest).filter (fun env => env.flag ≠ flagEnvelopeEndStream) =
        opening :: rest.filter fun env => env.flag ≠ flagEnvelopeEndStream :=
      List.filter_cons_of_pos (decide_eq_true hnoEnd)
    rw [← hcons, ← hreceived]
    exact hup
  rcases hsending.sent with ⟨-, hempty, -⟩ | ⟨-, env, envs, hwritten, hrequests, hall⟩
  · rw [hempty] at hup'
    exact absurd (List.prefix_nil.mp hup') (List.cons_ne_nil _ _)
  · rw [hwritten] at hup'
    obtain ⟨rfl, hrest⟩ := List.cons_prefix_cons.mp hup'
    refine ⟨hrequests, envs, ?_, hall⟩
    -- the messages pass both filters
    have hboth := hrest.filter Envelope.isMessage
    rw [List.filter_eq_self.mpr (isMessage_of_encodes hall), List.filter_filter] at hboth
    have hsame :
        rest.filter (fun env => env.isMessage && decide (env.flag ≠ flagEnvelopeEndStream)) =
        rest.filter Envelope.isMessage := by
      apply List.filter_congr
      intro env _
      cases hmessage : env.isMessage with
      | false => rfl
      | true => exact decide_eq_true (flags_of_isMessage hmessage).2.1
    rw [hsame] at hboth
    rw [hmessages, hreceived, List.filter_cons_of_neg (by simp [isMessage_opening hopening])]
    exact hboth

-- ============================================================================
-- From the server to the client
-- ============================================================================

/-- The client has the compressor of the response under the name announced. -/
theorem Agreed.response_decompresses (h : Agreed cfg srv codec) {requestHeader : Header}
    (hoffers : ClientStream.Offers cfg requestHeader) {opening : Envelope} {info : CallInfo}
    (hannounced : ServerStream.Announced srv requestHeader opening)
    (hsurfaced : ClientStream.Surfaced cfg opening info) :
    Decompresses ((ServerStream.negotiatedFor srv requestHeader).map (·.2)) cfg.opts.compressors
      (info.responseHeader.get contentEncoding) := by
  intro c hc
  obtain ⟨⟨name, c₁⟩, hnegotiated, rfl⟩ := Option.map_eq_some_iff.mp hc
  obtain ⟨hlisted, hregistered, hlookup⟩ := h.negotiatedFor hoffers hnegotiated
  obtain ⟨sent, hopens, hname⟩ := hannounced
  obtain ⟨headers, old, hunmarshal, hinfo⟩ := hsurfaced.headers
  obtain ⟨headers', hunmarshal', hsame⟩ := hopens.unmarshal cfg.range
  obtain rfl : headers' = headers := Option.some.inj (hunmarshal'.symm.trans hunmarshal)
  have hread : headers'.get contentEncoding = name :=
    (get_congr contentEncoding (hsame _)).trans (hname _ hnegotiated)
  -- the name is not empty, so the response has set it
  have hset : info.responseHeader.get contentEncoding = name := by
    have hpresent : (headers'.lookup (canonicalHeaderKey contentEncoding)).isSome = true := by
      cases habsent : headers'.lookup (canonicalHeaderKey contentEncoding) with
      | some values => rfl
      | none =>
          rw [Header.get, Header.values, habsent] at hread
          exact absurd hread.symm (h.tokens name hlisted).1
    rw [← hread]
    apply get_congr
    rw [hinfo, lookup_setAllValues_filter _ _ (hopens.keys.congr hsame) (by decide)]
    exact Option.or_of_isSome hpresent
  obtain ⟨c', hc'⟩ := Option.isSome_iff_exists.mp (AList.lookup_isSome.mpr hregistered)
  rw [hset]
  exact ⟨c', hc', (h.compressors name c' c₁ hc' hlookup).2⟩

/-- What the client has received is among what the server has sent, and all of
    it unless a unary call lacks its end-stream. -/
theorem Served.response {headers : Header} {opening ending : Envelope} {after : Session κ'}
    {log : List (Transfer μ)} {cs : ClientStream κ} {clientLog : List (Transfer μ)}
    (hserved : Served srv headers codec opening ending after log) (hagreed : Agreed cfg srv codec)
    (hoffers : ClientStream.Offers cfg (requestInfo srv headers).requestHeader)
    (hreceiving : ClientStream.Receiving cfg cs clientLog)
    (hending : ending.flag = flagEnvelopeEndStream)
    (hdown : List.IsPrefix cs.session.received after.written) :
    List.Sublist (receivedMessages clientLog) (sentMessages log) ∧
      ((∀ r, (Awaits.endStream, r) ∈ cs.session.reads → ClientStream.EndsWell cfg r) →
        Lossless (sentMessages log) (receivedMessages clientLog) cs.session.messages) := by
  by_cases hopen : cs.recvHeadersOnce = some none
  · obtain ⟨first, info, hinfo, hsurfaced, hbehind⟩ := hreceiving.opened hopen
    obtain ⟨tail, hreads, htail⟩ := hbehind.first
    have hreceived : cs.session.received = first :: envelopesOf tail := by
      rw [Session.received, hreads]
      rfl
    rw [hreceived] at hdown
    obtain ⟨ends, hends, hwritten⟩ := hserved.written
    have hendsFlag : ∀ env ∈ ends, env.flag = flagEnvelopeEndStream := by
      rcases hends with rfl | rfl
      · simp
      · simpa using hending
    rcases hwritten with ⟨hwritten, -⟩ | ⟨env, envs, hwritten, hannounced, hall⟩
    · -- an end-stream alone opens nothing
      rw [hwritten] at hdown
      have hflag := hendsFlag first (hdown.subset List.mem_cons_self)
      rw [hsurfaced.flag] at hflag
      exact absurd hflag (by decide)
    · rw [hwritten] at hdown
      obtain ⟨rfl, -⟩ := List.cons_prefix_cons.mp hdown
      have hdecompresses := hagreed.response_decompresses hoffers hannounced hsurfaced
      have hread :
          List.IsPrefix ((envelopesOf cs.session.reads).filter Envelope.isMessage) envs := by
        have hfilter := hdown.filter Envelope.isMessage
        rw [filter_isMessage (isMessage_opening hsurfaced.flag) (isMessage_of_encodes hall)
          fun env henv => isMessage_of_flag (hendsFlag env henv) (by decide)] at hfilter
        rw [hreads]
        exact hfilter
      have hlossless := lossless_of_prefix hagreed.codecs.2 hdecompresses hall hread
      refine ⟨?_, fun hclean => ?_⟩
      · apply hbehind.sublist.trans
        exact ((sublist_filter_isMessage cs.session.reads).filterMap _).trans hlossless.1.sublist
      · have hmessages : cs.session.messages =
            (envelopesOf cs.session.reads).filter Envelope.isMessage := by
          apply filterMap_messageOf
          intro awaits env henv hother
          cases awaits with
          | message => exact absurd rfl hother
          | headers =>
              rw [hreads] at henv
              rcases List.mem_cons.mp henv with hfirst | hrest
              · obtain rfl := Except.ok.inj (Prod.mk.inj hfirst).2
                exact isMessage_opening hsurfaced.flag
              · exact absurd rfl (htail _ hrest)
          | endStream =>
              obtain ⟨env', trailers, heq, hflag, -⟩ := hclean _ henv
              obtain rfl := Except.ok.inj heq
              exact isMessage_of_flag hflag (by decide)
        rw [hbehind.exact hclean, hmessages, ClientStream.decoded]
        have hsame : cs.session.reads.filterMap messageOf =
            (envelopesOf cs.session.reads).filter Envelope.isMessage := hmessages
        rw [hsame]
        exact hlossless
  · obtain ⟨hnothing, hmessages⟩ := hreceiving.of_closed hopen
    rw [hnothing, hmessages]
    exact ⟨List.nil_sublist _, fun _ => ⟨List.nil_prefix, rfl⟩⟩

/-- The third envelope of a response with one message is its end-stream. -/
theorem Served.ending {headers : Header} {opening ending : Envelope} {after : Session κ'}
    {log : List (Transfer μ)} {cs : ClientStream κ} {clientLog : List (Transfer μ)}
    (hserved : Served srv headers codec opening ending after log)
    (hreceiving : ClientStream.Receiving cfg cs clientLog) (hone : (sentMessages log).length ≤ 1)
    (hdown : List.IsPrefix cs.session.received after.written) {env : Envelope}
    (hread : (Awaits.endStream, Except.ok env) ∈ cs.session.reads) : env = ending := by
  by_cases hopen : cs.recvHeadersOnce = some none
  · obtain ⟨first, info, -, -, hbehind⟩ := hreceiving.opened hopen
    obtain ⟨-, message, hbefore⟩ := hbehind.ended _ hread
    have hread := hbefore.filterMap fun r : Awaits × Except GoError Envelope => r.2.toOption
    have hthree : List.Sublist [first, message, env] after.written := hread.trans hdown.sublist
    have hlength := hthree.length_le
    obtain ⟨ends, hends, hwritten⟩ := hserved.written
    rcases hwritten with ⟨hwritten, -⟩ | ⟨front, envs, hwritten, -, hall⟩
    · rw [hwritten] at hlength
      rcases hends with rfl | rfl <;> simp at hlength
    · have henvs := hall.length_eq
      rw [hwritten] at hthree hlength
      rcases hends with rfl | rfl
      · simp only [List.append_nil, List.length_cons, List.length_nil] at hlength
        omega
      · have heq := hthree.eq_of_length_le (by
          simp only [List.length_append, List.length_cons, List.length_nil]
          omega)
        have hlast := congrArg List.getLast? heq
        rw [← List.cons_append, List.getLast?_concat] at hlast
        simpa using hlast
  · have hother := (hreceiving.closed hopen).1 _ hread
    cases hother

theorem endsWell_endPayload {headers : Header} {session : Session κ'}
    (hok : (handled srv headers codec session).1 = none) :
    ClientStream.EndsWell cfg
      (.ok ⟨flagEnvelopeEndStream, endPayload srv headers codec session⟩) := by
  obtain ⟨payload, trailers, hmarshal, hunmarshal⟩ := unmarshalEndStream_success srv.lib cfg.lib
    (handled srv headers codec session).2.callInfo.responseTrailer
  refine ⟨_, trailers, rfl, rfl, ?_⟩
  show unmarshalEndStream cfg.lib (endPayload srv headers codec session) = _
  rw [endPayload, hok, Option.map_none, hmarshal]
  exact hunmarshal

-- ============================================================================
-- Both directions
-- ============================================================================

/-- Every envelope flagged `0x01` is a message that was sent, compressed with
    the compressor that the headers in front name. -/
def Named (range : RangeOrder (List GoString)) (codec : Codec μ)
    (compressors : AList (fun _ : GoString => Compressor)) (decodable : GoString → Prop)
    (sent : List μ) (written : List Envelope) : Prop :=
  ∀ env ∈ written, env.flag = flagEnvelopeCompressed →
    ∃ opening rest name c, written = opening :: rest ∧ Announces range opening name ∧
      compressors.lookup name = some c ∧ decodable name ∧
      ∃ msg ∈ sent, ∃ payload, codec.marshalWrite msg = .ok payload ∧
        c.compress payload = .ok env.payload

theorem named_of_encodes {range : RangeOrder (List GoString)} {codec : Codec μ}
    {compressors : AList (fun _ : GoString => Compressor)} {decodable : GoString → Prop}
    {compressor : Option Compressor} {sendMaxBytes : Int} {sent : List μ} {opening : Envelope}
    {envs ends : List Envelope} (hopening : opening.flag = flagEnvelopeHeaders)
    (hends : ∀ env ∈ ends, env.flag = flagEnvelopeEndStream)
    (hall : List.Forall₂ (Encodes codec compressor sendMaxBytes) sent envs)
    (hname : ∀ c ∈ compressor, ∃ name, Announces range opening name ∧
      compressors.lookup name = some c ∧ decodable name) :
    Named range codec compressors decodable sent (opening :: (envs ++ ends)) := by
  intro env henv hflag
  rcases List.mem_cons.mp henv with rfl | henv
  · rw [hopening] at hflag
    exact absurd hflag (by decide)
  · rcases List.mem_append.mp henv with henv | henv
    · obtain ⟨msg, hmsg, hencodes⟩ := exists_of_mem_forall₂ hall henv
      rcases hencodes.cases with ⟨hplain, -⟩ | ⟨c, payload, hc, -, hmarshal, hcompress⟩
      · rw [hplain] at hflag
        exact absurd hflag (by decide)
      · obtain ⟨name, hannounces, hlookup, hdecodable⟩ := hname c hc
        exact ⟨opening, _, name, c, rfl, hannounces, hlookup, hdecodable, msg, hmsg, payload,
          hmarshal, hcompress⟩
    · rw [hends env henv] at hflag
      exact absurd hflag (by decide)

theorem Agreed.request_named (h : Agreed cfg srv codec) {cs : ClientStream κ}
    {log : List (Transfer μ)} (hsending : ClientStream.Sending cfg cs log) :
    Named srv.rangeHeaders cfg.codec cfg.opts.compressors (fun name => name ∈ srv.opts.compressors)
      (sentMessages log) cs.session.written := by
  rcases hsending.sent with ⟨-, hempty, -⟩ | ⟨-, opening, envs, hwritten, hrequests, hall⟩
  · intro env henv
    rw [hempty] at henv
    cases henv
  · obtain ⟨headers, hopens, hoffers⟩ := hrequests
    rw [hwritten, ← List.append_nil envs]
    apply named_of_encodes hopens.flag (by simp) hall
    intro c hc
    obtain ⟨hcompresses, hlookup⟩ := requestCompressor_eq_some hc
    exact ⟨_, hopens.announces srv.rangeHeaders (hoffers.encoding hcompresses), hlookup,
      h.registered hcompresses⟩

theorem Served.response_named {headers : Header} {opening ending : Envelope} {after : Session κ'}
    {log : List (Transfer μ)} (h : Served srv headers codec opening ending after log)
    (hagreed : Agreed cfg srv codec)
    (hoffers : ClientStream.Offers cfg (requestInfo srv headers).requestHeader)
    (hending : ending.flag = flagEnvelopeEndStream) :
    Named cfg.range codec srv.opts.compressors
      (fun name => name ∈ cfg.opts.compressorNames ∧ name ∈ cfg.opts.compressors)
      (sentMessages log) after.written := by
  obtain ⟨ends, hends, hwritten⟩ := h.written
  have hendsFlag : ∀ env ∈ ends, env.flag = flagEnvelopeEndStream := by
    rcases hends with rfl | rfl
    · simp
    · simpa using hending
  rcases hwritten with ⟨hwritten, -⟩ | ⟨first, envs, hwritten, ⟨sent, hopens, hname⟩, hall⟩
  · intro env henv hflag
    rw [hwritten] at henv
    rw [hendsFlag env henv] at hflag
    exact absurd hflag (by decide)
  · rw [hwritten]
    apply named_of_encodes hopens.flag hendsFlag hall
    intro c hc
    obtain ⟨⟨name, c₁⟩, hnegotiated, rfl⟩ := Option.map_eq_some_iff.mp hc
    obtain ⟨hlisted, hregistered, hlookup⟩ := hagreed.negotiatedFor hoffers hnegotiated
    exact ⟨name, hopens.announces cfg.range (hname _ hnegotiated), hlookup, hlisted, hregistered⟩

/-- A unary call is over in time: its handler has sent no more than the one
    message, and has succeeded, and the connection lasts until the end-stream. -/
structure UnaryOver (srv : ServerConfig κ' μ) (session : Session κ')
    (reads : List (Awaits × Except GoError Envelope)) : Prop where
  succeeded : rpcError srv session = none
  one : (sentMessages (rpcTransfers srv session)).length ≤ 1
  delivered : ∀ err, (Awaits.endStream, Except.error err) ∉ reads

/-- Codecs of bytes, and a compressor that puts a magic number in front. -/
def plainDefaults : Defaults Bytes where
  binary := { name := codecNameProto, marshalWrite := .ok, unmarshalRead := .ok }
  json := { name := codecNameJSON, marshalWrite := .ok, unmarshalRead := .ok }
  gzip :=
    { name := "gzip".toList
      compress := fun payload => .ok (0x1f :: 0x8b :: payload)
      decompress := fun payload => .ok (payload.drop 2) }

/-- A `Conn` whose other side has written `es` already. -/
def playback : Conn (List Envelope) where
  readEnvelope := fun es => (es.head?.elim (.error .eof) .ok, es.tail)
  writeEnvelope := fun es _ => (none, es)
  closeSend := fun es => (none, es)
  close := fun es => (none, es)

/-- A client that compresses. -/
def echoCaller : ClientConfig (List Envelope) Bytes where
  conn := playback
  procedure := "/echo.Echo/Echo".toList
  unary := true
  opts := transportOptions plainDefaults [.withSendCompressor "gzip".toList]
  codec := plainDefaults.binary
  lib := plainLibrary

/-- A server that echoes one message. -/
def echoServer : ServerConfig (List Envelope) Bytes where
  conn := playback
  opts := newServerOptions plainDefaults
  call := fun _ => .receive fun result =>
    match result with
    | .ok msg => .send msg .ret
    | .error err => .ret (some err)
  lib := plainLibrary

def echoCalls : List (ClientOp Bytes) := [.send [1, 2], .receive]

/-- The client, given the response. -/
def echoed (response : List Envelope) :
    Option (ClientStream (List Envelope) × List (Transfer Bytes)) :=
  (ClientStream.logMachine echoCaller response (some {})).run echoCalls

def echoRequest : List Envelope := (echoed []).elim [] fun p => p.1.session.written

def echoAnswer : Option (Session (List Envelope)) := handleRPC echoServer { conn := echoRequest }

def echoResponse : List Envelope := echoAnswer.elim [] Session.written

theorem agreed_echo : Agreed echoCaller echoServer plainDefaults.binary where
  options := ⟨plainDefaults, _, rfl⟩
  negotiated := rfl
  codecs := by
    constructor
    · rintro msg payload ⟨⟩
      rfl
    · rintro msg payload ⟨⟩
      rfl
  compressors := by
    have hgzip : ∀ (name : GoString) (c : Compressor),
        (defaultCompressors plainDefaults.gzip).1.lookup name = some c →
          c = plainDefaults.gzip := by
      intro name c hc
      have hmem := AList.mem_lookup_iff.mp hc
      cases List.mem_singleton.mp hmem
      rfl
    intro name c c' hc hc'
    rw [hgzip name c hc, hgzip name c' hc']
    constructor
    · rintro payload compressed ⟨⟩
      rfl
    · rintro payload compressed ⟨⟩
      rfl
  sendCompressor := Or.inr (Or.inr ⟨List.mem_singleton_self _, List.mem_singleton_self _⟩)
  tokens := by
    intro name hname
    rw [List.mem_singleton.mp hname]
    exact ⟨by decide, by decide⟩
  unlimited := ⟨le_refl 0, le_refl 0⟩

end BidiProtocol
end BidiWeb
