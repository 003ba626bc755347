/-
  BidiWeb.BidiProtocol.ClientTransfer

  The messages of an RPC on the client.  Whatever calls are made on a
  `ClientStream`, what has been sent is written behind headers that name the
  compressor of the request, and what has been received is what the messages
  read decode to.
-/

import BidiWeb.BidiProtocol.ResponseEnd
import BidiWeb.BidiProtocol.Transfer

namespace BidiWeb
namespace BidiProtocol

open BidiWeb.ConnectProtocol
open BidiWeb.Lib

variable {κ μ : Type}

/-- The message that a `Receive` has returned. -/
def Received.toOption : Received μ → Option μ
  | .message msg => some msg
  | .error _ | .panic => none

namespace ClientStream

/-- What a call transfers. -/
def transfers (cfg : ClientConfig κ μ) (cs : ClientStream κ) (op : ClientOp μ) :
    List (Transfer μ) :=
  match op with
  | .send msg => Transfer.ofSend msg (cs.send cfg msg).1
  | .receive => (cs.receive cfg).1.toOption.toList.map .received
  | .sendHeaders | .closeSend | .close => []

-- ============================================================================
-- The request headers
-- ============================================================================

/-- Messages are compressed unless `SendCompressor` is empty or identity. -/
def Compresses (cfg : ClientConfig κ μ) : Prop :=
  cfg.opts.sendCompressor ≠ [] ∧ cfg.opts.sendCompressor ≠ compressionNameIdentity

instance (cfg : ClientConfig κ μ) : Decidable (Compresses cfg) :=
  inferInstanceAs (Decidable (_ ∧ _))

/-- What the server is told of the options of the client. -/
structure Offers (cfg : ClientConfig κ μ) (headers : Header) : Prop where
  contentType : headers.get "Content-Type".toList =
    "application/connect+".toList ++ cfg.codec.name
  encoding : Compresses cfg → headers.get contentEncoding = cfg.opts.sendCompressor
  accept : cfg.opts.acceptCompression ≠ [] →
    headers.get acceptEncoding = cfg.opts.acceptCompression

/-- A header that is set under a condition. -/
theorem wireKeys_ite_set {p : Prop} [Decidable p] {h : Header} (hh : WireKeys h)
    (key value : GoString) : WireKeys (if p then h.set key value else h) := by
  split
  · exact hh.set key value
  · exact hh

theorem get_ite_set_of_ne {p : Prop} [Decidable p] (h : Header) {key key' : GoString}
    (value : GoString) (hne : canonicalHeaderKey key' ≠ canonicalHeaderKey key) :
    (if p then h.set key value else h).get key' = h.get key' := by
  split
  · exact get_set_of_ne h value hne
  · rfl

/-- Whatever headers the caller has set, those of the protocol win. -/
theorem requestHeader_offers (cfg : ClientConfig κ μ) {cs : ClientStream κ} {info : CallInfo}
    (hinfo : cs.callInfo = some info) (hkeys : CanonicalKeys info.requestHeader) :
    WireKeys (cs.requestHeader cfg) ∧ Offers cfg (cs.requestHeader cfg) := by
  -- the timeout is set last, and is none of the headers in question
  have htimeout : ∀ h : Header, WireKeys h → Offers cfg h → ∀ h' : Header,
      (h' = h ∨ ∃ value, h' = h.set "Connect-Timeout-Ms".toList value) →
        WireKeys h' ∧ Offers cfg h' := by
    intro h hwire hoffers h' hh'
    rcases hh' with rfl | ⟨value, rfl⟩
    · exact ⟨hwire, hoffers⟩
    · refine ⟨hwire.set _ _, ?_, fun hc => ?_, fun hne => ?_⟩
      · rw [get_set_of_ne _ _ (by decide)]
        exact hoffers.contentType
      · rw [get_set_of_ne _ _ (by decide)]
        exact hoffers.encoding hc
      · rw [get_set_of_ne _ _ (by decide)]
        exact hoffers.accept hne
  let base := ((Header.insertAll ∅ info.requestHeader).set ":path".toList cfg.procedure).set
    "Content-Type".toList ("application/connect+".toList ++ cfg.codec.name)
  let encoded :=
    if cfg.opts.sendCompressor ≠ [] ∧ cfg.opts.sendCompressor ≠ compressionNameIdentity then
      base.set contentEncoding cfg.opts.sendCompressor
    else base
  let accepting :=
    if cfg.opts.acceptCompression ≠ [] then
      encoded.set acceptEncoding cfg.opts.acceptCompression
    else encoded
  have hbase : WireKeys base := ((wireKeys_insertAll hkeys).set _ _).set _ _
  have hencoded : WireKeys encoded := wireKeys_ite_set hbase _ _
  unfold ClientStream.requestHeader
  rw [hinfo]
  refine htimeout accepting (wireKeys_ite_set hencoded _ _) ⟨?_, fun hc => ?_, fun hne => ?_⟩ _ ?_
  · rw [get_ite_set_of_ne _ _ (by decide), get_ite_set_of_ne _ _ (by decide)]
    exact get_set_self _ _ _
  · rw [get_ite_set_of_ne _ _ (by decide)]
    exact (congrArg (Header.get · contentEncoding) (if_pos hc)).trans (get_set_self _ _ _)
  · exact (congrArg (Header.get · acceptEncoding) (if_pos hne)).trans (get_set_self _ _ _)
  · cases cfg.timeoutMs with
    | none => exact Or.inl rfl
    | some ms =>
        simp only
        split
        · exact Or.inr ⟨_, rfl⟩
        · exact Or.inl rfl

/-- A stream on which nothing has been called, with the headers that the
    caller has set. -/
def freshStream (conn : κ) (caller : Option (List (GoString × List GoString))) :
    ClientStream κ where
  session := { conn }
  callInfo := caller.map fun hs => { requestHeader := setAllValues ∅ hs }

theorem requestHeader_freshStream (cfg : ClientConfig κ μ) (conn : κ)
    (caller : Option (List (GoString × List GoString))) :
    WireKeys ((freshStream conn caller).requestHeader cfg) ∧
      Offers cfg ((freshStream conn caller).requestHeader cfg) := by
  -- without a call info the headers start from none at all
  obtain ⟨info, hkeys, hheader⟩ : ∃ info, CanonicalKeys info.requestHeader ∧
      (freshStream conn caller).requestHeader cfg =
        ({ freshStream conn caller with callInfo := some info } : ClientStream κ).requestHeader
          cfg := by
    cases caller with
    | none => exact ⟨{}, canonicalKeys_empty, rfl⟩
    | some hs => exact ⟨_, canonicalKeys_empty.setAllValues hs, rfl⟩
  rw [hheader]
  exact requestHeader_offers cfg rfl hkeys

/-- What `SendHeaders` writes is read as the headers that have been made. -/
theorem headers_written (cfg : ClientConfig κ μ) (conn : κ)
    (caller : Option (List (GoString × List GoString))) :
    ∃ payload err,
      ((freshStream conn caller).sendHeaders cfg).2.session.writes =
        [(⟨flagEnvelopeHeaders, payload⟩, err)] ∧
      ∀ rangeHeaders, ∃ headers, unmarshalHeaders rangeHeaders payload = some headers ∧
        ∀ k, headers.lookup k = ((freshStream conn caller).requestHeader cfg).lookup k := by
  obtain ⟨payload, hpayload⟩ :
      ∃ payload, marshalHeaders ((freshStream conn caller).requestHeader cfg) = .ok payload :=
    ⟨_, rfl⟩
  have hopens :
      Opens ⟨flagEnvelopeHeaders, payload⟩ ((freshStream conn caller).requestHeader cfg) :=
    ⟨rfl, (requestHeader_freshStream cfg conn caller).1, hpayload⟩
  refine ⟨payload, (cfg.conn.writeEnvelope conn ⟨flagEnvelopeHeaders, payload⟩).1, ?_,
    hopens.unmarshal⟩
  unfold ClientStream.sendHeaders ClientStream.writeHeaders
  rw [hpayload]
  rfl

-- ============================================================================
-- Sending
-- ============================================================================

/-- The compressor of the request. -/
def requestCompressor (cfg : ClientConfig κ μ) : Option Compressor :=
  if Compresses cfg then cfg.opts.compressors.lookup cfg.opts.sendCompressor else none

/-- `env` is the headers envelope of a request. -/
def Requests (cfg : ClientConfig κ μ) (env : Envelope) : Prop :=
  ∃ headers, Opens env headers ∧ Offers cfg headers

/-- What the calls of a client have sent so far. -/
structure Sending (cfg : ClientConfig κ μ) (cs : ClientStream κ) (log : List (Transfer μ)) :
    Prop where
  info : ∃ info, cs.callInfo = some info ∧ CanonicalKeys info.requestHeader
  sent : (cs.sendHeadersOnce ≠ some none ∧ cs.session.written = [] ∧ sentMessages log = []) ∨
    (cs.sendHeadersOnce = some none ∧
      ∃ env envs, cs.session.written = env :: envs ∧ Requests cfg env ∧
        List.Forall₂ (Encodes cfg.codec (requestCompressor cfg) cfg.opts.sendMaxBytes)
          (sentMessages log) envs)

/-- The half of a stream that sends has not changed. -/
structure SameSending (cs cs' : ClientStream κ) : Prop where
  once : cs'.sendHeadersOnce = cs.sendHeadersOnce
  writes : cs'.session.writes = cs.session.writes
  request : cs'.callInfo.map (·.requestHeader) = cs.callInfo.map (·.requestHeader)

variable {cfg : ClientConfig κ μ} {cs cs' : ClientStream κ} {log log' : List (Transfer μ)}

theorem Sending.of_same (h : Sending cfg cs log) (hsame : SameSending cs cs')
    (hlog : sentMessages log' = sentMessages log) : Sending cfg cs' log' := by
  obtain ⟨honce, hwrites, hrequest⟩ := hsame
  have hwritten : cs'.session.written = cs.session.written := by
    rw [Session.written, Session.written, hwrites]
  refine ⟨?_, ?_⟩
  · obtain ⟨info, hinfo, hkeys⟩ := h.info
    rw [hinfo] at hrequest
    obtain ⟨info', hinfo', heq⟩ := Option.map_eq_some_iff.mp hrequest
    refine ⟨info', hinfo', ?_⟩
    rw [heq]
    exact hkeys
  · rw [honce, hwritten, hlog]
    exact h.sent

/-- The headers are written at most once, before any message. -/
theorem Sending.sendHeaders (h : Sending cfg cs log) : Sending cfg (cs.sendHeaders cfg).2 log := by
  cases hsent : cs.sendHeadersOnce with
  | some err =>
      have hsame : cs.sendHeaders cfg = (err, cs) := by
        unfold ClientStream.sendHeaders
        rw [hsent]
      rw [hsame]
      exact h
  | none =>
      obtain ⟨data, hdata⟩ : ∃ data, marshalHeaders (cs.requestHeader cfg) = .ok data := ⟨_, rfl⟩
      obtain ⟨info, hinfo, hcanonical⟩ := h.info
      obtain ⟨hkeys, hoffers⟩ := requestHeader_offers cfg hinfo hcanonical
      obtain ⟨hempty, hnothing⟩ : cs.session.written = [] ∧ sentMessages log = [] := by
        rcases h.sent with ⟨-, hempty, hnothing⟩ | ⟨hdone, -⟩
        · exact ⟨hempty, hnothing⟩
        · rw [hsent] at hdone
          cases hdone
      unfold ClientStream.sendHeaders ClientStream.writeHeaders
      rw [hsent, hdata]
      simp only
      rcases hwrite : cs.session.writeEnvelope cfg.conn ⟨flagEnvelopeHeaders, data⟩ with
        ⟨err, session⟩
      have hwritten := Session.written_of_writeEnvelope hwrite
      rw [hempty] at hwritten
      refine ⟨⟨info, hinfo, hcanonical⟩, ?_⟩
      cases err with
      | some err => exact Or.inl ⟨by simp, hwritten, hnothing⟩
      | none =>
          refine Or.inr ⟨rfl, _, [], hwritten, ⟨_, ⟨rfl, hkeys, hdata⟩, hoffers⟩, ?_⟩
          rw [hnothing]
          exact .nil

theorem encode_eq_ok {msg : μ} {env : Envelope} (h : encode cfg msg = .ok env) :
    Encodes cfg.codec (requestCompressor cfg) cfg.opts.sendMaxBytes msg env := by
  unfold encode at h
  split at h
  · cases h
  · rename_i payload hmarshal
    exact ⟨payload, hmarshal, h⟩

theorem Sending.send (h : Sending cfg cs log) (msg : μ) :
    Sending cfg (cs.send cfg msg).2 (log ++ Transfer.ofSend msg (cs.send cfg msg).1) := by
  have hheaders := h.sendHeaders
  have hdone := (sendHeaders_frame cfg cs).1
  unfold ClientStream.send
  rcases hsend : cs.sendHeaders cfg with ⟨err, cs₁⟩
  rw [hsend] at hheaders hdone
  cases err with
  | some err =>
      rw [Transfer.ofSend, List.append_nil]
      exact hheaders
  | none =>
      simp only
      cases henv : encode cfg msg with
      | error err =>
          simp only
          rw [Transfer.ofSend, List.append_nil]
          exact hheaders
      | ok env =>
          simp only
          obtain ⟨hinfo, hsent⟩ := hheaders
          rcases hwrite : cs₁.session.writeEnvelope cfg.conn env with ⟨err, session⟩
          have hwritten := Session.written_of_writeEnvelope hwrite
          cases err with
          | some err =>
              simp only at hwritten ⊢
              rw [Transfer.ofSend, List.append_nil]
              refine ⟨hinfo, ?_⟩
              rw [hwritten]
              exact hsent
          | none =>
              simp only at hwritten ⊢
              refine ⟨hinfo, ?_⟩
              rcases hsent with ⟨hnot, -⟩ | ⟨hsome, first, envs, hold, hfirst, hall⟩
              · exact absurd hdone hnot
              · refine Or.inr ⟨hsome, first, envs ++ [env], ?_, hfirst, ?_⟩
                · rw [hwritten, hold]
                  rfl
                · rw [sentMessages_append]
                  exact List.rel_append hall (.cons (encode_eq_ok henv) .nil)

-- ============================================================================
-- What a Receive takes
-- ============================================================================

/-- An end-stream has been read that reports success. -/
def EndsWell (cfg : ClientConfig κ μ) (r : Except GoError Envelope) : Prop :=
  ∃ env trailers, r = .ok env ∧ env.flag = flagEnvelopeEndStream ∧
    unmarshalEndStream cfg.lib env.payload = .ok (none, trailers)

/-- What `Receive` reads once the response headers have been read, and the
    message that it makes of this. -/
inductive Taken (cfg : ClientConfig κ μ) (encoding : GoString) :
    List (Awaits × Except GoError Envelope) → Option μ → Prop where
  | nothing : Taken cfg encoding [] none
  | one (r : Except GoError Envelope) :
      Taken cfg encoding [(.message, r)]
        ((messageOf (.message, r)).bind (decode cfg.codec cfg.opts.compressors encoding))
  /-- The message of a unary RPC waits for the end-stream. -/
  | unary (env : Envelope) (r : Except GoError Envelope) (msg : μ) (result : Option μ) :
      cfg.unary = true → messageOf (.message, .ok env) = some env →
      decode cfg.codec cfg.opts.compressors encoding env = some msg →
      result = none ∨ result = some msg → (EndsWell cfg r → result = some msg) →
      Taken cfg encoding [(.message, .ok env), (.endStream, r)] result

/-- What a `Receive` does not change once the response headers have been read. -/
structure Keeps (info : CallInfo) (cs cs' : ClientStream κ) : Prop where
  request : SameRequest cs cs'
  info : ∃ responseTrailer, cs'.callInfo = some { info with responseTrailer }

variable {info : CallInfo}

theorem Keeps.refl (hinfo : cs.callInfo = some info) : Keeps info cs cs :=
  ⟨⟨rfl, rfl, rfl⟩, info.responseTrailer, hinfo⟩

theorem Keeps.of_read {awaits : Awaits} (h : Keeps info (cs.readEnvelope cfg awaits).2 cs') :
    Keeps info cs cs' :=
  ⟨⟨h.request.sendHeadersOnce, h.request.recvHeadersOnce, h.request.writes⟩, h.info⟩

theorem keeps_endStream (cfg : ClientConfig κ μ) (hinfo : cs.callInfo = some info)
    (payload : Bytes) :
    Keeps info cs (cs.endStream cfg payload).2 := by
  refine ⟨(endStream_spec cfg cs payload).1, ?_⟩
  unfold ClientStream.endStream
  cases unmarshalEndStream cfg.lib payload with
  | error err => exact ⟨info.responseTrailer, hinfo⟩
  | ok p => exact ⟨_, congrArg (Option.map _) hinfo⟩

theorem readUnaryEndStream_taken (cfg : ClientConfig κ μ) (hinfo : cs.callInfo = some info) :
    ∃ r, (cs.readUnaryEndStream cfg).2.session.reads = cs.session.reads ++ [(.endStream, r)] ∧
      Keeps info cs (cs.readUnaryEndStream cfg).2 ∧
      (EndsWell cfg r → (cs.readUnaryEndStream cfg).1 = none) := by
  refine ⟨(cs.readEnvelope cfg .endStream).1, ?_⟩
  have hreads : (cs.readEnvelope cfg .endStream).2.session.reads =
      cs.session.reads ++ [(.endStream, (cs.readEnvelope cfg .endStream).1)] := rfl
  have hafter : (cs.readEnvelope cfg .endStream).2.callInfo = some info := hinfo
  have hkeeps : ∀ cs', Keeps info (cs.readEnvelope cfg .endStream).2 cs' → Keeps info cs cs' :=
    fun _ h => h.of_read
  unfold ClientStream.readUnaryEndStream
  rcases h : cs.readEnvelope cfg .endStream with ⟨r, cs₁⟩
  rw [h] at hreads hafter hkeeps
  cases r with
  | error err =>
      refine ⟨hreads, hkeeps _ (.refl hafter), ?_⟩
      rintro ⟨env, trailers, ⟨⟩, -⟩
  | ok env =>
      simp only
      split
      · rename_i hflag
        refine ⟨hreads, hkeeps _ (.refl hafter), ?_⟩
        rintro ⟨env', trailers, ⟨⟩, hend, -⟩
        exact absurd hend hflag
      · refine ⟨?_, hkeeps _ (keeps_endStream cfg hafter _), ?_⟩
        · rw [(endStream_spec cfg cs₁ env.payload).2.1]
          exact hreads
        · rintro ⟨env', trailers, ⟨⟩, -, hclean⟩
          unfold ClientStream.endStream
          rw [hclean]

theorem receiveMessage_taken (hlimit : cfg.opts.readMaxBytes ≤ 0) (hinfo : cs.callInfo = some info)
    {env : Envelope} (hmessage : messageOf (.message, .ok env) = some env) :
    ∃ news, (cs.receiveMessage cfg env).2.session.reads = cs.session.reads ++ news ∧
      Keeps info cs (cs.receiveMessage cfg env).2 ∧
      Taken cfg (info.responseHeader.get contentEncoding) ((.message, .ok env) :: news)
        (cs.receiveMessage cfg env).1.toOption := by
  have hpresent : ¬ (env.flag = flagEnvelopeCompressed ∧ cs.callInfo.isNone = true) := by
    rw [hinfo]
    simp
  have hone : ∀ result : Option μ,
      decode cfg.codec cfg.opts.compressors (info.responseHeader.get contentEncoding) env = result →
      ∃ news, cs.session.reads = cs.session.reads ++ news ∧ Keeps info cs cs ∧
        Taken cfg (info.responseHeader.get contentEncoding) ((.message, .ok env) :: news)
          result := by
    rintro result rfl
    refine ⟨[], (List.append_nil _).symm, .refl hinfo, ?_⟩
    have htaken : Taken cfg (info.responseHeader.get contentEncoding) _ _ := .one (.ok env)
    rw [hmessage] at htaken
    exact htaken
  unfold ClientStream.receiveMessage
  rw [exceeds_eq_false hlimit, if_neg (by simp), if_neg hpresent, hinfo]
  cases hdecode :
    decodePayload cfg.opts.compressors (info.responseHeader.get contentEncoding) env with
  | error err =>
      have hpayload : decodePayload cfg.opts.compressors
          (((some info).getD {}).responseHeader.get "Connect-Content-Encoding".toList) env =
            .error err := hdecode
      simp only [hpayload]
      exact hone none (by rw [decode, hdecode])
  | ok payload =>
      have hpayload : decodePayload cfg.opts.compressors
          (((some info).getD {}).responseHeader.get "Connect-Content-Encoding".toList) env =
            .ok payload := hdecode
      simp only [hpayload]
      cases hunmarshal : cfg.codec.unmarshalRead payload with
      | error err => exact hone none (by simp only [decode, hdecode, hunmarshal, Except.toOption])
      | ok msg =>
          have hmsg :
              decode cfg.codec cfg.opts.compressors (info.responseHeader.get contentEncoding)
              env = some msg := by
            simp only [decode, hdecode, hunmarshal, Except.toOption]
          simp only
          split
          · rename_i hunary
            obtain ⟨r, hreads, hkeeps, hclean⟩ := readUnaryEndStream_taken cfg hinfo
            rcases h : cs.readUnaryEndStream cfg with ⟨err, cs₁⟩
            rw [h] at hreads hkeeps hclean
            cases err with
            | some err =>
                refine ⟨_, hreads, hkeeps, .unary env r msg _ hunary hmessage hmsg (Or.inl rfl) ?_⟩
                intro hend
                cases hclean hend
            | none =>
                exact ⟨_, hreads, hkeeps,
                  .unary env r msg _ hunary hmessage hmsg (Or.inr rfl) fun _ => rfl⟩
          · exact hone (some msg) hmsg

theorem receiveEnvelope_taken (hlimit : cfg.opts.readMaxBytes ≤ 0)
    (hinfo : cs.callInfo = some info) (env : Envelope) :
    ∃ news, (cs.receiveEnvelope cfg env).2.session.reads = cs.session.reads ++ news ∧
      Keeps info cs (cs.receiveEnvelope cfg env).2 ∧
      Taken cfg (info.responseHeader.get contentEncoding) ((.message, .ok env) :: news)
        (cs.receiveEnvelope cfg env).1.toOption := by
  cases hmessage : env.isMessage with
  | true =>
      obtain ⟨hheaders, hend, hknown⟩ := flags_of_isMessage hmessage
      unfold ClientStream.receiveEnvelope
      rw [if_neg hheaders, if_neg hend, if_neg hknown]
      exact receiveMessage_taken hlimit hinfo (messageOf_of_isMessage hmessage)
  | false =>
      have hnone := messageOf_of_not_isMessage hmessage .message
      have htaken :
          Taken cfg (info.responseHeader.get contentEncoding) [(.message, .ok env)] none := by
        have hone : Taken cfg (info.responseHeader.get contentEncoding) _ _ := .one (.ok env)
        rw [hnone] at hone
        exact hone
      have hsame : cs.session.reads = cs.session.reads ++ [] := (List.append_nil _).symm
      have hunknown := flags_of_not_isMessage hmessage
      unfold ClientStream.receiveEnvelope
      split
      · exact ⟨[], hsame, .refl hinfo, htaken⟩
      · split
        · have hkeeps := keeps_endStream cfg hinfo env.payload
          have hsession := (endStream_spec cfg cs env.payload).2.1
          rcases h : cs.endStream cfg env.payload with ⟨err, cs₁⟩
          rw [h] at hkeeps hsession
          have hreads : cs₁.session.reads = cs.session.reads ++ [] := by
            rw [hsession]
            exact hsame
          cases err with
          | some err => exact ⟨[], hreads, hkeeps, htaken⟩
          | none => exact ⟨[], hreads, hkeeps, htaken⟩
        · exact ⟨[], hsame, .refl hinfo, htaken⟩

theorem receiveNext_taken (hlimit : cfg.opts.readMaxBytes ≤ 0) (hinfo : cs.callInfo = some info) :
    ∃ news, (cs.receiveNext cfg).2.session.reads = cs.session.reads ++ news ∧
      Keeps info cs (cs.receiveNext cfg).2 ∧
      Taken cfg (info.responseHeader.get contentEncoding) news (cs.receiveNext cfg).1.toOption := by
  unfold ClientStream.receiveNext
  split
  · exact ⟨[], (List.append_nil _).symm, .refl hinfo, .nothing⟩
  · have hreads : (cs.readEnvelope cfg .message).2.session.reads =
        cs.session.reads ++ [(.message, (cs.readEnvelope cfg .message).1)] := rfl
    have hafter : (cs.readEnvelope cfg .message).2.callInfo = some info := hinfo
    have hkeeps : ∀ cs', Keeps info (cs.readEnvelope cfg .message).2 cs' → Keeps info cs cs' :=
      fun _ h => h.of_read
    rcases h : cs.readEnvelope cfg .message with ⟨r, cs₁⟩
    rw [h] at hreads hafter hkeeps
    cases r with
    | error err =>
        simp only
        split
        · exact ⟨_, hreads, hkeeps _ (.refl hafter), .one _⟩
        · exact ⟨_, hreads, hkeeps _ (.refl hafter), .one _⟩
    | ok env =>
        obtain ⟨news, hmore, hkeeps₁, htaken⟩ := receiveEnvelope_taken hlimit hafter env
        refine ⟨(.message, .ok env) :: news, ?_, hkeeps _ hkeeps₁, htaken⟩
        rw [hmore, hreads, List.append_assoc]
        rfl

-- ============================================================================
-- Receiving
-- ============================================================================

/-- The messages that have been read, decoded. -/
def decoded (cfg : ClientConfig κ μ) (encoding : GoString)
    (reads : List (Awaits × Except GoError Envelope)) : List μ :=
  (reads.filterMap messageOf).filterMap (decode cfg.codec cfg.opts.compressors encoding)

theorem decoded_append (encoding : GoString)
    (reads news : List (Awaits × Except GoError Envelope)) :
    decoded cfg encoding (reads ++ news) =
      decoded cfg encoding reads ++ decoded cfg encoding news := by
  rw [decoded, List.filterMap_append, List.filterMap_append]
  rfl

theorem Taken.awaits {encoding : GoString} {news : List (Awaits × Except GoError Envelope)}
    {result : Option μ} (h : Taken cfg encoding news result) :
    ∀ r ∈ news, r.1 ≠ Awaits.headers := by
  cases h with
  | nothing => simp
  | one r => simp
  | unary env r msg result => simp

/-- A message is taken as it has been read, unless its end-stream is missing. -/
theorem Taken.result {encoding : GoString} {news : List (Awaits × Except GoError Envelope)}
    {result : Option μ} (h : Taken cfg encoding news result) :
    List.Sublist result.toList (decoded cfg encoding news) ∧
      ((∀ r, (Awaits.endStream, r) ∈ news → EndsWell cfg r) →
        result.toList = decoded cfg encoding news) := by
  cases h with
  | nothing => exact ⟨.slnil, fun _ => rfl⟩
  | one r =>
      have hone : decoded cfg encoding [(.message, r)] = ((messageOf (.message, r)).bind
          (decode cfg.codec cfg.opts.compressors encoding)).toList := by
        rw [← filterMap_toList]
        cases h : messageOf (.message, r) with
        | none => simp [decoded, h]
        | some env => simp [decoded, h]
      rw [hone]
      exact ⟨.refl _, fun _ => rfl⟩
  | unary env r msg result _ hmessage hmsg hresult hend =>
      have hboth : decoded cfg encoding [(.message, .ok env), (.endStream, r)] = [msg] := by
        have hother : messageOf (.endStream, r) = none := rfl
        rw [decoded, List.filterMap_cons_some hmessage, List.filterMap_cons_none hother,
          List.filterMap_nil, List.filterMap_cons_some hmsg, List.filterMap_nil]
      rw [hboth]
      refine ⟨?_, fun hall => ?_⟩
      · rcases hresult with rfl | rfl
        · exact List.nil_sublist _
        · exact .refl _
      · rw [hend (hall r (by simp))]
        rfl

/-- What has been received behind the response headers `opening`. -/
structure Behind (cfg : ClientConfig κ μ) (opening : Envelope) (encoding : GoString)
    (reads : List (Awaits × Except GoError Envelope)) (received : List μ) : Prop where
  first : ∃ tail, reads = (.headers, .ok opening) :: tail ∧ ∀ r ∈ tail, r.1 ≠ Awaits.headers
  sublist : List.Sublist received (decoded cfg encoding reads)
  exact : (∀ r, (Awaits.endStream, r) ∈ reads → EndsWell cfg r) →
    received = decoded cfg encoding reads
  /-- Before an end-stream that is awaited, headers and a message have been read. -/
  ended : ∀ r, (Awaits.endStream, r) ∈ reads → cfg.unary = true ∧
    ∃ env, List.Sublist [(.headers, .ok opening), (.message, .ok env), (.endStream, r)] reads

theorem Behind.more {opening : Envelope} {encoding : GoString}
    {reads news : List (Awaits × Except GoError Envelope)} {received : List μ} {result : Option μ}
    (h : Behind cfg opening encoding reads received) (hnews : Taken cfg encoding news result) :
    Behind cfg opening encoding (reads ++ news) (received ++ result.toList) := by
  obtain ⟨tail, htail, hawaits⟩ := h.first
  obtain ⟨hsublist, hexact⟩ := hnews.result
  refine ⟨⟨tail ++ news, by rw [htail]; rfl, ?_⟩, ?_, fun hall => ?_, fun r hr => ?_⟩
  · intro r hr
    rcases List.mem_append.mp hr with hold | hnew
    · exact hawaits r hold
    · exact hnews.awaits r hnew
  · rw [decoded_append]
    exact h.sublist.append hsublist
  · rw [decoded_append, h.exact fun r hr => hall r (List.mem_append_left _ hr),
      hexact fun r hr => hall r (List.mem_append_right _ hr)]
  · rcases List.mem_append.mp hr with hold | hnew
    · obtain ⟨hunary, env, hbefore⟩ := h.ended r hold
      exact ⟨hunary, env, hbefore.trans (List.sublist_append_left _ _)⟩
    · cases hnews with
      | nothing => cases hnew
      | one r' => simp at hnew
      | unary env r' msg result hunary _ _ _ _ =>
          obtain rfl : r = r' := by simpa using hnew
          refine ⟨hunary, env, ?_⟩
          have hopening : List.Sublist [(Awaits.headers, Except.ok opening)] reads := by
            rw [htail]
            exact (List.nil_sublist tail).cons_cons _
          exact hopening.append (.refl _)

/-- The response headers `headers`, in the envelope `opening`, are in the call
    info. -/
structure Surfaced (cfg : ClientConfig κ μ) (opening : Envelope) (info : CallInfo) : Prop where
  flag : opening.flag = flagEnvelopeHeaders
  headers : ∃ headers old, unmarshalHeaders cfg.range opening.payload = some headers ∧
    info.responseHeader =
      setAllValues old ((cfg.range.visit headers).filter fun e => !isPseudo e.1)

/-- What the calls of a client have received so far. -/
structure Receiving (cfg : ClientConfig κ μ) (cs : ClientStream κ) (log : List (Transfer μ)) :
    Prop where
  unread : cs.recvHeadersOnce = none → cs.session.reads = []
  closed : cs.recvHeadersOnce ≠ some none →
    (∀ r ∈ cs.session.reads, r.1 = Awaits.headers) ∧ receivedMessages log = []
  opened : cs.recvHeadersOnce = some none → ∃ opening info, cs.callInfo = some info ∧
    Surfaced cfg opening info ∧
    Behind cfg opening (info.responseHeader.get contentEncoding) cs.session.reads
      (receivedMessages log)

theorem Receiving.unary (h : Receiving cfg cs log) {r : Except GoError Envelope}
    (hr : (Awaits.endStream, r) ∈ cs.session.reads) : cfg.unary = true := by
  by_cases hopen : cs.recvHeadersOnce = some none
  · obtain ⟨opening, info, -, -, hbehind⟩ := h.opened hopen
    exact (hbehind.ended r hr).1
  · cases (h.closed hopen).1 _ hr

/-- Without response headers there are no messages. -/
theorem Receiving.of_closed (h : Receiving cfg cs log) (hclosed : cs.recvHeadersOnce ≠ some none) :
    receivedMessages log = [] ∧ cs.session.messages = [] := by
  obtain ⟨hheaders, hnothing⟩ := h.closed hclosed
  refine ⟨hnothing, ?_⟩
  apply List.filterMap_eq_nil_iff.mpr
  rintro ⟨awaits, r⟩ hr
  obtain rfl : awaits = .headers := hheaders _ hr
  rfl

theorem Receiving.of_received_nil (h : Receiving cfg cs log) (hnone : cs.session.received = []) :
    receivedMessages log = [] ∧ cs.session.messages = [] := by
  by_cases hopen : cs.recvHeadersOnce = some none
  · obtain ⟨opening, info, -, -, hbehind⟩ := h.opened hopen
    obtain ⟨tail, hreads, -⟩ := hbehind.first
    rw [Session.received, hreads] at hnone
    cases hnone
  · exact h.of_closed hopen

/-- The half of a stream that receives has not changed. -/
structure SameReceiving (cs cs' : ClientStream κ) : Prop where
  once : cs'.recvHeadersOnce = cs.recvHeadersOnce
  reads : cs'.session.reads = cs.session.reads
  info : cs'.callInfo = cs.callInfo

theorem Receiving.of_same (h : Receiving cfg cs log) (hsame : SameReceiving cs cs')
    (hlog : receivedMessages log' = receivedMessages log) : Receiving cfg cs' log' := by
  obtain ⟨honce, hreads, hinfo⟩ := hsame
  refine ⟨?_, ?_, ?_⟩
  · rw [honce, hreads]
    exact h.unread
  · rw [honce, hreads, hlog]
    exact h.closed
  · rw [honce, hreads, hinfo, hlog]
    exact h.opened

theorem sameReceiving_sendHeaders (cfg : ClientConfig κ μ) (cs : ClientStream κ) :
    SameReceiving cs (cs.sendHeaders cfg).2 := by
  rcases sendHeaders_cases cfg cs with ⟨-, hsame⟩ | ⟨env, conn, -, -, hnew⟩
  · rw [hsame]
    exact ⟨rfl, rfl, rfl⟩
  · rw [hnew]
    exact ⟨rfl, rfl, rfl⟩

theorem sameReceiving_send (cfg : ClientConfig κ μ) (cs : ClientStream κ) (msg : μ) :
    SameReceiving cs (cs.send cfg msg).2 := by
  have hheaders := sameReceiving_sendHeaders cfg cs
  unfold ClientStream.send
  rcases h : cs.sendHeaders cfg with ⟨err, cs₁⟩
  rw [h] at hheaders
  cases err with
  | some err => exact hheaders
  | none =>
      simp only
      split
      · exact hheaders
      · exact ⟨hheaders.once, hheaders.reads, hheaders.info⟩

/-- What reading the response headers does. -/
theorem readHeaders_cases (cfg : ClientConfig κ μ) {info : CallInfo}
    (hinfo : cs.callInfo = some info) :
    ∃ r, (cs.readHeaders cfg).2.session.reads = cs.session.reads ++ [(.headers, r)] ∧
      SameSending cs (cs.readHeaders cfg).2 ∧
      ((cs.readHeaders cfg).1 = none → ∃ opening info', r = .ok opening ∧
        (cs.readHeaders cfg).2.callInfo = some info' ∧ Surfaced cfg opening info') := by
  have hreads : (cs.readEnvelope cfg .headers).2.session.reads =
      cs.session.reads ++ [(.headers, (cs.readEnvelope cfg .headers).1)] := rfl
  have hsame : SameSending cs (cs.readEnvelope cfg .headers).2 := ⟨rfl, rfl, rfl⟩
  have hafter : (cs.readEnvelope cfg .headers).2.callInfo = some info := hinfo
  refine ⟨(cs.readEnvelope cfg .headers).1, ?_⟩
  unfold ClientStream.readHeaders
  rcases h : cs.readEnvelope cfg .headers with ⟨r, cs₁⟩
  rw [h] at hreads hsame hafter
  cases r with
  | error err => exact ⟨hreads, hsame, fun hnone => by cases hnone⟩
  | ok env =>
      simp only
      split
      · exact ⟨hreads, hsame, fun hnone => by cases hnone⟩
      · rename_i hflag
        split
        · exact ⟨hreads, hsame, fun hnone => by cases hnone⟩
        · rename_i headers hheaders
          refine ⟨hreads, ⟨hsame.once, hsame.writes, ?_⟩, fun _ => ?_⟩
          · rw [← hsame.request]
            unfold ClientStream.setResponseHeader
            rw [hafter]
            rfl
          · exact ⟨env, _, rfl, congrArg (Option.map _) hafter,
              not_not.mp hflag, headers, info.responseHeader, hheaders, rfl⟩

theorem sameSending_recvHeaders (cfg : ClientConfig κ μ) {info : CallInfo}
    (hinfo : cs.callInfo = some info) : SameSending cs (cs.recvHeaders cfg).2 := by
  rcases recvHeaders_cases cfg cs with ⟨-, hsame⟩ | ⟨-, -, hnew⟩
  · rw [hsame]
    exact ⟨rfl, rfl, rfl⟩
  · obtain ⟨r, -, hsame, -⟩ := readHeaders_cases cfg hinfo
    rw [hnew]
    exact ⟨hsame.once, hsame.writes, hsame.request⟩

theorem Receiving.recvHeaders (h : Receiving cfg cs log) {info : CallInfo}
    (hinfo : cs.callInfo = some info) : Receiving cfg (cs.recvHeaders cfg).2 log := by
  rcases recvHeaders_cases cfg cs with ⟨-, hsame⟩ | ⟨hnone, -, hnew⟩
  · rw [hsame]
    exact h
  · obtain ⟨r, hreads, -, hok⟩ := readHeaders_cases cfg hinfo
    obtain ⟨-, hreceived⟩ := h.closed (by simp [hnone])
    rw [h.unread hnone, List.nil_append] at hreads
    rw [hnew]
    refine ⟨fun hnone' => (by cases hnone'), fun _ => ⟨?_, hreceived⟩, fun hsome => ?_⟩
    · show ∀ r ∈ (cs.readHeaders cfg).2.session.reads, r.1 = Awaits.headers
      rw [hreads]
      intro r' hr'
      rw [List.mem_singleton.mp hr']
    · obtain ⟨opening, info', rfl, hinfo', hsurfaced⟩ := hok (Option.some.inj hsome)
      refine ⟨opening, info', hinfo', hsurfaced, ?_⟩
      show Behind cfg opening _ (cs.readHeaders cfg).2.session.reads _
      rw [hreads, hreceived]
      refine ⟨⟨[], rfl, by simp⟩, .slnil, fun _ => rfl, fun r hr => ?_⟩
      simp at hr

/-- `Receive` returns what it has taken. -/
theorem Receiving.receiveNext (hlimit : cfg.opts.readMaxBytes ≤ 0) (h : Receiving cfg cs log)
    (hopen : cs.recvHeadersOnce = some none) :
    Receiving cfg (cs.receiveNext cfg).2
      (log ++ (cs.receiveNext cfg).1.toOption.toList.map .received) := by
  obtain ⟨opening, info, hinfo, hsurfaced, hbehind⟩ := h.opened hopen
  obtain ⟨news, hreads, ⟨hsame, responseTrailer, hinfo'⟩, htaken⟩ := receiveNext_taken hlimit hinfo
  have hopen' : (cs.receiveNext cfg).2.recvHeadersOnce = some none :=
    hsame.recvHeadersOnce.trans hopen
  refine ⟨fun hnone => ?_, fun hnot => absurd hopen' hnot, fun _ => ?_⟩
  · rw [hopen'] at hnone
    cases hnone
  · refine ⟨opening, _, hinfo', ⟨hsurfaced.flag, hsurfaced.headers⟩, ?_⟩
    rw [hreads, receivedMessages_append, receivedMessages_received]
    exact hbehind.more htaken

-- ============================================================================
-- Sequences of calls
-- ============================================================================

/-- What the calls of a client have transferred so far. -/
structure Transferred (cfg : ClientConfig κ μ) (cs : ClientStream κ) (log : List (Transfer μ)) :
    Prop where
  sending : Sending cfg cs log
  receiving : Receiving cfg cs log

theorem Keeps.sameSending (h : Keeps info cs cs') (hinfo : cs.callInfo = some info) :
    SameSending cs cs' := by
  obtain ⟨hsame, responseTrailer, hinfo'⟩ := h
  refine ⟨hsame.sendHeadersOnce, hsame.writes, ?_⟩
  rw [hinfo, hinfo']
  rfl

theorem Transferred.receive (hlimit : cfg.opts.readMaxBytes ≤ 0) (h : Transferred cfg cs log) :
    Transferred cfg (cs.receive cfg).2
      (log ++ (cs.receive cfg).1.toOption.toList.map .received) := by
  have hsending := h.sending.sendHeaders
  have hreceiving := h.receiving.of_same (sameReceiving_sendHeaders cfg cs) rfl
  unfold ClientStream.receive
  rcases hsend : cs.sendHeaders cfg with ⟨err, cs₁⟩
  rw [hsend] at hsending hreceiving
  cases err with
  | some err =>
      simp only [Received.toOption, Option.toList_none, List.map_nil, List.append_nil]
      exact ⟨hsending, hreceiving⟩
  | none =>
      obtain ⟨info₁, hinfo₁, -⟩ := hsending.info
      have hsending₂ := hsending.of_same (sameSending_recvHeaders cfg hinfo₁) rfl
      have hreceiving₂ := hreceiving.recvHeaders hinfo₁
      have hopen := (recvHeaders_frame cfg cs₁).1
      simp only
      rcases hrecv : cs₁.recvHeaders cfg with ⟨err, cs₂⟩
      rw [hrecv] at hsending₂ hreceiving₂ hopen
      cases err with
      | some err =>
          simp only [Received.toOption, Option.toList_none, List.map_nil, List.append_nil]
          exact ⟨hsending₂, hreceiving₂⟩
      | none =>
          obtain ⟨info₂, hinfo₂, -⟩ := hsending₂.info
          obtain ⟨news, -, hkeeps, -⟩ := receiveNext_taken hlimit hinfo₂
          refine ⟨hsending₂.of_same (hkeeps.sameSending hinfo₂) ?_,
            hreceiving₂.receiveNext hlimit hopen⟩
          rw [sentMessages_append, sentMessages_received, List.append_nil]

theorem Transferred.closeSend (h : Transferred cfg cs log) :
    Transferred cfg (cs.closeSend cfg).2 log := by
  unfold ClientStream.closeSend
  split
  · exact h
  · exact ⟨h.sending.of_same ⟨rfl, rfl, rfl⟩ rfl, h.receiving.of_same ⟨rfl, rfl, rfl⟩ rfl⟩

theorem Transferred.step (hlimit : cfg.opts.readMaxBytes ≤ 0) (h : Transferred cfg cs log)
    (op : ClientOp μ) : Transferred cfg (cs.step cfg op) (log ++ cs.transfers cfg op) := by
  cases op with
  | sendHeaders =>
      rw [ClientStream.transfers, List.append_nil]
      exact ⟨h.sending.sendHeaders, h.receiving.of_same (sameReceiving_sendHeaders cfg cs) rfl⟩
  | send msg =>
      refine ⟨h.sending.send msg, h.receiving.of_same (sameReceiving_send cfg cs msg) ?_⟩
      rw [receivedMessages_append, ClientStream.transfers, receivedMessages_ofSend, List.append_nil]
  | closeSend =>
      rw [ClientStream.transfers, List.append_nil]
      exact h.closeSend
  | receive => exact h.receive hlimit
  | close =>
      rw [ClientStream.transfers, List.append_nil]
      have hclosed := h.closeSend
      exact ⟨hclosed.sending.of_same ⟨rfl, rfl, rfl⟩ rfl,
        hclosed.receiving.of_same ⟨rfl, rfl, rfl⟩ rfl⟩

/-- One `ClientStream`, the calls made on it and what they transfer. -/
def logMachine (cfg : ClientConfig κ μ) (conn : κ) (callInfo : Option CallInfo) :
    Machine (ClientStream κ × List (Transfer μ)) (ClientOp μ) :=
  (clientMachine cfg conn callInfo).logged fun cs op _ => cs.transfers cfg op

theorem transferred_of_run (hlimit : cfg.opts.readMaxBytes ≤ 0) {conn : κ} {info : CallInfo}
    (hkeys : CanonicalKeys info.requestHeader) {ops : List (ClientOp μ)}
    (h : (logMachine cfg conn (some info)).run ops = some (cs, log)) : Transferred cfg cs log := by
  have hstep : ∀ (p : ClientStream κ × List (Transfer μ)) (op : ClientOp μ) p',
      Transferred cfg p.1 p.2 → (logMachine cfg conn (some info)).step p op = some p' →
        Transferred cfg p'.1 p'.2 := by
    intro p op p' hp hstep
    obtain ⟨hcs, hlog⟩ := (clientMachine cfg conn (some info)).logged_step.mp hstep
    rw [← Option.some.inj hcs, hlog]
    exact hp.step hlimit op
  refine (logMachine cfg conn (some info)).exec_invariant hstep ?_ h
  exact ⟨⟨⟨info, rfl, hkeys⟩,
    Or.inl ⟨by simp [logMachine, Machine.logged, clientMachine], rfl, rfl⟩⟩,
    ⟨fun _ => rfl, fun _ => ⟨by simp [logMachine, Machine.logged, clientMachine], rfl⟩,
      fun hsome => by cases hsome⟩⟩

end ClientStream

end BidiProtocol
end BidiWeb
