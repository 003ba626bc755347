/-
  BidiWeb.BidiProtocol.MissingCallInfo

  A `ClientStream` that was created without a call info, next to one that has
  one.  Both get the same response; the first one has nowhere to keep its
  headers, and looks there for the encoding of a compressed message.
-/

import BidiWeb.BidiProtocol.MessageTransfer

namespace BidiWeb
namespace BidiProtocol

open BidiWeb.ConnectProtocol

variable {κ μ : Type}

/-- From related states, a `Conn` answers the same calls alike, and so it does
    where only the request headers differ. -/
structure Conn.AnswersAlike (conn : Conn κ) (R : κ → κ → Prop) : Prop where
  read : ∀ k k', R k k' → (conn.readEnvelope k).1 = (conn.readEnvelope k').1 ∧
    R (conn.readEnvelope k).2 (conn.readEnvelope k').2
  write : ∀ k k' env, R k k' → (conn.writeEnvelope k env).1 = (conn.writeEnvelope k' env).1 ∧
    R (conn.writeEnvelope k env).2 (conn.writeEnvelope k' env).2
  writeHeaders : ∀ k k' payload payload', R k k' →
    (conn.writeEnvelope k ⟨flagEnvelopeHeaders, payload⟩).1 =
        (conn.writeEnvelope k' ⟨flagEnvelopeHeaders, payload'⟩).1 ∧
      R (conn.writeEnvelope k ⟨flagEnvelopeHeaders, payload⟩).2
        (conn.writeEnvelope k' ⟨flagEnvelopeHeaders, payload'⟩).2
  closeSend : ∀ k k', R k k' → (conn.closeSend k).1 = (conn.closeSend k').1 ∧
    R (conn.closeSend k).2 (conn.closeSend k').2
  close : ∀ k k', R k k' → (conn.close k).1 = (conn.close k').1 ∧
    R (conn.close k).2 (conn.close k').2

namespace ClientStream

-- ============================================================================
-- What the calls return
-- ============================================================================

section

variable (cfg : ClientConfig κ μ)

/-- The stream after a sequence of calls. -/
def steps (cs : ClientStream κ) (ops : List (ClientOp μ)) : ClientStream κ :=
  ops.foldl (step cfg) cs

/-- What the calls of `Receive` among `ops` return. -/
def received (cs : ClientStream κ) : List (ClientOp μ) → List (Received μ)
  | [] => []
  | .receive :: ops => (cs.receive cfg).1 :: received (cs.step cfg .receive) ops
  | op :: ops => received (cs.step cfg op) ops

/-- The envelopes that were read where a message was due. -/
def messageReads (cs : ClientStream κ) : List Envelope :=
  cs.session.reads.filterMap fun r =>
    match r with
    | (.message, .ok env) => some env
    | _ => none

/-- An envelope that is decompressed. -/
def Decompresses (env : Envelope) : Prop :=
  env.flag = flagEnvelopeCompressed ∧ exceeds env.payload cfg.opts.readMaxBytes = false

/-- A message has been read that has to be decompressed. -/
def NeedsEncoding (cs : ClientStream κ) : Prop := ∃ env ∈ cs.messageReads, Decompresses cfg env

end

-- ============================================================================
-- Streams with and without a call info
-- ============================================================================

/-- Streams that have gone through the same, `cs` without a call info. -/
structure Alike (R : κ → κ → Prop) (cs cs' : ClientStream κ) : Prop where
  missing : cs.callInfo = none
  present : cs'.callInfo.isSome = true
  conn : R cs.session.conn cs'.session.conn
  sendHeadersOnce : cs.sendHeadersOnce = cs'.sendHeadersOnce
  closeSendOnce : cs.closeSendOnce = cs'.closeSendOnce
  recvHeadersOnce : cs.recvHeadersOnce = cs'.recvHeadersOnce
  rxEnd : cs.rxEnd = cs'.rxEnd

/-- Equal results, and streams that stay alike. -/
def SameOutcome {β : Type} (R : κ → κ → Prop) (p p' : β × ClientStream κ) : Prop :=
  p.1 = p'.1 ∧ Alike R p.2 p'.2

theorem SameOutcome.pairs {β : Type} {R : κ → κ → Prop} {p p' : β × ClientStream κ}
    (h : SameOutcome R p p') : ∃ result d d', p = (result, d) ∧ p' = (result, d') ∧ Alike R d d' :=
  ⟨p.1, p.2, p'.2, rfl, congrArg (·, p'.2) h.1.symm, h.2⟩

section

variable {cfg : ClientConfig κ μ} {R : κ → κ → Prop} {cs cs' : ClientStream κ}

/-- Another state of the `Conn`. -/
theorem Alike.withSession (h : Alike R cs cs') {session session' : Session κ}
    (hconn : R session.conn session'.conn) :
    Alike R { cs with session } { cs' with session := session' } :=
  ⟨h.missing, h.present, hconn, h.sendHeadersOnce, h.closeSendOnce, h.recvHeadersOnce, h.rxEnd⟩

/-- What is done to a call info is done if there is one. -/
theorem Alike.mapCallInfo (h : Alike R cs cs') (f f' : CallInfo → CallInfo) :
    Alike R { cs with callInfo := cs.callInfo.map f }
      { cs' with callInfo := cs'.callInfo.map f' } := by
  refine ⟨?_, ?_, h.conn, h.sendHeadersOnce, h.closeSendOnce, h.recvHeadersOnce, h.rxEnd⟩
  · exact Option.map_eq_none_iff.mpr h.missing
  · exact Option.isSome_map.trans h.present

theorem Alike.setResponseHeader (h : Alike R cs cs') (headers : Header) :
    Alike R (cs.setResponseHeader cfg headers) (cs'.setResponseHeader cfg headers) :=
  h.mapCallInfo _ _

theorem Alike.setResponseTrailers (h : Alike R cs cs') (trailers : Header) :
    Alike R (cs.setResponseTrailers cfg trailers) (cs'.setResponseTrailers cfg trailers) :=
  h.mapCallInfo _ _

theorem endStream_alike (h : Alike R cs cs') (payload : Bytes) :
    SameOutcome R (cs.endStream cfg payload) (cs'.endStream cfg payload) := by
  have hended : Alike R { cs with rxEnd := true } { cs' with rxEnd := true } :=
    ⟨h.missing, h.present, h.conn, h.sendHeadersOnce, h.closeSendOnce, h.recvHeadersOnce, rfl⟩
  unfold endStream
  cases unmarshalEndStream cfg.lib payload with
  | error err => exact ⟨rfl, hended⟩
  | ok p => exact ⟨rfl, hended.setResponseTrailers p.2⟩

section

variable (hconn : cfg.conn.AnswersAlike R) (h : Alike R cs cs')
include hconn h

theorem sendHeaders_alike : SameOutcome R (cs.sendHeaders cfg) (cs'.sendHeaders cfg) := by
  unfold sendHeaders
  rw [← h.sendHeadersOnce]
  cases cs.sendHeadersOnce with
  | some err => exact ⟨rfl, h⟩
  | none =>
      obtain ⟨data, hdata⟩ : ∃ data, marshalHeaders (cs.requestHeader cfg) = .ok data := ⟨_, rfl⟩
      obtain ⟨data', hdata'⟩ : ∃ data, marshalHeaders (cs'.requestHeader cfg) = .ok data :=
        ⟨_, rfl⟩
      obtain ⟨herr, hstate⟩ := hconn.writeHeaders _ _ data data' h.conn
      simp only [writeHeaders, hdata, hdata']
      exact ⟨herr, h.missing, h.present, hstate, congrArg some herr, h.closeSendOnce,
        h.recvHeadersOnce, h.rxEnd⟩

theorem send_alike (msg : μ) : SameOutcome R (cs.send cfg msg) (cs'.send cfg msg) := by
  obtain ⟨err, d, d', hsend, hsend', halike⟩ := (sendHeaders_alike hconn h).pairs
  unfold send
  rw [hsend, hsend']
  cases err with
  | some err => exact ⟨rfl, halike⟩
  | none =>
      cases encode cfg msg with
      | error err => exact ⟨rfl, halike⟩
      | ok env =>
          obtain ⟨hwrite, hstate⟩ := hconn.write _ _ env halike.conn
          exact ⟨hwrite, halike.withSession hstate⟩

theorem closeSend_alike : SameOutcome R (cs.closeSend cfg) (cs'.closeSend cfg) := by
  obtain ⟨herr, hstate⟩ := hconn.closeSend _ _ h.conn
  unfold closeSend
  rw [← h.closeSendOnce]
  split
  · exact ⟨rfl, h⟩
  · exact ⟨herr, h.missing, h.present, hstate, h.sendHeadersOnce, rfl, h.recvHeadersOnce, h.rxEnd⟩

theorem close_alike : SameOutcome R (cs.close cfg) (cs'.close cfg) := by
  obtain ⟨-, halike⟩ := closeSend_alike hconn h
  obtain ⟨herr, hstate⟩ := hconn.close _ _ halike.conn
  exact ⟨herr, halike.withSession hstate⟩

theorem readEnvelope_alike (awaits : Awaits) :
    SameOutcome R (cs.readEnvelope cfg awaits) (cs'.readEnvelope cfg awaits) := by
  obtain ⟨hread, hstate⟩ := hconn.read _ _ h.conn
  exact ⟨hread, h.withSession hstate⟩

theorem readHeaders_alike : SameOutcome R (cs.readHeaders cfg) (cs'.readHeaders cfg) := by
  obtain ⟨result, d, d', hread, hread', halike⟩ := (readEnvelope_alike hconn h .headers).pairs
  unfold readHeaders
  rw [hread, hread']
  cases result with
  | error err => exact ⟨rfl, halike⟩
  | ok env =>
      simp only
      split
      · exact ⟨rfl, halike⟩
      · cases unmarshalHeaders cfg.range env.payload with
        | none => exact ⟨rfl, halike⟩
        | some headers => exact ⟨rfl, halike.setResponseHeader headers⟩

theorem recvHeaders_alike : SameOutcome R (cs.recvHeaders cfg) (cs'.recvHeaders cfg) := by
  unfold recvHeaders
  rw [← h.recvHeadersOnce]
  cases cs.recvHeadersOnce with
  | some err => exact ⟨rfl, h⟩
  | none =>
      obtain ⟨herr, halike⟩ := readHeaders_alike hconn h
      exact ⟨herr, halike.missing, halike.present, halike.conn, halike.sendHeadersOnce,
        halike.closeSendOnce, congrArg some herr, halike.rxEnd⟩

theorem readUnaryEndStream_alike :
    SameOutcome R (cs.readUnaryEndStream cfg) (cs'.readUnaryEndStream cfg) := by
  obtain ⟨result, d, d', hread, hread', halike⟩ := (readEnvelope_alike hconn h .endStream).pairs
  unfold readUnaryEndStream
  rw [hread, hread']
  cases result with
  | error err => exact ⟨rfl, halike⟩
  | ok env =>
      simp only
      split
      · exact ⟨rfl, halike⟩
      · exact endStream_alike halike env.payload

/-- The encoding is not asked for. -/
theorem receiveMessage_alike {env : Envelope} (henv : ¬ Decompresses cfg env) :
    SameOutcome R (cs.receiveMessage cfg env) (cs'.receiveMessage cfg env) := by
  unfold receiveMessage
  by_cases hlimit : exceeds env.payload cfg.opts.readMaxBytes = true
  · rw [if_pos hlimit, if_pos hlimit]
    exact ⟨rfl, h⟩
  · have hplain : env.flag ≠ flagEnvelopeCompressed := fun hflag =>
      henv ⟨hflag, Bool.eq_false_iff.mpr hlimit⟩
    have hdecode : ∀ encoding,
        decodePayload cfg.opts.compressors encoding env = .ok env.payload :=
      fun _ => if_neg hplain
    rw [if_neg hlimit, if_neg hlimit, if_neg fun hflag => hplain hflag.1,
      if_neg fun hflag => hplain hflag.1]
    simp only [hdecode]
    cases cfg.codec.unmarshalRead env.payload with
    | error err => exact ⟨rfl, h⟩
    | ok msg =>
        simp only
        split
        · obtain ⟨err, d, d', hend, hend', halike⟩ := (readUnaryEndStream_alike hconn h).pairs
          rw [hend, hend']
          cases err <;> exact ⟨rfl, halike⟩
        · exact ⟨rfl, h⟩

theorem receiveEnvelope_alike {env : Envelope} (henv : ¬ Decompresses cfg env) :
    SameOutcome R (cs.receiveEnvelope cfg env) (cs'.receiveEnvelope cfg env) := by
  unfold receiveEnvelope
  split
  · exact ⟨rfl, h⟩
  · split
    · have hended : SameOutcome R (cs.endStream cfg env.payload) (cs'.endStream cfg env.payload) :=
        endStream_alike h env.payload
      obtain ⟨err, d, d', hend, hend', halike⟩ := hended.pairs
      rw [hend, hend']
      cases err <;> exact ⟨rfl, halike⟩
    · split
      · exact ⟨rfl, h⟩
      · exact receiveMessage_alike hconn h henv

end

end

-- ============================================================================
-- Reads where a message is due
-- ============================================================================

section

variable {cfg : ClientConfig κ μ} {cs cs' : ClientStream κ}

/-- Reads of anything else. -/
theorem messageReads_of_reads {news : List (Awaits × Except GoError Envelope)}
    (hreads : cs'.session.reads = cs.session.reads ++ news) (hother : ∀ r ∈ news, r.1 ≠ .message) :
    cs'.messageReads = cs.messageReads := by
  unfold messageReads
  rw [hreads, List.filterMap_append, List.append_right_eq_self, List.filterMap_eq_nil_iff]
  rintro ⟨awaits, result⟩ hr
  cases awaits with
  | headers => rfl
  | endStream => rfl
  | message => exact absurd rfl (hother _ hr)

theorem messageReads_of_session (hreads : cs'.session.reads = cs.session.reads) :
    cs'.messageReads = cs.messageReads :=
  messageReads_of_reads (hreads.trans (List.append_nil _).symm) nofun

theorem needsEncoding_iff (hreads : cs'.messageReads = cs.messageReads) :
    NeedsEncoding cfg cs' ↔ NeedsEncoding cfg cs := by
  unfold NeedsEncoding
  rw [hreads]

theorem messageReads_readMessage :
    (cs.readEnvelope cfg .message).2.messageReads =
      cs.messageReads ++ (cs.readEnvelope cfg .message).1.toOption.toList := by
  have hreads : (cs.readEnvelope cfg .message).2.session.reads =
      cs.session.reads ++ [(.message, (cs.readEnvelope cfg .message).1)] := rfl
  unfold messageReads
  rw [hreads, List.filterMap_append]
  cases (cs.readEnvelope cfg .message).1 <;> rfl

theorem messageReads_sendHeaders : (cs.sendHeaders cfg).2.messageReads = cs.messageReads :=
  messageReads_of_session (sendHeaders_frame cfg cs).2.2.1

theorem messageReads_recvHeaders : (cs.recvHeaders cfg).2.messageReads = cs.messageReads := by
  obtain ⟨-, -, -, news, hreads, hheaders, -⟩ := recvHeaders_frame cfg cs
  apply messageReads_of_reads hreads
  intro r hr
  rw [hheaders r hr]
  decide

theorem messageReads_endStream (payload : Bytes) :
    (cs.endStream cfg payload).2.messageReads = cs.messageReads :=
  messageReads_of_session (congrArg Session.reads (endStream_spec cfg cs payload).2.1)

theorem messageReads_receiveMessage (env : Envelope) :
    (cs.receiveMessage cfg env).2.messageReads = cs.messageReads := by
  rcases receiveMessage_spec cfg cs env with ⟨hsame, -⟩ | ⟨result, -, hreads, -⟩
  · rw [hsame]
  · apply messageReads_of_reads hreads
    intro r hr
    rw [List.mem_singleton.mp hr]
    nofun

theorem messageReads_receiveEnvelope (env : Envelope) :
    (cs.receiveEnvelope cfg env).2.messageReads = cs.messageReads := by
  unfold receiveEnvelope
  split
  · rfl
  · split
    · have hend : (cs.endStream cfg env.payload).2.messageReads = cs.messageReads :=
        messageReads_endStream env.payload
      rcases hended : cs.endStream cfg env.payload with ⟨err, d⟩
      rw [hended] at hend
      cases err <;> exact hend
    · split
      · rfl
      · exact messageReads_receiveMessage env

/-- Without a call info, to ask it for the encoding is a panic. -/
theorem receiveMessage_panics {env : Envelope} (hmissing : cs.callInfo = none)
    (henv : Decompresses cfg env) : (cs.receiveMessage cfg env).1 = .panic := by
  have hasked : env.flag = flagEnvelopeCompressed ∧ cs.callInfo.isNone = true :=
    ⟨henv.1, Option.isNone_iff_eq_none.mpr hmissing⟩
  unfold receiveMessage
  rw [henv.2, if_neg Bool.false_ne_true, if_pos hasked]

theorem receiveMessage_ne_panic {env : Envelope} (henv : ¬ Decompresses cfg env) :
    (cs.receiveMessage cfg env).1 ≠ .panic := by
  unfold receiveMessage
  split
  · nofun
  · rename_i hlimit
    split
    · rename_i hasked
      exact absurd ⟨hasked.1, Bool.eq_false_iff.mpr hlimit⟩ henv
    · simp only
      split
      · nofun
      · split
        · nofun
        · split
          · rcases cs.readUnaryEndStream cfg with ⟨err, d⟩
            cases err <;> nofun
          · nofun

theorem receiveEnvelope_panics_iff (hmissing : cs.callInfo = none) (env : Envelope) :
    (cs.receiveEnvelope cfg env).1 = .panic ↔ Decompresses cfg env := by
  have hheaders : flagEnvelopeCompressed ≠ flagEnvelopeHeaders := by decide
  have hend : flagEnvelopeCompressed ≠ flagEnvelopeEndStream := by decide
  unfold receiveEnvelope
  constructor
  · intro hpanic
    by_contra henv
    split at hpanic
    · cases hpanic
    · split at hpanic
      · rcases hended : cs.endStream cfg env.payload with ⟨err, d⟩
        rw [hended] at hpanic
        cases err <;> cases hpanic
      · split at hpanic
        · cases hpanic
        · exact receiveMessage_ne_panic henv hpanic
  · intro henv
    rw [henv.1, if_neg hheaders, if_neg hend, if_neg fun h => h.2 rfl]
    exact receiveMessage_panics hmissing henv

theorem messageReads_receiveNext :
    (cs.receiveNext cfg).2.messageReads =
      if cs.rxEnd then cs.messageReads else (cs.readEnvelope cfg .message).2.messageReads := by
  unfold receiveNext
  split
  · rfl
  · rcases cs.readEnvelope cfg .message with ⟨result, d⟩
    cases result with
    | error err =>
        simp only
        split <;> rfl
    | ok env => exact messageReads_receiveEnvelope env

/-- What has been read stays. -/
theorem NeedsEncoding.receive (h : NeedsEncoding cfg cs) :
    NeedsEncoding cfg (cs.receive cfg).2 := by
  obtain ⟨env, hmem, henv⟩ := h
  refine ⟨env, ?_, henv⟩
  unfold ClientStream.receive
  have hsent : (cs.sendHeaders cfg).2.messageReads = cs.messageReads := messageReads_sendHeaders
  rcases hsend : cs.sendHeaders cfg with ⟨err, d⟩
  rw [hsend] at hsent
  rw [← hsent] at hmem
  cases err with
  | some err => exact hmem
  | none =>
      have hread : (d.recvHeaders cfg).2.messageReads = d.messageReads := messageReads_recvHeaders
      rcases hrecv : d.recvHeaders cfg with ⟨err, d'⟩
      rw [hrecv] at hread
      rw [← hread] at hmem
      simp only
      rw [hrecv]
      cases err with
      | some err => exact hmem
      | none =>
          simp only
          rw [messageReads_receiveNext]
          split
          · exact hmem
          · rw [messageReads_readMessage]
            exact List.mem_append_left _ hmem

theorem messageReads_closeSend : (cs.closeSend cfg).2.messageReads = cs.messageReads := by
  unfold closeSend
  split <;> rfl

theorem messageReads_step {op : ClientOp μ} (hop : op ≠ .receive) :
    (cs.step cfg op).messageReads = cs.messageReads := by
  cases op with
  | sendHeaders => exact messageReads_sendHeaders
  | send msg => exact messageReads_of_session (sameReceiving_send cfg cs msg).reads
  | closeSend => exact messageReads_closeSend
  | receive => exact absurd rfl hop
  | close =>
      have hclosed : (cs.closeSend cfg).2.messageReads = cs.messageReads := messageReads_closeSend
      exact hclosed

theorem NeedsEncoding.steps (h : NeedsEncoding cfg cs) (ops : List (ClientOp μ)) :
    NeedsEncoding cfg (cs.steps cfg ops) := by
  induction ops generalizing cs with
  | nil => exact h
  | cons op ops ih =>
      apply ih
      by_cases hop : op = .receive
      · subst hop
        exact h.receive
      · exact (needsEncoding_iff (messageReads_step hop)).mpr h

end

-- ============================================================================
-- Two runs
-- ============================================================================

section

variable {cfg : ClientConfig κ μ} {R : κ → κ → Prop} {cs cs' : ClientStream κ}
  (hconn : cfg.conn.AnswersAlike R) (h : Alike R cs cs')
include hconn h

/-- A call of `Receive` on streams that are alike: it panics on the one, having
    read what has to be decompressed, or has the same outcome on both. -/
theorem receiveNext_outcome (hnone : ¬ NeedsEncoding cfg cs) :
    (cs.receiveNext cfg).1 = .panic ∧ NeedsEncoding cfg (cs.receiveNext cfg).2 ∨
      (cs.receiveNext cfg).1 ≠ .panic ∧ ¬ NeedsEncoding cfg (cs.receiveNext cfg).2 ∧
        SameOutcome R (cs.receiveNext cfg) (cs'.receiveNext cfg) := by
  have hreads : (cs.readEnvelope cfg .message).2.messageReads =
      cs.messageReads ++ (cs.readEnvelope cfg .message).1.toOption.toList :=
    messageReads_readMessage
  obtain ⟨result, d, d', hread, hread', halike⟩ := (readEnvelope_alike hconn h .message).pairs
  rw [hread] at hreads
  unfold receiveNext
  rw [hread, hread', ← h.rxEnd]
  by_cases hended : cs.rxEnd = true
  · rw [if_pos hended, if_pos hended]
    exact .inr ⟨nofun, hnone, rfl, h⟩
  · rw [if_neg hended, if_neg hended]
    cases result with
    | error err =>
        have hsame : ¬ NeedsEncoding cfg d := fun hneeds =>
          hnone ((needsEncoding_iff (hreads.trans (List.append_nil _))).mp hneeds)
        simp only
        split
        · exact .inr ⟨nofun, hsame, rfl, halike⟩
        · exact .inr ⟨nofun, hsame, rfl, halike⟩
    | ok env =>
        have hneeds : NeedsEncoding cfg (d.receiveEnvelope cfg env).2 ↔ Decompresses cfg env := by
          unfold NeedsEncoding
          rw [messageReads_receiveEnvelope,
            show d.messageReads = cs.messageReads ++ [env] from hreads]
          constructor
          · rintro ⟨env', hmem, henv⟩
            rcases List.mem_append.mp hmem with hold | hnew
            · exact absurd ⟨env', hold, henv⟩ hnone
            · exact List.mem_singleton.mp hnew ▸ henv
          · exact fun henv => ⟨env, List.mem_append_right _ (List.mem_singleton_self env), henv⟩
        have hpanics : (d.receiveEnvelope cfg env).1 = .panic ↔ Decompresses cfg env :=
          receiveEnvelope_panics_iff halike.missing env
        simp only
        rw [hneeds, Ne, hpanics]
        by_cases henv : Decompresses cfg env
        · exact .inl ⟨henv, henv⟩
        · exact .inr ⟨henv, henv, receiveEnvelope_alike hconn halike henv⟩

theorem receive_outcome (hnone : ¬ NeedsEncoding cfg cs) :
    (cs.receive cfg).1 = .panic ∧ NeedsEncoding cfg (cs.receive cfg).2 ∨
      (cs.receive cfg).1 ≠ .panic ∧ ¬ NeedsEncoding cfg (cs.receive cfg).2 ∧
        SameOutcome R (cs.receive cfg) (cs'.receive cfg) := by
  have hsent : (cs.sendHeaders cfg).2.messageReads = cs.messageReads := messageReads_sendHeaders
  obtain ⟨err, d, d', hsend, hsend', halike⟩ := (sendHeaders_alike hconn h).pairs
  rw [hsend] at hsent
  have hd : ¬ NeedsEncoding cfg d := fun hneeds => hnone ((needsEncoding_iff hsent).mp hneeds)
  unfold receive
  rw [hsend, hsend']
  cases err with
  | some err => exact .inr ⟨nofun, hd, rfl, halike⟩
  | none =>
      have hread : (d.recvHeaders cfg).2.messageReads = d.messageReads := messageReads_recvHeaders
      obtain ⟨err, e, e', hrecv, hrecv', halike⟩ := (recvHeaders_alike hconn halike).pairs
      rw [hrecv] at hread
      have he : ¬ NeedsEncoding cfg e := fun hneeds => hd ((needsEncoding_iff hread).mp hneeds)
      simp only
      rw [hrecv, hrecv']
      cases err with
      | some err => exact .inr ⟨nofun, he, rfl, halike⟩
      | none => exact receiveNext_outcome hconn halike he

/-- Every other call keeps streams alike. -/
theorem step_alike {op : ClientOp μ} (hop : op ≠ .receive) :
    Alike R (cs.step cfg op) (cs'.step cfg op) := by
  cases op with
  | sendHeaders => exact (sendHeaders_alike hconn h).2
  | send msg => exact (send_alike hconn h msg).2
  | closeSend => exact (closeSend_alike hconn h).2
  | receive => exact absurd rfl hop
  | close => exact (close_alike hconn h).2

omit hconn h in
theorem received_cons {op : ClientOp μ} (hop : op ≠ .receive) (ops : List (ClientOp μ)) :
    cs.received cfg (op :: ops) = (cs.step cfg op).received cfg ops := by
  cases op with
  | receive => exact absurd rfl hop
  | _ => rfl

/-- Induction on the calls: until something has to be decompressed the streams
    stay alike, and the call that reads it panics. -/
theorem received_eq_iff (hnone : ¬ NeedsEncoding cfg cs) (ops : List (ClientOp μ)) :
    (cs.received cfg ops = cs'.received cfg ops ∧ Received.panic ∉ cs.received cfg ops) ↔
      ¬ NeedsEncoding cfg (cs.steps cfg ops) := by
  induction ops generalizing cs cs' with
  | nil => exact ⟨fun _ => hnone, fun _ => ⟨rfl, List.not_mem_nil⟩⟩
  | cons op ops ih =>
      by_cases hop : op = .receive
      · subst hop
        show ((cs.receive cfg).1 :: (cs.receive cfg).2.received cfg ops =
            (cs'.receive cfg).1 :: (cs'.receive cfg).2.received cfg ops ∧
          Received.panic ∉ (cs.receive cfg).1 :: (cs.receive cfg).2.received cfg ops) ↔
            ¬ NeedsEncoding cfg ((cs.receive cfg).2.steps cfg ops)
        rcases receive_outcome hconn h hnone with
          ⟨hpanic, hneeds⟩ | ⟨hpanic, hnext, hresult, halike⟩
        · have hlater : NeedsEncoding cfg ((cs.receive cfg).2.steps cfg ops) := hneeds.steps ops
          constructor
          · rintro ⟨-, hclean⟩
            exact absurd (hpanic ▸ List.mem_cons_self) hclean
          · exact fun hclean => absurd hlater hclean
        · rw [← ih halike hnext, List.cons.injEq, List.mem_cons, not_or]
          constructor
          · exact fun hsame => ⟨hsame.1.2, hsame.2.2⟩
          · exact fun hsame => ⟨⟨hresult, hsame.1⟩, hpanic.symm, hsame.2⟩
      · have hnext : ¬ NeedsEncoding cfg (cs.step cfg op) := fun hneeds =>
          hnone ((needsEncoding_iff (messageReads_step hop)).mp hneeds)
        rw [received_cons hop, received_cons hop]
        exact ih (step_alike hconn h hop) hnext

end

end ClientStream

-- ============================================================================
-- Any response
-- ============================================================================

/-- A call on a `Conn`, whatever the request headers are. -/
inductive ConnCall where
  | readEnvelope
  | writeHeaders
  | writeEnvelope (env : Envelope)
  | closeSend
  | close
deriving DecidableEq

def ConnCall.ofEnvelope (env : Envelope) : ConnCall :=
  if env.flag = flagEnvelopeHeaders then .writeHeaders else .writeEnvelope env

/-- The other side: what the last of the calls made so far returns. -/
structure Peer where
  envelope : List ConnCall → Except GoError Envelope
  error : List ConnCall → Option GoError

namespace Peer

def conn (peer : Peer) : Conn (List ConnCall) where
  readEnvelope := fun calls => (peer.envelope (calls ++ [.readEnvelope]), calls ++ [.readEnvelope])
  writeEnvelope := fun calls env =>
    (peer.error (calls ++ [.ofEnvelope env]), calls ++ [.ofEnvelope env])
  closeSend := fun calls => (peer.error (calls ++ [.closeSend]), calls ++ [.closeSend])
  close := fun calls => (peer.error (calls ++ [.close]), calls ++ [.close])

theorem conn_answersAlike (peer : Peer) : peer.conn.AnswersAlike Eq where
  read := by
    rintro calls calls' rfl
    exact ⟨rfl, rfl⟩
  write := by
    rintro calls calls' env rfl
    exact ⟨rfl, rfl⟩
  writeHeaders := by
    rintro calls calls' payload payload' rfl
    exact ⟨rfl, rfl⟩
  closeSend := by
    rintro calls calls' rfl
    exact ⟨rfl, rfl⟩
  close := by
    rintro calls calls' rfl
    exact ⟨rfl, rfl⟩

/-- A response that has been written already. -/
def replays (response : List Envelope) : Peer where
  envelope := fun calls =>
    response[calls.count .readEnvelope - 1]?.elim (.error .eof) .ok
  error := fun _ => none

end Peer

/-- A new stream, given a call info or nil. -/
def newClientStream (callInfo : Option CallInfo) : ClientStream (List ConnCall) where
  session := { conn := [] }
  callInfo

open ClientStream in
/-- Without a call info every `Receive` returns what it returns with one, and
    none panics, as long as no message that is read has to be decompressed. -/
theorem call_info_optional_iff (cfg : ClientConfig (List ConnCall) μ) (peer : Peer)
    (info : CallInfo) (ops : List (ClientOp μ)) :
    let cfg := { cfg with conn := peer.conn }
    ((newClientStream none).received cfg ops = (newClientStream (some info)).received cfg ops ∧
        Received.panic ∉ (newClientStream none).received cfg ops) ↔
      ∀ env ∈ ((newClientStream none).steps cfg ops).messageReads,
        ¬ (env.flag = flagEnvelopeCompressed ∧
          exceeds env.payload cfg.opts.readMaxBytes = false) := by
  intro cfg
  have halike : Alike Eq (newClientStream none) (newClientStream (some info)) :=
    ⟨rfl, rfl, rfl, rfl, rfl, rfl, rfl⟩
  have hnone : ¬ NeedsEncoding cfg (newClientStream none) := by
    rintro ⟨env, hmem, -⟩
    cases hmem
  rw [received_eq_iff (peer.conn_answersAlike) halike hnone ops]
  unfold NeedsEncoding
  rw [not_exists]
  exact forall_congr' fun env => not_and

deriving instance DecidableEq for Received

/-- Response headers that name the encoding, a compressed message, the end. -/
def compressedResponse : List Envelope :=
  [⟨flagEnvelopeHeaders,
      (marshalHeaders
        (Header.set ∅ "Connect-Content-Encoding".toList "gzip".toList)).toOption.getD []⟩,
    ⟨flagEnvelopeCompressed, [0x1f, 0x8b, 1, 2]⟩,
    ⟨flagEnvelopeEndStream, "{}".toUTF8.toList⟩]

/-- A call with the options that a transport starts from. -/
def gzipCall : ClientConfig (List ConnCall) Bytes where
  conn := (Peer.replays compressedResponse).conn
  procedure := "/echo.Echo/Echo".toList
  unary := true
  opts := transportOptions plainDefaults []
  codec := plainDefaults.binary
  lib := plainLibrary

theorem compressed_response_panics :
    ¬ (∀ (cfg : ClientConfig (List ConnCall) Bytes) (peer : Peer) (info : CallInfo)
        (ops : List (ClientOp Bytes)),
        let cfg := { cfg with conn := peer.conn }
        (newClientStream none).received cfg ops = (newClientStream (some info)).received cfg ops ∧
          Received.panic ∉ (newClientStream none).received cfg ops) ∧
      (newClientStream none).received gzipCall [.receive] = [.panic] ∧
      (newClientStream (some {})).received gzipCall [.receive] = [.message [1, 2]] := by
  have hmissing : (newClientStream none).received gzipCall [.receive] = [.panic] := by
    decide +kernel
  have hpresent :
      (newClientStream (some {})).received gzipCall [.receive] = [.message [1, 2]] := by
    decide +kernel
  refine ⟨fun hclaim => ?_, hmissing, hpresent⟩
  obtain ⟨-, hclean⟩ := hclaim gzipCall (.replays compressedResponse) {} [.receive]
  have hmem : Received.panic ∈ (newClientStream none).received gzipCall [.receive] :=
    hmissing ▸ List.mem_cons_self
  exact hclean hmem

end BidiProtocol
end BidiWeb
