/-
  BidiWeb.BidiProtocol.ResponseEnd

  When `ClientStream.Receive` may say that the response is over.

  `Receive` calls the `Conn` in four places.  One of them turns an `io.EOF`
  into a protocol error; the other three return it as it is, which the caller
  takes for the end of the response.  A fourth way to the same mistake is
  `rxEnd`, which is set before the end-stream is known to be a good one.
-/

import BidiWeb.BidiProtocol.ClientStream

namespace BidiWeb
namespace BidiProtocol

open BidiWeb.ConnectProtocol
open BidiWeb.Lib

variable {κ μ : Type}

/-- The call has failed with `io.EOF`. -/
def isEOFAnswer (result : Except GoError Envelope) : Bool :=
  match result with
  | .error err => err.isEOF
  | .ok _ => false

namespace ClientStream

variable (cfg : ClientConfig κ μ) (cs : ClientStream κ)

/-- An end-stream envelope has been read that parses and carries no error. -/
def CleanEnd : Prop :=
  ∃ awaits env trailers, (awaits, Except.ok env) ∈ cs.session.reads ∧
    env.flag = flagEnvelopeEndStream ∧
    unmarshalEndStream cfg.lib env.payload = .ok (none, trailers)

/-- `Receive` says that the response is over only if it is. -/
def EOFOnlyAtCleanEnd : Prop :=
  (cs.receive cfg).1.isEOF = true → (cs.receive cfg).2.CleanEnd cfg

/-- The answers of the `Conn`, up to the end of the next `Receive`, that let it
    tell the end of the response from the end of the connection. -/
structure EndDiscernible : Prop where
  /-- The request headers were not refused with `io.EOF`. -/
  request : ∀ w ∈ (cs.receive cfg).2.session.writes, w.1.flag = flagEnvelopeHeaders →
    w.2.any GoError.isEOF = false
  /-- The response headers were not missed with `io.EOF`. -/
  response : ∀ r, (Awaits.headers, r) ∈ (cs.receive cfg).2.session.reads → isEOFAnswer r = false
  /-- In this call, the `Conn` does not end with `io.EOF` between the message
      of a unary RPC and its end-stream. -/
  trailer : ∀ r, (Awaits.endStream, r) ∈
    (cs.receive cfg).2.session.reads.drop cs.session.reads.length → isEOFAnswer r = false
  /-- An end-stream read before was a good one. -/
  ended : cs.rxEnd = true → cs.CleanEnd cfg

-- ============================================================================
-- The errors that are not io.EOF
-- ============================================================================

theorem unmarshalEndStream_isEOF {lib : Library} {data : Bytes} {err : GoError} {trailers : Header}
    (h : unmarshalEndStream lib data = .ok (some err, trailers)) : err.isEOF = false := by
  unfold unmarshalEndStream at h
  split at h
  · rename_i e _
    simp only [Except.ok.injEq, Prod.mk.injEq] at h
    obtain ⟨w, -, rfl⟩ := Option.map_eq_some_iff.mp h.1
    rfl
  · cases h

-- ============================================================================
-- What each part of Receive does
-- ============================================================================

/-- The part of a stream that `Receive` may change is not this one. -/
structure SameRequest (cs cs' : ClientStream κ) : Prop where
  sendHeadersOnce : cs'.sendHeadersOnce = cs.sendHeadersOnce
  recvHeadersOnce : cs'.recvHeadersOnce = cs.recvHeadersOnce
  writes : cs'.session.writes = cs.session.writes

/-- Every outcome of `Receive` once the response headers have been read. -/
inductive Next (cs : ClientStream κ) : Received μ → ClientStream κ → Prop where
  | ended : cs.rxEnd = true → Next cs (.error .eof) cs
  /-- One read, and no end-stream. -/
  | other (result : Received μ) (r : Except GoError Envelope) (cs' : ClientStream κ) :
      cs.rxEnd = false → SameRequest cs cs' →
        cs'.session.reads = cs.session.reads ++ [(.message, r)] →
      cs'.rxEnd = false → result.isEOF = false →
      (∀ env, r = .ok env → env.flag ≠ flagEnvelopeEndStream) → Next cs result cs'
  /-- The end-stream. -/
  | endStream (result : Received μ) (env : Envelope) (cs' : ClientStream κ) :
      cs.rxEnd = false → SameRequest cs cs' →
      cs'.session.reads = cs.session.reads ++ [(.message, .ok env)] →
      cs'.rxEnd = true → env.flag = flagEnvelopeEndStream →
      (result.isEOF = true →
        ∃ trailers, unmarshalEndStream cfg.lib env.payload = .ok (none, trailers)) →
      Next cs result cs'
  /-- A message and another read. -/
  | unary (result : Received μ) (env : Envelope) (r : Except GoError Envelope)
      (cs' : ClientStream κ) :
      cs.rxEnd = false → SameRequest cs cs' →
      cs'.session.reads = cs.session.reads ++ [(.message, .ok env), (.endStream, r)] →
      env.flag ≠ flagEnvelopeEndStream → result.isEOF = isEOFAnswer r →
      (cs'.rxEnd = false → ∀ env, r = .ok env → env.flag ≠ flagEnvelopeEndStream) →
      Next cs result cs'

variable {cfg cs}

theorem endStream_spec (cfg : ClientConfig κ μ) (cs : ClientStream κ) (payload : Bytes) :
    SameRequest cs (cs.endStream cfg payload).2 ∧
      (cs.endStream cfg payload).2.session = cs.session ∧
      (cs.endStream cfg payload).2.rxEnd = true ∧
      match (cs.endStream cfg payload).1 with
      | some err => err.isEOF = false
      | none => ∃ trailers, unmarshalEndStream cfg.lib payload = .ok (none, trailers) := by
  unfold ClientStream.endStream
  cases h : unmarshalEndStream cfg.lib payload with
  | error err => exact ⟨⟨rfl, rfl, rfl⟩, rfl, rfl, rfl⟩
  | ok p =>
      obtain ⟨cerr, trailers⟩ := p
      refine ⟨⟨rfl, rfl, rfl⟩, rfl, rfl, ?_⟩
      cases cerr with
      | none => exact ⟨trailers, rfl⟩
      | some err => exact unmarshalEndStream_isEOF h

theorem readUnaryEndStream_spec (cfg : ClientConfig κ μ) (cs : ClientStream κ) :
    ∃ r, SameRequest cs (cs.readUnaryEndStream cfg).2 ∧
      (cs.readUnaryEndStream cfg).2.session.reads = cs.session.reads ++ [(.endStream, r)] ∧
      ((cs.readUnaryEndStream cfg).1.any GoError.isEOF) = isEOFAnswer r ∧
      ((cs.readUnaryEndStream cfg).2.rxEnd = false →
        ∀ env, r = .ok env → env.flag ≠ flagEnvelopeEndStream) := by
  unfold ClientStream.readUnaryEndStream ClientStream.readEnvelope Session.readEnvelope
  cases h : cfg.conn.readEnvelope cs.session.conn with
  | mk result conn =>
      refine ⟨result, ?_⟩
      cases result with
      | error err => exact ⟨⟨rfl, rfl, rfl⟩, rfl, rfl, fun _ _ h => by cases h⟩
      | ok env =>
          by_cases hflag : env.flag = flagEnvelopeEndStream
          · simp only [hflag, ne_eq, not_true, if_false]
            obtain ⟨hsame, hsession, hend, herr⟩ := endStream_spec cfg
              { cs with session := { cs.session with
                conn, reads := cs.session.reads ++ [(.endStream, .ok env)] } } env.payload
            refine ⟨⟨hsame.sendHeadersOnce, hsame.recvHeadersOnce, hsame.writes⟩, ?_, ?_, ?_⟩
            · rw [hsession]
            · revert herr
              split
              · rename_i err herr
                intro hfalse
                rw [herr]
                exact hfalse
              · rename_i herr
                intro _
                rw [herr]
                rfl
            · intro hfalse
              rw [hend] at hfalse
              cases hfalse
          · have hne : env.flag ≠ flagEnvelopeEndStream := hflag
            simp only
            rw [if_pos hne]
            refine ⟨⟨rfl, rfl, rfl⟩, rfl, rfl, fun _ env' henv => ?_⟩
            obtain rfl : env = env' := Except.ok.inj henv
            exact hne

theorem receiveMessage_spec (cfg : ClientConfig κ μ) (cs : ClientStream κ) (env : Envelope) :
    (cs.receiveMessage cfg env).2 = cs ∧ (cs.receiveMessage cfg env).1.isEOF = false ∨
      ∃ r, SameRequest cs (cs.receiveMessage cfg env).2 ∧
        (cs.receiveMessage cfg env).2.session.reads = cs.session.reads ++ [(.endStream, r)] ∧
        (cs.receiveMessage cfg env).1.isEOF = isEOFAnswer r ∧
        ((cs.receiveMessage cfg env).2.rxEnd = false →
          ∀ env, r = .ok env → env.flag ≠ flagEnvelopeEndStream) := by
  unfold ClientStream.receiveMessage
  split
  · exact Or.inl ⟨rfl, rfl⟩
  · split
    · exact Or.inl ⟨rfl, rfl⟩
    · simp only
      split
      · rename_i err hdecode
        exact Or.inl ⟨rfl, decodePayload_isEOF hdecode⟩
      · split
        · exact Or.inl ⟨rfl, rfl⟩
        · split
          · obtain ⟨r, hsame, hreads, herr, hend⟩ := readUnaryEndStream_spec cfg cs
            rcases h : cs.readUnaryEndStream cfg with ⟨err, cs'⟩
            rw [h] at hsame hreads herr hend
            cases err with
            | some err => exact Or.inr ⟨r, hsame, hreads, herr, hend⟩
            | none => exact Or.inr ⟨r, hsame, hreads, herr, hend⟩
          · exact Or.inl ⟨rfl, rfl⟩

/-- `cs₁` is the stream right after the envelope has been read. -/
theorem receiveEnvelope_cases {cs₁ : ClientStream κ} {env : Envelope} (hrxEnd : cs.rxEnd = false)
    (hsame : SameRequest cs cs₁)
    (hreads : cs₁.session.reads = cs.session.reads ++ [(.message, .ok env)])
    (hrxEnd₁ : cs₁.rxEnd = false) :
    Next cfg cs (cs₁.receiveEnvelope cfg env).1 (cs₁.receiveEnvelope cfg env).2 := by
  have hother : env.flag ≠ flagEnvelopeEndStream → ∀ result : Received μ, result.isEOF = false →
      Next cfg cs result cs₁ := by
    intro hflag result hresult
    refine .other _ (.ok env) _ hrxEnd hsame hreads hrxEnd₁ hresult fun env' henv => ?_
    obtain rfl : env = env' := Except.ok.inj henv
    exact hflag
  unfold ClientStream.receiveEnvelope
  split
  · rename_i hheaders
    refine hother ?_ _ rfl
    rw [hheaders]
    decide
  · split
    · rename_i hend
      obtain ⟨hsame', hsession, hrxEnd', herr⟩ :=
        endStream_spec cfg cs₁ env.payload
      rcases h : cs₁.endStream cfg env.payload with ⟨err, cs'⟩
      rw [h] at hsame' hsession hrxEnd' herr
      have hboth : SameRequest cs cs' :=
        ⟨hsame'.sendHeadersOnce.trans hsame.sendHeadersOnce,
          hsame'.recvHeadersOnce.trans hsame.recvHeadersOnce, hsame'.writes.trans hsame.writes⟩
      have hreads' : cs'.session.reads = cs.session.reads ++ [(.message, .ok env)] := by
        rw [← hreads]
        exact congrArg Session.reads hsession
      cases err with
      | some err =>
          refine .endStream _ env _ hrxEnd hboth hreads' hrxEnd' hend fun heof => ?_
          rw [show (Received.error err : Received μ).isEOF = false from herr] at heof
          cases heof
      | none => exact .endStream _ env _ hrxEnd hboth hreads' hrxEnd' hend fun _ => herr
    · rename_i hend
      split
      · exact hother hend _ rfl
      · rcases receiveMessage_spec cfg cs₁ env with
          ⟨hsame', hresult⟩ | ⟨r, hsame', hreads', hresult, hend'⟩
        · rw [hsame']
          exact hother hend _ hresult
        · refine .unary _ env r _ hrxEnd ?_ ?_ hend hresult hend'
          · exact ⟨hsame'.sendHeadersOnce.trans hsame.sendHeadersOnce,
              hsame'.recvHeadersOnce.trans hsame.recvHeadersOnce, hsame'.writes.trans hsame.writes⟩
          · rw [hreads', hreads, List.append_assoc]
            rfl

theorem receiveNext_cases (cfg : ClientConfig κ μ) (cs : ClientStream κ) :
    Next cfg cs (cs.receiveNext cfg).1 (cs.receiveNext cfg).2 := by
  unfold ClientStream.receiveNext
  cases hrxEnd : cs.rxEnd with
  | true => exact .ended hrxEnd
  | false =>
      unfold ClientStream.readEnvelope Session.readEnvelope
      cases h : cfg.conn.readEnvelope cs.session.conn with
      | mk result conn =>
          cases result with
          | error err =>
              simp only [Bool.false_eq_true, if_false]
              split
              · exact .other _ (.error err) _ hrxEnd ⟨rfl, rfl, rfl⟩ rfl hrxEnd rfl
                  fun _ h => by cases h
              · rename_i heof
                exact .other _ (.error err) _ hrxEnd ⟨rfl, rfl, rfl⟩ rfl hrxEnd
                  (Bool.eq_false_of_not_eq_true heof) fun _ h => by cases h
          | ok env =>
              simp only [Bool.false_eq_true, if_false]
              exact receiveEnvelope_cases hrxEnd ⟨rfl, rfl, rfl⟩ rfl hrxEnd

/-- `sendHeaders` writes at most once, and remembers the answer. -/
theorem sendHeaders_cases (cfg : ClientConfig κ μ) (cs : ClientStream κ) :
    (cs.sendHeadersOnce = some (cs.sendHeaders cfg).1 ∧ (cs.sendHeaders cfg).2 = cs) ∨
      ∃ (env : Envelope) (conn : κ), cs.sendHeadersOnce = none ∧ env.flag = flagEnvelopeHeaders ∧
        (cs.sendHeaders cfg).2 = { cs with
          session := { cs.session with
            conn, writes := cs.session.writes ++ [(env, (cs.sendHeaders cfg).1)] }
          sendHeadersOnce := some (cs.sendHeaders cfg).1 } := by
  unfold ClientStream.sendHeaders
  cases h : cs.sendHeadersOnce with
  | some err => exact Or.inl ⟨rfl, rfl⟩
  | none => exact Or.inr ⟨⟨flagEnvelopeHeaders, _⟩, _, rfl, rfl, rfl⟩

theorem readHeaders_spec (cfg : ClientConfig κ μ) (cs : ClientStream κ) :
    ∃ r, (cs.readHeaders cfg).2.session.reads = cs.session.reads ++ [(.headers, r)] ∧
      (cs.readHeaders cfg).2.session.writes = cs.session.writes ∧
      (cs.readHeaders cfg).2.sendHeadersOnce = cs.sendHeadersOnce ∧
      (cs.readHeaders cfg).2.rxEnd = cs.rxEnd ∧
      (cs.readHeaders cfg).1.any GoError.isEOF = isEOFAnswer r ∧
      ((cs.readHeaders cfg).1 = none → ∃ env, r = .ok env ∧ env.flag = flagEnvelopeHeaders) := by
  unfold ClientStream.readHeaders ClientStream.readEnvelope Session.readEnvelope
  cases h : cfg.conn.readEnvelope cs.session.conn with
  | mk result conn =>
      refine ⟨result, ?_⟩
      cases result with
      | error err => exact ⟨rfl, rfl, rfl, rfl, rfl, fun h => by cases h⟩
      | ok env =>
          simp only
          by_cases hflag : env.flag ≠ flagEnvelopeHeaders
          · rw [if_pos hflag]
            exact ⟨rfl, rfl, rfl, rfl, rfl, fun h => by cases h⟩
          · rw [if_neg hflag]
            split
            · exact ⟨rfl, rfl, rfl, rfl, rfl, fun h => by cases h⟩
            · exact ⟨rfl, rfl, rfl, rfl, rfl, fun _ => ⟨env, rfl, not_not.mp hflag⟩⟩

-- ============================================================================
-- The invariant
-- ============================================================================

/-- What the flags of a stream say of the answers of the `Conn`. -/
structure Inv (cs : ClientStream κ) : Prop where
  unsent : cs.sendHeadersOnce ≠ some none → cs.recvHeadersOnce = none
  writes : ∀ w ∈ cs.session.writes, w.1.flag = flagEnvelopeHeaders → cs.sendHeadersOnce = some w.2
  logged : ∀ err, cs.sendHeadersOnce = some err →
    ∃ w ∈ cs.session.writes, w.1.flag = flagEnvelopeHeaders ∧ w.2 = err
  unread : cs.recvHeadersOnce = none → cs.session.reads = [] ∧ cs.rxEnd = false
  refused : ∀ err, cs.recvHeadersOnce = some (some err) → cs.rxEnd = false ∧
    ∃ r, cs.session.reads = [(.headers, r)] ∧ err.isEOF = isEOFAnswer r
  headers : cs.recvHeadersOnce = some none →
    ∀ r, (Awaits.headers, r) ∈ cs.session.reads → isEOFAnswer r = false
  unended : cs.recvHeadersOnce = some none → cs.rxEnd = false →
    ∀ awaits env, (awaits, Except.ok env) ∈ cs.session.reads → env.flag ≠ flagEnvelopeEndStream

theorem inv_init (conn : κ) (callInfo : Option CallInfo) :
    Inv { session := { conn }, callInfo } where
  unsent := fun _ => rfl
  writes := fun _ h => by cases h
  logged := fun _ h => by cases h
  unread := fun _ => ⟨rfl, rfl⟩
  refused := fun _ h => by cases h
  headers := fun h => by cases h
  unended := fun h => by cases h

/-- Only the `Conn` and the half of the stream that sends have changed. -/
theorem Inv.of_same (hcs : Inv cs) {cs' : ClientStream κ} (hsame : SameRequest cs cs')
    (hreads : cs'.session.reads = cs.session.reads) (hrxEnd : cs'.rxEnd = cs.rxEnd) : Inv cs' := by
  obtain ⟨hsend, hrecv, hwrites⟩ := hsame
  refine ⟨?_, ?_, ?_, ?_, ?_, ?_, ?_⟩
  · rw [hsend, hrecv]
    exact hcs.unsent
  · rw [hsend, hwrites]
    exact hcs.writes
  · rw [hsend, hwrites]
    exact hcs.logged
  · rw [hrecv, hreads, hrxEnd]
    exact hcs.unread
  · rw [hrecv, hreads, hrxEnd]
    exact hcs.refused
  · rw [hrecv, hreads]
    exact hcs.headers
  · rw [hrecv, hreads, hrxEnd]
    exact hcs.unended

theorem Inv.sendHeaders (hcs : Inv cs) : Inv (cs.sendHeaders cfg).2 := by
  rcases sendHeaders_cases cfg cs with ⟨-, hsame⟩ | ⟨env, conn, hnone, hflag, hnew⟩
  · rw [hsame]
    exact hcs
  · have hrecv : cs.recvHeadersOnce = none := hcs.unsent (by simp [hnone])
    rw [hnew]
    refine ⟨fun _ => hrecv, fun w hw hheaders => ?_, fun err herr => ?_, fun _ => hcs.unread hrecv,
      fun err herr => ?_, fun hnone' => ?_, fun hnone' => ?_⟩
    · rcases List.mem_append.mp hw with hold | hlast
      · have hsent := hcs.writes w hold hheaders
        rw [hnone] at hsent
        cases hsent
      · obtain rfl : w = (env, (cs.sendHeaders cfg).1) := by simpa using hlast
        rfl
    · obtain rfl : (cs.sendHeaders cfg).1 = err := Option.some.inj herr
      exact ⟨_, List.mem_append_right _ (List.mem_singleton_self _), hflag, rfl⟩
    · rw [show cs.recvHeadersOnce = some (some err) from herr] at hrecv
      cases hrecv
    · rw [show cs.recvHeadersOnce = some none from hnone'] at hrecv
      cases hrecv
    · rw [show cs.recvHeadersOnce = some none from hnone'] at hrecv
      cases hrecv

/-- After `sendHeaders`, what it returned is remembered, and nothing has been
    read. -/
theorem sendHeaders_frame (cfg : ClientConfig κ μ) (cs : ClientStream κ) :
    (cs.sendHeaders cfg).2.sendHeadersOnce = some (cs.sendHeaders cfg).1 ∧
      (cs.sendHeaders cfg).2.recvHeadersOnce = cs.recvHeadersOnce ∧
      (cs.sendHeaders cfg).2.session.reads = cs.session.reads ∧
      (cs.sendHeaders cfg).2.rxEnd = cs.rxEnd := by
  rcases sendHeaders_cases cfg cs with ⟨hold, hsame⟩ | ⟨env, conn, -, -, hnew⟩
  · rw [hsame]
    exact ⟨hold, rfl, rfl, rfl⟩
  · rw [hnew]
    exact ⟨rfl, rfl, rfl, rfl⟩

/-- `recvHeaders` reads at most once, and remembers what came of it. -/
theorem recvHeaders_cases (cfg : ClientConfig κ μ) (cs : ClientStream κ) :
    (cs.recvHeadersOnce = some (cs.recvHeaders cfg).1 ∧ (cs.recvHeaders cfg).2 = cs) ∨
      cs.recvHeadersOnce = none ∧ (cs.recvHeaders cfg).1 = (cs.readHeaders cfg).1 ∧
        (cs.recvHeaders cfg).2 =
          { (cs.readHeaders cfg).2 with recvHeadersOnce := some (cs.readHeaders cfg).1 } := by
  unfold ClientStream.recvHeaders
  cases h : cs.recvHeadersOnce with
  | some err => exact Or.inl ⟨rfl, rfl⟩
  | none => exact Or.inr ⟨rfl, rfl, rfl⟩

theorem Inv.recvHeaders (hcs : Inv cs) (hsent : cs.sendHeadersOnce = some none) :
    Inv (cs.recvHeaders cfg).2 := by
  rcases recvHeaders_cases cfg cs with ⟨-, hsame⟩ | ⟨hnone, -, hnew⟩
  · rw [hsame]
    exact hcs
  · obtain ⟨r, hreads, hwrites, hsend, hrxEnd, heof, hok⟩ := readHeaders_spec cfg cs
    obtain ⟨hnil, hfalse⟩ := hcs.unread hnone
    rw [hnil, List.nil_append] at hreads
    rw [hnew]
    refine ⟨fun h => ?_, ?_, ?_, fun h => ?_, fun err herr => ?_, fun h r' hr' => ?_,
      fun h _ awaits env henv => ?_⟩
    · rw [hsend] at h
      exact absurd hsent h
    · rw [hsend, hwrites]
      exact hcs.writes
    · rw [hsend, hwrites]
      exact hcs.logged
    · cases h
    · have herr : (cs.readHeaders cfg).1 = some err := Option.some.inj herr
      rw [herr] at heof
      exact ⟨hrxEnd.trans hfalse, r, hreads, heof⟩
    · have h : (cs.readHeaders cfg).1 = none := Option.some.inj h
      obtain ⟨env, rfl, -⟩ := hok h
      have hr' : (Awaits.headers, r') ∈ [(Awaits.headers, Except.ok env)] := hreads ▸ hr'
      obtain rfl : r' = .ok env := by simpa using hr'
      rfl
    · have h : (cs.readHeaders cfg).1 = none := Option.some.inj h
      obtain ⟨env', rfl, hflag⟩ := hok h
      have henv : (awaits, Except.ok env) ∈ [(Awaits.headers, Except.ok env')] := hreads ▸ henv
      obtain ⟨-, rfl⟩ : awaits = .headers ∧ env = env' := by simpa using henv
      rw [hflag]
      decide

theorem recvHeaders_frame (cfg : ClientConfig κ μ) (cs : ClientStream κ) :
    (cs.recvHeaders cfg).2.recvHeadersOnce = some (cs.recvHeaders cfg).1 ∧
      (cs.recvHeaders cfg).2.sendHeadersOnce = cs.sendHeadersOnce ∧
      (cs.recvHeaders cfg).2.rxEnd = cs.rxEnd ∧
      ∃ news : List (Awaits × Except GoError Envelope),
        (cs.recvHeaders cfg).2.session.reads = cs.session.reads ++ news ∧
          (∀ a ∈ news, a.1 = .headers) ∧ (cs.recvHeadersOnce ≠ none → news = []) := by
  rcases recvHeaders_cases cfg cs with ⟨hold, hsame⟩ | ⟨hnone, hfst, hnew⟩
  · rw [hsame]
    exact ⟨hold, rfl, rfl, [], by simp, by simp, fun _ => rfl⟩
  · obtain ⟨r, hreads, hwrites, hsend, hrxEnd, -, -⟩ := readHeaders_spec cfg cs
    rw [hnew, hfst]
    exact ⟨rfl, hsend, hrxEnd, [(.headers, r)], hreads, by simp, fun h => absurd hnone h⟩

theorem Inv.next (hcs : Inv cs) (hsent : cs.sendHeadersOnce = some none)
    (hrecv : cs.recvHeadersOnce = some none) {result : Received μ} {cs' : ClientStream κ}
    (h : Next cfg cs result cs') : Inv cs' := by
  -- what is read is neither headers nor, if the stream stays open, an end-stream
  have hmore : ∀ news : List (Awaits × Except GoError Envelope), SameRequest cs cs' →
      cs'.session.reads = cs.session.reads ++ news → cs.rxEnd = false →
      (∀ a ∈ news, a.1 ≠ .headers) →
      (cs'.rxEnd = false → ∀ awaits env, (awaits, Except.ok env) ∈ news →
        env.flag ≠ flagEnvelopeEndStream) → Inv cs' := by
    intro news hsame hreads hopen htags hflags
    have hrecv' : cs'.recvHeadersOnce = some none := hsame.recvHeadersOnce.trans hrecv
    refine ⟨fun h => ?_, ?_, ?_, fun h => ?_, fun err h => ?_, fun _ r hr => ?_,
      fun _ hopen' awaits env henv => ?_⟩
    · rw [hsame.sendHeadersOnce] at h
      exact absurd hsent h
    · rw [hsame.sendHeadersOnce, hsame.writes]
      exact hcs.writes
    · rw [hsame.sendHeadersOnce, hsame.writes]
      exact hcs.logged
    · rw [hrecv'] at h
      cases h
    · rw [hrecv'] at h
      cases h
    · rw [hreads] at hr
      rcases List.mem_append.mp hr with hold | hnew
      · exact hcs.headers hrecv r hold
      · exact absurd rfl (htags _ hnew)
    · rw [hreads] at henv
      rcases List.mem_append.mp henv with hold | hnew
      · exact hcs.unended hrecv hopen awaits env hold
      · exact hflags hopen' awaits env hnew
  cases h with
  | ended => exact hcs
  | other _ r _ hopen hsame hreads hopen' _ hflag =>
      refine hmore _ hsame hreads hopen (by simp) fun _ awaits env henv => ?_
      obtain ⟨-, hr⟩ : awaits = .message ∧ Except.ok env = r := by simpa using henv
      exact hflag env hr.symm
  | endStream _ env _ hopen hsame hreads hend _ _ =>
      refine hmore _ hsame hreads hopen (by simp) fun hopen' => ?_
      rw [hend] at hopen'
      cases hopen'
  | unary _ env r _ hopen hsame hreads hflag _ hend =>
      refine hmore _ hsame hreads hopen (by simp) fun hopen' awaits env' henv' => ?_
      rcases List.mem_cons.mp henv' with hfirst | hsecond
      · obtain ⟨-, rfl⟩ : awaits = .message ∧ env' = env := by simpa using hfirst
        exact hflag
      · obtain ⟨-, hr⟩ : awaits = .endStream ∧ Except.ok env' = r := by simpa using hsecond
        exact hend hopen' env' hr.symm

theorem Inv.receive (hcs : Inv cs) : Inv (cs.receive cfg).2 := by
  have hafter : Inv (cs.sendHeaders cfg).2 := hcs.sendHeaders
  have hsent := (sendHeaders_frame cfg cs).1
  unfold ClientStream.receive
  rcases h : cs.sendHeaders cfg with ⟨err, cs₁⟩
  rw [h] at hafter hsent
  cases err with
  | some err => exact hafter
  | none =>
      have hafter₂ : Inv (cs₁.recvHeaders cfg).2 := hafter.recvHeaders hsent
      obtain ⟨hrecv, hsent₂, -⟩ := recvHeaders_frame cfg cs₁
      simp only
      rcases h₂ : cs₁.recvHeaders cfg with ⟨err, cs₂⟩
      rw [h₂] at hafter₂ hrecv hsent₂
      cases err with
      | some err => exact hafter₂
      | none => exact hafter₂.next (hsent₂.trans hsent) hrecv (receiveNext_cases cfg _)

theorem Inv.send (hcs : Inv cs) (msg : μ) : Inv (cs.send cfg msg).2 := by
  have hafter : Inv (cs.sendHeaders cfg).2 := hcs.sendHeaders
  unfold ClientStream.send
  rcases h : cs.sendHeaders cfg with ⟨err, cs₁⟩
  rw [h] at hafter
  cases err with
  | some err => exact hafter
  | none =>
      simp only
      split
      · exact hafter
      · rename_i env henv
        -- a message is not a headers envelope
        have hflag : env.flag ≠ flagEnvelopeHeaders := by
          intro hheaders
          have hmessage := encode_isMessage henv
          rw [Envelope.isMessage, hheaders] at hmessage
          cases hmessage
        refine ⟨hafter.unsent, fun w hw hheaders => ?_, fun err herr => ?_, hafter.unread,
          hafter.refused, hafter.headers, hafter.unended⟩
        · rcases List.mem_append.mp hw with hold | hlast
          · exact hafter.writes w hold hheaders
          · obtain rfl : w = (env, (cfg.conn.writeEnvelope cs₁.session.conn env).1) := by
              simpa using hlast
            exact absurd hheaders hflag
        · obtain ⟨w, hw, hheaders⟩ := hafter.logged err herr
          exact ⟨w, List.mem_append_left _ hw, hheaders⟩

theorem Inv.closeSend (hcs : Inv cs) : Inv (cs.closeSend cfg).2 := by
  unfold ClientStream.closeSend
  split
  · exact hcs
  · exact hcs.of_same ⟨rfl, rfl, rfl⟩ rfl rfl

theorem Inv.close (hcs : Inv cs) : Inv (cs.close cfg).2 :=
  hcs.closeSend.of_same ⟨rfl, rfl, rfl⟩ rfl rfl

theorem Inv.step (hcs : Inv cs) (op : ClientOp μ) : Inv (cs.step cfg op) := by
  cases op with
  | sendHeaders => exact hcs.sendHeaders
  | send msg => exact hcs.send msg
  | closeSend => exact hcs.closeSend
  | receive => exact hcs.receive
  | close => exact hcs.close

-- ============================================================================
-- One Receive
-- ============================================================================

/-- The call ends with the request headers: the only read there can be is
    none at all. -/
theorem eof_iff_of_unsent {err : GoError} {cs₁ : ClientStream κ} (hcs₁ : Inv cs₁)
    (hsend : cs.sendHeaders cfg = (some err, cs₁)) :
    cs.EOFOnlyAtCleanEnd cfg ↔ cs.EndDiscernible cfg := by
  have hreceive : cs.receive cfg = (.error err, cs₁) := by
    unfold ClientStream.receive
    rw [hsend]
  obtain ⟨hsent, hrecv, hreads, hrxEnd⟩ := sendHeaders_frame cfg cs
  rw [hsend] at hsent hrecv hreads hrxEnd
  obtain ⟨hnil, hopen⟩ := hcs₁.unread (hcs₁.unsent (by rw [hsent]; simp))
  have hunclean : ¬ cs₁.CleanEnd cfg := by
    rintro ⟨awaits, env, trailers, hmem, -⟩
    rw [hnil] at hmem
    cases hmem
  have hlogged : (∀ w ∈ cs₁.session.writes, w.1.flag = flagEnvelopeHeaders →
      w.2.any GoError.isEOF = false) ↔ err.isEOF = false := by
    constructor
    · intro h
      obtain ⟨w, hw, hheaders, hwerr⟩ := hcs₁.logged _ hsent
      have hfalse := h w hw hheaders
      rw [hwerr] at hfalse
      exact hfalse
    · intro h w hw hheaders
      have hwerr : some err = w.2 := Option.some.inj (hsent.symm.trans (hcs₁.writes w hw hheaders))
      rw [← hwerr]
      exact h
  unfold EOFOnlyAtCleanEnd
  constructor
  · intro honly
    refine ⟨?_, fun r hr => ?_, fun r hr => ?_, fun hend => ?_⟩
    · rw [hreceive, hlogged]
      rw [hreceive] at honly
      exact Bool.eq_false_of_not_eq_true fun heof => hunclean (honly heof)
    · rw [hreceive, hnil] at hr
      cases hr
    · rw [hreceive, hnil, List.drop_nil] at hr
      cases hr
    · rw [← hrxEnd, hopen] at hend
      cases hend
  · intro hclear heof
    have hfalse := hclear.request
    rw [hreceive] at hfalse heof
    rw [show (Received.error err : Received μ).isEOF = false from hlogged.mp hfalse] at heof
    cases heof

/-- The call ends with the response headers. -/
theorem eof_iff_of_unread {err : GoError} {cs₁ cs₂ : ClientStream κ} (hcs₂ : Inv cs₂)
    (hsend : cs.sendHeaders cfg = (none, cs₁)) (hrecv : cs₁.recvHeaders cfg = (some err, cs₂)) :
    cs.EOFOnlyAtCleanEnd cfg ↔ cs.EndDiscernible cfg := by
  have hreceive : cs.receive cfg = (.error err, cs₂) := by
    unfold ClientStream.receive
    rw [hsend]
    simp only
    rw [hrecv]
  obtain ⟨hsent, -, -, hrxEnd⟩ := sendHeaders_frame cfg cs
  obtain ⟨hread, hsent₂, hrxEnd₂, -⟩ := recvHeaders_frame cfg cs₁
  rw [hsend] at hsent hrxEnd
  rw [hrecv] at hread hsent₂ hrxEnd₂
  obtain ⟨hopen, r, hreads, heof⟩ := hcs₂.refused err hread
  -- a failed read is the only one, so no end-stream was
  have hunclean : err.isEOF = true → ¬ cs₂.CleanEnd cfg := by
    rintro h ⟨awaits, env, trailers, hmem, -⟩
    rw [hreads] at hmem
    obtain ⟨-, rfl⟩ : awaits = .headers ∧ Except.ok env = r := by simpa using hmem
    rw [heof] at h
    cases h
  unfold EOFOnlyAtCleanEnd
  constructor
  · intro honly
    rw [hreceive] at honly
    have hfalse : err.isEOF = false :=
      Bool.eq_false_of_not_eq_true fun h => hunclean h (honly h)
    refine ⟨fun w hw hheaders => ?_, fun r' hr => ?_, fun r' hr => ?_, fun hend => ?_⟩
    · rw [hreceive] at hw
      have hsome := hcs₂.writes w hw hheaders
      rw [hsent₂, hsent] at hsome
      rw [← Option.some.inj hsome]
      rfl
    · rw [hreceive, hreads] at hr
      obtain rfl : r' = r := by simpa using hr
      rw [← heof]
      exact hfalse
    · rw [hreceive, hreads] at hr
      have hmem := List.mem_of_mem_drop hr
      simp at hmem
    · rw [← hrxEnd, ← hrxEnd₂, hopen] at hend
      cases hend
  · intro hclear h
    have hfalse := hclear.response r (by rw [hreceive, hreads]; exact List.mem_singleton_self _)
    rw [hreceive] at h
    rw [← heof, show err.isEOF = true from h] at hfalse
    cases hfalse

/-- The call goes on to the messages. -/
theorem eof_iff_of_read {cs₁ cs₂ : ClientStream κ} (hcs₁ : Inv cs₁) (hcs₂ : Inv cs₂)
    (hsend : cs.sendHeaders cfg = (none, cs₁)) (hrecv : cs₁.recvHeaders cfg = (none, cs₂)) :
    cs.EOFOnlyAtCleanEnd cfg ↔ cs.EndDiscernible cfg := by
  have hreceive : cs.receive cfg = cs₂.receiveNext cfg := by
    unfold ClientStream.receive
    rw [hsend]
    simp only
    rw [hrecv]
  obtain ⟨hsent, -, hreads₁, hrxEnd₁⟩ := sendHeaders_frame cfg cs
  obtain ⟨hread, hsent₂, hrxEnd₂, news, hreads₂, htags, hnone⟩ := recvHeaders_frame cfg cs₁
  rw [hsend] at hsent hreads₁ hrxEnd₁
  rw [hrecv] at hread hsent₂ hrxEnd₂ hreads₂
  have hrxEnd : cs₂.rxEnd = cs.rxEnd := hrxEnd₂.trans hrxEnd₁
  have hreads : cs₂.session.reads = cs.session.reads ++ news := hreads₂.trans (by rw [hreads₁])
  have hnext := receiveNext_cases cfg cs₂
  -- what is left of the condition, given what the rest of the call reads
  have hclear : ∀ more, (cs₂.receiveNext cfg).2.session.reads = cs₂.session.reads ++ more →
      SameRequest cs₂ (cs₂.receiveNext cfg).2 → (∀ a ∈ more, a.1 ≠ .headers) →
      (∀ r, (Awaits.endStream, r) ∈ more → isEOFAnswer r = false) →
      (cs.rxEnd = true → cs.CleanEnd cfg) → cs.EndDiscernible cfg := by
    intro more hmore hsame htags' htrailer hended
    refine ⟨fun w hw hheaders => ?_, fun r hr => ?_, fun r hr => ?_, hended⟩
    · rw [hreceive, hsame.writes] at hw
      have hsome := hcs₂.writes w hw hheaders
      rw [hsent₂, hsent] at hsome
      rw [← Option.some.inj hsome]
      rfl
    · rw [hreceive, hmore] at hr
      rcases List.mem_append.mp hr with hold | hnew
      · exact hcs₂.headers hread r hold
      · exact absurd rfl (htags' _ hnew)
    · rw [hreceive, hmore, hreads, List.append_assoc, List.drop_left] at hr
      rcases List.mem_append.mp hr with hheaders | hnew
      · cases htags _ hheaders
      · exact htrailer r hnew
  have hopened : cs₂.rxEnd = false → cs.rxEnd = true → cs.CleanEnd cfg := by
    intro hopen hend
    rw [← hrxEnd, hopen] at hend
    cases hend
  unfold EOFOnlyAtCleanEnd
  rw [hreceive]
  rcases h : cs₂.receiveNext cfg with ⟨result, cs'⟩
  rw [h] at hnext hclear
  simp only at hnext hclear ⊢
  cases hnext with
  | ended hend =>
      -- nothing has been read in this call
      have hbefore : news = [] := hnone fun hunread => by
        have hopen := (hcs₁.unread hunread).2
        rw [← hrxEnd₂, hend] at hopen
        cases hopen
      have hclean : cs₂.CleanEnd cfg ↔ cs.CleanEnd cfg := by
        unfold CleanEnd
        rw [hreads, hbefore, List.append_nil]
      constructor
      · intro honly
        refine hclear [] (by simp) ⟨rfl, rfl, rfl⟩ (by simp) (by simp) fun _ => ?_
        exact hclean.mp (honly rfl)
      · intro hdisc _
        exact hclean.mpr (hdisc.ended (hrxEnd ▸ hend))
  | other _ r _ hopen hsame hmore _ hresult _ =>
      constructor
      · intro _
        exact hclear _ hmore hsame (by simp) (by simp) (hopened hopen)
      · intro _ heof
        rw [hresult] at heof
        cases heof
  | endStream _ env _ hopen hsame hmore _ hflag hclean =>
      constructor
      · intro _
        exact hclear _ hmore hsame (by simp) (by simp) (hopened hopen)
      · intro _ heof
        obtain ⟨trailers, hparse⟩ := hclean heof
        refine ⟨.message, env, trailers, ?_, hflag, hparse⟩
        rw [hmore]
        exact List.mem_append_right _ (List.mem_singleton_self _)
  | unary _ env r _ hopen hsame hmore hflag heof hend =>
      -- if the second read fails, no end-stream has been read at all
      have hunclean : isEOFAnswer r = true → ¬ cs'.CleanEnd cfg := by
        rintro hr ⟨awaits, env', trailers, hmem, hflag', -⟩
        rw [hmore] at hmem
        rcases List.mem_append.mp hmem with hold | hnew
        · exact hcs₂.unended hread hopen awaits env' hold hflag'
        · rcases List.mem_cons.mp hnew with hfirst | hsecond
          · obtain ⟨-, rfl⟩ : awaits = .message ∧ env' = env := by simpa using hfirst
            exact hflag hflag'
          · obtain ⟨-, rfl⟩ : awaits = .endStream ∧ Except.ok env' = r := by simpa using hsecond
            cases hr
      constructor
      · intro honly
        refine hclear _ hmore hsame (by simp) (fun r' hr' => ?_) (hopened hopen)
        obtain rfl : r' = r := by simpa using hr'
        exact Bool.eq_false_of_not_eq_true fun hr =>
          hunclean hr (honly (heof.trans hr))
      · intro hdisc hresult
        have hfalse := hdisc.trailer r (by
          rw [hreceive, h]
          simp only
          rw [hmore, hreads, List.append_assoc, List.drop_left]
          simp)
        rw [← heof, hresult] at hfalse
        cases hfalse

/-- One `Receive`, in any state that calls lead to. -/
theorem Inv.eof_iff (hcs : Inv cs) : cs.EOFOnlyAtCleanEnd cfg ↔ cs.EndDiscernible cfg := by
  have hcs₁ : Inv (cs.sendHeaders cfg).2 := hcs.sendHeaders
  have hsent := (sendHeaders_frame cfg cs).1
  rcases hsend : cs.sendHeaders cfg with ⟨err, cs₁⟩
  rw [hsend] at hcs₁ hsent
  cases err with
  | some err => exact eof_iff_of_unsent hcs₁ hsend
  | none =>
      have hcs₂ : Inv (cs₁.recvHeaders cfg).2 := hcs₁.recvHeaders hsent
      rcases hrecv : cs₁.recvHeaders cfg with ⟨err, cs₂⟩
      rw [hrecv] at hcs₂
      cases err with
      | some err => exact eof_iff_of_unread hcs₂ hsend hrecv
      | none => exact eof_iff_of_read hcs₁ hcs₂ hsend hrecv

/-- What a step of a run is asked for: of `Receive` only, and `P` of the
    state it is called in. -/
def OnReceive (P : ClientStream κ → Prop) (cs : ClientStream κ) : ClientOp μ → Prop
  | .receive => P cs
  | .sendHeaders | .send _ | .closeSend | .close => True

/-- For every `Conn`, and every sequence of calls: `Receive` never takes
    another end for that of the response if and only if the answers of the
    `Conn` let it tell them apart whenever it is called. -/
theorem eof_only_after_end_stream_iff (cfg : ClientConfig κ μ) (conn : κ)
    (callInfo : Option CallInfo) (ops : List (ClientOp μ)) :
    let calls := clientMachine cfg conn callInfo
    calls.Meets (OnReceive (EOFOnlyAtCleanEnd cfg)) calls.init ops ↔
      calls.Meets (OnReceive (EndDiscernible cfg)) calls.init ops := by
  refine Machine.meets_iff_of_invariant (I := Inv) _ ?_ ?_ (inv_init conn callInfo) ops
  · intro cs op cs' hcs _ hstep
    obtain rfl : cs.step cfg op = cs' := Option.some.inj hstep
    exact hcs.step op
  · intro cs op hcs
    cases op with
    | receive => exact hcs.eof_iff
    | sendHeaders => exact Iff.rfl
    | send msg => exact Iff.rfl
    | closeSend => exact Iff.rfl
    | close => exact Iff.rfl

/-- The server closes the connection normally before it sends anything. -/
def closedEarly : Conn Unit where
  readEnvelope := fun _ => (.error .eof, ())
  writeEnvelope := fun _ _ => (none, ())
  closeSend := fun _ => (none, ())
  close := fun _ => (none, ())

theorem eof_before_response_headers :
    let calls := clientMachine (bytesCall closedEarly) () (some {})
    ¬ calls.Meets (OnReceive (EOFOnlyAtCleanEnd (bytesCall closedEarly))) calls.init
      [.receive] := by
  intro calls h
  obtain ⟨awaits, env, -, hmem, -⟩ := h.1 rfl
  have hreads : (calls.init.receive (bytesCall closedEarly)).2.session.reads =
      [(.headers, .error .eof)] := rfl
  rw [hreads] at hmem
  simp at hmem

end ClientStream
end BidiProtocol
end BidiWeb
