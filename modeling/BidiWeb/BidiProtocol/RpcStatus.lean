/-
  BidiWeb.BidiProtocol.RpcStatus

  The status of an RPC from the handler to the caller: what the handler has
  returned and the trailers it has set go into the end-stream envelope, and
  the `Receive` that reads this envelope tells the caller of both.
-/

import BidiWeb.BidiProtocol.ResponseEnd
import BidiWeb.BidiProtocol.Server
import BidiWeb.BidiProtocol.CallHeaders
import BidiWeb.ConnectProtocol.StatusRoundTrip

namespace BidiWeb
namespace BidiProtocol

open BidiWeb.ConnectProtocol
open BidiWeb.Lib
open BidiWeb.Core (Code)

-- ============================================================================
-- The server
-- ============================================================================

section Server

variable {κ μ : Type} (srv : ServerConfig κ μ) (headers : Header) (codec : Codec μ)
  (session : Session κ)

/-- The result of the handler, and the stream that it leaves. -/
def handled : Option GoError × ServerStream κ :=
  ServerStream.run srv codec { session, callInfo := requestInfo srv headers }
    (srv.call
      { procedure := procedureOf headers
        callInfo := requestInfo srv headers
        codec
        timeout := requestTimeout headers })

/-- The payload of the end-stream. -/
def endPayload : Bytes :=
  match marshalEndStream srv.lib ((handled srv headers codec session).1.map errorForWire)
      (handled srv headers codec session).2.callInfo.responseTrailer with
  | .ok payload => payload
  | .error _ => []

theorem ServerStream.sendHeaders_callInfo (ss : ServerStream κ) :
    (ss.sendHeaders srv codec).2.callInfo = ss.callInfo := by
  unfold ServerStream.sendHeaders
  cases ss.sendHeadersOnce with
  | some err => rfl
  | none => rfl

theorem ServerStream.send_callInfo (ss : ServerStream κ) (msg : μ) :
    (ss.send srv codec msg).2.callInfo = ss.callInfo := by
  have hheaders := ss.sendHeaders_callInfo srv codec
  unfold ServerStream.send
  rcases h : ss.sendHeaders srv codec with ⟨err, ss₁⟩
  rw [h] at hheaders
  cases err with
  | some err => exact hheaders
  | none =>
      simp only
      cases ss₁.encode srv codec msg with
      | error err => exact hheaders
      | ok env => exact hheaders

/-- After the handler, the headers if it has not sent any, and the end-stream. -/
theorem serveCall_eq :
    serveCall srv headers codec session =
      (((handled srv headers codec session).2.sendHeaders srv codec).2.session.writeEnvelope
        srv.conn
        ⟨flagEnvelopeEndStream, endPayload srv headers codec session⟩).2 := by
  have htrailer := ServerStream.sendHeaders_callInfo srv codec (handled srv headers codec session).2
  rw [endPayload, ← htrailer]
  rfl

/-- The end-stream is the last envelope of a call. -/
theorem serveCall_writes :
    (serveCall srv headers codec session).writes.getLast?.map (·.1) =
      some ⟨flagEnvelopeEndStream, endPayload srv headers codec session⟩ := by
  rw [serveCall_eq]
  show (List.getLast? (_ ++ [_])).map _ = _
  rw [List.getLast?_concat]
  rfl

/-- Whatever the handler sets, its keys are canonical. -/
theorem ServerStream.canonicalKeys_run (handler : Handler μ) {ss : ServerStream κ}
    (hss : CanonicalKeys ss.callInfo.responseTrailer) :
    CanonicalKeys (ServerStream.run srv codec ss handler).2.callInfo.responseTrailer := by
  induction handler generalizing ss with
  | ret err => exact hss
  | setResponseHeader key values next ih => exact ih hss
  | setResponseTrailer key values next ih => exact ih (hss.setAllValues [(key, values)])
  | sendHeaders next ih =>
      have hsent : CanonicalKeys (ss.sendHeaders srv codec).2.callInfo.responseTrailer := by
        rw [ss.sendHeaders_callInfo srv codec]
        exact hss
      exact ih _ hsent
  | send msg next ih =>
      have hsent : CanonicalKeys (ss.send srv codec msg).2.callInfo.responseTrailer := by
        rw [ss.send_callInfo srv codec msg]
        exact hss
      exact ih _ hsent
  | receive next ih => exact ih _ hss

theorem canonicalKeys_handled :
    CanonicalKeys (handled srv headers codec session).2.callInfo.responseTrailer := by
  apply ServerStream.canonicalKeys_run
  exact canonicalKeys_empty

end Server

-- ============================================================================
-- The client
-- ============================================================================

namespace ClientStream

variable {κ μ : Type} {cfg : ClientConfig κ μ} {cs : ClientStream κ}

/-- Until an end-stream is read there are no trailers. -/
def Undelivered (cs : ClientStream κ) : Prop :=
  cs.rxEnd = false → ∃ info, cs.callInfo = some info ∧ info.responseTrailer = ∅

theorem Undelivered.of_same (hcs : Undelivered cs) {cs' : ClientStream κ}
    (hrxEnd : cs'.rxEnd = cs.rxEnd) (hinfo : cs'.callInfo = cs.callInfo) : Undelivered cs' := by
  intro hopen
  rw [hinfo]
  exact hcs (hrxEnd.symm.trans hopen)

theorem Undelivered.sendHeaders (hcs : Undelivered cs) : Undelivered (cs.sendHeaders cfg).2 := by
  rcases sendHeaders_cases cfg cs with ⟨-, hsame⟩ | ⟨env, conn, -, -, hnew⟩
  · rw [hsame]
    exact hcs
  · rw [hnew]
    exact hcs.of_same rfl rfl

theorem Undelivered.setResponseHeader (hcs : Undelivered cs) (headers : Header) :
    Undelivered (cs.setResponseHeader cfg headers) := by
  intro hopen
  obtain ⟨info, hinfo, htrailer⟩ := hcs hopen
  unfold ClientStream.setResponseHeader
  rw [hinfo]
  exact ⟨_, rfl, htrailer⟩

theorem Undelivered.recvHeaders (hcs : Undelivered cs) : Undelivered (cs.recvHeaders cfg).2 := by
  have hread : Undelivered (cs.readHeaders cfg).2 := by
    unfold ClientStream.readHeaders
    have hafter : Undelivered (cs.readEnvelope cfg .headers).2 := hcs.of_same rfl rfl
    rcases h : cs.readEnvelope cfg .headers with ⟨r, cs₁⟩
    rw [h] at hafter
    cases r with
    | error err => exact hafter
    | ok env =>
        simp only
        split
        · exact hafter
        · split
          · exact hafter
          · exact hafter.setResponseHeader _
  rcases recvHeaders_cases cfg cs with ⟨-, hsame⟩ | ⟨-, -, hnew⟩
  · rw [hsame]
    exact hcs
  · rw [hnew]
    exact hread.of_same rfl rfl

/-- An end-stream has been read, or the call info is as it was. -/
def EndedOrSame (cs cs' : ClientStream κ) : Prop :=
  cs'.rxEnd = true ∨ cs'.rxEnd = cs.rxEnd ∧ cs'.callInfo = cs.callInfo

theorem Undelivered.of_endedOrSame (hcs : Undelivered cs) {cs' : ClientStream κ}
    (h : EndedOrSame cs cs') : Undelivered cs' := by
  rcases h with hend | ⟨hrxEnd, hinfo⟩
  · intro hopen
    rw [hend] at hopen
    cases hopen
  · exact hcs.of_same hrxEnd hinfo

theorem endStream_ended (cfg : ClientConfig κ μ) (cs cs' : ClientStream κ) (payload : Bytes) :
    EndedOrSame cs (cs'.endStream cfg payload).2 := Or.inl (endStream_spec cfg cs' payload).2.2.1

theorem readUnaryEndStream_endedOrSame (cfg : ClientConfig κ μ) (cs : ClientStream κ) :
    EndedOrSame cs (cs.readUnaryEndStream cfg).2 := by
  unfold ClientStream.readUnaryEndStream
  have hafter : EndedOrSame cs (cs.readEnvelope cfg .endStream).2 := Or.inr ⟨rfl, rfl⟩
  rcases h : cs.readEnvelope cfg .endStream with ⟨r, cs₁⟩
  rw [h] at hafter
  cases r with
  | error err => exact hafter
  | ok env =>
      simp only
      split
      · exact hafter
      · exact endStream_ended cfg cs cs₁ env.payload

theorem receiveMessage_endedOrSame (cfg : ClientConfig κ μ) (cs : ClientStream κ)
    (env : Envelope) : EndedOrSame cs (cs.receiveMessage cfg env).2 := by
  have hsame : EndedOrSame cs cs := Or.inr ⟨rfl, rfl⟩
  unfold ClientStream.receiveMessage
  split
  · exact hsame
  · split
    · exact hsame
    · simp only
      split
      · exact hsame
      · split
        · exact hsame
        · split
          · have hunary := readUnaryEndStream_endedOrSame cfg cs
            rcases h : cs.readUnaryEndStream cfg with ⟨err, cs'⟩
            rw [h] at hunary
            cases err with
            | some err => exact hunary
            | none => exact hunary
          · exact hsame

/-- What is read where a message is due. -/
theorem receiveEnvelope_endedOrSame (cfg : ClientConfig κ μ) (cs : ClientStream κ)
    (env : Envelope) : EndedOrSame cs (cs.receiveEnvelope cfg env).2 := by
  have hsame : EndedOrSame cs cs := Or.inr ⟨rfl, rfl⟩
  unfold ClientStream.receiveEnvelope
  split
  · exact hsame
  · split
    · have hend := endStream_ended cfg cs cs env.payload
      rcases h : cs.endStream cfg env.payload with ⟨err, cs'⟩
      rw [h] at hend
      cases err with
      | some err => exact hend
      | none => exact hend
    · split
      · exact hsame
      · exact receiveMessage_endedOrSame cfg cs env

theorem receiveNext_endedOrSame (cfg : ClientConfig κ μ) (cs : ClientStream κ) :
    EndedOrSame cs (cs.receiveNext cfg).2 := by
  unfold ClientStream.receiveNext
  split
  · exact Or.inr ⟨rfl, rfl⟩
  · have hafter : (cs.readEnvelope cfg .message).2.rxEnd = cs.rxEnd ∧
        (cs.readEnvelope cfg .message).2.callInfo = cs.callInfo := ⟨rfl, rfl⟩
    rcases h : cs.readEnvelope cfg .message with ⟨r, cs₁⟩
    rw [h] at hafter
    cases r with
    | error err =>
        simp only
        split
        · exact Or.inr hafter
        · exact Or.inr hafter
    | ok env =>
        rcases receiveEnvelope_endedOrSame cfg cs₁ env with hend | ⟨hrxEnd, hinfo⟩
        · exact Or.inl hend
        · exact Or.inr ⟨hrxEnd.trans hafter.1, hinfo.trans hafter.2⟩

theorem Undelivered.receive (hcs : Undelivered cs) : Undelivered (cs.receive cfg).2 := by
  have hafter : Undelivered (cs.sendHeaders cfg).2 := hcs.sendHeaders
  unfold ClientStream.receive
  rcases h : cs.sendHeaders cfg with ⟨err, cs₁⟩
  rw [h] at hafter
  cases err with
  | some err => exact hafter
  | none =>
      have hafter₂ : Undelivered (cs₁.recvHeaders cfg).2 := hafter.recvHeaders
      simp only
      rcases h₂ : cs₁.recvHeaders cfg with ⟨err, cs₂⟩
      rw [h₂] at hafter₂
      cases err with
      | some err => exact hafter₂
      | none => exact hafter₂.of_endedOrSame (receiveNext_endedOrSame cfg cs₂)

theorem Undelivered.send (hcs : Undelivered cs) (msg : μ) : Undelivered (cs.send cfg msg).2 := by
  have hafter : Undelivered (cs.sendHeaders cfg).2 := hcs.sendHeaders
  unfold ClientStream.send
  rcases h : cs.sendHeaders cfg with ⟨err, cs₁⟩
  rw [h] at hafter
  cases err with
  | some err => exact hafter
  | none =>
      simp only
      split
      · exact hafter
      · exact hafter.of_same rfl rfl

theorem Undelivered.closeSend (hcs : Undelivered cs) : Undelivered (cs.closeSend cfg).2 := by
  unfold ClientStream.closeSend
  split
  · exact hcs
  · exact hcs.of_same rfl rfl

theorem Undelivered.step (hcs : Undelivered cs) (op : ClientOp μ) :
    Undelivered (cs.step cfg op) := by
  cases op with
  | sendHeaders => exact hcs.sendHeaders
  | send msg => exact hcs.send msg
  | closeSend => exact hcs.closeSend
  | receive => exact hcs.receive
  | close => exact hcs.closeSend.of_same rfl rfl

theorem undelivered_of_exec {conn : κ} {callInfo : Option CallInfo} {ops : List (ClientOp μ)}
    {cs cs' : ClientStream κ} (hcs : Undelivered cs)
    (h : (clientMachine cfg conn callInfo).exec cs ops = some cs') : Undelivered cs' := by
  refine (clientMachine cfg conn callInfo).exec_invariant ?_ hcs h
  intro s op s' hs hstep
  obtain rfl := Option.some.inj hstep
  exact hs.step op

-- ============================================================================
-- The Receive that reads the end-stream
-- ============================================================================

/-- What `Receive` returns for an end-stream that amounts to `err`. -/
def endResult : Option GoError → Received μ
  | some err => .error err
  | none => .error .eof

theorem receiveEnvelope_endStream (cfg : ClientConfig κ μ) (cs : ClientStream κ) {env : Envelope}
    (hflag : env.flag = flagEnvelopeEndStream) :
    cs.receiveEnvelope cfg env =
      (endResult (cs.endStream cfg env.payload).1, (cs.endStream cfg env.payload).2) := by
  have hheaders : ¬ env.flag = flagEnvelopeHeaders := by
    rw [hflag]
    decide
  unfold ClientStream.receiveEnvelope
  rw [if_neg hheaders, if_pos hflag]
  rcases cs.endStream cfg env.payload with ⟨err, cs'⟩
  cases err with
  | some err => rfl
  | none => rfl

/-- Another envelope is followed by the end-stream of a unary RPC at most. -/
theorem receiveEnvelope_reads (cfg : ClientConfig κ μ) (cs : ClientStream κ) {env : Envelope}
    (hflag : env.flag ≠ flagEnvelopeEndStream) :
    ∃ news : List (Awaits × Except GoError Envelope),
      (cs.receiveEnvelope cfg env).2.session.reads = cs.session.reads ++ news ∧
        ∀ a ∈ news, a.1 = .endStream := by
  have hsame : ∃ news : List (Awaits × Except GoError Envelope),
      cs.session.reads = cs.session.reads ++ news ∧ ∀ a ∈ news, a.1 = .endStream :=
    ⟨[], by simp, by simp⟩
  unfold ClientStream.receiveEnvelope
  rw [if_neg hflag]
  split
  · exact hsame
  · split
    · exact hsame
    · rcases receiveMessage_spec cfg cs env with ⟨hcs, -⟩ | ⟨r, -, hreads, -, -⟩
      · rw [hcs]
        exact hsame
      · exact ⟨[(.endStream, r)], hreads, by simp⟩

/-- A `receiveNext` that reads the end-stream as its message. -/
theorem receiveNext_of_read {env : Envelope} (hflag : env.flag = flagEnvelopeEndStream)
    (hnew : (Awaits.message, Except.ok env) ∉ cs.session.reads)
    (hread : (Awaits.message, Except.ok env) ∈ (cs.receiveNext cfg).2.session.reads) :
    cs.rxEnd = false ∧ ∃ cs₁ : ClientStream κ, cs₁.callInfo = cs.callInfo ∧
      cs.receiveNext cfg =
        (endResult (cs₁.endStream cfg env.payload).1, (cs₁.endStream cfg env.payload).2) := by
  unfold ClientStream.receiveNext at hread ⊢
  cases hrxEnd : cs.rxEnd with
  | true =>
      rw [hrxEnd] at hread
      exact absurd hread hnew
  | false =>
      rw [hrxEnd] at hread
      simp only [Bool.false_eq_true, if_false] at hread ⊢
      have hafter : (cs.readEnvelope cfg .message).2.session.reads =
          cs.session.reads ++ [(.message, (cs.readEnvelope cfg .message).1)] := rfl
      have hinfo : (cs.readEnvelope cfg .message).2.callInfo = cs.callInfo := rfl
      rcases h : cs.readEnvelope cfg .message with ⟨r, cs₁⟩
      rw [h] at hread hafter hinfo
      -- the message that this call reads is the one that is asked for
      have hmessage : ∀ news : List (Awaits × Except GoError Envelope),
          (∀ a ∈ news, a.1 = .endStream) →
          (Awaits.message, Except.ok env) ∈ cs₁.session.reads ++ news → r = .ok env := by
        intro news hnews hmem
        rw [hafter] at hmem
        rcases List.mem_append.mp hmem with hmem | hmem
        · rcases List.mem_append.mp hmem with hold | hlast
          · exact absurd hold hnew
          · exact (Prod.mk.inj (List.mem_singleton.mp hlast)).2.symm
        · cases hnews _ hmem
      have hold : (Awaits.message, Except.ok env) ∈ cs₁.session.reads → r = .ok env := by
        intro hmem
        exact hmessage [] (by simp) (by simpa using hmem)
      cases r with
      | error err =>
          simp only at hread
          split at hread
          · cases hold hread
          · cases hold hread
      | ok env' =>
          simp only at hread ⊢
          by_cases hflag' : env'.flag = flagEnvelopeEndStream
          · rw [receiveEnvelope_endStream cfg cs₁ hflag'] at hread ⊢
            have hsession := (endStream_spec cfg cs₁ env'.payload).2.1
            simp only [hsession] at hread
            obtain rfl : env' = env := Except.ok.inj (hold hread)
            exact ⟨trivial, cs₁, hinfo, rfl⟩
          · obtain ⟨news, hreads, hnews⟩ := receiveEnvelope_reads cfg cs₁ hflag'
            rw [hreads] at hread
            obtain rfl : env' = env := Except.ok.inj (hmessage news hnews hread)
            exact absurd hflag hflag'

/-- A `Receive` that reads the end-stream as its message. -/
theorem receive_of_read (hcs : Undelivered cs) {env : Envelope}
    (hflag : env.flag = flagEnvelopeEndStream)
    (hnew : (Awaits.message, Except.ok env) ∉ cs.session.reads)
    (hread : (Awaits.message, Except.ok env) ∈ (cs.receive cfg).2.session.reads) :
    ∃ (cs₁ : ClientStream κ) (info : CallInfo), cs₁.callInfo = some info ∧
      info.responseTrailer = ∅ ∧
      cs.receive cfg =
        (endResult (cs₁.endStream cfg env.payload).1, (cs₁.endStream cfg env.payload).2) := by
  have hafter : Undelivered (cs.sendHeaders cfg).2 := hcs.sendHeaders
  have hreads := (sendHeaders_frame cfg cs).2.2.1
  unfold ClientStream.receive at hread ⊢
  rcases h : cs.sendHeaders cfg with ⟨err, cs₁⟩
  rw [h] at hafter hreads hread
  cases err with
  | some err =>
      simp only at hread hreads
      rw [hreads] at hread
      exact absurd hread hnew
  | none =>
      have hafter₂ : Undelivered (cs₁.recvHeaders cfg).2 := hafter.recvHeaders
      obtain ⟨-, -, -, news, hreads₂, hnews, -⟩ := recvHeaders_frame cfg cs₁
      simp only at hread hreads ⊢
      rcases h₂ : cs₁.recvHeaders cfg with ⟨err, cs₂⟩
      rw [h₂] at hafter₂ hreads₂ hread
      simp only at hreads₂
      have hnew₂ : (Awaits.message, Except.ok env) ∉ cs₂.session.reads := by
        intro hmem
        rw [hreads₂, hreads] at hmem
        rcases List.mem_append.mp hmem with hold | hnews'
        · exact hnew hold
        · cases hnews _ hnews'
      cases err with
      | some err => exact absurd hread hnew₂
      | none =>
          obtain ⟨hopen, cs₃, hinfo, hresult⟩ := receiveNext_of_read hflag hnew₂ hread
          obtain ⟨info, hsome, htrailer⟩ := hafter₂ hopen
          exact ⟨cs₃, info, hinfo.trans hsome, htrailer, hresult⟩

end ClientStream

-- ============================================================================
-- End to end
-- ============================================================================

/-- What `Receive` returns tells the caller how the handler has ended. -/
structure Tells {μ : Type} (result : Received μ) (callErr : Option GoError) : Prop where
  /-- `io.EOF` is success, and nothing else is. -/
  eof : result = .error .eof ↔ callErr = none
  /-- An error has the code that `ErrorForWire` gives it. -/
  code : ∀ err ∈ callErr, ∃ code message remote details,
    errorForWire err = .connect code message remote details ∧
      (1 ≤ code ∧ code ≤ 16 → ∃ message' details',
        result = .error (.connect code message' true details'))
  /-- A local `connect.Error` is received with its message and its details. -/
  connect : ∀ err ∈ callErr, ∀ code message details,
    err.asConnect = some (.connect code message false details) → 1 ≤ code ∧ code ≤ 16 →
      ∃ details', result = .error (.connect code message true details') ∧
        details'.map (Option.map fun d => (d.type, d.value)) =
          details.map (Option.map fun d => (d.type, d.value))

/-- What `ErrorForWire` makes of an error: a local `connect.Error` as it is, of
    every other one the code alone. -/
theorem errorForWire_cases (err : GoError) :
    (∃ code message details, err.asConnect = some (.connect code message false details) ∧
      errorForWire err = .connect code message false details) ∨
    (∀ code message details, err.asConnect ≠ some (.connect code message false details)) ∧
      ∃ code, errorForWire err = .connectErrorf code "" := by
  unfold errorForWire
  split
  · rename_i code message remote details hconnect
    cases remote with
    | false => exact Or.inl ⟨code, message, details, hconnect, rfl⟩
    | true =>
        refine Or.inr ⟨?_, code, rfl⟩
        intro code' message' details' hlocal
        rw [hconnect] at hlocal
        cases hlocal
  · rename_i hconnect
    refine Or.inr ⟨fun code message details => hconnect code message false details, ?_⟩
    split
    · exact ⟨_, rfl⟩
    · split
      · exact ⟨_, rfl⟩
      · exact ⟨_, rfl⟩

/-- Details are only sent of a local `connect.Error`. -/
theorem details_errorForWire {err : GoError} {d : ErrorDetail}
    (hd : some d ∈ (newWireError (errorForWire err)).details) :
    ∃ code message details,
      err.asConnect = some (.connect code message false details) ∧ some d ∈ details := by
  rcases errorForWire_cases err with ⟨code, message, details, hlocal, heq⟩ | ⟨-, code, heq⟩
  · rw [heq] at hd
    exact ⟨code, message, details, hlocal, hd⟩
  · rw [heq] at hd
    cases hd

theorem tells_endResult {μ : Type} {lib peer : Library} (hpeer : Understands lib peer)
    (callErr : Option GoError) :
    Tells (ClientStream.endResult (μ := μ) ((callErr.map errorForWire).map fun err =>
      ((newWireError err).received lib peer).asError)) callErr where
  eof := by
    cases callErr with
    | none => simp [ClientStream.endResult]
    | some err => simp [ClientStream.endResult, WireError.asError]
  code := by
    rintro err ⟨⟩
    obtain ⟨code, message, remote, details, heq⟩ : ∃ code message remote details,
        errorForWire err = .connect code message remote details := by
      rcases errorForWire_cases err with ⟨code, message, details, -, heq⟩ | ⟨-, code, heq⟩
      · exact ⟨code, message, false, details, heq⟩
      · exact ⟨code, "", false, [], heq⟩
    refine ⟨code, message, remote, details, heq, fun hcode => ?_⟩
    have hreceived := asError_received hpeer (e := newWireError (errorForWire err)) (by
      rw [heq]
      exact hcode)
    simp only [Option.map_some, ClientStream.endResult, hreceived]
    rw [heq]
    exact ⟨_, _, rfl⟩
  connect := by
    rintro err ⟨⟩ code message details hlocal hcode
    have heq : errorForWire err = .connect code message false details := by
      rw [errorForWire, hlocal]
      rfl
    have hreceived := asError_received hpeer (e := newWireError (errorForWire err)) (by
      rw [heq]
      exact hcode)
    simp only [Option.map_some, ClientStream.endResult, hreceived]
    rw [heq]
    refine ⟨details.map (Option.map withoutDebug), ?_, ?_⟩
    · simp only [newWireError, GoError.asConnect, String.ofList_toList]
    · rw [List.map_map]
      apply List.map_congr_left
      intro d _
      cases d <;> rfl

/-- For every handler, and every sequence of calls of the client: the `Receive`
    that reads the end-stream of the server returns the status of the RPC, and
    with it the trailers are those that the handler has set. -/
theorem status_delivered {κ μ κ' μ' : Type} (srv : ServerConfig κ μ) (headers : Header)
    (codec : Codec μ) (session : Session κ) (cfg : ClientConfig κ' μ') (conn : κ')
    (requestHeader : Header) (ops : List (ClientOp μ')) (cs : ClientStream κ') (env : Envelope)
    (hpeer : Understands srv.lib cfg.lib)
    (hdebug : ∀ err ∈ (handled srv headers codec session).1, ∀ code message details,
      err.asConnect = some (.connect code message false details) →
        ∀ d, some d ∈ details → DebugFits srv.lib d)
    (hend : (serveCall srv headers codec session).writes.getLast?.map (·.1) = some env)
    (hrun : (clientMachine cfg conn (some { requestHeader })).run ops = some cs)
    (hnew : (Awaits.message, Except.ok env) ∉ cs.session.reads)
    (hread : (Awaits.message, Except.ok env) ∈ (cs.receive cfg).2.session.reads) :
    Tells (cs.receive cfg).1 (handled srv headers codec session).1 ∧
      ∃ info, (cs.receive cfg).2.callInfo = some info ∧
        ∀ k, info.responseTrailer.lookup k =
          (handled srv headers codec session).2.callInfo.responseTrailer.lookup k := by
  have hlast := serveCall_writes srv headers codec session
  rw [hend] at hlast
  have henv := Option.some.inj hlast
  have hflag : env.flag = flagEnvelopeEndStream := by rw [henv]
  -- what the server has marshalled
  have hfits : ∀ e ∈ (handled srv headers codec session).1.map errorForWire,
      ∀ d, some d ∈ (newWireError e).details → DebugFits srv.lib d := by
    intro e he d hd
    obtain ⟨err, herr, rfl⟩ := Option.mem_map.mp he
    obtain ⟨code, message, details, hlocal, hmem⟩ := details_errorForWire hd
    exact hdebug err herr code message details hlocal d hmem
  obtain ⟨payload, trailer, hmarshal, hunmarshal, htrailer⟩ :=
    unmarshalEndStream_marshalEndStream hpeer hfits
      (handled srv headers codec session).2.callInfo.responseTrailer
  have hpayload : env.payload = payload := by
    rw [henv]
    show endPayload srv headers codec session = payload
    rw [endPayload, hmarshal]
  -- what the client makes of it
  have hundelivered : ClientStream.Undelivered cs :=
    ClientStream.undelivered_of_exec (fun _ => ⟨_, rfl, rfl⟩) hrun
  obtain ⟨cs₁, info, hinfo, hempty, hreceive⟩ :=
    ClientStream.receive_of_read hundelivered hflag hnew hread
  have hendStream : cs₁.endStream cfg env.payload =
      (((handled srv headers codec session).1.map errorForWire).map fun err =>
        ((newWireError err).received srv.lib cfg.lib).asError,
        { cs₁ with rxEnd := true }.setResponseTrailers cfg trailer) := by
    rw [hpayload, ClientStream.endStream, hunmarshal]
  rw [hreceive, hendStream]
  refine ⟨tells_endResult hpeer _, ?_⟩
  have hcanonical : CanonicalKeys trailer := by
    intro k hk
    rw [← AList.lookup_isSome, htrailer, AList.lookup_isSome] at hk
    exact canonicalKeys_handled srv headers codec session k hk
  refine ⟨_, congrArg (Option.map _) hinfo, ?_⟩
  intro k
  show (setAllValues info.responseTrailer (cfg.range.visit trailer)).lookup k = _
  rw [lookup_setAllValues cfg.range _ hcanonical, hempty, AList.lookup_empty, Option.or_none,
    htrailer]

/-- A server that denies every call, with a detail and a trailer. -/
def denying : ServerConfig Unit Bytes where
  conn :=
    { readEnvelope := fun _ => (.error .eof, ())
      writeEnvelope := fun _ _ => (none, ())
      closeSend := fun _ => (none, ())
      close := fun _ => (none, ()) }
  opts := {}
  call := fun _ => .setResponseTrailer "request-id".toList ["7".toList]
    (.ret (some (.connect 7 "no access" false [some { type := "acl.Rule", value := [1, 2] }])))
  lib := plainLibrary

/-- The end-stream of a call to it. -/
def denied : Envelope :=
  ⟨flagEnvelopeEndStream, endPayload denying ∅ (bytesCall denying.conn).codec { conn := () }⟩

/-- A caller who receives empty response headers, and then the end-stream. -/
def deniedCaller : ClientConfig (List Envelope) Bytes :=
  { bytesCall
      { readEnvelope := fun es => (es.head?.elim (.error .eof) .ok, es.tail)
        writeEnvelope := fun es _ => (none, es)
        closeSend := fun es => (none, es)
        close := fun es => (none, es) } with
    lib := plainLibrary }

def deniedStream : ClientStream (List Envelope) where
  session := { conn := [⟨flagEnvelopeHeaders, "\x7b\x7d".toUTF8.toList⟩, denied] }

theorem denied_status_delivered :
    ∃ details info, (deniedStream.receive deniedCaller).1 =
        .error (.connect 7 "no access" true details) ∧
      details.map (Option.map fun d => (d.type, d.value)) = [some ("acl.Rule", [1, 2])] ∧
      (deniedStream.receive deniedCaller).2.callInfo = some info ∧
      info.responseTrailer.lookup "Request-Id".toList = some ["7".toList] := by
  have hread : (Awaits.message, Except.ok denied) ∈
      (deniedStream.receive deniedCaller).2.session.reads := by
    decide +kernel
  have hdebug : ∀ err ∈ (handled denying ∅ (bytesCall denying.conn).codec { conn := () }).1,
      ∀ code message details, err.asConnect = some (.connect code message false details) →
        ∀ d, some d ∈ details → DebugFits denying.lib d := by
    rintro err ⟨⟩ code message details ⟨⟩ d hd
    obtain rfl := Option.some.inj (List.mem_singleton.mp hd)
    exact Or.inl rfl
  obtain ⟨htells, info, hinfo, htrailer⟩ :=
    status_delivered denying ∅ (bytesCall denying.conn).codec { conn := () } deniedCaller
      deniedStream.session.conn ∅ [] deniedStream denied understands_plainLibrary hdebug
      (serveCall_writes _ _ _ _) rfl (by simp [deniedStream]) hread
  obtain ⟨details, hresult, hdetails⟩ :=
    htells.connect _ rfl 7 "no access" _ rfl ⟨by decide, by decide⟩
  exact ⟨details, info, hresult, hdetails, hinfo, (htrailer _).trans (by decide +kernel)⟩

end BidiProtocol
end BidiWeb
