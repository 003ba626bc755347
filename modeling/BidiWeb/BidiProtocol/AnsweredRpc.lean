/-
  BidiWeb.BidiProtocol.AnsweredRpc

  Which RPCs `HandleRPC` answers.  Once a call is dispatched the response is
  complete whatever the handler does; before that every way out is silent.
-/

import BidiWeb.BidiProtocol.Server

namespace BidiWeb
namespace BidiProtocol

open BidiWeb.ConnectProtocol
open BidiWeb.Lib

variable {κ μ : Type}

-- ============================================================================
-- Sessions whose writes succeed
-- ============================================================================

namespace Session

/-- Every write so far has succeeded. -/
def AllWritten (s : Session κ) : Prop := ∀ w ∈ s.writes, w.2 = none

variable {s : Session κ}

theorem AllWritten.written (h : s.AllWritten) : s.written = s.writes.map (·.1) := by
  rw [Session.written, List.filter_eq_self.mpr]
  intro w hw
  rw [h w hw]
  rfl

/-- A write that succeeds, after others that have. -/
theorem AllWritten.writeEnvelope {c : Conn κ} {env : Envelope}
    (h : (s.writeEnvelope c env).2.AllWritten) :
    s.AllWritten ∧ (s.writeEnvelope c env).1 = none ∧
      (s.writeEnvelope c env).2.written = s.written ++ [env] := by
  have hbefore : s.AllWritten := fun w hw => h w (List.mem_append_left _ hw)
  have hlast : (s.writeEnvelope c env).1 = none :=
    h _ (List.mem_append_right _ (List.mem_singleton_self _))
  refine ⟨hbefore, hlast, ?_⟩
  rw [h.written, hbefore.written]
  show List.map (·.1) (s.writes ++ [(env, (c.writeEnvelope s.conn env).1)]) = _
  rw [List.map_append]
  rfl

end Session

-- ============================================================================
-- While the handler runs
-- ============================================================================

namespace ServerStream

variable (srv : ServerConfig κ μ) (codec : Codec μ) {ss : ServerStream κ}

/-- As long as its writes succeed, a stream has written nothing, or its
    headers and messages. -/
def Answering (ss : ServerStream κ) : Prop :=
  ss.session.AllWritten →
    (ss.sendHeadersOnce = none ∧ ss.session.written = []) ∨
      (ss.sendHeadersOnce = some none ∧ envelopeOrder.run ss.session.written = some .body)

/-- With the headers sent, the stream is in the body of its response. -/
theorem Answering.sendHeaders (hss : Answering ss) :
    (ss.sendHeaders srv codec).2.session.AllWritten →
      (ss.sendHeaders srv codec).1 = none ∧
        (ss.sendHeaders srv codec).2.sendHeadersOnce = some none ∧
        envelopeOrder.run (ss.sendHeaders srv codec).2.session.written = some .body := by
  intro hall
  cases hsent : ss.sendHeadersOnce with
  | some err =>
      rw [ServerStream.sendHeaders_of_sent hsent] at hall ⊢
      rcases hss hall with ⟨hnone, -⟩ | ⟨hdone, hbody⟩
      · rw [hsent] at hnone
        cases hnone
      · obtain rfl : err = none := Option.some.inj (hsent.symm.trans hdone)
        exact ⟨rfl, hsent, hbody⟩
  | none =>
      obtain ⟨data, hdata⟩ : ∃ data, marshalHeaders (ss.responseHeader srv codec) = .ok data :=
        ⟨_, rfl⟩
      rw [ServerStream.sendHeaders_of_unsent hsent hdata rfl] at hall ⊢
      obtain ⟨hbefore, hok, hwritten⟩ := Session.AllWritten.writeEnvelope hall
      refine ⟨hok, congrArg some hok, ?_⟩
      rcases hss hbefore with ⟨-, hnil⟩ | ⟨hdone, -⟩
      · refine (congrArg envelopeOrder.run hwritten).trans ?_
        rw [show ss.session.written = [] from hnil]
        rfl
      · rw [hsent] at hdone
        cases hdone

theorem Answering.send (hss : Answering ss) (msg : μ) : Answering (ss.send srv codec msg).2 := by
  intro hall
  have hheaders := hss.sendHeaders srv codec
  unfold ServerStream.send at hall ⊢
  rcases h : ss.sendHeaders srv codec with ⟨err, ss₁⟩
  rw [h] at hheaders hall
  cases err with
  | some err =>
      obtain ⟨herr, -⟩ := hheaders hall
      cases herr
  | none =>
      simp only at hall ⊢
      cases henv : ss₁.encode srv codec msg with
      | error err =>
          rw [henv] at hall
          exact Or.inr (hheaders hall).2
      | ok env =>
          rw [henv] at hall
          obtain ⟨hbefore, -, hwritten⟩ := Session.AllWritten.writeEnvelope hall
          obtain ⟨-, hdone, hbody⟩ := hheaders hbefore
          refine Or.inr ⟨hdone, ?_⟩
          refine (congrArg envelopeOrder.run hwritten).trans ?_
          have hmessage : env.isMessage = true := by
            unfold ServerStream.encode at henv
            split at henv
            · cases henv
            · exact encodePayload_isMessage henv
          refine envelopeOrder.exec_append.mpr ⟨.body, hbody, ?_⟩
          exact exec_body_messages (by simpa using hmessage)

theorem Answering.of_same {ss' : ServerStream κ} (hss : Answering ss)
    (hwrites : ss'.session.writes = ss.session.writes)
    (hsent : ss'.sendHeadersOnce = ss.sendHeadersOnce) : Answering ss' := by
  intro hall
  have hwritten : ss'.session.written = ss.session.written := by
    rw [Session.written, Session.written, hwrites]
  rw [hsent, hwritten]
  exact hss fun w hw => hall w (hwrites ▸ hw)

/-- Whatever the handler does. -/
theorem Answering.run (handler : Handler μ) (hss : Answering ss) :
    Answering (ServerStream.run srv codec ss handler).2 := by
  induction handler generalizing ss with
  | ret err => exact hss
  | setResponseHeader key values next ih => exact ih (hss.of_same rfl rfl)
  | setResponseTrailer key values next ih => exact ih (hss.of_same rfl rfl)
  | sendHeaders next ih => exact ih _ fun hall => Or.inr (hss.sendHeaders srv codec hall).2
  | send msg next ih => exact ih _ (hss.send srv codec msg)
  | receive next ih => exact ih _ (hss.of_same rfl rfl)

end ServerStream

-- ============================================================================
-- HandleRPC
-- ============================================================================

variable (srv : ServerConfig κ μ)

/-- A call that is dispatched is answered. -/
theorem serveCall_complete (headers : Header) (codec : Codec μ) {session : Session κ}
    (hnew : session.writes = []) (hall : (serveCall srv headers codec session).AllWritten) :
    Complete (serveCall srv headers codec session).written := by
  unfold serveCall at hall ⊢
  simp only at hall ⊢
  obtain ⟨hbefore, -, hwritten⟩ := hall.writeEnvelope
  have hstart : ∀ callInfo, ServerStream.Answering ({ session, callInfo } : ServerStream κ) := by
    intro callInfo _
    refine Or.inl ⟨rfl, ?_⟩
    rw [Session.written, hnew]
    rfl
  obtain ⟨-, -, hbody⟩ :=
    ((hstart _).run srv codec _).sendHeaders srv codec hbefore
  rw [Complete, hwritten]
  refine envelopeOrder.exec_append.mpr ⟨.body, hbody, ?_⟩
  exact exec_body_iff.mpr (Or.inr ⟨rfl, [], _, rfl, by simp, rfl⟩)

/-- For every `Conn`, handler and first payload: if the RPC opens with a
    headers envelope and every write succeeds, the response is complete if
    and only if the headers can be read and name a procedure. -/
theorem rpc_answered_iff (k k' : κ) (payload : Bytes) (after : Session κ)
    (hread : srv.conn.readEnvelope k = (.ok ⟨flagEnvelopeHeaders, payload⟩, k'))
    (hreturn : handleRPC srv { conn := k } = some after) (hwrites : after.AllWritten) :
    Complete after.written ↔
      ∃ headers, unmarshalHeaders srv.rangeHeaders payload = some headers ∧
        procedureOf headers ≠ [] := by
  -- the ways out before the dispatch write nothing
  have hsilent : ∀ reads, after = { conn := k', reads } → ¬ Complete after.written := by
    rintro reads rfl hcomplete
    cases hcomplete
  unfold handleRPC Session.readEnvelope at hreturn
  rw [hread] at hreturn
  simp only [ne_eq, not_true, if_false] at hreturn
  cases hheaders : unmarshalHeaders srv.rangeHeaders payload with
  | none =>
      rw [hheaders] at hreturn
      have hnot := hsilent _ (Option.some.inj hreturn).symm
      simp [hnot]
  | some headers =>
      rw [hheaders] at hreturn
      simp only at hreturn
      by_cases hpath : procedureOf headers = []
      · rw [if_pos hpath] at hreturn
        have hnot := hsilent _ (Option.some.inj hreturn).symm
        simp [hnot, hpath]
      · rw [if_neg hpath] at hreturn
        obtain ⟨codec, -, rfl⟩ := Option.map_eq_some_iff.mp hreturn
        have hcomplete := serveCall_complete srv headers codec rfl hwrites
        exact ⟨fun _ => ⟨headers, rfl, hpath⟩, fun _ => hcomplete⟩

/-- A server that sends one message, on a `Conn` whose first envelope holds
    `payload`. -/
def greeter (payload : Bytes) : ServerConfig Unit Bytes where
  conn :=
    { readEnvelope := fun _ => (.ok ⟨flagEnvelopeHeaders, payload⟩, ())
      writeEnvelope := fun _ _ => (none, ())
      closeSend := fun _ => (none, ())
      close := fun _ => (none, ()) }
  opts :=
    { codecs := AList.singleton codecNameProto
        { name := codecNameProto, marshalWrite := .ok, unmarshalRead := .ok } }
  call := fun _ => .send [1] fun err => .ret err
  lib :=
    { jsonError := fun _ => .text "invalid JSON"
      codeOfText := fun _ => none
      codeText := fun _ => "unknown".toList
      decodeBinaryHeader := fun _ => none
      detailDebug := fun _ => none }

/-- A request for `/x`. -/
def namedRequest : Bytes := "\x7b\"metadata\":\x7b\":path\":[\"/x\"]\x7d\x7d".toUTF8.toList

theorem named_request_answered :
    ∃ after, handleRPC (greeter namedRequest) { conn := () } = some after ∧
      Complete after.written := by
  have hheaders : (unmarshalHeaders .stored namedRequest).map procedureOf = some "/x".toList := by
    decide +kernel
  have hwrites : (handleRPC (greeter namedRequest) { conn := () }).map
      (fun after => after.writes.all fun w => w.2.isNone) = some true := by
    decide +kernel
  obtain ⟨headers, hread, hpath⟩ := Option.map_eq_some_iff.mp hheaders
  obtain ⟨after, hreturn, hall⟩ := Option.map_eq_some_iff.mp hwrites
  refine ⟨after, hreturn, ?_⟩
  refine (rpc_answered_iff (greeter namedRequest) () () namedRequest after rfl hreturn ?_).mpr
    ⟨headers, hread, ?_⟩
  · intro w hw
    exact Option.isNone_iff_eq_none.mp (List.all_eq_true.mp hall w hw)
  · rw [hpath]
    decide

/-- Headers without a `:path` leave the client without any response. -/
theorem unnamed_request_unanswered :
    ∃ after, handleRPC (greeter "\x7b\x7d".toUTF8.toList) { conn := () } = some after ∧
      after.writes = [] ∧ ¬ Complete after.written := by
  have hwrites : (handleRPC (greeter "\x7b\x7d".toUTF8.toList) { conn := () }).map
      (fun after => after.writes.isEmpty) = some true := by
    decide +kernel
  obtain ⟨after, hreturn, hempty⟩ := Option.map_eq_some_iff.mp hwrites
  have hnil : after.writes = [] := List.isEmpty_iff.mp hempty
  refine ⟨after, hreturn, hnil, ?_⟩
  intro hcomplete
  rw [Session.written, hnil] at hcomplete
  cases hcomplete

end BidiProtocol
end BidiWeb
