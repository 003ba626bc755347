/-
  BidiWeb.BidiProtocol.RequestEnd

  The end of a request on the server.  `Receive` answers io.EOF for an
  end-stream envelope, but does not remember it: what it answers later is up
  to the `Conn`.
-/

import BidiWeb.BidiProtocol.MessageTransfer

namespace BidiWeb
namespace BidiProtocol

open BidiWeb.ConnectProtocol

variable {κ μ : Type}

-- ============================================================================
-- Sequences of calls
-- ============================================================================

/-- A call that a handler makes on its stream. -/
inductive ServerOp (μ : Type) where
  | setResponseHeader (key : GoString) (values : List GoString)
  | setResponseTrailer (key : GoString) (values : List GoString)
  | sendHeaders
  | send (msg : μ)
  | receive

/-- What a `Receive` has read, and what it has returned. -/
structure Receipt (μ : Type) where
  read : Except GoError Envelope
  result : Except GoError μ

namespace ServerStream

variable (srv : ServerConfig κ μ) (codec : Codec μ)

def step (ss : ServerStream κ) : ServerOp μ → ServerStream κ
  | .setResponseHeader key values =>
      let responseHeader := setAllValues ss.callInfo.responseHeader [(key, values)]
      { ss with callInfo := { ss.callInfo with responseHeader } }
  | .setResponseTrailer key values =>
      let responseTrailer := setAllValues ss.callInfo.responseTrailer [(key, values)]
      { ss with callInfo := { ss.callInfo with responseTrailer } }
  | .sendHeaders => (ss.sendHeaders srv codec).2
  | .send msg => (ss.send srv codec msg).2
  | .receive => (ss.receive srv codec).2

def receipt (ss : ServerStream κ) : Receipt μ where
  read := (ss.session.readEnvelope srv.conn .message).1
  result := (ss.receive srv codec).1

/-- What comes of the calls of `Receive` among `ops`. -/
def receipts (ss : ServerStream κ) : List (ServerOp μ) → List (Receipt μ)
  | [] => []
  | .receive :: ops => ss.receipt srv codec :: receipts (ss.step srv codec .receive) ops
  | op :: ops => receipts (ss.step srv codec op) ops

/-- Whatever a handler does amounts to a sequence of calls. -/
theorem run_eq_steps (handler : Handler μ) (ss : ServerStream κ) :
    ∃ ops : List (ServerOp μ), (ss.run srv codec handler).2 = ops.foldl (step srv codec) ss := by
  induction handler generalizing ss with
  | ret err => exact ⟨[], rfl⟩
  | setResponseHeader key values next ih =>
      obtain ⟨ops, hops⟩ := ih (ss.step srv codec (.setResponseHeader key values))
      exact ⟨.setResponseHeader key values :: ops, hops⟩
  | setResponseTrailer key values next ih =>
      obtain ⟨ops, hops⟩ := ih (ss.step srv codec (.setResponseTrailer key values))
      exact ⟨.setResponseTrailer key values :: ops, hops⟩
  | sendHeaders next ih =>
      obtain ⟨ops, hops⟩ := ih (ss.sendHeaders srv codec).1 (ss.step srv codec .sendHeaders)
      exact ⟨.sendHeaders :: ops, hops⟩
  | send msg next ih =>
      obtain ⟨ops, hops⟩ := ih (ss.send srv codec msg).1 (ss.step srv codec (.send msg))
      exact ⟨.send msg :: ops, hops⟩
  | receive next ih =>
      obtain ⟨ops, hops⟩ := ih (ss.receive srv codec).1 (ss.step srv codec .receive)
      exact ⟨.receive :: ops, hops⟩

end ServerStream

-- ============================================================================
-- The end of the request
-- ============================================================================

namespace Receipt

/-- An end-stream envelope has been read. -/
def ReadsEnd (r : Receipt μ) : Prop :=
  ∃ env, r.read = .ok env ∧ env.flag = flagEnvelopeEndStream

/-- What `Receive` returns of an error, and of an end-stream envelope. -/
structure Faithful (r : Receipt μ) : Prop where
  error : ∀ err, r.read = .error err → r.result = .error err
  ended : r.ReadsEnd → r.result = .error .eof

end Receipt

/-- After a `Receive` that has returned io.EOF for an end-stream envelope each
    other one returns io.EOF too, and reads no envelope. -/
def EndsForGood (rs : List (Receipt μ)) : Prop :=
  rs.Pairwise fun r r' => r.ReadsEnd → r.result = .error .eof →
    r'.result = .error .eof ∧ ∀ env, r'.read ≠ .ok env

/-- After an end-stream envelope the `Conn` has nothing but io.EOF. -/
def NothingFollows (rs : List (Receipt μ)) : Prop :=
  rs.Pairwise fun r r' => r.ReadsEnd → r'.read = .error .eof

theorem faithful_receipt (srv : ServerConfig κ μ) (codec : Codec μ) (ss : ServerStream κ) :
    (ss.receipt srv codec).Faithful := by
  have hother : flagEnvelopeEndStream ≠ flagEnvelopeHeaders := by decide
  unfold ServerStream.receipt ServerStream.receive
  rcases ss.session.readEnvelope srv.conn .message with ⟨read, session⟩
  refine ⟨?_, ?_⟩
  · intro err hread
    simp only at hread
    rw [hread]
  · rintro ⟨env, hread, hflag⟩
    simp only at hread
    rw [hread]
    simp only
    rw [hflag, if_neg hother, if_pos rfl]

theorem faithful_receipts (srv : ServerConfig κ μ) (codec : Codec μ) (ops : List (ServerOp μ))
    (ss : ServerStream κ) : ∀ r ∈ ss.receipts srv codec ops, r.Faithful := by
  induction ops generalizing ss with
  | nil =>
      intro r hr
      cases hr
  | cons op ops ih =>
      cases op with
      | receive =>
          intro r hr
          rcases List.mem_cons.mp hr with rfl | hrest
          · exact faithful_receipt srv codec ss
          · exact ih _ r hrest
      | setResponseHeader key values => exact ih _
      | setResponseTrailer key values => exact ih _
      | sendHeaders => exact ih _
      | send msg => exact ih _

/-- The end of a request is final exactly as far as the `Conn` makes it so. -/
theorem request_end_final_iff (srv : ServerConfig κ μ) (codec : Codec μ) (ss : ServerStream κ)
    (ops : List (ServerOp μ)) :
    EndsForGood (ss.receipts srv codec ops) ↔ NothingFollows (ss.receipts srv codec ops) := by
  have hfaithful := faithful_receipts srv codec ops ss
  constructor
  · intro hfinal
    refine List.Pairwise.imp_of_mem (fun hr hr' h hend => ?_) hfinal
    obtain ⟨hresult, hnone⟩ := h hend ((hfaithful _ hr).ended hend)
    rename_i r r'
    cases hread : r'.read with
    | ok env => exact absurd hread (hnone env)
    | error err =>
        rw [(hfaithful _ hr').error err hread] at hresult
        cases hresult
        rfl
  · intro hquiet
    refine List.Pairwise.imp_of_mem (fun _ hr' h hend _ => ?_) hquiet
    have hread := h hend
    refine ⟨(hfaithful _ hr').error _ hread, fun env henv => ?_⟩
    rw [hread] at henv
    cases henv

/-- A message behind the end-stream is delivered. -/
theorem message_after_end_received :
    ¬ EndsForGood (ServerStream.receipts echoServer plainDefaults.binary
      { session := { conn := [⟨flagEnvelopeEndStream, []⟩, ⟨flagEnvelopeData, [1]⟩] },
        callInfo := {} } [.receive, .receive]) := by
  intro hfinal
  obtain ⟨hfirst, -⟩ := List.pairwise_cons.mp hfinal
  obtain ⟨-, hnone⟩ := hfirst _ (List.mem_singleton_self _) ⟨_, rfl, rfl⟩ rfl
  exact hnone _ rfl

end BidiProtocol
end BidiWeb
