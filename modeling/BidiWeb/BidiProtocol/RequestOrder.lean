/-
  BidiWeb.BidiProtocol.RequestOrder

  The order of what a `ClientStream` writes on a `muxStream`.

  Two `sync.Once` guard the headers and the half-close, but nothing relates
  them: the half-close does not see to the headers, and a message does not
  see the half-close.  So the order is the caller's to keep.
-/

import BidiWeb.BidiProtocol.ClientStream
import BidiWeb.ConnectWebSocket.MuxStream

namespace BidiWeb
namespace BidiProtocol

open BidiWeb.ConnectWebSocket (MuxStream)
open BidiWeb.Lib

-- ============================================================================
-- muxStream as a Conn
-- ============================================================================

/-- A client's `muxStream` on a connection that takes every frame. -/
structure MuxEnd where
  stream : MuxStream
  /-- How many reads there have been. -/
  reads : Nat := 0
  /-- What `WriteEnvelope` has put on the connection. -/
  written : List Envelope := []
  /-- What `Close` has put on the connection. -/
  resets : List Envelope := []

namespace MuxEnd

variable (m : MuxEnd)

def writeEnvelope (env : Envelope) : Option GoError × MuxEnd :=
  match m.stream.terminalErr with
  | some err => (some err, m)
  | none =>
      match m.stream.ctxErr with
      | some err => (some err, m)
      | none => (none, { m with written := m.written ++ [env] })

def close : Option GoError × MuxEnd :=
  let finished := m.stream.rxEnd
  let m := { m with stream := m.stream.terminate (.text "websocket stream closed") }
  if m.stream.dedicated || finished then (none, m)
  else (none, { m with resets := m.resets ++ [⟨flagEnvelopeReset, []⟩] })

variable {m} {env : Envelope}

theorem writeEnvelope_of_open (hrun : m.stream.terminated = false) (hctx : m.stream.ctxErr = none) :
    m.writeEnvelope env = (none, { m with written := m.written ++ [env] }) := by
  have hnone : m.stream.terminalErr = none := Option.not_isSome_iff_eq_none.mp (by
    rw [show m.stream.terminalErr.isSome = false from hrun]
    exact Bool.false_ne_true)
  unfold writeEnvelope
  rw [hnone, hctx]

theorem writeEnvelope_of_terminated (hend : m.stream.terminated = true) :
    (m.writeEnvelope env).2 = m := by
  obtain ⟨err, herr⟩ := Option.isSome_iff_exists.mp hend
  unfold writeEnvelope
  rw [herr]

/-- Writing only ever adds to what is written. -/
theorem written_writeEnvelope (m : MuxEnd) (env : Envelope) :
    m.written <+: (m.writeEnvelope env).2.written := by
  unfold writeEnvelope
  split
  · exact List.prefix_rfl
  · split
    · exact List.prefix_rfl
    · exact List.prefix_append ..

end MuxEnd

/-- `answer n` is what the read number `n` returns. -/
def muxStreamConn (answer : Nat → Except GoError Envelope) : Conn MuxEnd where
  readEnvelope := fun m =>
    match answer m.reads with
    | .ok env => (.ok env, { m with stream := m.stream.acceptEnvelope env, reads := m.reads + 1 })
    | .error err => (.error err, { m with reads := m.reads + 1 })
  writeEnvelope := MuxEnd.writeEnvelope
  closeSend := fun m => m.writeEnvelope ⟨flagEnvelopeEndStream, []⟩
  close := MuxEnd.close

-- ============================================================================
-- Receiving writes nothing
-- ============================================================================

namespace ClientStream

variable {κ μ β : Type} (view : κ → β)

/-- The half of a stream that sends, with a view of its `Conn`, is the same. -/
structure SameSend (cs cs' : ClientStream κ) : Prop where
  sendHeadersOnce : cs'.sendHeadersOnce = cs.sendHeadersOnce
  closeSendOnce : cs'.closeSendOnce = cs.closeSendOnce
  conn : view cs'.session.conn = view cs.session.conn

variable {view} {cfg : ClientConfig κ μ} {cs cs₁ cs₂ : ClientStream κ}

theorem SameSend.refl (cs : ClientStream κ) : SameSend view cs cs := ⟨rfl, rfl, rfl⟩

theorem SameSend.trans (h : SameSend view cs cs₁) (h' : SameSend view cs₁ cs₂) :
    SameSend view cs cs₂ :=
  ⟨h'.sendHeadersOnce.trans h.sendHeadersOnce, h'.closeSendOnce.trans h.closeSendOnce,
    h'.conn.trans h.conn⟩

variable (hread : ∀ k, view (cfg.conn.readEnvelope k).2 = view k)
include hread

theorem sameSend_readEnvelope (cs : ClientStream κ) (awaits : Awaits) :
    SameSend view cs (cs.readEnvelope cfg awaits).2 := ⟨rfl, rfl, hread _⟩

omit hread in
theorem sameSend_endStream (cs : ClientStream κ) (payload : Bytes) :
    SameSend view cs (cs.endStream cfg payload).2 := by
  unfold ClientStream.endStream
  split <;> exact ⟨rfl, rfl, rfl⟩

theorem sameSend_readUnaryEndStream (cs : ClientStream κ) :
    SameSend view cs (cs.readUnaryEndStream cfg).2 := by
  have hafter := sameSend_readEnvelope hread cs .endStream
  unfold ClientStream.readUnaryEndStream
  rcases h : cs.readEnvelope cfg .endStream with ⟨result, cs₁⟩
  rw [h] at hafter
  cases result with
  | error err => exact hafter
  | ok env =>
      simp only
      split
      · exact hafter
      · exact hafter.trans (sameSend_endStream cs₁ env.payload)

theorem sameSend_receiveMessage (cs : ClientStream κ) (env : Envelope) :
    SameSend view cs (cs.receiveMessage cfg env).2 := by
  have hunary := sameSend_readUnaryEndStream hread cs
  unfold ClientStream.receiveMessage
  rcases h : cs.readUnaryEndStream cfg with ⟨err, cs₁⟩
  rw [h] at hunary
  split
  · exact .refl cs
  · split
    · exact .refl cs
    · simp only
      split
      · exact .refl cs
      · split
        · exact .refl cs
        · split
          · cases err with
            | some err => exact hunary
            | none => exact hunary
          · exact .refl cs

theorem sameSend_receiveEnvelope (cs : ClientStream κ) (env : Envelope) :
    SameSend view cs (cs.receiveEnvelope cfg env).2 := by
  have hend : SameSend view cs (cs.endStream cfg env.payload).2 :=
    sameSend_endStream cs env.payload
  unfold ClientStream.receiveEnvelope
  rcases h : cs.endStream cfg env.payload with ⟨err, cs₁⟩
  rw [h] at hend
  split
  · exact .refl cs
  · split
    · cases err with
      | some err => exact hend
      | none => exact hend
    · split
      · exact .refl cs
      · exact sameSend_receiveMessage hread cs env

theorem sameSend_receiveNext (cs : ClientStream κ) : SameSend view cs (cs.receiveNext cfg).2 := by
  have hafter := sameSend_readEnvelope hread cs .message
  unfold ClientStream.receiveNext
  rcases h : cs.readEnvelope cfg .message with ⟨result, cs₁⟩
  rw [h] at hafter
  split
  · exact .refl cs
  · cases result with
    | error err =>
        simp only
        split <;> exact hafter
    | ok env => exact hafter.trans (sameSend_receiveEnvelope hread cs₁ env)

theorem sameSend_recvHeaders (cs : ClientStream κ) : SameSend view cs (cs.recvHeaders cfg).2 := by
  have hafter := sameSend_readEnvelope hread cs .headers
  unfold ClientStream.recvHeaders ClientStream.readHeaders
  rcases h : cs.readEnvelope cfg .headers with ⟨result, cs₁⟩
  rw [h] at hafter
  split
  · exact .refl cs
  · cases result with
    | error err => exact ⟨hafter.sendHeadersOnce, hafter.closeSendOnce, hafter.conn⟩
    | ok env =>
        simp only
        split
        · exact ⟨hafter.sendHeadersOnce, hafter.closeSendOnce, hafter.conn⟩
        · split <;> exact ⟨hafter.sendHeadersOnce, hafter.closeSendOnce, hafter.conn⟩

/-- `Receive` sends what `SendHeaders` does, and no more. -/
theorem sameSend_receive (cs : ClientStream κ) :
    SameSend view (cs.sendHeaders cfg).2 (cs.receive cfg).2 := by
  unfold ClientStream.receive
  rcases cs.sendHeaders cfg with ⟨err, cs₁⟩
  cases err with
  | some err => exact .refl cs₁
  | none =>
      have hafter := sameSend_recvHeaders hread cs₁
      simp only
      rcases h : cs₁.recvHeaders cfg with ⟨err, cs₂⟩
      rw [h] at hafter
      cases err with
      | some err => exact hafter
      | none => exact hafter.trans (sameSend_receiveNext hread cs₂)

end ClientStream

-- ============================================================================
-- On a muxStream
-- ============================================================================

section
variable {μ : Type} (cfg : ClientConfig MuxEnd μ) (answer : Nat → Except GoError Envelope)

/-- The call on a `muxStream`. -/
def ClientConfig.onMuxStream : ClientConfig MuxEnd μ := { cfg with conn := muxStreamConn answer }

namespace ClientStream

/-- What `WriteEnvelope` has written for a stream. -/
def requests (cs : ClientStream MuxEnd) : List Envelope := cs.session.conn.written

/-- `Close` has released the stream, or something else has ended it. -/
def terminated (cs : ClientStream MuxEnd) : Bool := cs.session.conn.stream.terminated

/-- What a caller does that keeps to the order: it opens the request before it
    closes it, and sends nothing more between the half-close and `Close`. -/
def Sequenced (cs : ClientStream MuxEnd) : ClientOp μ → Prop
  | .sendHeaders | .receive => True
  | .closeSend | .close => cs.closeSendOnce = false → cs.sendHeadersOnce ≠ none
  | .send msg => cs.closeSendOnce = true → cs.terminated = true ∨ ¬ (encode cfg msg).isOk

/-- Where a stream is in its request, while the order is kept. -/
inductive InRequest (cs : ClientStream MuxEnd) : Prop where
  | start : cs.sendHeadersOnce = none → cs.closeSendOnce = false → cs.terminated = false →
      cs.requests = [] → InRequest cs
  | body : cs.sendHeadersOnce = some none → cs.closeSendOnce = false → cs.terminated = false →
      envelopeOrder.run cs.requests = some .body → InRequest cs
  | ended : cs.sendHeadersOnce = some none → cs.closeSendOnce = true →
      envelopeOrder.run cs.requests = some .ended → InRequest cs

/-- The order is kept so far, and every write has been allowed. -/
structure Ordered (cs : ClientStream MuxEnd) : Prop where
  ctx : cs.terminated = false → cs.session.conn.stream.ctxErr = none
  phase : cs.InRequest

/-- All that the order depends on. -/
def sendView (m : MuxEnd) : List Envelope × Bool × Option GoError :=
  (m.written, m.stream.terminated, m.stream.ctxErr)

theorem sendView_readEnvelope (m : MuxEnd) :
    sendView ((cfg.onMuxStream answer).conn.readEnvelope m).2 = sendView m := by
  show sendView (match answer m.reads with
    | .ok env => (Except.ok env,
        { m with stream := m.stream.acceptEnvelope env, reads := m.reads + 1 })
    | .error err => (.error err, { m with reads := m.reads + 1 })).2 = sendView m
  cases answer m.reads <;> rfl

variable {cs cs' : ClientStream MuxEnd}

theorem Ordered.of_same (hcs : Ordered cs) (hsame : SameSend sendView cs cs') : Ordered cs' := by
  obtain ⟨hsend, hclose, hview⟩ := hsame
  obtain ⟨hwritten, hterminated, hctx⟩ : cs'.requests = cs.requests ∧
      cs'.terminated = cs.terminated ∧
      cs'.session.conn.stream.ctxErr = cs.session.conn.stream.ctxErr := by
    simpa [sendView, requests, ClientStream.terminated] using hview
  refine ⟨fun h => hctx.trans (hcs.ctx (hterminated.symm.trans h)), ?_⟩
  cases hcs.phase with
  | start h₁ h₂ h₃ h₄ =>
      exact .start (hsend.trans h₁) (hclose.trans h₂) (hterminated.trans h₃) (hwritten.trans h₄)
  | body h₁ h₂ h₃ h₄ =>
      exact .body (hsend.trans h₁) (hclose.trans h₂) (hterminated.trans h₃) (hwritten ▸ h₄)
  | ended h₁ h₂ h₃ => exact .ended (hsend.trans h₁) (hclose.trans h₂) (hwritten ▸ h₃)

/-- After the body of a request one more envelope leads on. -/
theorem run_append_body {es : List Envelope} {env : Envelope}
    (h : envelopeOrder.run es = some .body) :
    envelopeOrder.run (es ++ [env]) = Progress.body.next env := by
  cases hnext : Progress.body.next env with
  | none =>
      cases hrun : envelopeOrder.run (es ++ [env]) with
      | none => rfl
      | some p =>
          obtain ⟨q, hq, hp⟩ := envelopeOrder.exec_append.mp hrun
          obtain rfl : Progress.body = q := Option.some.inj (h.symm.trans hq)
          obtain ⟨p', hp', -⟩ := envelopeOrder.exec_cons.mp hp
          rw [show envelopeOrder.step .body env = none from hnext] at hp'
          cases hp'
  | some p =>
      exact envelopeOrder.exec_append.mpr
        ⟨.body, h, envelopeOrder.exec_cons.mpr ⟨p, hnext, rfl⟩⟩

theorem Ordered.sendHeaders (hcs : Ordered cs) :
    Ordered (cs.sendHeaders (cfg.onMuxStream answer)).2 ∧
      (cs.sendHeaders (cfg.onMuxStream answer)).1 = none ∧
      (cs.sendHeaders (cfg.onMuxStream answer)).2.sendHeadersOnce = some none ∧
      (cs.sendHeaders (cfg.onMuxStream answer)).2.closeSendOnce = cs.closeSendOnce ∧
      (cs.sendHeaders (cfg.onMuxStream answer)).2.terminated = cs.terminated := by
  have hdone : cs.sendHeadersOnce = some none →
      cs.sendHeaders (cfg.onMuxStream answer) = (none, cs) := by
    intro h
    unfold ClientStream.sendHeaders
    rw [h]
  cases hcs.phase with
  | start h₁ h₂ h₃ h₄ =>
      have hwrite : ∀ data, (cs.session.writeEnvelope (cfg.onMuxStream answer).conn
          ⟨flagEnvelopeHeaders, data⟩) = (none, { cs.session with
            conn := { cs.session.conn with
              written := cs.session.conn.written ++ [⟨flagEnvelopeHeaders, data⟩] }
            writes := cs.session.writes ++ [(⟨flagEnvelopeHeaders, data⟩, none)] }) := by
        intro data
        unfold Session.writeEnvelope
        rw [show (cfg.onMuxStream answer).conn.writeEnvelope = MuxEnd.writeEnvelope from rfl,
          MuxEnd.writeEnvelope_of_open h₃ (hcs.ctx h₃)]
      obtain ⟨data, hdata⟩ : ∃ data, ConnectProtocol.marshalHeaders
          (cs.requestHeader (cfg.onMuxStream answer)) = .ok data := ⟨_, rfl⟩
      unfold ClientStream.sendHeaders ClientStream.writeHeaders
      rw [h₁, hdata]
      dsimp only
      rw [hwrite]
      refine ⟨⟨hcs.ctx, .body rfl h₂ h₃ ?_⟩, rfl, rfl, rfl, rfl⟩
      show envelopeOrder.run (cs.requests ++ [⟨flagEnvelopeHeaders, data⟩]) = some .body
      rw [h₄]
      rfl
  | body h₁ _ _ _ =>
      rw [hdone h₁]
      exact ⟨hcs, rfl, h₁, rfl, rfl⟩
  | ended h₁ _ _ =>
      rw [hdone h₁]
      exact ⟨hcs, rfl, h₁, rfl, rfl⟩

/-- A half-close in the body of a request ends it. -/
theorem Ordered.closeSend (hcs : Ordered cs)
    (hseq : cs.closeSendOnce = false → cs.sendHeadersOnce ≠ none) :
    Ordered (cs.closeSend (cfg.onMuxStream answer)).2 ∧
      (cs.closeSend (cfg.onMuxStream answer)).2.closeSendOnce = true ∧
      (cs.closeSend (cfg.onMuxStream answer)).2.sendHeadersOnce = some none := by
  cases hcs.phase with
  | start h₁ h₂ _ _ => exact absurd h₁ (hseq h₂)
  | body h₁ h₂ h₃ h₄ =>
      unfold ClientStream.closeSend Session.closeSend
      rw [h₂, show (cfg.onMuxStream answer).conn.closeSend cs.session.conn =
        cs.session.conn.writeEnvelope ⟨flagEnvelopeEndStream, []⟩ from rfl,
        MuxEnd.writeEnvelope_of_open h₃ (hcs.ctx h₃)]
      exact ⟨⟨hcs.ctx, .ended h₁ rfl (run_append_body h₄)⟩, rfl, h₁⟩
  | ended h₁ h₂ h₃ =>
      unfold ClientStream.closeSend
      rw [h₂]
      exact ⟨hcs, h₂, h₁⟩

theorem Ordered.close (hcs : Ordered cs)
    (hseq : cs.closeSendOnce = false → cs.sendHeadersOnce ≠ none) :
    Ordered (cs.close (cfg.onMuxStream answer)).2 := by
  obtain ⟨hafter, hclosed, hsent⟩ := hcs.closeSend cfg answer hseq
  unfold ClientStream.close
  rcases h : cs.closeSend (cfg.onMuxStream answer) with ⟨err, cs₁⟩
  rw [h] at hafter hclosed hsent
  obtain ⟨hwritten, hterminated⟩ : (cs₁.session.conn.close).2.written = cs₁.requests ∧
      (cs₁.session.conn.close).2.stream.terminated = true := by
    unfold MuxEnd.close
    simp only
    split
    · exact ⟨rfl, cs₁.session.conn.stream.terminated_terminate _⟩
    · exact ⟨rfl, cs₁.session.conn.stream.terminated_terminate _⟩
  refine ⟨fun hopen => ?_, .ended hsent hclosed ?_⟩
  · rw [show (cs₁.session.conn.close).2.stream.terminated = false from hopen] at hterminated
    cases hterminated
  · show envelopeOrder.run (cs₁.session.conn.close).2.written = some .ended
    rw [hwritten]
    cases hafter.phase with
    | start h₁ _ _ _ =>
        rw [h₁] at hsent
        cases hsent
    | body _ h₂ _ _ =>
        rw [h₂] at hclosed
        cases hclosed
    | ended _ _ h₃ => exact h₃

theorem Ordered.send (hcs : Ordered cs) (msg : μ) (hseq : cs.closeSendOnce = true →
    cs.terminated = true ∨ ¬ (encode (cfg.onMuxStream answer) msg).isOk) :
    Ordered (cs.send (cfg.onMuxStream answer) msg).2 := by
  obtain ⟨hafter, hok, hsent, hclosed, hterminated⟩ := hcs.sendHeaders cfg answer
  unfold ClientStream.send
  rcases h : cs.sendHeaders (cfg.onMuxStream answer) with ⟨err, cs₁⟩
  rw [h] at hafter hok hsent hclosed hterminated
  obtain rfl : err = none := hok
  simp only
  cases henv : encode (cfg.onMuxStream answer) msg with
  | error err => exact hafter
  | ok env =>
      simp only
      unfold Session.writeEnvelope
      rw [show (cfg.onMuxStream answer).conn.writeEnvelope = MuxEnd.writeEnvelope from rfl]
      cases hafter.phase with
      | start h₁ _ _ _ =>
          rw [h₁] at hsent
          cases hsent
      | body h₁ h₂ h₃ h₄ =>
          rw [MuxEnd.writeEnvelope_of_open h₃ (hafter.ctx h₃)]
          refine ⟨hafter.ctx, .body h₁ h₂ h₃ ?_⟩
          show envelopeOrder.run (cs₁.requests ++ [env]) = some .body
          rw [run_append_body h₄]
          simp [Progress.next, encode_isMessage henv]
      | ended h₁ h₂ h₃ =>
          -- the message is encodable, so the stream has been released
          have hend : cs₁.terminated = true := by
            rw [hterminated]
            rcases hseq (hclosed.symm.trans h₂) with hend | hbad
            · exact hend
            · rw [henv] at hbad
              exact absurd rfl hbad
          have hsame : (cs₁.session.conn.writeEnvelope env).2 = cs₁.session.conn :=
            MuxEnd.writeEnvelope_of_terminated hend
          refine hafter.of_same ⟨rfl, rfl, ?_⟩
          exact congrArg sendView hsame

theorem Ordered.receive (hcs : Ordered cs) :
    Ordered (cs.receive (cfg.onMuxStream answer)).2 :=
  (hcs.sendHeaders cfg answer).1.of_same
    (sameSend_receive (sendView_readEnvelope cfg answer) cs)

theorem Ordered.step (hcs : Ordered cs) (op : ClientOp μ)
    (hseq : cs.Sequenced (cfg.onMuxStream answer) op) :
    Ordered (cs.step (cfg.onMuxStream answer) op) := by
  cases op with
  | sendHeaders => exact (hcs.sendHeaders cfg answer).1
  | send msg => exact hcs.send cfg answer msg hseq
  | closeSend => exact (hcs.closeSend cfg answer hseq).1
  | receive => exact hcs.receive cfg answer
  | close => exact hcs.close cfg answer hseq

theorem Ordered.inOrder (hcs : Ordered cs) : InOrder cs.requests := by
  cases hcs.phase with
  | start _ _ _ h =>
      rw [h]
      decide
  | body _ _ _ h =>
      rw [InOrder, h]
      rfl
  | ended _ _ h =>
      rw [InOrder, h]
      rfl

-- ============================================================================
-- Out of order
-- ============================================================================

theorem requests_sendHeaders (cs : ClientStream MuxEnd) :
    cs.requests <+: (cs.sendHeaders (cfg.onMuxStream answer)).2.requests := by
  unfold ClientStream.sendHeaders
  split
  · exact List.prefix_rfl
  · exact MuxEnd.written_writeEnvelope ..

theorem requests_closeSend (cs : ClientStream MuxEnd) :
    cs.requests <+: (cs.closeSend (cfg.onMuxStream answer)).2.requests := by
  unfold ClientStream.closeSend
  split
  · exact List.prefix_rfl
  · exact MuxEnd.written_writeEnvelope ..

theorem requests_close (cs : ClientStream MuxEnd) :
    (cs.close (cfg.onMuxStream answer)).2.requests =
      (cs.closeSend (cfg.onMuxStream answer)).2.requests := by
  show (MuxEnd.close _).2.written = _
  unfold MuxEnd.close
  simp only
  split <;> rfl

/-- Every call only adds to what has been written. -/
theorem requests_step (cs : ClientStream MuxEnd) (op : ClientOp μ) :
    cs.requests <+: (cs.step (cfg.onMuxStream answer) op).requests := by
  have hheaders := requests_sendHeaders cfg answer cs
  cases op with
  | sendHeaders => exact hheaders
  | send msg =>
      show cs.requests <+: (cs.send (cfg.onMuxStream answer) msg).2.requests
      unfold ClientStream.send
      rcases h : cs.sendHeaders (cfg.onMuxStream answer) with ⟨err, cs₁⟩
      rw [h] at hheaders
      cases err with
      | some err => exact hheaders
      | none =>
          simp only
          split
          · exact hheaders
          · exact hheaders.trans (MuxEnd.written_writeEnvelope ..)
  | closeSend => exact requests_closeSend cfg answer cs
  | receive =>
      have hsame := (sameSend_receive (sendView_readEnvelope cfg answer) cs).conn
      have hwritten : (cs.receive (cfg.onMuxStream answer)).2.requests =
          (cs.sendHeaders (cfg.onMuxStream answer)).2.requests := congrArg Prod.fst hsame
      show cs.requests <+: (cs.receive (cfg.onMuxStream answer)).2.requests
      rw [hwritten]
      exact hheaders
  | close =>
      show cs.requests <+: (cs.close (cfg.onMuxStream answer)).2.requests
      rw [requests_close]
      exact requests_closeSend cfg answer cs

theorem requests_exec {cs cs' : ClientStream MuxEnd} {conn : MuxEnd}
    {callInfo : Option CallInfo} {ops : List (ClientOp μ)}
    (h : (clientMachine (cfg.onMuxStream answer) conn callInfo).exec cs ops = some cs') :
    cs.requests <+: cs'.requests := by
  refine Machine.exec_invariant (I := fun s => cs.requests <+: s.requests) _ ?_ List.prefix_rfl h
  intro s op s' hs hstep
  obtain rfl : s.step (cfg.onMuxStream answer) op = s' := Option.some.inj hstep
  exact hs.trans (requests_step cfg answer s op)

/-- A half-close that comes first. -/
theorem Ordered.not_inOrder_closeSend (hcs : Ordered cs) (hclosed : cs.closeSendOnce = false)
    (hunsent : cs.sendHeadersOnce = none) :
    ¬ InOrder (cs.closeSend (cfg.onMuxStream answer)).2.requests := by
  cases hcs.phase with
  | start _ _ h₃ h₄ =>
      have hwritten : (cs.closeSend (cfg.onMuxStream answer)).2.requests =
          cs.requests ++ [⟨flagEnvelopeEndStream, []⟩] := by
        unfold ClientStream.closeSend Session.closeSend
        rw [hclosed, show (cfg.onMuxStream answer).conn.closeSend cs.session.conn =
          cs.session.conn.writeEnvelope ⟨flagEnvelopeEndStream, []⟩ from rfl,
          MuxEnd.writeEnvelope_of_open h₃ (hcs.ctx h₃)]
        rfl
      rw [hwritten, h₄]
      decide
  | body h₁ _ _ _ =>
      rw [h₁] at hunsent
      cases hunsent
  | ended h₁ _ _ =>
      rw [h₁] at hunsent
      cases hunsent

/-- A message after the half-close. -/
theorem Ordered.not_inOrder_send (hcs : Ordered cs) {msg : μ} {env : Envelope}
    (hclosed : cs.closeSendOnce = true) (hopen : cs.terminated = false)
    (henv : encode (cfg.onMuxStream answer) msg = .ok env) :
    ¬ InOrder (cs.send (cfg.onMuxStream answer) msg).2.requests := by
  cases hcs.phase with
  | start _ h₂ _ _ =>
      rw [h₂] at hclosed
      cases hclosed
  | body _ h₂ _ _ =>
      rw [h₂] at hclosed
      cases hclosed
  | ended h₁ _ h₃ =>
      have hwritten : (cs.send (cfg.onMuxStream answer) msg).2.requests = cs.requests ++ [env] := by
        unfold ClientStream.send ClientStream.sendHeaders Session.writeEnvelope
        rw [h₁]
        simp only
        rw [henv]
        show (cs.session.conn.writeEnvelope env).2.written = cs.requests ++ [env]
        rw [MuxEnd.writeEnvelope_of_open hopen (hcs.ctx hopen)]
        rfl
      rw [hwritten]
      intro hin
      obtain ⟨p, hp⟩ := Option.isSome_iff_exists.mp hin
      obtain ⟨q, hq, hp⟩ := envelopeOrder.exec_append.mp hp
      obtain rfl : Progress.ended = q := Option.some.inj (h₃.symm.trans hq)
      obtain ⟨_, hnext, -⟩ := envelopeOrder.exec_cons.mp hp
      cases hnext

theorem Ordered.not_inOrder_step (hcs : Ordered cs) (op : ClientOp μ)
    (hseq : ¬ cs.Sequenced (cfg.onMuxStream answer) op) :
    ¬ InOrder (cs.step (cfg.onMuxStream answer) op).requests := by
  cases op with
  | sendHeaders => exact absurd trivial hseq
  | receive => exact absurd trivial hseq
  | closeSend =>
      obtain ⟨hclosed, hunsent⟩ := Classical.not_imp.mp hseq
      exact hcs.not_inOrder_closeSend cfg answer hclosed (not_not.mp hunsent)
  | close =>
      obtain ⟨hclosed, hunsent⟩ := Classical.not_imp.mp hseq
      show ¬ InOrder (cs.close (cfg.onMuxStream answer)).2.requests
      rw [requests_close]
      exact hcs.not_inOrder_closeSend cfg answer hclosed (not_not.mp hunsent)
  | send msg =>
      obtain ⟨hclosed, hbad⟩ := Classical.not_imp.mp hseq
      obtain ⟨hopen, hok⟩ := not_or.mp hbad
      cases henv : encode (cfg.onMuxStream answer) msg with
      | error err =>
          rw [henv] at hok
          exact absurd Bool.false_ne_true hok
      | ok env =>
          exact hcs.not_inOrder_send cfg answer hclosed (Bool.eq_false_of_not_eq_true hopen) henv

end ClientStream

open ClientStream in
/-- For every sequence of calls on one stream: what is written through
    `WriteEnvelope` follows the documented order if and only if the caller
    keeps to it. -/
theorem requests_in_order_iff (dedicated : Bool) (id : UInt32) (callInfo : Option CallInfo)
    (ops : List (ClientOp μ)) :
    let calls := clientMachine (cfg.onMuxStream answer) { stream := { id, dedicated } } callInfo
    (∀ cs, calls.run ops = some cs → InOrder cs.requests) ↔
      calls.Meets (Sequenced (cfg.onMuxStream answer)) calls.init ops := by
  intro calls
  have hgeneral : ∀ (ops : List (ClientOp μ)) (cs : ClientStream MuxEnd), Ordered cs →
      ((∀ cs', calls.exec cs ops = some cs' → InOrder cs'.requests) ↔
        calls.Meets (Sequenced (cfg.onMuxStream answer)) cs ops) := by
    intro ops
    induction ops with
    | nil =>
        intro cs hcs
        exact ⟨fun _ => trivial, fun _ cs' h => Option.some.inj h ▸ hcs.inOrder⟩
    | cons op ops ih =>
        intro cs hcs
        have hstep : calls.step cs op = some (cs.step (cfg.onMuxStream answer) op) := rfl
        rw [calls.meets_cons hstep]
        have hexec : ∀ cs', calls.exec cs (op :: ops) = some cs' ↔
            calls.exec (cs.step (cfg.onMuxStream answer) op) ops = some cs' := fun cs' => Iff.rfl
        by_cases hseq : cs.Sequenced (cfg.onMuxStream answer) op
        · have hnext := ih _ (hcs.step cfg answer op hseq)
          constructor
          · intro hin
            exact ⟨hseq, hnext.mp fun cs' h => hin cs' ((hexec cs').mpr h)⟩
          · intro hmeets cs' h
            exact hnext.mpr hmeets.2 cs' ((hexec cs').mp h)
        · constructor
          · intro hin
            -- what is out of order stays so, whatever is written after it
            obtain ⟨cs', h⟩ := exec_clientMachine (cfg.onMuxStream answer) _ callInfo
              (cs.step (cfg.onMuxStream answer) op) ops
            obtain ⟨more, hmore⟩ := requests_exec cfg answer h
            have hlast := hin cs' ((hexec cs').mpr h)
            rw [← hmore] at hlast
            exact absurd hlast.of_append (hcs.not_inOrder_step cfg answer op hseq)
          · intro hmeets
            exact absurd hmeets.1 hseq
  exact hgeneral ops calls.init ⟨fun _ => rfl, .start rfl rfl rfl rfl⟩

end

/-- A stream that is half-closed before anything has been sent. -/
theorem half_close_before_headers :
    let cfg := (bytesCall (muxStreamConn fun _ => .error .eof)).onMuxStream fun _ => .error .eof
    let calls := clientMachine cfg { stream := { id := 1 } } (some {})
    ∃ cs, calls.run [.closeSend] = some cs ∧
      cs.requests = [⟨flagEnvelopeEndStream, []⟩] ∧ ¬ InOrder cs.requests :=
  ⟨_, rfl, rfl, by decide⟩

end BidiProtocol
end BidiWeb
