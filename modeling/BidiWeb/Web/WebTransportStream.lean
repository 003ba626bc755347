/-
  BidiWeb.Web.WebTransportStream

  A bidirectional stream of a browser's WebTransport session, from
  `runWebTransportCall` of `webtransport-helper.ts` to the goroutine of
  `connectwebtransport/server.go` that serves it.

  The end of the server is the one of a `BidiStream`.  The browser writes an
  envelope in one `write`, and the user agent cuts what arrives into chunks of
  its own, which the envelope reader puts together again.
-/

import BidiWeb.ConnectWebTransport.PipeEnds
import BidiWeb.Web.EnvelopeEnd
import BidiWeb.Web.RequestWriter

namespace BidiWeb

namespace Web

open BidiWeb.ConnectWebTransport
open BidiWeb.Core (JsError)
open BidiWeb.Lib

-- ============================================================================
-- State
-- ============================================================================

structure CallStream where
  /-- The stream as the server knows it. -/
  bidi : BidiStream := {}
  writer : Writer := .headers
  /-- What the user agent has put into `stream.readable`. -/
  arrived : Bytes := []
  readable : ReadableStream Bytes JsError := {}
  /-- `envReader` -/
  response : EnvelopeReader := {}

inductive StreamEvent where
  /-- `writer.write(encodeEnvelope(writeHeaderFlag, headersBytes))` -/
  | headers (headersBytes : Bytes)
  /-- The request iterator yields. -/
  | message (msg : Bytes)
  /-- The request iterator ends: `writer.close()`. -/
  | finish
  /-- The request iterator throws: `writer.abort(err)`. -/
  | fail
  /-- The `write` that is awaited rejects. -/
  | rejected
  /-- `envReader` pulls, its pull goes on, or the call reads from it. -/
  | pull
  | settle
  | read
  /-- The user agent accepts `n` bytes of a `write`. -/
  | accept (n : Nat)
  /-- The writable errors: the server reads no more, or the session ends. -/
  | stop (err : GoError)
  /-- The user agent enqueues the next `n` bytes. -/
  | arrive (n : Nat)
  /-- It closes the readable. -/
  | close
  | error (reason : JsError)
  /-- The server's end, as in `SessionEvent`. -/
  | acceptStream
  | up (ev : PipeEvent)
  | down (ev : PipeEvent)
  | handleRPCReturns
  | deferred (err : GoError)
deriving DecidableEq, Repr

-- ============================================================================
-- Steps
-- ============================================================================

namespace CallStream

variable (s : CallStream)

/-- `writer.abort(err)`, after which nothing is written; it changes nothing
    where the writable has errored. -/
def abort : Option CallStream :=
  (s.bidi.upStep (.breakWrite .canceled)).map fun bidi => { s with bidi, writer := .aborted }

/-- A `write` is called when the one before has been fulfilled. -/
def write (before : Writer) (env : Envelope) : Option CallStream :=
  if s.writer ≠ before ∨ s.bidi.up.writing.isSome then none
  else if s.bidi.up.fin ∨ s.bidi.up.writeErr.isSome then s.abort
  else some { s with bidi := { s.bidi with up := s.bidi.up.write env }, writer := .messages }

def finish : Option CallStream :=
  if s.writer ≠ .messages ∨ s.bidi.up.writing.isSome then none
  else if s.bidi.up.writeErr.isSome then s.abort
  else (s.bidi.upStep .closeSend).map fun bidi => { s with bidi, writer := .closed }

def fail : Option CallStream :=
  if s.writer ≠ .messages ∨ s.bidi.up.writing.isSome then none else s.abort

def rejected : Option CallStream :=
  (s.bidi.upStep .writeFails).map fun bidi => { s with bidi, writer := .aborted }

/-- The reader of the response is made once the headers have been written. -/
def reads : Bool := !s.bidi.up.wrote.isEmpty

def ofReader (p : EnvelopeReader × ReadableStream Bytes JsError) : CallStream :=
  { s with response := p.1, readable := p.2 }

def arrive (n : Nat) : Option CallStream :=
  let chunk := (s.bidi.down.put.drop s.arrived.length).take n
  if n = 0 ∨ chunk.length < n then none
  else
    (s.readable.enqueue chunk).map fun readable =>
      { s with readable, arrived := s.arrived ++ chunk }

/-- The server has closed its end, and everything has arrived. -/
def close : Option CallStream :=
  if s.bidi.down.fin ∧ s.arrived = s.bidi.down.put then
    s.readable.close.map fun readable => { s with readable }
  else none

def step [ConnectPackage] (ev : StreamEvent) : Option CallStream :=
  match ev with
  | .headers headersBytes => s.write .headers ⟨flagEnvelopeHeaders, headersBytes⟩
  | .message msg => s.write .messages ⟨flagEnvelopeData, msg⟩
  | .finish => s.finish
  | .fail => s.fail
  | .rejected => s.rejected
  | .pull => if s.reads then (s.response.pull s.readable).map s.ofReader else none
  | .settle => (s.response.settle s.readable).map s.ofReader
  | .read =>
      if s.reads then
        some { s with response := { s.response with envelopes := s.response.envelopes.read } }
      else none
  | .accept n => (s.bidi.upStep (.accept n)).map fun bidi => { s with bidi }
  | .stop err => (s.bidi.upStep (.breakWrite err)).map fun bidi => { s with bidi }
  | .arrive n => s.arrive n
  | .close => s.close
  | .error reason => some { s with readable := s.readable.error reason }
  | .acceptStream => s.bidi.acceptStream.map fun bidi => { s with bidi }
  | .up ev => if ev.ofReader then (s.bidi.upStep ev).map fun bidi => { s with bidi } else none
  | .down ev => if ev.ofReader then none else (s.bidi.downStep ev).map fun bidi => { s with bidi }
  | .handleRPCReturns => s.bidi.handleRPCReturns.map fun bidi => { s with bidi }
  | .deferred err => (s.bidi.deferred err).map fun bidi => { s with bidi }

end CallStream

-- ============================================================================
-- The request
-- ============================================================================

/-- The headers, and one envelope for each message. -/
def IsRequest (started : List Envelope) : Prop :=
  started = [] ∨ ∃ (headersBytes : Bytes) (msgs : List Bytes),
    started = ⟨flagEnvelopeHeaders, headersBytes⟩ :: msgs.map fun msg => ⟨flagEnvelopeData, msg⟩

/-- How far the writer is with the request. -/
structure Requests (writer : Writer) (up : Pipe) : Prop where
  framed : IsRequest up.started
  headers : writer = .headers → up.started = []
  messages : writer = .messages → up.started ≠ []
  closes : up.fin = true → writer = .closed

theorem requests_init : Requests .headers {} where
  framed := Or.inl rfl
  headers := fun _ => rfl
  messages := nofun
  closes := nofun

variable {writer : Writer} {up up' : Pipe}

theorem Requests.of_same (h : Requests writer up) (hstarted : up'.started = up.started)
    (hfin : up'.fin = up.fin) : Requests writer up' where
  framed := hstarted ▸ h.framed
  headers := fun hw => hstarted.trans (h.headers hw)
  messages := fun hw => hstarted ▸ h.messages hw
  closes := fun hf => h.closes (hfin.symm.trans hf)

/-- The writer gives up before the end of the request. -/
theorem Requests.aborted (h : Requests writer up) (hopen : up.fin = false)
    (hstarted : up'.started = up.started) (hfin : up'.fin = up.fin) : Requests .aborted up' where
  framed := hstarted ▸ h.framed
  headers := nofun
  messages := nofun
  closes := fun hf => absurd ((hf.symm.trans hfin).trans hopen) (by decide)

theorem Requests.closed (h : Requests writer up) (hstarted : up'.started = up.started) :
    Requests .closed up' where
  framed := hstarted ▸ h.framed
  headers := nofun
  messages := nofun
  closes := fun _ => rfl

theorem Requests.not_fin (h : Requests writer up) (hwriter : writer ≠ .closed) :
    up.fin = false := by
  cases hf : up.fin with
  | false => rfl
  | true => exact absurd (h.closes hf) hwriter

theorem Requests.write_headers (h : Requests .headers up) (headersBytes : Bytes) :
    Requests .messages (up.write ⟨flagEnvelopeHeaders, headersBytes⟩) where
  framed := Or.inr ⟨headersBytes, [], by rw [Pipe.write, h.headers rfl]; rfl⟩
  headers := nofun
  messages := fun _ => List.append_ne_nil_of_right_ne_nil _ (List.cons_ne_nil _ _)
  closes := fun hf => absurd (h.closes hf) (by decide)

theorem Requests.write_message (h : Requests .messages up) (msg : Bytes) :
    Requests .messages (up.write ⟨flagEnvelopeData, msg⟩) where
  framed := by
    rcases h.framed with hnil | ⟨headersBytes, msgs, hstarted⟩
    · exact absurd hnil (h.messages rfl)
    · refine Or.inr ⟨headersBytes, msgs ++ [msg], ?_⟩
      show up.started ++ [_] = _
      rw [hstarted, List.map_append]
      rfl
  headers := nofun
  messages := fun _ => List.append_ne_nil_of_right_ne_nil _ (List.cons_ne_nil _ _)
  closes := fun hf => absurd (h.closes hf) (by decide)

-- ============================================================================
-- What arrives
-- ============================================================================

/-- What the user agent has made of the bytes of the server. -/
structure Arrives (down : Pipe) (arrived : Bytes) (readable : ReadableStream Bytes JsError) :
    Prop where
  le : arrived <+: down.put
  received : readable.received.flatten <+: arrived
  intact : (∀ e, readable.phase ≠ .errored e) →
    (readable.received ++ readable.queue).flatten = arrived
  closed : readable.canCloseOrEnqueue = false → (∀ e, readable.phase ≠ .errored e) →
    down.fin = true ∧ arrived = down.put

theorem arrives_init : Arrives {} [] {} where
  le := List.prefix_rfl
  received := List.prefix_rfl
  intact := fun _ => rfl
  closed := nofun

section Arrives

variable {down down' : Pipe} {arrived : Bytes} {readable readable' : ReadableStream Bytes JsError}

theorem Arrives.of_grows (h : Arrives down arrived readable) (hgrows : down.Grows down') :
    Arrives down' arrived readable where
  le := h.le.trans hgrows.put
  received := h.received
  intact := h.intact
  closed := by
    intro hclosed herr
    obtain ⟨hfin, hall⟩ := h.closed hclosed herr
    obtain ⟨hfin', hput⟩ := hgrows.closed hfin
    exact ⟨hfin', hall.trans hput.symm⟩

theorem Arrives.read (h : Arrives down arrived readable) : Arrives down arrived readable.read where
  le := h.le
  received := by
    cases hended : readable.hasEnded with
    | true =>
        rw [ReadableStream.received_read_of_hasEnded hended]
        exact h.received
    | false =>
        have herr : ∀ e, readable.phase ≠ .errored e := by
          intro e he
          simp [ReadableStream.hasEnded, he] at hended
        rw [← h.intact herr, ← ReadableStream.received_queue_read, List.flatten_append]
        exact List.prefix_append ..
  intact := fun herr => by
    rw [ReadableStream.received_queue_read]
    exact h.intact (ReadableStream.errored_read.mp herr)
  closed := fun hclosed herr =>
    h.closed ((ReadableStream.canCloseOrEnqueue_read _).symm.trans hclosed)
      (ReadableStream.errored_read.mp herr)

theorem Arrives.enqueue (h : Arrives down arrived readable) {chunk : Bytes}
    (henq : readable.enqueue chunk = some readable') (hle : arrived ++ chunk <+: down.put) :
    Arrives down (arrived ++ chunk) readable' := by
  have hopen : readable.canCloseOrEnqueue = true := by
    cases hclosed : readable.canCloseOrEnqueue with
    | true => rfl
    | false =>
        rw [ReadableStream.enqueue_eq_none.mpr hclosed] at henq
        cases henq
  obtain ⟨hmoved, -, -⟩ := ReadableStream.received_queue_enqueue henq
  have hall : (readable'.received ++ readable'.queue).flatten = arrived ++ chunk := by
    rw [hmoved, List.flatten_append,
      h.intact (ReadableStream.not_errored_of_canCloseOrEnqueue hopen)]
    simp
  refine ⟨hle, ?_, fun _ => hall, fun hclosed => ?_⟩
  · rw [← hall, List.flatten_append]
    exact List.prefix_append ..
  · rw [ReadableStream.canCloseOrEnqueue_of_enqueue henq] at hclosed
    cases hclosed

theorem Arrives.close (h : Arrives down arrived readable)
    (hclose : readable.close = some readable') (hfin : down.fin = true)
    (hall : arrived = down.put) : Arrives down arrived readable' := by
  obtain ⟨hreceived, hqueue, -⟩ := ReadableStream.received_queue_close hclose
  have hopen : readable.canCloseOrEnqueue = true := by
    cases hclosed : readable.canCloseOrEnqueue with
    | true => rfl
    | false =>
        rw [ReadableStream.close_eq_none.mpr hclosed] at hclose
        cases hclose
  refine ⟨h.le, hreceived ▸ h.received, fun _ => ?_, fun _ _ => ⟨hfin, hall⟩⟩
  rw [hreceived, hqueue]
  exact h.intact (ReadableStream.not_errored_of_canCloseOrEnqueue hopen)

theorem Arrives.error (h : Arrives down arrived readable) (e : JsError) :
    Arrives down arrived (readable.error e) := by
  cases hended : readable.hasEnded with
  | true =>
      rw [ReadableStream.error_of_hasEnded hended]
      exact h
  | false =>
      have herror : (readable.error e).phase = .errored e := by
        obtain ⟨phase, results⟩ := readable
        cases phase <;> first | rfl | cases hended
      exact ⟨h.le, (ReadableStream.received_error readable e).1 ▸ h.received,
        fun hnot => absurd herror (hnot e), fun _ hnot => absurd herror (hnot e)⟩

end Arrives

-- ============================================================================
-- Every step
-- ============================================================================

/-- What `write` is called with. -/
def StreamEvent.payload? : StreamEvent → Option Bytes
  | .headers payload | .message payload => some payload
  | .finish | .fail | .rejected | .pull | .settle | .read | .accept _ | .stop _ | .arrive _ | .close
  | .error _ | .acceptStream | .up _ | .down _ | .handleRPCReturns | .deferred _ => none

/-- An envelope has four bytes for the length of its payload. -/
def StreamEvent.Fits (ev : StreamEvent) : Prop :=
  ∀ payload ∈ ev.payload?, payload.length < 0x100000000

instance (ev : StreamEvent) : Decidable ev.Fits :=
  inferInstanceAs (Decidable (∀ payload ∈ ev.payload?, payload.length < 0x100000000))

namespace CallStream

structure Inv [ConnectPackage] (s : CallStream) : Prop where
  bidi : s.bidi.Inv
  request : Requests s.writer s.bidi.up
  arrives : Arrives s.bidi.down s.arrived s.readable
  response : s.response.Inv s.readable
  exact : s.response.Exact s.readable
  ends : s.response.Ends s.readable
  chunks : s.readable.Told
  envelopes : s.response.envelopes.Told

variable {connect : ConnectPackage} {s s' : CallStream}

theorem inv_init : Inv {} where
  bidi := BidiStream.inv_init
  request := requests_init
  arrives := arrives_init
  response := EnvelopeReader.inv_init
  exact := rfl
  ends := EnvelopeReader.ends_of_open rfl
  chunks := ReadableStream.told_new
  envelopes := ReadableStream.told_new

/-- The stream moves on the side of the server, or the writer does. -/
theorem Inv.ofBidi (hs : s.Inv) {bidi : BidiStream} {writer : Writer} (hbidi : bidi.Inv)
    (hrequest : Requests writer bidi.up) (hgrows : s.bidi.down.Grows bidi.down) :
    Inv { s with bidi, writer } :=
  { hs with bidi := hbidi, request := hrequest, arrives := hs.arrives.of_grows hgrows }

/-- Something else than the request moves. -/
theorem Inv.ofUp (hs : s.Inv) {ev : PipeEvent} {bidi : BidiStream}
    (hstep : s.bidi.upStep ev = some bidi) (hwrite : ∀ env, ev ≠ .writeEnvelope env)
    (hclose : ev ≠ .closeSend) : Inv { s with bidi } := by
  obtain ⟨hup, hdown⟩ := BidiStream.of_upStep hstep
  obtain ⟨hstarted, hfin⟩ := Pipe.request_of_step hup hwrite hclose
  exact hs.ofBidi (hs.bidi.upStep hstep) (hs.request.of_same hstarted hfin) (hdown ▸ .refl _)

theorem Inv.ofUnchanged (hs : s.Inv) {bidi : BidiStream} (hbidi : bidi.Inv)
    (hup : bidi.up = s.bidi.up) (hdown : bidi.down = s.bidi.down) : Inv { s with bidi } :=
  hs.ofBidi hbidi (hup ▸ hs.request) (hdown ▸ .refl _)

/-- The writer gives up. -/
theorem Inv.aborted (hs : s.Inv) (hopen : s.bidi.up.fin = false) {ev : PipeEvent}
    {bidi : BidiStream} (hstep : s.bidi.upStep ev = some bidi)
    (hwrite : ∀ env, ev ≠ .writeEnvelope env) (hclose : ev ≠ .closeSend) :
    Inv { s with bidi, writer := .aborted } := by
  obtain ⟨hup, hdown⟩ := BidiStream.of_upStep hstep
  obtain ⟨hstarted, hfin⟩ := Pipe.request_of_step hup hwrite hclose
  exact hs.ofBidi (hs.bidi.upStep hstep) (hs.request.aborted hopen hstarted hfin) (hdown ▸ .refl _)

theorem Inv.abort (hs : s.Inv) (hwriter : s.writer ≠ .closed) (hstep : s.abort = some s') :
    s'.Inv := by
  obtain ⟨bidi, hbidi, rfl⟩ := Option.map_eq_some_iff.mp hstep
  exact hs.aborted (hs.request.not_fin hwriter) hbidi nofun nofun

theorem Inv.write (hs : s.Inv) {before : Writer} {env : Envelope} (hbefore : before ≠ .closed)
    (hframed : Requests before s.bidi.up → Requests .messages (s.bidi.up.write env))
    (henv : Encodable env) (hstep : s.write before env = some s') : s'.Inv := by
  unfold CallStream.write at hstep
  split at hstep
  · cases hstep
  · rename_i hready
    obtain ⟨hwriter, hw⟩ : s.writer = before ∧ s.bidi.up.writing = none := by
      simpa [not_or] using hready
    have hnot : s.writer ≠ .closed := hwriter ▸ hbefore
    split at hstep
    · exact hs.abort hnot hstep
    · rename_i hopen
      obtain ⟨hfin, hup⟩ : s.bidi.up.fin = false ∧ s.bidi.up.writeErr = none := by
        simpa [not_or] using hopen
      cases hstep
      exact hs.ofBidi (hs.bidi.write hw hfin hup henv) (hframed (hwriter ▸ hs.request)) (.refl _)

theorem Inv.finish (hs : s.Inv) (hstep : s.finish = some s') : s'.Inv := by
  unfold CallStream.finish at hstep
  split at hstep
  · cases hstep
  · rename_i hready
    obtain ⟨hwriter, -⟩ : s.writer = .messages ∧ s.bidi.up.writing = none := by
      simpa [not_or] using hready
    split at hstep
    · exact hs.abort (hwriter ▸ nofun) hstep
    · obtain ⟨bidi, hbidi, rfl⟩ := Option.map_eq_some_iff.mp hstep
      obtain ⟨hup, hdown⟩ := BidiStream.of_upStep hbidi
      have hstarted : bidi.up.started = s.bidi.up.started := by
        generalize bidi.up = up' at hup
        cases Pipe.stepped hup <;> rfl
      exact hs.ofBidi (hs.bidi.upStep hbidi) (hs.request.closed hstarted) (hdown ▸ .refl _)

theorem Inv.rejected (hs : s.Inv) (hstep : s.rejected = some s') : s'.Inv := by
  obtain ⟨bidi, hbidi, rfl⟩ := Option.map_eq_some_iff.mp hstep
  obtain ⟨hup, -⟩ := BidiStream.of_upStep hbidi
  have hopen : s.bidi.up.fin = false := by
    generalize bidi.up = up' at hup
    obtain ⟨part, hwrites, -⟩ := hs.bidi.up.writes
    cases Pipe.stepped hup with
    | writeFails w hw => exact (hwrites.of_busy hw).1
  exact hs.aborted hopen hbidi nofun nofun

/-- The envelope reader takes its turn. -/
theorem Inv.ofReader (hs : s.Inv) {p : EnvelopeReader × ReadableStream Bytes JsError}
    (hinv : p.1.Inv p.2) (hexact : p.1.Exact p.2) (hends : p.1.Ends p.2)
    (htold : p.1.envelopes.Told) (hread : p.2 = s.readable ∨ p.2 = s.readable.read) :
    (s.ofReader p).Inv where
  bidi := hs.bidi
  request := hs.request
  arrives := by
    rcases hread with h | h
    · exact (congrArg (Arrives s.bidi.down s.arrived) h).mpr hs.arrives
    · exact (congrArg (Arrives s.bidi.down s.arrived) h).mpr hs.arrives.read
  response := hinv
  exact := hexact
  ends := hends
  chunks := by
    rcases hread with h | h
    · exact (congrArg ReadableStream.Told h).mpr hs.chunks
    · exact (congrArg ReadableStream.Told h).mpr hs.chunks.read
  envelopes := htold

/-- The user agent moves. -/
theorem Inv.ofReadable (hs : s.Inv) {arrived : Bytes} {readable : ReadableStream Bytes JsError}
    (harrives : Arrives s.bidi.down arrived readable) (htold : readable.Told)
    (hgrows : s.readable.Grows readable)
    (hkept : s.readable.hasEnded = true → readable.phase = s.readable.phase) :
    Inv { s with arrived, readable } where
  bidi := hs.bidi
  request := hs.request
  arrives := harrives
  response := hs.response.of_grows hgrows
  exact := hs.exact.of_grows hs.response hgrows
  ends := hs.ends.of_grows hkept
  chunks := htold
  envelopes := hs.envelopes

theorem Inv.arrive (hs : s.Inv) {n : Nat} (hstep : s.arrive n = some s') : s'.Inv := by
  unfold CallStream.arrive at hstep
  dsimp only at hstep
  split at hstep
  · cases hstep
  · obtain ⟨readable, henq, rfl⟩ := Option.map_eq_some_iff.mp hstep
    have hle : s.arrived ++ (s.bidi.down.put.drop s.arrived.length).take n <+:
        s.bidi.down.put := by
      obtain ⟨rest, hrest⟩ := hs.arrives.le
      rw [← hrest, List.drop_left]
      exact (List.prefix_append_right_inj _).mpr (List.take_prefix ..)
    refine hs.ofReadable (hs.arrives.enqueue henq hle) (hs.chunks.enqueue henq)
      (ReadableStream.received_queue_enqueue henq).2.1 fun hended => ?_
    rw [ReadableStream.not_hasEnded_of_enqueue henq] at hended
    cases hended

theorem Inv.close (hs : s.Inv) (hstep : s.close = some s') : s'.Inv := by
  unfold CallStream.close at hstep
  split at hstep
  · rename_i hall
    obtain ⟨readable, hclose, rfl⟩ := Option.map_eq_some_iff.mp hstep
    refine hs.ofReadable (hs.arrives.close hclose hall.1 hall.2) (hs.chunks.close hclose)
      (ReadableStream.received_queue_close hclose).2.2 fun hended => ?_
    rw [ReadableStream.not_hasEnded_of_close hclose] at hended
    cases hended
  · cases hstep

theorem Inv.step [ConnectPackage.Lawful] (hs : s.Inv) {ev : StreamEvent} (hfits : ev.Fits)
    (hstep : s.step ev = some s') :
    s'.Inv := by
  cases ev with
  | headers headersBytes =>
      exact hs.write (by decide : Writer.headers ≠ .closed) (·.write_headers headersBytes)
        (hfits headersBytes rfl) hstep
  | message msg =>
      exact hs.write (by decide : Writer.messages ≠ .closed) (·.write_message msg) (hfits msg rfl)
        hstep
  | finish => exact hs.finish hstep
  | fail =>
      simp only [CallStream.step, CallStream.fail] at hstep
      split at hstep
      · cases hstep
      · rename_i hready
        obtain ⟨hwriter, -⟩ : s.writer = .messages ∧ s.bidi.up.writing = none := by
          simpa [not_or] using hready
        exact hs.abort (hwriter ▸ nofun) hstep
  | rejected => exact hs.rejected hstep
  | pull =>
      simp only [CallStream.step] at hstep
      split at hstep
      · obtain ⟨p, hp, rfl⟩ := Option.map_eq_some_iff.mp hstep
        exact hs.ofReader (hs.response.pull hp) (hs.exact.pull hs.response hp)
          (EnvelopeReader.ends_pull hp) (EnvelopeReader.told_pull hs.envelopes hp)
          (Stream.pull_readable hp)
      · cases hstep
  | settle =>
      obtain ⟨p, hp, rfl⟩ := Option.map_eq_some_iff.mp hstep
      exact hs.ofReader (hs.response.settle hp) (hs.exact.settle hs.response hp)
        (EnvelopeReader.ends_settle hs.response hs.chunks hp)
        (EnvelopeReader.told_settle hs.envelopes hp) (Stream.settle_readable hp)
  | read =>
      simp only [CallStream.step] at hstep
      split at hstep
      · cases hstep
        exact { hs with
          response := hs.response.read
          exact := hs.exact.read
          ends := hs.ends.read
          envelopes := hs.envelopes.read }
      · cases hstep
  | accept n =>
      obtain ⟨bidi, hbidi, rfl⟩ := Option.map_eq_some_iff.mp hstep
      exact hs.ofUp hbidi nofun nofun
  | stop err =>
      simp only [CallStream.step] at hstep
      obtain ⟨bidi, hbidi, rfl⟩ := Option.map_eq_some_iff.mp hstep
      exact hs.ofUp hbidi nofun nofun
  | arrive n => exact hs.arrive hstep
  | close => exact hs.close hstep
  | error reason =>
      cases hstep
      refine hs.ofReadable (hs.arrives.error reason) (hs.chunks.error reason)
        (ReadableStream.received_error s.readable reason).2.2 fun hended => ?_
      rw [ReadableStream.error_of_hasEnded hended]
  | acceptStream =>
      obtain ⟨bidi, hbidi, rfl⟩ := Option.map_eq_some_iff.mp hstep
      have hsame : bidi.up = s.bidi.up ∧ bidi.down = s.bidi.down := by
        have haccept := hbidi
        unfold BidiStream.acceptStream at haccept
        split at haccept <;> cases haccept
        exact ⟨rfl, rfl⟩
      exact hs.ofUnchanged (hs.bidi.acceptStream hbidi) hsame.1 hsame.2
  | up ev =>
      simp only [CallStream.step] at hstep
      split at hstep
      · rename_i hreader
        obtain ⟨bidi, hbidi, rfl⟩ := Option.map_eq_some_iff.mp hstep
        refine hs.ofUp hbidi ?_ ?_
        · rintro env rfl
          cases hreader
        · rintro rfl
          cases hreader
      · cases hstep
  | down ev =>
      simp only [CallStream.step] at hstep
      split at hstep
      · cases hstep
      · obtain ⟨bidi, hbidi, rfl⟩ := Option.map_eq_some_iff.mp hstep
        obtain ⟨hdown, hup⟩ := BidiStream.of_downStep hbidi
        exact hs.ofBidi (hs.bidi.downStep hbidi) (hup ▸ hs.request) (hs.bidi.down.grows hdown)
  | handleRPCReturns =>
      obtain ⟨bidi, hbidi, rfl⟩ := Option.map_eq_some_iff.mp hstep
      have hsame : bidi.up = s.bidi.up ∧ bidi.down = s.bidi.down := by
        have hreturns := hbidi
        unfold BidiStream.handleRPCReturns at hreturns
        split at hreturns <;> cases hreturns
        exact ⟨rfl, rfl⟩
      exact hs.ofUnchanged (hs.bidi.handleRPCReturns hbidi) hsame.1 hsame.2
  | deferred err =>
      obtain ⟨bidi, hbidi, rfl⟩ := Option.map_eq_some_iff.mp hstep
      obtain ⟨hgrows, hstarted, hfin⟩ := hs.bidi.of_deferred hbidi
      exact hs.ofBidi (hs.bidi.deferred hbidi) (hs.request.of_same hstarted hfin) hgrows

end CallStream

end Web
end BidiWeb
