/-
  BidiWeb.Interop.BrowserSession

  A WebTransport session between the calls of a browser and `Handler` of
  `connectwebtransport/server.go`: any number of streams, each of which moves
  on by itself.

  The bytes of the response pass through three hands (the stream, the
  readable, the buffer of the envelope reader), none of which keeps the
  bounds of an envelope.  What comes out at the end is compared with what was
  written as bytes; the envelopes follow, since each tells where it ends.
-/

import BidiWeb.Web.WebTransportStream

namespace BidiWeb
namespace Web

open BidiWeb.BidiProtocol
open BidiWeb.ConnectWebTransport
open BidiWeb.Core (JsError)
open BidiWeb.Lib

-- ============================================================================
-- What has been split of the bytes written
-- ============================================================================

/-- A reader that has split all bytes up to an unfinished envelope has all
    envelopes, if the bytes are whole ones. -/
theorem eq_of_split {es wrote : List Envelope} {rest : Bytes} (hes : ∀ e ∈ es, Encodable e)
    (hwrote : ∀ e ∈ wrote, Encodable e) (hrest : firstEnvelope rest = none)
    (h : encodeEnvelopes wrote = encodeEnvelopes es ++ rest) : es = wrote ∧ rest = [] := by
  have hle : es <+: wrote := by
    refine selfDelimiting_encode.prefix_of_begun hes hwrote (begun_nil _ _) (p := rest) ?_
    rw [← encodeEnvelopes_eq, ← encodeEnvelopes_eq, List.append_nil, h]
  obtain ⟨next, rfl⟩ := hle
  rw [encodeEnvelopes_append] at h
  have hnext : encodeEnvelopes next = rest := List.append_cancel_left h
  cases next with
  | nil => exact ⟨(List.append_nil _).symm, hnext.symm⟩
  | cons e next =>
      have hfirst : firstEnvelope rest = some (e, encodeEnvelopes next) :=
        firstEnvelope_iff_encode.mpr ⟨hwrote e (by simp), hnext.symm⟩
      rw [hrest] at hfirst
      cases hfirst

namespace EnvelopeReader

variable {r : EnvelopeReader} {readable : ReadableStream Bytes JsError}

theorem Inv.encodable (hr : r.Inv readable) :
    ∀ e ∈ r.envelopes.received ++ r.envelopes.queue, Encodable e := by
  intro e he
  have haccount := hr.account []
  have hmem : e ∈ completeEnvelopes ((r.handledChunks readable).flatten ++ []) :=
    haccount ▸ List.mem_append_left _ he
  exact length_of_mem_takeEnvelopes hmem

theorem handledChunks_le (r : EnvelopeReader) (readable : ReadableStream Bytes JsError) :
    r.handledChunks readable <+: readable.received :=
  (List.take_prefix _ _).filterMap _

end EnvelopeReader

namespace CallStream

variable {connect : ConnectPackage} {s : CallStream}

/-- The reader has split the front of the bytes that the server has put. -/
theorem Inv.split (hs : s.Inv) : ∃ rest, s.bidi.down.put =
    encodeEnvelopes (s.response.envelopes.received ++ s.response.envelopes.queue) ++ rest := by
  obtain ⟨behind, hbehind⟩ := s.response.handledChunks_le s.readable
  have hfront : (s.response.handledChunks s.readable).flatten <+: s.bidi.down.put := by
    refine List.IsPrefix.trans ?_ (hs.arrives.received.trans hs.arrives.le)
    rw [← hbehind, List.flatten_append]
    exact List.prefix_append ..
  obtain ⟨rest, hrest⟩ := hfront
  rw [hs.exact, List.append_assoc] at hrest
  exact ⟨_, hrest.symm⟩

theorem Inv.consumed_le (hs : s.Inv) : s.response.consumed <+: s.bidi.down.wrote := by
  obtain ⟨rest, hput⟩ := hs.split
  exact (List.prefix_append _ _).trans (hs.bidi.down.next hput hs.response.encodable).1

/-- All that the server has put of its envelopes has been read and handed on. -/
theorem Inv.consumed_eq (hs : s.Inv)
    (hhandled : s.response.handledChunks s.readable = s.readable.received)
    (hall : s.readable.received.flatten = s.bidi.down.put)
    (hput : s.bidi.down.put = encodeEnvelopes s.bidi.down.wrote)
    (hqueue : s.response.envelopes.queue = []) (hfirst : firstEnvelope s.response.buffer = none) :
    s.response.consumed = s.bidi.down.wrote ∧ s.response.buffer = [] := by
  have hexact := hs.exact
  have hencodable := hs.response.encodable
  rw [EnvelopeReader.Exact, hhandled, hall, hput, hqueue, List.append_nil] at hexact
  rw [hqueue, List.append_nil] at hencodable
  obtain ⟨part, hwrites, -⟩ := hs.bidi.down.writes
  exact eq_of_split hencodable
    (fun e he => hs.bidi.down.encodable e (hwrites.wrote_le.subset he)) hfirst hexact

/-- The envelopes have ended where the readable has. -/
theorem Inv.consumed_of_closed (hs : s.Inv) (hphase : s.readable.phase = .closed)
    (hclosed : s.response.envelopes.canCloseOrEnqueue = false) :
    s.response.consumed = s.bidi.down.wrote ∧ s.response.buffer = [] ∧ s.bidi.Closed := by
  have herr : ∀ e, s.readable.phase ≠ .errored e := by
    intro e he
    rw [hphase] at he
    cases he
  have hended : s.readable.canCloseOrEnqueue = false := by
    simp [ReadableStream.canCloseOrEnqueue, hphase]
  obtain ⟨hfin, harrived⟩ := hs.arrives.closed hended herr
  have hnone : s.readable.queue = [] := by simp [ReadableStream.queue, hphase]
  have hall := hs.arrives.intact herr
  rw [hnone, List.append_nil, harrived] at hall
  obtain ⟨part, hwrites, hput⟩ := hs.bidi.down.writes
  rw [(hwrites.closed hfin).2, List.append_nil] at hput
  obtain ⟨-, hqueue, hfirst⟩ := hs.response.ended hclosed
  obtain ⟨heq, hbuffer⟩ := hs.consumed_eq (hs.response.handledChunks_of_closed hclosed) hall hput
    hqueue hfirst
  exact ⟨heq, hbuffer, hs.bidi.closes hfin⟩

/-- The response of a stream never ends within an envelope. -/
theorem Inv.errored [ConnectPackage.Lawful] (hs : s.Inv) {e : JsError}
    (he : s.response.envelopes.phase = .errored e) :
    s.readable.phase = .errored e := by
  rcases hs.ends.errored e he with herr | ⟨hphase, hbuffer⟩
  · exact herr
  · have hclosed : s.response.envelopes.canCloseOrEnqueue = false := by
      simp [ReadableStream.canCloseOrEnqueue, he]
    rw [(hs.consumed_of_closed hphase hclosed).2.1, ConnectPackage.atEnd_nil] at hbuffer
    cases hbuffer

-- ============================================================================
-- What comes of a call
-- ============================================================================

/-- Neither the user agent nor `envReader` can move a byte. -/
structure Settled [ConnectPackage] (s : CallStream) : Prop where
  arrive : ∀ n, s.arrive n = none
  pull : s.response.pull s.readable = none
  settle : s.response.settle s.readable = none
  unerrored : ∀ e, s.readable.phase ≠ .errored e

theorem Inv.arrived_of_settled (hs : s.Inv) (h : s.Settled) : s.arrived = s.bidi.down.put := by
  cases hopen : s.readable.canCloseOrEnqueue with
  | false => exact (hs.arrives.closed hopen h.unerrored).2
  | true =>
      obtain ⟨rest, hrest⟩ := hs.arrives.le
      cases rest with
      | nil => rw [← hrest, List.append_nil]
      | cons b rest =>
          -- one more byte could arrive
          have hnone := h.arrive 1
          have hchunk : (s.bidi.down.put.drop s.arrived.length).take 1 = [b] := by
            rw [← hrest, List.drop_left]
            rfl
          obtain ⟨readable, henq⟩ := ReadableStream.exists_enqueue hopen [b]
          simp [CallStream.arrive, hchunk, henq] at hnone

/-- A call that has been given all that can be handed on has been given all
    that was written. -/
theorem Inv.settled [ConnectPackage.Lawful] (hs : s.Inv) (h : s.Settled)
    (hqueue : s.response.envelopes.queue = [])
    (hw : s.bidi.down.writing = none) (hup : s.bidi.down.writeErr = none) :
    s.response.consumed = s.bidi.down.wrote := by
  have harrived := hs.arrived_of_settled h
  obtain ⟨part, hwrites, hput⟩ := hs.bidi.down.writes
  rw [(hwrites.of_idle hw hup).2, List.append_nil] at hput
  have hintact := hs.arrives.intact h.unerrored
  cases hopen : s.response.envelopes.canCloseOrEnqueue with
  | false =>
      have herr : ∀ e, s.response.envelopes.phase ≠ .errored e := fun e he =>
        h.unerrored e (hs.errored he)
      exact (hs.consumed_of_closed (hs.ends.closed hopen herr).1 hopen).1
  | true =>
      -- the pull that is owed has been called, and awaits a read
      have hpulling : s.response.pulling = true := by
        cases hidle : s.response.pulling with
        | true => rfl
        | false =>
            have hpull := h.pull
            have hshould := EnvelopeReader.shouldPull_of_idle hidle hopen hqueue
            simp [EnvelopeReader.pull, hshould] at hpull
      have hreads := hs.response.reads
      rw [hpulling] at hreads
      have hle : s.readable.results.length ≤ s.response.handled := by
        have hsettle := h.settle
        by_contra hlt
        obtain ⟨res, hres⟩ : ∃ res, s.readable.results[s.response.handled]? = some res :=
          ⟨_, List.getElem?_eq_getElem (by omega)⟩
        unfold EnvelopeReader.settle at hsettle
        rw [hres] at hsettle
        cases res <;> cases hsettle
      have hwaiting : s.readable.queue = [] := by
        have hrequests : s.readable.requests ≠ 0 := by
          intro hnone
          simp only [ReadableStream.reads, hnone, Bool.toNat_true] at hreads
          omega
        unfold ReadableStream.requests at hrequests
        unfold ReadableStream.queue
        cases hphase : s.readable.phase with
        | waiting n => rfl
        | buffered h t => exact absurd (by rw [hphase]) hrequests
        | closing h t => exact absurd (by rw [hphase]) hrequests
        | closed => rfl
        | errored e => rfl
      have hhandled : s.response.handledChunks s.readable = s.readable.received := by
        rw [EnvelopeReader.handledChunks, List.take_of_length_le hle]
        rfl
      rw [hwaiting, List.append_nil, harrived] at hintact
      exact (hs.consumed_eq hhandled hintact hput hqueue (hs.response.pulling hpulling).2.2).1

/-- What a call of a browser and its handler make of a stream. -/
structure Served [ConnectPackage] (s : CallStream) : Prop where
  /-- The request is headers and messages, and ends only with the iterator. -/
  request : Requests s.writer s.bidi.up
  up : s.bidi.up.Delivers defaultMaxReadFrameSize
  /-- What has been written has been begun. -/
  wrote_le : s.bidi.up.wrote <+: s.bidi.up.started
  /-- A handler that is told of the end of the request has been given all of it. -/
  requested : Pipe.firstError s.bidi.up.results = some .eof →
    s.bidi.up.read = s.bidi.up.started ∧ s.writer = .closed
  /-- A stream that has not been accepted is not touched by the server. -/
  unaccepted : s.bidi.handler = .unaccepted →
    s.bidi.up.results = [] ∧ s.bidi.down.started = []
  /-- The envelope reader gives the call what the handler has written, in
      order, each once. -/
  response : s.response.consumed <+: s.bidi.down.wrote
  /-- A call that reads the end of the response has been given all of it, and
      the handler has returned. -/
  whole : .done ∈ s.response.envelopes.results →
    s.response.consumed = s.bidi.down.wrote ∧ s.bidi.Closed
  /-- A read of the response is rejected only with what the readable has
      broken with. -/
  failed : ∀ e, .rejected e ∈ s.response.envelopes.results → s.readable.phase = .errored e
  /-- If nothing has broken and no byte can be moved, the envelope reader has
      given all that was written. -/
  settled : s.Settled → s.response.envelopes.queue = [] → s.bidi.down.writing = none →
    s.bidi.down.writeErr = none → s.response.consumed = s.bidi.down.wrote

theorem Inv.served [ConnectPackage.Lawful] (hs : s.Inv) : s.Served where
  request := hs.request
  up := hs.bidi.up.delivers
  wrote_le := by
    obtain ⟨part, hwrites, -⟩ := hs.bidi.up.writes
    exact hwrites.wrote_le
  requested := by
    intro heof
    cases hs.bidi.up.failed .eof heof with
    | eof hfin hempty hall =>
        obtain ⟨part, hwrites, -⟩ := hs.bidi.up.writes
        have hstarted : s.bidi.up.started = s.bidi.up.wrote := by
          cases hwrites with
          | idle hw hstarted hpart => exact hstarted
          | busy w hw hopen => exact absurd (hfin.symm.trans hopen) (by decide)
          | broken env more hw hopen => exact absurd (hfin.symm.trans hopen) (by decide)
        exact ⟨hall.trans hstarted.symm, hs.request.closes hfin⟩
    | broken _ hbroken => exact absurd hbroken hs.bidi.up.noEOF
  unaccepted := hs.bidi.unaccepted
  response := hs.consumed_le
  whole := by
    intro hdone
    have hphase := hs.envelopes.done hdone
    have hclosed : s.response.envelopes.canCloseOrEnqueue = false := by
      simp [ReadableStream.canCloseOrEnqueue, hphase]
    have herr : ∀ e, s.response.envelopes.phase ≠ .errored e := by
      intro e he
      rw [hphase] at he
      cases he
    obtain ⟨hall, -, hreturned⟩ :=
      hs.consumed_of_closed (hs.ends.closed hclosed herr).1 hclosed
    exact ⟨hall, hreturned⟩
  failed := fun e he => hs.errored (hs.envelopes.rejected e he)
  settled := fun h hqueue hw hup => hs.settled h hqueue hw hup

end CallStream

-- ============================================================================
-- Sessions
-- ============================================================================

structure BrowserSession where
  /-- In the order in which the calls have created them. -/
  streams : List CallStream := []
  /-- `HandleSession` has not returned. -/
  accepting : Bool := true

inductive BrowserSessionEvent where
  /-- `session.createBidirectionalStream()` resolves. -/
  | createBidirectionalStream
  /-- `AcceptStream` fails. -/
  | acceptFails
  | stream (i : Nat) (ev : StreamEvent)
deriving DecidableEq, Repr

namespace BrowserSession

variable (s : BrowserSession)

def step [ConnectPackage] (ev : BrowserSessionEvent) : Option BrowserSession :=
  match ev with
  | .createBidirectionalStream => some { s with streams := s.streams ++ [{}] }
  | .acceptFails => if s.accepting then some { s with accepting := false } else none
  | .stream i ev =>
      if ev = .acceptStream ∧ !s.accepting then none
      else
        match s.streams[i]? with
        | none => none
        | some stream =>
            (stream.step ev).map fun stream' => { s with streams := s.streams.set i stream' }

end BrowserSession

/-- All calls of one session. -/
def browserSession [ConnectPackage] : Machine BrowserSession BrowserSessionEvent where
  init := {}
  step s ev := s.step ev

/-- What is written of a request can be encoded. -/
def BrowserSessionEvent.Fits : BrowserSessionEvent → Prop
  | .stream _ ev => ev.Fits
  | .createBidirectionalStream | .acceptFails => True

instance (ev : BrowserSessionEvent) : Decidable ev.Fits :=
  match ev with
  | .stream _ ev => inferInstanceAs (Decidable ev.Fits)
  | .createBidirectionalStream | .acceptFails => isTrue trivial

def BrowserSession.Inv [ConnectPackage] (s : BrowserSession) : Prop :=
  ∀ (i : Nat) (stream : CallStream), s.streams[i]? = some stream → stream.Inv

theorem BrowserSession.Inv.step [ConnectPackage] [ConnectPackage.Lawful] {s s' : BrowserSession}
    (hs : s.Inv) {ev : BrowserSessionEvent} (hfits : ev.Fits) (hstep : s.step ev = some s') :
    s'.Inv := by
  cases ev with
  | createBidirectionalStream =>
      cases hstep
      exact Store.forall_concat hs CallStream.inv_init
  | acceptFails =>
      simp only [BrowserSession.step] at hstep
      split at hstep <;> cases hstep
      exact hs
  | stream i ev =>
      simp only [BrowserSession.step] at hstep
      split at hstep
      · cases hstep
      · split at hstep
        · cases hstep
        · rename_i old hold
          obtain ⟨new, hnew, rfl⟩ := Option.map_eq_some_iff.mp hstep
          exact Store.forall_set hs ((hs i old hold).step hfits hnew)

theorem browserSession_inv [ConnectPackage] [ConnectPackage.Lawful]
    {evs : List BrowserSessionEvent} (hfits : ∀ ev ∈ evs, ev.Fits) {s : BrowserSession}
    (hrun : browserSession.run evs = some s) : s.Inv := by
  refine browserSession.exec_invariant_of_meets (G := fun _ ev => ev.Fits)
    (fun _ _ _ hs hev hstep => hs.step hev hstep) ?_ (browserSession.meets_of_forall hfits _) hrun
  intro i stream h
  cases h

/-- However the calls of a browser, the handlers of its server, the bytes
    between them and their failures interleave. -/
theorem browserStreams_served [ConnectPackage] [ConnectPackage.Lawful]
    (evs : List BrowserSessionEvent) (hfits : ∀ ev ∈ evs, ev.Fits) {s : BrowserSession}
    (hrun : browserSession.run evs = some s) {i : Nat} {stream : CallStream}
    (hstream : s.streams[i]? = some stream) : stream.Served :=
  (browserSession_inv hfits hrun i stream hstream).served

/-- A message of one byte, and an answer that arrives in two chunks. -/
def answeredByte : List BrowserSessionEvent := .createBidirectionalStream :: [
  .headers [], .accept 5, .acceptStream, .up .readEnvelope, .up (.take 5), .pull, .message [9],
  .accept 2, .accept 4, .finish, .up .readEnvelope, .up (.take 5), .up (.take 1),
  .up .readEnvelope, .up .readFails, .down (.writeEnvelope ⟨6, []⟩), .down (.accept 5),
  .down (.writeEnvelope ⟨2, []⟩), .down (.accept 5), .handleRPCReturns, .deferred .canceled,
  .deferred .canceled, .arrive 3, .settle, .arrive 7, .settle, .read, .pull, .read, .pull, .close,
  .settle, .read].map (.stream 0)

open Connectrpc in
theorem answeredByte_served :
    ∃ s stream, browserSession.run answeredByte = some s ∧ s.streams[0]? = some stream ∧
      stream.response.envelopes.results = [.chunk ⟨6, []⟩, .chunk ⟨2, []⟩, .done] ∧
      stream.Served := by
  have hfacts : (browserSession.run answeredByte).map (fun s =>
      s.streams.map (·.response.envelopes.results)) =
        some [[.chunk ⟨6, []⟩, .chunk ⟨2, []⟩, .done]] := by
    decide +kernel
  obtain ⟨s, hrun, hstreams⟩ := Option.map_eq_some_iff.mp hfacts
  obtain ⟨stream, hstream, hread⟩ := List.map_eq_singleton_iff.mp hstreams
  have hget : s.streams[0]? = some stream := by rw [hstream]; rfl
  have hfits : ∀ ev ∈ answeredByte, ev.Fits := by decide
  exact ⟨s, stream, hrun, hget, hread, browserStreams_served answeredByte hfits hrun hget⟩

end Web
end BidiWeb
