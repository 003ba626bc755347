/-
  BidiWeb.ConnectWebTransport.Session

  A WebTransport session between `transport` of
  `connectwebtransport/connectwebtransport.go` and `Handler` of
  `connectwebtransport/server.go`: every stream the client has opened, and the
  goroutine that serves each stream the server has accepted.

  A label is one step of one goroutine or of the network.  Each stream is two
  pipes, and the end of the session is that their ends break, in any order.
-/

import BidiWeb.ConnectWebTransport.Delivery
import BidiWeb.Lib.Store

namespace BidiWeb
namespace ConnectWebTransport

open BidiWeb.Lib
open BidiWeb.BidiProtocol

-- ============================================================================
-- State
-- ============================================================================

/-- `handleStream` -/
inductive HandleStream where
  /-- `AcceptStream` has not returned the stream. -/
  | unaccepted
  /-- In `HandleRPC`. -/
  | handling
  /-- `HandleRPC` has returned; `stream.Close()` is deferred. -/
  | returned
  /-- `stream.CancelRead(0)` is deferred. -/
  | closed
  | done
deriving DecidableEq, Repr

/-- A bidirectional stream of a session. -/
structure BidiStream where
  /-- From the client to the server. -/
  up : Pipe := {}
  down : Pipe := {}
  handler : HandleStream := .unaccepted

structure WebTransportSession where
  /-- In the order in which the client has opened them. -/
  streams : List BidiStream := []
  /-- `HandleSession` has not returned. -/
  accepting : Bool := true

inductive SessionEvent where
  /-- `OpenStreamSync` returns a stream to `NewClientStream`. -/
  | newClientStream
  /-- `AcceptStream` returns stream `i`. -/
  | acceptStream (i : Nat)
  /-- `AcceptStream` fails. -/
  | acceptFails
  /-- Something happens to the pipe of stream `i` to the server. -/
  | up (i : Nat) (ev : PipeEvent)
  | down (i : Nat) (ev : PipeEvent)
  /-- `HandleRPC` returns for stream `i`. -/
  | handleRPCReturns (i : Nat)
  /-- The next deferred call for stream `i`; `err` is what a `Read` fails with
      once the reading is canceled. -/
  | deferred (i : Nat) (err : GoError)
deriving DecidableEq, Repr

-- ============================================================================
-- Steps
-- ============================================================================

namespace BidiStream

variable (s : BidiStream)

/-- `go h.handleStream` -/
def acceptStream : Option BidiStream :=
  match s.handler with
  | .unaccepted => some { s with handler := .handling }
  | .handling | .returned | .closed | .done => none

/-- `HandleRPC` alone calls `ReadEnvelope` at this end. -/
def upStep (ev : PipeEvent) : Option BidiStream :=
  if ev = .readEnvelope ∧ s.handler ≠ .handling then none
  else (s.up.step defaultMaxReadFrameSize ev).map fun up => { s with up }

/-- It alone calls `WriteEnvelope`, and never `CloseSend`. -/
def downStep (ev : PipeEvent) : Option BidiStream :=
  match ev with
  | .closeSend => none
  | .writeEnvelope env =>
      if s.handler = .handling then
        (s.down.step defaultMaxReadFrameSize (.writeEnvelope env)).map fun down => { s with down }
      else none
  | .accept _ | .writeFails | .breakWrite _ | .readEnvelope | .take _ | .readFails
  | .breakRead _ => (s.down.step defaultMaxReadFrameSize ev).map fun down => { s with down }

/-- Its own calls have returned by then. -/
def handleRPCReturns : Option BidiStream :=
  if s.handler = .handling ∧ s.up.reading = none ∧ s.down.writing = none then
    some { s with handler := .returned }
  else none

def deferred (err : GoError) : Option BidiStream :=
  match s.handler with
  | .returned => s.down.closeSend.map fun down => { s with down, handler := .closed }
  | .closed => (s.up.breakRead err).map fun up => { s with up, handler := .done }
  | .unaccepted | .handling | .done => none

end BidiStream

namespace WebTransportSession

variable (s : WebTransportSession)

def modify (i : Nat) (f : BidiStream → Option BidiStream) : Option WebTransportSession :=
  match s.streams[i]? with
  | none => none
  | some stream => (f stream).map fun stream' => { s with streams := s.streams.set i stream' }

def step (ev : SessionEvent) : Option WebTransportSession :=
  match ev with
  | .newClientStream => some { s with streams := s.streams ++ [{}] }
  | .acceptStream i => if s.accepting then s.modify i BidiStream.acceptStream else none
  | .acceptFails => if s.accepting then some { s with accepting := false } else none
  | .up i ev => s.modify i (BidiStream.upStep · ev)
  | .down i ev => s.modify i (BidiStream.downStep · ev)
  | .handleRPCReturns i => s.modify i BidiStream.handleRPCReturns
  | .deferred i err => s.modify i (BidiStream.deferred · err)

end WebTransportSession

/-- All calls of one session. -/
def session : Machine WebTransportSession SessionEvent where
  init := {}
  step := WebTransportSession.step

-- ============================================================================
-- What a step leaves alone
-- ============================================================================

namespace Pipe

variable {maxReadSize : Int} {p p' : Pipe} {ev : PipeEvent}

/-- Without a `ReadEnvelope` nothing is read. -/
theorem reading_of_step (hstep : p.step maxReadSize ev = some p') (hev : ev ≠ .readEnvelope)
    (hidle : p.reading = none) : p'.reading = none ∧ p'.results = p.results := by
  cases stepped hstep with
  | reads => exact absurd rfl hev
  | takes n r r' hr => rw [hidle] at hr; cases hr
  | returns n r result hr => rw [hidle] at hr; cases hr
  | readFails r err hr => rw [hidle] at hr; cases hr
  | refused | begins | accepts | writes | writeFails | closeRefused | closes | breaksWrite
  | breaksRead => exact ⟨hidle, rfl⟩

/-- Without a `WriteEnvelope` nothing is written. -/
theorem writing_of_step (hstep : p.step maxReadSize ev = some p')
    (hev : ∀ env, ev ≠ .writeEnvelope env) (hidle : p.writing = none) :
    p'.writing = none ∧ p'.started = p.started := by
  cases stepped hstep with
  | refused env => exact absurd rfl (hev env)
  | begins env => exact absurd rfl (hev env)
  | accepts n w w' hw => rw [hidle] at hw; cases hw
  | writes n w hw => rw [hidle] at hw; cases hw
  | writeFails w hw => rw [hidle] at hw; cases hw
  | closeRefused | closes | breaksWrite | reads | takes | returns | readFails
  | breaksRead => exact ⟨hidle, rfl⟩

/-- Only `CloseSend` closes the writing end. -/
theorem fin_of_step (hstep : p.step maxReadSize ev = some p') (hev : ev ≠ .closeSend) :
    p'.fin = p.fin := by
  cases stepped hstep with
  | closeRefused => exact absurd rfl hev
  | closes => exact absurd rfl hev
  | refused | begins | accepts | writes | writeFails | breaksWrite | reads | takes | returns
  | readFails | breaksRead => rfl

/-- An end that is broken stays broken. -/
theorem broken_of_step (hstep : p.step maxReadSize ev = some p') :
    (p.writeErr.isSome → p'.writeErr.isSome) ∧ (p.readErr.isSome → p'.readErr.isSome) := by
  cases stepped hstep with
  | breaksWrite err => exact ⟨fun _ => by simp, fun h => h⟩
  | breaksRead err => exact ⟨fun h => h, fun _ => by simp⟩
  | refused | begins | accepts | writes | writeFails | closeRefused | closes | reads | takes
  | returns | readFails => exact ⟨fun h => h, fun h => h⟩

end Pipe

-- ============================================================================
-- One stream
-- ============================================================================

namespace BidiStream

variable {s s' : BidiStream}

/-- `HandleRPC` is over, and its stream has been closed for writing. -/
def Closed (s : BidiStream) : Prop := s.handler = .closed ∨ s.handler = .done

structure Inv (s : BidiStream) : Prop where
  up : s.up.Inv defaultMaxReadFrameSize
  down : s.down.Inv defaultMaxReadFrameSize
  idle : s.handler ≠ .handling → s.up.reading = none ∧ s.down.writing = none
  unaccepted : s.handler = .unaccepted → s.up.results = [] ∧ s.down.started = []
  closes : s.down.fin = true → s.Closed
  closed : s.Closed → s.down.fin = true ∨ s.down.writeErr.isSome
  done : s.handler = .done → s.up.readErr.isSome

theorem inv_init : Inv {} where
  up := Pipe.inv_init _
  down := Pipe.inv_init _
  idle := fun _ => ⟨rfl, rfl⟩
  unaccepted := fun _ => ⟨rfl, rfl⟩
  closes := nofun
  closed := by rintro (h | h) <;> cases h
  done := nofun

theorem Inv.acceptStream (hs : s.Inv) (hstep : s.acceptStream = some s') : s'.Inv := by
  unfold BidiStream.acceptStream at hstep
  cases hh : s.handler <;> rw [hh] at hstep <;> cases hstep
  exact
    { up := hs.up
      down := hs.down
      idle := fun h => absurd rfl h
      unaccepted := nofun
      closes := fun hfin => by
        rcases hs.closes hfin with h | h <;> rw [hh] at h <;> cases h
      closed := by rintro (h | h) <;> cases h
      done := nofun }

theorem Inv.upStep (hs : s.Inv) {ev : PipeEvent} (hstep : s.upStep ev = some s') : s'.Inv := by
  unfold BidiStream.upStep at hstep
  split at hstep
  · cases hstep
  · rename_i hallowed
    obtain ⟨up, hup, rfl⟩ := Option.map_eq_some_iff.mp hstep
    have hreading : s.handler ≠ .handling → up.reading = none ∧ up.results = s.up.results :=
      fun hnot => Pipe.reading_of_step hup (fun hev => hallowed ⟨hev, hnot⟩) (hs.idle hnot).1
    exact
      { up := hs.up.step hup
        down := hs.down
        idle := fun hnot => ⟨(hreading hnot).1, (hs.idle hnot).2⟩
        unaccepted := fun h =>
          ⟨(hreading fun hh => nomatch h.symm.trans hh).2.trans (hs.unaccepted h).1,
            (hs.unaccepted h).2⟩
        closes := hs.closes
        closed := hs.closed
        done := fun h => (Pipe.broken_of_step hup).2 (hs.done h) }

/-- A step of the pipe to the client: `CloseSend` is none. -/
theorem Inv.downPipe (hs : s.Inv) {ev : PipeEvent} {down : Pipe}
    (hdown : s.down.step defaultMaxReadFrameSize ev = some down) (hclose : ev ≠ .closeSend)
    (hwrite : ∀ env, ev = .writeEnvelope env → s.handler = .handling) :
    Inv { s with down } := by
  have hwriting : s.handler ≠ .handling → down.writing = none ∧ down.started = s.down.started :=
    fun hnot => Pipe.writing_of_step hdown (fun env hev => hnot (hwrite env hev)) (hs.idle hnot).2
  exact
    { up := hs.up
      down := hs.down.step hdown
      idle := fun hnot => ⟨(hs.idle hnot).1, (hwriting hnot).1⟩
      unaccepted := fun h =>
        ⟨(hs.unaccepted h).1,
          (hwriting fun hh => nomatch h.symm.trans hh).2.trans (hs.unaccepted h).2⟩
      closes := fun hfin => hs.closes ((Pipe.fin_of_step hdown hclose).symm.trans hfin)
      closed := fun h =>
        (hs.closed h).imp (Pipe.fin_of_step hdown hclose).trans (Pipe.broken_of_step hdown).1
      done := hs.done }

theorem Inv.downStep (hs : s.Inv) {ev : PipeEvent} (hstep : s.downStep ev = some s') : s'.Inv := by
  unfold BidiStream.downStep at hstep
  split at hstep
  · cases hstep
  · split at hstep
    · rename_i env hh
      obtain ⟨down, hdown, rfl⟩ := Option.map_eq_some_iff.mp hstep
      exact hs.downPipe hdown nofun fun _ _ => hh
    · cases hstep
  all_goals
    obtain ⟨down, hdown, rfl⟩ := Option.map_eq_some_iff.mp hstep
    exact hs.downPipe hdown nofun nofun

theorem Inv.handleRPCReturns (hs : s.Inv) (hstep : s.handleRPCReturns = some s') : s'.Inv := by
  unfold BidiStream.handleRPCReturns at hstep
  split at hstep
  · rename_i hidle
    cases hstep
    exact
      { up := hs.up
        down := hs.down
        idle := fun _ => hidle.2
        unaccepted := nofun
        closes := fun hfin => by
          rcases hs.closes hfin with h | h <;> rw [hidle.1] at h <;> cases h
        closed := by rintro (h | h) <;> cases h
        done := nofun }
  · cases hstep

theorem Inv.deferred (hs : s.Inv) {err : GoError} (hstep : s.deferred err = some s') : s'.Inv := by
  unfold BidiStream.deferred at hstep
  cases hh : s.handler <;> rw [hh] at hstep
  case unaccepted => cases hstep
  case handling => cases hstep
  case done => cases hstep
  case returned =>
    obtain ⟨down, hdown, rfl⟩ := Option.map_eq_some_iff.mp hstep
    have hclose : s.down.step defaultMaxReadFrameSize .closeSend = some down := hdown
    obtain ⟨hreading, hwriting⟩ := hs.idle (hh ▸ nofun)
    refine
      { up := hs.up
        down := hs.down.step hclose
        idle := fun _ => ⟨hreading, (Pipe.writing_of_step hclose nofun hwriting).1⟩
        unaccepted := nofun
        closes := fun _ => Or.inl rfl
        closed := fun _ => ?_
        done := nofun }
    cases Pipe.stepped hclose with
    | closeRefused hbroken => exact Or.inr hbroken
    | closes => exact Or.inl rfl
  case closed =>
    obtain ⟨up, hup, rfl⟩ := Option.map_eq_some_iff.mp hstep
    have hcancel : s.up.step defaultMaxReadFrameSize (.breakRead err) = some up := hup
    obtain ⟨hreading, hwriting⟩ := hs.idle (hh ▸ nofun)
    refine
      { up := hs.up.step hcancel
        down := hs.down
        idle := fun _ => ⟨(Pipe.reading_of_step hcancel nofun hreading).1, hwriting⟩
        unaccepted := nofun
        closes := fun _ => Or.inr rfl
        closed := fun _ => hs.closed (Or.inl hh)
        done := fun _ => ?_ }
    cases Pipe.stepped hcancel with
    | breaksRead => simp

end BidiStream

-- ============================================================================
-- Whole runs
-- ============================================================================

/-- What comes of the envelopes written to a pipe. -/
structure Pipe.Delivers (maxReadSize : Int) (p : Pipe) : Prop where
  /-- They are read in order, each once and as a whole. -/
  le : p.read <+: p.wrote
  /-- Between two `WriteEnvelope`s, what has not been read is underway. -/
  conserved : p.fin = true ∨ p.writing = none ∧ p.writeErr = none →
    Pipe.firstError p.results = none →
      encodeEnvelopes p.wrote = encodeEnvelopes p.read ++ p.held ++ p.underway
  /-- `ReadEnvelope` fails for a reason only: the stream has been closed and read to
      its end, an envelope is over the limit, or the stream is broken. -/
  failed : ∀ err, Pipe.firstError p.results = some err → p.Failed maxReadSize err
  /-- A `ReadEnvelope` that cannot go on has nothing to return. -/
  stuck : p.reading.isSome → (∀ n, p.take maxReadSize n = none) → p.readFails = none →
    p.underway = [] ∧ p.fin = false ∧
      (p.writing = none → p.writeErr = none → Pipe.firstError p.results = none →
        p.read = p.wrote)

namespace Pipe

variable {maxReadSize : Int} {p : Pipe}

/-- Bytes that are there can be read. -/
theorem Inv.take_isSome (hp : p.Inv maxReadSize) {r : Reading} (hr : p.reading = some r)
    (hup : p.readErr = none) (hne : p.underway ≠ []) : (p.take maxReadSize 1).isSome := by
  have hroom := (hp.reads r hr).room_pos
  have hlen := List.length_pos_iff.mpr hne
  have hready : ¬ (p.readErr.isSome ∨ 1 = 0 ∨ r.room < 1 ∨ p.underway.length < 1) := by
    rw [hup]
    simp only [Option.isSome_none, Bool.false_eq_true, false_or]
    omega
  unfold Pipe.take
  simp only [hr, if_neg hready]
  split <;> rfl

theorem Inv.conserved (hp : p.Inv maxReadSize)
    (hidle : p.fin = true ∨ p.writing = none ∧ p.writeErr = none)
    (hnone : firstError p.results = none) :
    encodeEnvelopes p.wrote = encodeEnvelopes p.read ++ p.held ++ p.underway := by
  obtain ⟨part, hwrites, hput⟩ := hp.writes
  have hpart : part = [] := by
    rcases hidle with hfin | ⟨hw, hup⟩
    · exact (hwrites.closed hfin).2
    · exact (hwrites.of_idle hw hup).2
  rw [hpart, List.append_nil] at hput
  rw [← hput, ← hp.intact hnone]
  exact hp.bytes

theorem Inv.stuck (hp : p.Inv maxReadSize) (hreading : p.reading.isSome)
    (htake : ∀ n, p.take maxReadSize n = none) (hfails : p.readFails = none) :
    p.underway = [] ∧ p.fin = false ∧
      (p.writing = none → p.writeErr = none → firstError p.results = none →
        p.read = p.wrote) := by
  obtain ⟨r, hr⟩ := Option.isSome_iff_exists.mp hreading
  have herror : p.readError = none := by
    unfold Pipe.readFails at hfails
    rw [hr] at hfails
    cases herr : p.readError with
    | none => rfl
    | some err =>
        rw [herr] at hfails
        cases hfails
  obtain ⟨hup, hopen⟩ := Option.or_eq_none_iff.mp herror
  have hempty : p.underway = [] := by
    by_contra hne
    have hsome := hp.take_isSome hr hup hne
    rw [htake 1] at hsome
    cases hsome
  have hfin : p.fin = false := by
    rw [hempty] at hopen
    simpa using hopen
  refine ⟨hempty, hfin, fun hw hup' hnone => ?_⟩
  have hsame := hp.conserved (Or.inr ⟨hw, hup'⟩) hnone
  have hheld : p.held = r.held := by simp only [held, hr]
  rw [hempty, List.append_nil, hheld] at hsame
  obtain ⟨part, hwrites, -⟩ := hp.writes
  have hencodable : ∀ e ∈ p.wrote, Encodable e := fun e he =>
    hp.encodable e (hwrites.wrote_le.subset he)
  exact (selfDelimiting_encode.eq_of_begun (fun e he => hencodable e (hp.le.subset he)) hencodable
    (hp.reads r hr).begun (begun_nil _ _) (hsame.symm.trans (List.append_nil _).symm)).1

theorem Inv.delivers (hp : p.Inv maxReadSize) : p.Delivers maxReadSize where
  le := hp.le
  conserved := hp.conserved
  failed := hp.failed
  stuck := hp.stuck

end Pipe

/-- A stream of a session. -/
structure BidiStream.Served (s : BidiStream) : Prop where
  up : s.up.Delivers defaultMaxReadFrameSize
  down : s.down.Delivers defaultMaxReadFrameSize
  /-- A stream that has not been accepted is not touched by the server. -/
  unaccepted : s.handler = .unaccepted → s.up.results = [] ∧ s.down.started = []
  /-- A client that is told of the end of the response has been given all of
      it, and the handler has returned. -/
  whole : Pipe.firstError s.down.results = some .eof → s.down.read = s.down.wrote ∧ s.Closed
  /-- `handleStream` leaves neither direction open. -/
  done : s.handler = .done →
    (s.down.fin = true ∨ s.down.writeErr.isSome) ∧ s.up.readErr.isSome

theorem BidiStream.Inv.served {s : BidiStream} (hs : s.Inv) : s.Served where
  up := hs.up.delivers
  down := hs.down.delivers
  unaccepted := hs.unaccepted
  whole := fun heof => by
    cases hs.down.failed .eof heof with
    | eof hfin hempty hall => exact ⟨hall, hs.closes hfin⟩
    | broken _ hbroken => exact absurd hbroken hs.down.noEOF
  done := fun h => ⟨hs.closed (Or.inr h), hs.done h⟩

/-- It holds of every stream. -/
def WebTransportSession.Inv (s : WebTransportSession) : Prop :=
  ∀ (i : Nat) (stream : BidiStream), s.streams[i]? = some stream → stream.Inv

theorem WebTransportSession.Inv.modify {s s' : WebTransportSession} (hs : s.Inv) {i : Nat}
    {f : BidiStream → Option BidiStream}
    (hf : ∀ stream stream', BidiStream.Inv stream → f stream = some stream' → stream'.Inv)
    (hstep : s.modify i f = some s') : s'.Inv := by
  unfold WebTransportSession.modify at hstep
  split at hstep
  · cases hstep
  · rename_i old hold
    obtain ⟨new, hnew, rfl⟩ := Option.map_eq_some_iff.mp hstep
    exact Store.forall_set hs (hf old new (hs i old hold) hnew)

theorem WebTransportSession.Inv.step {s s' : WebTransportSession} (hs : s.Inv) {ev : SessionEvent}
    (hstep : s.step ev = some s') : s'.Inv := by
  cases ev with
  | newClientStream =>
      cases hstep
      exact Store.forall_concat hs BidiStream.inv_init
  | acceptStream i =>
      simp only [WebTransportSession.step] at hstep
      split at hstep
      · exact hs.modify (fun _ _ h => h.acceptStream) hstep
      · cases hstep
  | acceptFails =>
      simp only [WebTransportSession.step] at hstep
      split at hstep
      · cases hstep
        exact hs
      · cases hstep
  | up i ev =>
      simp only [WebTransportSession.step] at hstep
      exact hs.modify (fun _ _ h hup => h.upStep hup) hstep
  | down i ev =>
      simp only [WebTransportSession.step] at hstep
      exact hs.modify (fun _ _ h hdown => h.downStep hdown) hstep
  | handleRPCReturns i =>
      simp only [WebTransportSession.step] at hstep
      exact hs.modify (fun _ _ h => h.handleRPCReturns) hstep
  | deferred i err =>
      simp only [WebTransportSession.step] at hstep
      exact hs.modify (fun _ _ h hlater => h.deferred hlater) hstep

theorem session_inv {evs : List SessionEvent} {s : WebTransportSession}
    (hrun : session.run evs = some s) : s.Inv := by
  refine session.exec_invariant (fun _ _ _ hs hstep => hs.step hstep) ?_ hrun
  intro i stream h
  cases h

/-- However the calls of the two ends, the bytes and the failures of the
    streams of a session interleave. -/
theorem streams_served (evs : List SessionEvent) {s : WebTransportSession}
    (hrun : session.run evs = some s) {i : Nat} {stream : BidiStream}
    (hstream : s.streams[i]? = some stream) : stream.Served :=
  (session_inv hrun i stream hstream).served

/-- A request of one byte in two pieces, and an answer. -/
def echoedByte : List SessionEvent := [
  .newClientStream, .up 0 (.writeEnvelope ⟨0, [9]⟩), .up 0 (.accept 3), .acceptStream 0,
  .up 0 .readEnvelope, .up 0 (.take 2), .up 0 (.accept 2), .up 0 (.accept 1), .up 0 .closeSend,
  .up 0 (.take 3), .up 0 (.take 1), .down 0 (.writeEnvelope ⟨2, []⟩), .down 0 (.accept 5),
  .handleRPCReturns 0, .deferred 0 .canceled, .down 0 .readEnvelope, .down 0 (.take 5),
  .down 0 .readEnvelope, .down 0 .readFails, .deferred 0 .canceled]

theorem echoedByte_served :
    ∃ s stream, session.run echoedByte = some s ∧ s.streams[0]? = some stream ∧
      stream.down.read = [⟨2, []⟩] ∧ stream.Served := by
  have hfacts : (session.run echoedByte).map (fun s => s.streams.map (·.down.read)) =
      some [[⟨2, []⟩]] := by
    decide +kernel
  obtain ⟨s, hrun, hstreams⟩ := Option.map_eq_some_iff.mp hfacts
  obtain ⟨stream, hstream, hread⟩ := List.map_eq_singleton_iff.mp hstreams
  have hget : s.streams[0]? = some stream := by rw [hstream]; rfl
  exact ⟨s, stream, hrun, hget, hread, streams_served echoedByte hrun hget⟩

end ConnectWebTransport
end BidiWeb
