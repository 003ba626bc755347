/-
  BidiWeb.ConnectWebTransport.Pipe

  One direction of a WebTransport stream between two `streamConn`s: the
  `WriteEnvelope` calls at one end, the `ReadEnvelope` calls at the other,
  and the bytes underway.

  A stream accepts the bytes of a `Write` bit by bit and hands them to the
  `Read`s in pieces of its own, so an envelope may be in three places at
  once.  An end that breaks (the stream is reset, its reading is canceled,
  the session ends) stays broken: no deadline is ever set on a stream.
-/

import BidiWeb.ConnectWebTransport.Reading
import BidiWeb.Lib.Machine

namespace BidiWeb
namespace ConnectWebTransport

open BidiWeb.Lib
open BidiWeb.BidiProtocol

-- ============================================================================
-- State
-- ============================================================================

/-- A `WriteEnvelope` in one of its two `Write`s, with the bytes of it that the
    stream has not accepted yet. -/
inductive Writing where
  | head (env : Envelope) (rest : Bytes)
  | payload (env : Envelope) (rest : Bytes)
deriving DecidableEq, Repr

namespace Writing

def env : Writing → Envelope
  | .head env _ | .payload env _ => env

def rest : Writing → Bytes
  | .head _ rest | .payload _ rest => rest

/-- The stream has accepted `n` more bytes.  The `WriteEnvelope` returns nil if
    they are the last ones. -/
def accepted (n : Nat) : Writing → Option Writing
  | .head env rest =>
      if n < rest.length then some (.head env (rest.drop n))
      else if 0 < env.payload.length then some (.payload env env.payload)
      else none
  | .payload env rest => if n < rest.length then some (.payload env (rest.drop n)) else none

end Writing

structure Pipe where
  -- the writing end
  writing : Option Writing := none
  /-- `Close` has been called. -/
  fin : Bool := false
  writeErr : Option GoError := none
  -- the reading end
  reading : Option Reading := none
  readErr : Option GoError := none
  /-- Accepted and not read. -/
  underway : Bytes := []
  /-- The envelopes of which a `Write` has been begun. -/
  started : List Envelope := []
  /-- The envelopes for which `WriteEnvelope` has returned nil. -/
  wrote : List Envelope := []
  /-- What `ReadEnvelope` has returned. -/
  results : List (Except GoError Envelope) := []
  /-- The bytes accepted, and those read. -/
  put : Bytes := []
  took : Bytes := []

inductive PipeEvent where
  /-- `WriteEnvelope` is called. -/
  | writeEnvelope (env : Envelope)
  /-- The stream accepts `n` bytes of a `Write`. -/
  | accept (n : Nat)
  /-- A `Write` fails. -/
  | writeFails
  /-- `CloseSend` is called. -/
  | closeSend
  /-- The writing end breaks. -/
  | breakWrite (err : GoError)
  /-- `ReadEnvelope` is called. -/
  | readEnvelope
  /-- A `Read` returns `n` bytes. -/
  | take (n : Nat)
  /-- A `Read` fails. -/
  | readFails
  /-- The reading end breaks. -/
  | breakRead (err : GoError)
deriving DecidableEq, Repr

-- ============================================================================
-- Steps
-- ============================================================================

namespace Pipe

variable (maxReadSize : Int) (p : Pipe)

/-- One goroutine writes to a stream at a time, and closes it. -/
def writeEnvelope (env : Envelope) : Option Pipe :=
  if p.writing.isSome then none
  else if 0xffffffff < env.payload.length then some p  -- math.MaxUint32
  else if p.fin ∨ p.writeErr.isSome then some p
  else
    some { p with
      writing := some (.head env (envelopeHead env.flag env.payload))
      started := p.started ++ [env] }

def accept (n : Nat) : Option Pipe :=
  match p.writing with
  | none => none
  | some w =>
      if p.writeErr.isSome ∨ n = 0 ∨ w.rest.length < n then none
      else
        let bytes := w.rest.take n
        let p := { p with put := p.put ++ bytes, underway := p.underway ++ bytes }
        match w.accepted n with
        | some w' => some { p with writing := some w' }
        | none => some { p with writing := none, wrote := p.wrote ++ [w.env] }

def writeFails : Option Pipe :=
  if p.writing.isSome ∧ p.writeErr.isSome then some { p with writing := none } else none

/-- `Close` does nothing for a stream that is broken. -/
def closeSend : Option Pipe :=
  if p.writing.isSome then none
  else if p.writeErr.isSome then some p
  else some { p with fin := true }

/-- What a `Read` fails with. -/
def readError : Option GoError :=
  p.readErr.or (if p.fin ∧ p.underway = [] then some .eof else none)

def readEnvelope : Option Pipe :=
  if p.reading.isSome then none else some { p with reading := some (.head []) }

def take (n : Nat) : Option Pipe :=
  match p.reading with
  | none => none
  | some r =>
      if p.readErr.isSome ∨ n = 0 ∨ r.room < n ∨ p.underway.length < n then none
      else
        let bytes := p.underway.take n
        let p := { p with took := p.took ++ bytes, underway := p.underway.drop n }
        match r.take maxReadSize bytes with
        | .waits r' => some { p with reading := some r' }
        | .returns result => some { p with reading := none, results := p.results ++ [result] }

def readFails : Option Pipe :=
  match p.reading, p.readError with
  | some r, some err =>
      some { p with reading := none, results := p.results ++ [.error (r.fails err)] }
  | some _, none | none, _ => none

/-- An end that breaks does not end the stream. -/
def breakRead (err : GoError) : Option Pipe :=
  if err = .eof then none else some { p with readErr := p.readErr.or (some err) }

def step (ev : PipeEvent) : Option Pipe :=
  match ev with
  | .writeEnvelope env => p.writeEnvelope env
  | .accept n => p.accept n
  | .writeFails => p.writeFails
  | .closeSend => p.closeSend
  | .breakWrite err => some { p with writeErr := p.writeErr.or (some err) }
  | .readEnvelope => p.readEnvelope
  | .take n => p.take maxReadSize n
  | .readFails => p.readFails
  | .breakRead err => p.breakRead err

/-- The envelopes among the results of `ReadEnvelope`, up to the first error. -/
def beforeError : List (Except GoError Envelope) → List Envelope
  | .ok env :: results => env :: beforeError results
  | .error _ :: _ | [] => []

def firstError : List (Except GoError Envelope) → Option GoError
  | .ok _ :: results => firstError results
  | .error err :: _ => some err
  | [] => none

/-- The envelopes `ReadEnvelope` has returned before its first error. -/
def read : List Envelope := beforeError p.results

/-- The bytes of the envelope being read. -/
def held : Bytes :=
  match p.reading with
  | some r => r.held
  | none => []

-- ============================================================================
-- What a step can do
-- ============================================================================

/-- The steps, each with what has let it happen. -/
inductive Stepped : PipeEvent → Pipe → Prop where
  | refused (env : Envelope) : p.writing = none → Stepped (.writeEnvelope env) p
  | begins (env : Envelope) : p.writing = none → p.fin = false → p.writeErr = none →
      env.payload.length < 0x100000000 →
      Stepped (.writeEnvelope env)
        { p with
          writing := some (.head env (envelopeHead env.flag env.payload))
          started := p.started ++ [env] }
  | accepts (n : Nat) (w w' : Writing) : p.writing = some w → p.writeErr = none →
      n ≤ w.rest.length → w.accepted n = some w' →
      Stepped (.accept n)
        { p with
          put := p.put ++ w.rest.take n
          underway := p.underway ++ w.rest.take n
          writing := some w' }
  | writes (n : Nat) (w : Writing) : p.writing = some w → p.writeErr = none →
      n ≤ w.rest.length → w.accepted n = none →
      Stepped (.accept n)
        { p with
          put := p.put ++ w.rest.take n
          underway := p.underway ++ w.rest.take n
          writing := none
          wrote := p.wrote ++ [w.env] }
  | writeFails (w : Writing) : p.writing = some w → p.writeErr.isSome →
      Stepped .writeFails { p with writing := none }
  | closeRefused : p.writeErr.isSome → Stepped .closeSend p
  | closes : p.writing = none → p.writeErr = none → Stepped .closeSend { p with fin := true }
  | breaksWrite (err : GoError) :
      Stepped (.breakWrite err) { p with writeErr := p.writeErr.or (some err) }
  | reads : p.reading = none → Stepped .readEnvelope { p with reading := some (.head []) }
  | takes (n : Nat) (r r' : Reading) : p.reading = some r → p.readErr = none → 0 < n →
      n ≤ r.room → n ≤ p.underway.length →
      r.take maxReadSize (p.underway.take n) = .waits r' →
      Stepped (.take n)
        { p with
          took := p.took ++ p.underway.take n
          underway := p.underway.drop n
          reading := some r' }
  | returns (n : Nat) (r : Reading) (result : Except GoError Envelope) : p.reading = some r →
      p.readErr = none → 0 < n → n ≤ r.room → n ≤ p.underway.length →
      r.take maxReadSize (p.underway.take n) = .returns result →
      Stepped (.take n)
        { p with
          took := p.took ++ p.underway.take n
          underway := p.underway.drop n
          reading := none
          results := p.results ++ [result] }
  | readFails (r : Reading) (err : GoError) : p.reading = some r → p.readError = some err →
      Stepped .readFails
        { p with reading := none, results := p.results ++ [.error (r.fails err)] }
  | breaksRead (err : GoError) : err ≠ .eof →
      Stepped (.breakRead err) { p with readErr := p.readErr.or (some err) }

variable {maxReadSize} {p} {p' : Pipe}

theorem stepped_accept {n : Nat} (hstep : p.accept n = some p') :
    Stepped maxReadSize p (.accept n) p' := by
  unfold accept at hstep
  cases hw : p.writing with
  | none => simp [hw] at hstep
  | some w =>
      simp only [hw] at hstep
      split at hstep
      · cases hstep
      · rename_i hready
        obtain ⟨hup, -, hle⟩ : p.writeErr = none ∧ n ≠ 0 ∧ n ≤ w.rest.length := by
          simpa [not_or] using hready
        split at hstep
        · rename_i w' haccepted
          cases hstep
          exact .accepts n w w' hw hup hle haccepted
        · rename_i haccepted
          cases hstep
          exact .writes n w hw hup hle haccepted

theorem stepped_take {n : Nat} (hstep : p.take maxReadSize n = some p') :
    Stepped maxReadSize p (.take n) p' := by
  unfold take at hstep
  cases hr : p.reading with
  | none => simp [hr] at hstep
  | some r =>
      simp only [hr] at hstep
      split at hstep
      · cases hstep
      · rename_i hready
        obtain ⟨hup, hpos, hroom, hle⟩ :
            p.readErr = none ∧ n ≠ 0 ∧ n ≤ r.room ∧ n ≤ p.underway.length := by
          simpa [not_or] using hready
        have hn := Nat.pos_of_ne_zero hpos
        split at hstep
        · rename_i r' htake
          cases hstep
          exact .takes n r r' hr hup hn hroom hle htake
        · rename_i result htake
          cases hstep
          exact .returns n r result hr hup hn hroom hle htake

theorem stepped {ev : PipeEvent} (hstep : p.step maxReadSize ev = some p') :
    Stepped maxReadSize p ev p' := by
  cases ev with
  | writeEnvelope env =>
      simp only [step, writeEnvelope] at hstep
      split at hstep
      · cases hstep
      · rename_i hidle
        have hw : p.writing = none := by simpa using hidle
        split at hstep
        · cases hstep
          exact .refused env hw
        · rename_i hlen
          split at hstep
          · cases hstep
            exact .refused env hw
          · rename_i hready
            obtain ⟨hopen, hup⟩ : p.fin = false ∧ p.writeErr = none := by
              simpa [not_or] using hready
            cases hstep
            exact .begins env hw hopen hup (by omega)
  | accept n => exact stepped_accept hstep
  | writeFails =>
      simp only [step, writeFails] at hstep
      split at hstep
      · rename_i hboth
        obtain ⟨w, hw⟩ := Option.isSome_iff_exists.mp hboth.1
        cases hstep
        exact .writeFails w hw hboth.2
      · cases hstep
  | closeSend =>
      simp only [step, closeSend] at hstep
      split at hstep
      · cases hstep
      · rename_i hidle
        split at hstep
        · rename_i hbroken
          cases hstep
          exact .closeRefused hbroken
        · rename_i hup
          cases hstep
          exact .closes (by simpa using hidle) (by simpa using hup)
  | breakWrite err =>
      cases hstep
      exact .breaksWrite err
  | readEnvelope =>
      simp only [step, readEnvelope] at hstep
      split at hstep
      · cases hstep
      · rename_i hidle
        cases hstep
        exact .reads (by simpa using hidle)
  | take n => exact stepped_take hstep
  | readFails =>
      simp only [step, readFails] at hstep
      split at hstep
      · rename_i r err hr herr
        cases hstep
        exact .readFails r err hr herr
      · cases hstep
      · cases hstep
  | breakRead err =>
      simp only [step, breakRead] at hstep
      split at hstep
      · cases hstep
      · rename_i hne
        cases hstep
        exact .breaksRead err hne

end Pipe

end ConnectWebTransport
end BidiWeb
