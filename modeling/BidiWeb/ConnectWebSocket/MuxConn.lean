/-
  BidiWeb.ConnectWebSocket.MuxConn

  `muxConn` of `connectwebsocket/mux.go` with every stream ever created on
  it, the read loops of both roles (`readLoopClient`, and `ServeHTTP` with
  `startStream` of `server.go`), and the methods other goroutines run on it.

  Every critical section of `mu`, every channel operation and every frame
  written is a step of its own.  What a goroutine has still to do of a method
  it is in is a `Task`; tasks run one step at a time and in any order.

  The connection is not part of this state: `recv` hands the read loop the
  next frame, and the frames written are appended to `sent`.
-/

import BidiWeb.ConnectWebSocket.MuxStream
import BidiWeb.Lib.Machine
import BidiWeb.Lib.Store

namespace BidiWeb
namespace ConnectWebSocket

open BidiWeb.Lib
open BidiWeb.Core (Code)

-- ============================================================================
-- State
-- ============================================================================

/-- One WebSocket message: an envelope of one stream. -/
structure Frame where
  id : UInt32
  env : Envelope
deriving DecidableEq, Repr

inductive Role where
  | client
  | server
deriving DecidableEq, Repr

/-- A stream with the history of the calls made on it. -/
structure StreamObject where
  stream : MuxStream
  /-- What `WriteEnvelope` has put on the connection, resets aside. -/
  wrote : List Envelope := []
  /-- What `ReadEnvelope` has returned. -/
  returned : List Envelope := []
  /-- `HandleRPC` has returned (server). -/
  handlerDone : Bool := false
deriving DecidableEq, Repr

/-- A `WriteEnvelope` succeeds. -/
def StreamObject.write (o : StreamObject) (env : Envelope) : StreamObject :=
  { o with wrote := if env.isReset then o.wrote else o.wrote ++ [env] }

/-- `deliver` puts an envelope in the inbox. -/
def StreamObject.push (o : StreamObject) (env : Envelope) : StreamObject :=
  { o with stream := o.stream.push env }

/-- The read loop. -/
inductive Loop where
  /-- In `readFrame`. -/
  | reading
  /-- A frame has been read. -/
  | got (frame : Frame)
  /-- `lookup` has returned a stream. -/
  | found (h : Nat) (frame : Frame)
  /-- `lookup` has returned nil. -/
  | missing (frame : Frame)
  /-- A reset stream has been deregistered. -/
  | resetting (h : Nat)
  | stopped
deriving DecidableEq, Repr

/-- What is left of a method. -/
inductive Task where
  /-- `WriteEnvelope`, its check passed. -/
  | write (h : Nat) (env : Envelope)
  /-- `Close`, the stream deregistered. -/
  | close (h : Nat)
  /-- `Close`, `rxEnd` loaded. -/
  | closeTerminate (h : Nat) (finished : Bool)
  /-- `Close`, the stream terminated. -/
  | closeReset (h : Nat) (finished : Bool)
  /-- The deferred `stream.terminate` of a handler. -/
  | exit (h : Nat)
  /-- The deferred `mc.deregister` of a handler. -/
  | exitDeregister (h : Nat)
  /-- `terminateAll`, after its critical section. -/
  | terminate (h : Nat) (err : GoError)
deriving DecidableEq, Repr

structure MuxConn where
  role : Role
  streams : UInt32 → Option Nat := fun _ => none
  nextID : UInt32 := 0
  closed : Bool := false
  closeErr : Option GoError := none
  /-- Every stream created, in order. -/
  objs : List StreamObject := []
  loop : Loop := .reading
  tasks : List Task := []
  /-- Frames read from the connection. -/
  seen : List Frame := []
  /-- Frames written to the connection. -/
  sent : List Frame := []

inductive ConnEvent where
  /-- `readFrame` returns a frame. -/
  | recv (frame : Frame)
  /-- `readFrame` fails; the streams are terminated with `err`. -/
  | recvFails (err : GoError)
  /-- The read loop takes its next step. -/
  | advance
  /-- The `deliver` of the read loop picks `terminated`. -/
  | drop
  | newStream (dedicated : Bool)
  /-- `WriteEnvelope` is called on stream `h`. -/
  | write (h : Nat) (env : Envelope)
  /-- `ReadEnvelope` on stream `h` receives from the inbox. -/
  | read (h : Nat)
  /-- The context of stream `h` is done. -/
  | cancel (h : Nat) (err : GoError)
  /-- `Close` is called on stream `h`. -/
  | close (h : Nat)
  | shutdown
  /-- The handler of stream `h` returns. -/
  | handlerReturn (h : Nat)
  /-- Task `k` takes its next step. -/
  | task (k : Nat)
  /-- The write that is task `k` fails. -/
  | writeFails (k : Nat)
deriving DecidableEq, Repr

/-- The frame in the read loop's hand. -/
def Loop.frame : Loop → Option Frame
  | .got frame | .found _ frame | .missing frame => some frame
  | .reading | .resetting _ | .stopped => none

def errConnClosed : GoError := .text "websocket connection closed"
def errStreamClosed : GoError := .text "websocket stream closed"

/-- The terminal error of a stream reset by the peer. -/
def resetErr : Role → GoError
  | .client => GoError.connectErrorf Code.canceled "stream reset by peer"
  | .server => .canceled

/-- `math.MaxUint32` -/
def maxUint32 : Nat := 0xFFFFFFFF

/-- `newStream`: try at most `n` IDs after `nextID`, skipping zero. -/
def probe (taken : UInt32 → Bool) : Nat → UInt32 → UInt32 × Bool
  | 0, nextID => (nextID, false)
  | n + 1, nextID =>
      let next := if nextID + 1 = 0 then 1 else nextID + 1
      if taken next then probe taken n next else (next, true)

/-- The stream a task terminates with its next step, what is left of the task
    then, and the error. -/
def Task.terminates : Task → Option (Nat × List Task × GoError)
  | .closeTerminate h finished => some (h, [.closeReset h finished], errStreamClosed)
  | .exit h => some (h, [.exitDeregister h], errStreamClosed)
  | .terminate h err => some (h, [], err)
  | .write .. | .close _ | .closeReset .. | .exitDeregister _ => none

namespace MuxConn

variable (c : MuxConn)

-- ============================================================================
-- The methods of muxConn
-- ============================================================================

def modify (h : Nat) (f : StreamObject → StreamObject) : MuxConn :=
  { c with objs := c.objs.modify h f }

def deregister (streamID : UInt32) : MuxConn :=
  { c with streams := Function.update c.streams streamID none }

/-- The ID of stream `h`. -/
def idOf (h : Nat) : Option UInt32 := c.objs[h]?.map (·.stream.id)

def terminate (h : Nat) (err : GoError) : MuxConn :=
  c.modify h fun o => { o with stream := o.stream.terminate err }

/-- Add a stream to `streams`. -/
def insert (o : StreamObject) : MuxConn :=
  { c with
    objs := c.objs ++ [o]
    streams := Function.update c.streams o.stream.id (some c.objs.length) }

def newStream (dedicated : Bool) : MuxConn :=
  if c.closed then c
  else
    match probe (fun id => (c.streams id).isSome) maxUint32 c.nextID with
    | (id, true) => { c with nextID := id }.insert { stream := { id, dedicated } }
    | (id, false) => { c with nextID := id }

/-- The handles registered in `streams`. -/
def registered : List Nat :=
  (List.range c.objs.length).filter fun h =>
    match c.idOf h with
    | some id => c.streams id = some h
    | none => false

/-- The critical section of `terminateAll`. -/
def terminateAll (err : GoError) : MuxConn :=
  { c with
    closed := true
    closeErr := if c.closed then c.closeErr else some err
    streams := fun _ => none
    tasks := c.tasks ++ c.registered.map (Task.terminate · err) }

/-- `writeFrame` -/
def writeFrame (frame : Frame) : MuxConn := { c with sent := c.sent ++ [frame] }

-- ============================================================================
-- The read loop
-- ============================================================================

/-- `startStream`: a new stream, seeded with the headers envelope that opened
    it, and registered unless the connection is closed or the ID in use. -/
def startStream (frame : Frame) : MuxConn :=
  if c.closed ∨ (c.streams frame.id).isSome then c
  else
    c.insert
      { stream :=
          { id := frame.id, inbox := [⟨flagEnvelopeHeaders, frame.env.payload⟩], cancel := true } }

def advance : Option MuxConn :=
  match c.loop with
  | .reading | .stopped => none
  | .got frame =>
      match c.streams frame.id with
      | some h => some { c with loop := .found h frame }
      | none => some { c with loop := .missing frame }
  | .missing frame =>
      if c.role = .server ∧ frame.env.flag = flagEnvelopeHeaders then
        some { c.startStream frame with loop := .reading }
      else some { c with loop := .reading }
  | .found h frame =>
      if frame.env.flag = flagEnvelopeReset then
        some { c.deregister frame.id with loop := .resetting h }
      else
        match c.objs[h]? with
        | none => none
        | some o =>
            (o.stream.deliverSend frame.env).map fun _ =>
              { c.modify h (StreamObject.push · frame.env) with loop := .reading }
  | .resetting h => some { c.terminate h (resetErr c.role) with loop := .reading }

/-- `deliver` picks its second case. -/
def drop : Option MuxConn :=
  match c.loop with
  | .found h frame =>
      match c.objs[h]? with
      | none => none
      | some o =>
          if frame.env.flag = flagEnvelopeReset then none
          else o.stream.deliverDrop.map fun _ => { c with loop := .reading }
  | .reading | .got _ | .missing _ | .resetting _ | .stopped => none

-- ============================================================================
-- The methods of muxStream
-- ============================================================================

/-- `WriteEnvelope` up to its write. -/
def write (h : Nat) (env : Envelope) : Option MuxConn :=
  c.objs[h]?.map fun o =>
    if o.stream.terminated || o.stream.ctxErr.isSome then c
    else { c with tasks := c.tasks ++ [.write h env] }

def read (h : Nat) : Option MuxConn :=
  match c.objs[h]? with
  | none => none
  | some o =>
      -- the handler is the only caller on the server
      if o.handlerDone then none
      else
        o.stream.receive.map fun p =>
          c.modify h fun o => { o with stream := p.2, returned := o.returned ++ [p.1] }

/-- Replace task `k`. -/
def setTask (k : Nat) (rest : List Task) : MuxConn :=
  { c with tasks := c.tasks.eraseIdx k ++ rest }

def runTask (k : Nat) : Option MuxConn :=
  match c.tasks[k]? with
  | none => none
  | some (.write h env) =>
      c.objs[h]?.map fun o =>
        ((c.setTask k []).writeFrame ⟨o.stream.id, env⟩).modify h (StreamObject.write · env)
  | some (.close h) =>
      c.objs[h]?.map fun o => c.setTask k [.closeTerminate h o.stream.rxEnd]
  | some (.closeTerminate h finished) =>
      some ((c.setTask k [.closeReset h finished]).terminate h errStreamClosed)
  | some (.closeReset h finished) =>
      c.objs[h]?.map fun o =>
        -- a dedicated connection is closed outright instead
        if o.stream.dedicated || finished then c.setTask k []
        else (c.setTask k []).writeFrame ⟨o.stream.id, ⟨flagEnvelopeReset, []⟩⟩
  | some (.exit h) => some ((c.setTask k [.exitDeregister h]).terminate h errStreamClosed)
  | some (.exitDeregister h) =>
      c.objs[h]?.map fun o => (c.setTask k []).deregister o.stream.id
  | some (.terminate h err) => some ((c.setTask k []).terminate h err)

def writeFails (k : Nat) : Option MuxConn :=
  match c.tasks[k]? with
  | some (.write _ _) | some (.closeReset _ _) => some (c.setTask k [])
  | some (.close _) | some (.closeTerminate _ _) | some (.exit _) | some (.exitDeregister _)
  | some (.terminate _ _) | none => none

def step (ev : ConnEvent) : Option MuxConn :=
  match ev with
  | .recv frame =>
      if c.loop = .reading then some { c with loop := .got frame, seen := c.seen ++ [frame] }
      else none
  | .recvFails err =>
      if c.loop = .reading then some { c.terminateAll err with loop := .stopped } else none
  | .advance => c.advance
  | .drop => c.drop
  | .newStream dedicated => if c.role = .client then some (c.newStream dedicated) else none
  | .write h env => c.write h env
  | .read h => c.read h
  | .cancel h err =>
      some (c.modify h fun o =>
        { o with stream := { o.stream with ctxErr := o.stream.ctxErr.or (some err) } })
  | .close h =>
      if c.role = .client then
        c.objs[h]?.map fun o =>
          { c.deregister o.stream.id with tasks := c.tasks ++ [.close h] }
      else none
  | .shutdown => if c.role = .client then some (c.terminateAll errConnClosed) else none
  | .handlerReturn h =>
      if c.role = .server then
        c.objs[h]?.bind fun o =>
          if o.handlerDone then none
          else
            some { c.modify h fun o => { o with handlerDone := true } with
              tasks := c.tasks ++ [.exit h] }
      else none
  | .task k => c.runTask k
  | .writeFails k => c.writeFails k

-- ============================================================================
-- The map
-- ============================================================================

variable {c} {c' : MuxConn}

theorem idOf_eq_some {h : Nat} {id : UInt32} :
    c.idOf h = some id ↔ ∃ o : StreamObject, c.objs[h]? = some o ∧ o.stream.id = id :=
  Option.map_eq_some_iff

theorem idOf_of_get {h : Nat} {o : StreamObject} (ho : c.objs[h]? = some o) :
    c.idOf h = some o.stream.id := idOf_eq_some.mpr ⟨o, ho, rfl⟩

/-- A change of one stream that keeps its ID. -/
theorem idOf_modify {h : Nat} {f : StreamObject → StreamObject}
    (hf : ∀ o, (f o).stream.id = o.stream.id) (j : Nat) : (c.modify h f).idOf j = c.idOf j := by
  simp only [idOf, MuxConn.modify, List.getElem?_modify]
  by_cases hhj : h = j
  · subst hhj
    cases c.objs[h]? <;> simp [hf]
  · simp [hhj]

theorem idOf_insert {o : StreamObject} {h : Nat} {id : UInt32} (hid : c.idOf h = some id) :
    (c.insert o).idOf h = some id := by
  obtain ⟨o₀, ho₀, hid⟩ := idOf_eq_some.mp hid
  exact idOf_eq_some.mpr ⟨o₀, Store.getElem?_concat.mpr (.inl ho₀), hid⟩

theorem deregister_streams {id j : UInt32} {h : Nat} :
    (c.deregister id).streams j = some h ↔ j ≠ id ∧ c.streams j = some h := by
  by_cases hji : j = id <;> simp [MuxConn.deregister, hji]

theorem insert_streams {o : StreamObject} {id : UInt32} {h : Nat} :
    (c.insert o).streams id = some h ↔
      id = o.stream.id ∧ h = c.objs.length ∨ id ≠ o.stream.id ∧ c.streams id = some h := by
  by_cases hid : id = o.stream.id <;> simp [MuxConn.insert, hid, eq_comm]

theorem mem_registered {h : Nat} :
    h ∈ c.registered ↔ ∃ id, c.idOf h = some id ∧ c.streams id = some h := by
  have hlt : ∀ {id}, c.idOf h = some id → h < c.objs.length := fun hid => by
    obtain ⟨o, ho, -⟩ := idOf_eq_some.mp hid
    exact (List.getElem?_eq_some_iff.mp ho).1
  unfold registered
  cases hid : c.idOf h with
  | none => simp [hid]
  | some id => simp [hid, hlt hid]

-- ============================================================================
-- New streams
-- ============================================================================

/-- An ID that `newStream` settles on is free. -/
theorem probe_free (taken : UInt32 → Bool) (n : Nat) (nextID : UInt32)
    (hfresh : (probe taken n nextID).2 = true) :
    taken (probe taken n nextID).1 = false := by
  induction n generalizing nextID with
  | zero => cases hfresh
  | succ n ih =>
      simp only [probe] at hfresh ⊢
      generalize (if nextID + 1 = 0 then 1 else nextID + 1) = next at hfresh ⊢
      by_cases htaken : taken next = true
      · rw [if_pos htaken] at hfresh ⊢
        exact ih next hfresh
      · rw [if_neg htaken]
        exact Bool.eq_false_iff.mpr htaken

theorem newStream_cases (dedicated : Bool) :
    (∃ next, c.newStream dedicated = { c with nextID := next }) ∨
      c.closed = false ∧ ∃ id, c.streams id = none ∧
        c.newStream dedicated = { c with nextID := id }.insert { stream := { id, dedicated } } := by
  unfold newStream
  split
  · exact .inl ⟨c.nextID, rfl⟩
  · rename_i hopen
    have hfree := probe_free (fun id => (c.streams id).isSome) maxUint32 c.nextID
    cases hprobe : probe (fun id => (c.streams id).isSome) maxUint32 c.nextID with
    | mk id fresh =>
        rw [hprobe] at hfree
        cases fresh with
        | true =>
            exact .inr ⟨Bool.eq_false_iff.mpr hopen, id, by simpa using hfree rfl, rfl⟩
        | false => exact .inl ⟨id, rfl⟩

theorem startStream_cases (f : Frame) :
    c.startStream f = c ∨
      c.closed = false ∧ c.streams f.id = none ∧
        c.startStream f =
          c.insert
            { stream :=
                { id := f.id, inbox := [⟨flagEnvelopeHeaders, f.env.payload⟩],
                  cancel := true } } := by
  unfold startStream
  split
  · exact .inl rfl
  · rename_i hfree
    obtain ⟨hopen, hnone⟩ := not_or.mp hfree
    exact .inr ⟨Bool.eq_false_iff.mpr hopen, by simpa using hnone, rfl⟩

section

variable (dedicated : Bool) (f : Frame)

@[simp] theorem newStream_loop : (c.newStream dedicated).loop = c.loop := by
  rcases c.newStream_cases dedicated with ⟨next, hc⟩ | ⟨-, id, -, hc⟩ <;> simp only [hc, insert]

@[simp] theorem newStream_tasks : (c.newStream dedicated).tasks = c.tasks := by
  rcases c.newStream_cases dedicated with ⟨next, hc⟩ | ⟨-, id, -, hc⟩ <;> simp only [hc, insert]

@[simp] theorem newStream_sent : (c.newStream dedicated).sent = c.sent := by
  rcases c.newStream_cases dedicated with ⟨next, hc⟩ | ⟨-, id, -, hc⟩ <;> simp only [hc, insert]

@[simp] theorem newStream_seen : (c.newStream dedicated).seen = c.seen := by
  rcases c.newStream_cases dedicated with ⟨next, hc⟩ | ⟨-, id, -, hc⟩ <;> simp only [hc, insert]

@[simp] theorem newStream_role : (c.newStream dedicated).role = c.role := by
  rcases c.newStream_cases dedicated with ⟨next, hc⟩ | ⟨-, id, -, hc⟩ <;> simp only [hc, insert]

@[simp] theorem startStream_tasks : (c.startStream f).tasks = c.tasks := by
  rcases c.startStream_cases f with hc | ⟨-, -, hc⟩ <;> simp only [hc, insert]

@[simp] theorem startStream_seen : (c.startStream f).seen = c.seen := by
  rcases c.startStream_cases f with hc | ⟨-, -, hc⟩ <;> simp only [hc, insert]

@[simp] theorem startStream_role : (c.startStream f).role = c.role := by
  rcases c.startStream_cases f with hc | ⟨-, -, hc⟩ <;> simp only [hc, insert]

end

variable (c)

-- ============================================================================
-- What a step can do
-- ============================================================================

/-- The steps, each with what has let it happen. -/
inductive Stepped (c : MuxConn) : ConnEvent → MuxConn → Prop where
  | recv (f : Frame) : c.loop = .reading →
      Stepped c (.recv f) { c with loop := .got f, seen := c.seen ++ [f] }
  | recvFails (err : GoError) : c.loop = .reading →
      Stepped c (.recvFails err) { c.terminateAll err with loop := .stopped }
  | found (h : Nat) (f : Frame) : c.loop = .got f → c.streams f.id = some h →
      Stepped c .advance { c with loop := .found h f }
  | missing (f : Frame) : c.loop = .got f → c.streams f.id = none →
      Stepped c .advance { c with loop := .missing f }
  | start (f : Frame) : c.loop = .missing f → c.role = .server →
      f.env.flag = flagEnvelopeHeaders →
      Stepped c .advance { c.startStream f with loop := .reading }
  | skip (f : Frame) : c.loop = .missing f →
      ¬ (c.role = .server ∧ f.env.flag = flagEnvelopeHeaders) →
      Stepped c .advance { c with loop := .reading }
  | reset (h : Nat) (f : Frame) : c.loop = .found h f → f.env.isReset = true →
      Stepped c .advance { c.deregister f.id with loop := .resetting h }
  | deliver (h : Nat) (f : Frame) (o : StreamObject) : c.loop = .found h f →
      f.env.isReset = false → c.objs[h]? = some o → (o.stream.deliverSend f.env).isSome →
      Stepped c .advance { c.modify h (StreamObject.push · f.env) with loop := .reading }
  | resetTerminate (h : Nat) : c.loop = .resetting h →
      Stepped c .advance { c.terminate h (resetErr c.role) with loop := .reading }
  | drop (h : Nat) (f : Frame) (o : StreamObject) : c.loop = .found h f →
      f.env.isReset = false → c.objs[h]? = some o → o.stream.deliverDrop.isSome →
      Stepped c .drop { c with loop := .reading }
  | newStream (dedicated : Bool) : c.role = .client →
      Stepped c (.newStream dedicated) (c.newStream dedicated)
  | writeRefused (h : Nat) (env : Envelope) (o : StreamObject) : c.objs[h]? = some o →
      (o.stream.terminated || o.stream.ctxErr.isSome) = true → Stepped c (.write h env) c
  | writeChecked (h : Nat) (env : Envelope) (o : StreamObject) : c.objs[h]? = some o →
      (o.stream.terminated || o.stream.ctxErr.isSome) = false →
      Stepped c (.write h env) { c with tasks := c.tasks ++ [.write h env] }
  | read (h : Nat) (o : StreamObject) (env : Envelope) (stream : MuxStream) :
      c.objs[h]? = some o → o.handlerDone = false → o.stream.receive = some (env, stream) →
      Stepped c (.read h) (c.modify h fun o => { o with stream, returned := o.returned ++ [env] })
  | cancel (h : Nat) (err : GoError) :
      Stepped c (.cancel h err) (c.modify h fun o =>
        { o with stream := { o.stream with ctxErr := o.stream.ctxErr.or (some err) } })
  | close (h : Nat) (o : StreamObject) : c.role = .client → c.objs[h]? = some o →
      Stepped c (.close h)
        { c.deregister o.stream.id with tasks := c.tasks ++ [.close h] }
  | shutdown : c.role = .client → Stepped c .shutdown (c.terminateAll errConnClosed)
  | handlerReturn (h : Nat) (o : StreamObject) : c.role = .server → c.objs[h]? = some o →
      o.handlerDone = false →
      Stepped c (.handlerReturn h)
        { c.modify h fun o => { o with handlerDone := true } with
          tasks := c.tasks ++ [.exit h] }
  | taskWrite (k h : Nat) (env : Envelope) (o : StreamObject) : c.tasks[k]? = some (.write h env) →
      c.objs[h]? = some o →
      Stepped c (.task k)
        (((c.setTask k []).writeFrame ⟨o.stream.id, env⟩).modify h (StreamObject.write · env))
  | taskClose (k h : Nat) (o : StreamObject) : c.tasks[k]? = some (.close h) →
      c.objs[h]? = some o →
      Stepped c (.task k) (c.setTask k [.closeTerminate h o.stream.rxEnd])
  | taskTerminate (k h : Nat) (t : Task) (rest : List Task) (err : GoError) :
      c.tasks[k]? = some t → t.terminates = some (h, rest, err) →
      Stepped c (.task k) ((c.setTask k rest).terminate h err)
  | taskReset (k h : Nat) (finished : Bool) (o : StreamObject) :
      c.tasks[k]? = some (.closeReset h finished) → c.objs[h]? = some o →
      (o.stream.dedicated || finished) = false →
      Stepped c (.task k)
        ((c.setTask k []).writeFrame ⟨o.stream.id, ⟨flagEnvelopeReset, []⟩⟩)
  | taskClosed (k h : Nat) (finished : Bool) (o : StreamObject) :
      c.tasks[k]? = some (.closeReset h finished) → c.objs[h]? = some o →
      (o.stream.dedicated || finished) = true → Stepped c (.task k) (c.setTask k [])
  | taskDeregister (k h : Nat) (o : StreamObject) : c.tasks[k]? = some (.exitDeregister h) →
      c.objs[h]? = some o → Stepped c (.task k) ((c.setTask k []).deregister o.stream.id)
  | writeFails (k h : Nat) (env : Envelope) : c.tasks[k]? = some (.write h env) →
      Stepped c (.writeFails k) (c.setTask k [])
  | resetFails (k h : Nat) (finished : Bool) : c.tasks[k]? = some (.closeReset h finished) →
      Stepped c (.writeFails k) (c.setTask k [])

variable {c} {c' : MuxConn}

theorem stepped_advance (hstep : c.advance = some c') : Stepped c .advance c' := by
  unfold advance at hstep
  cases hloop : c.loop with
  | reading => simp [hloop] at hstep
  | stopped => simp [hloop] at hstep
  | got f =>
      simp only [hloop] at hstep
      cases hs : c.streams f.id with
      | some h =>
          simp only [hs, Option.some.injEq] at hstep
          exact hstep ▸ .found h f hloop hs
      | none =>
          simp only [hs, Option.some.injEq] at hstep
          exact hstep ▸ .missing f hloop hs
  | missing f =>
      simp only [hloop] at hstep
      by_cases hstart : c.role = .server ∧ f.env.flag = flagEnvelopeHeaders
      · rw [if_pos hstart] at hstep
        exact Option.some.inj hstep ▸ .start f hloop hstart.1 hstart.2
      · rw [if_neg hstart] at hstep
        exact Option.some.inj hstep ▸ .skip f hloop hstart
  | found h f =>
      simp only [hloop] at hstep
      by_cases hreset : f.env.flag = flagEnvelopeReset
      · rw [if_pos hreset] at hstep
        exact Option.some.inj hstep ▸ .reset h f hloop (decide_eq_true hreset)
      · rw [if_neg hreset] at hstep
        cases ho : c.objs[h]? with
        | none => simp [ho] at hstep
        | some o =>
            simp only [ho] at hstep
            obtain ⟨s, hsend, rfl⟩ := Option.map_eq_some_iff.mp hstep
            exact .deliver h f o hloop (decide_eq_false hreset) ho (by rw [hsend]; rfl)
  | resetting h =>
      simp only [hloop, Option.some.injEq] at hstep
      exact hstep ▸ .resetTerminate h hloop

theorem stepped_drop (hstep : c.drop = some c') : Stepped c .drop c' := by
  unfold drop at hstep
  cases hloop : c.loop with
  | found h f =>
      simp only [hloop] at hstep
      cases ho : c.objs[h]? with
      | none => simp [ho] at hstep
      | some o =>
          simp only [ho] at hstep
          by_cases hreset : f.env.flag = flagEnvelopeReset
          · simp [hreset] at hstep
          · rw [if_neg hreset] at hstep
            obtain ⟨s, hdrop, rfl⟩ := Option.map_eq_some_iff.mp hstep
            exact .drop h f o hloop (decide_eq_false hreset) ho (by rw [hdrop]; rfl)
  | reading => simp [hloop] at hstep
  | got f => simp [hloop] at hstep
  | missing f => simp [hloop] at hstep
  | resetting h => simp [hloop] at hstep
  | stopped => simp [hloop] at hstep

theorem stepped_runTask {k : Nat} (hstep : c.runTask k = some c') : Stepped c (.task k) c' := by
  unfold runTask at hstep
  cases hk : c.tasks[k]? with
  | none => simp [hk] at hstep
  | some t =>
      cases t with
      | write h env =>
          simp only [hk] at hstep
          obtain ⟨o, ho, rfl⟩ := Option.map_eq_some_iff.mp hstep
          exact .taskWrite k h env o hk ho
      | close h =>
          simp only [hk] at hstep
          obtain ⟨o, ho, rfl⟩ := Option.map_eq_some_iff.mp hstep
          exact .taskClose k h o hk ho
      | closeTerminate h finished =>
          simp only [hk, Option.some.injEq] at hstep
          exact hstep ▸ .taskTerminate k h _ _ _ hk rfl
      | closeReset h finished =>
          simp only [hk] at hstep
          obtain ⟨o, ho, rfl⟩ := Option.map_eq_some_iff.mp hstep
          by_cases hclosed : (o.stream.dedicated || finished) = true
          · rw [if_pos hclosed]
            exact .taskClosed k h finished o hk ho hclosed
          · rw [if_neg hclosed]
            exact .taskReset k h finished o hk ho (Bool.eq_false_iff.mpr hclosed)
      | exit h =>
          simp only [hk, Option.some.injEq] at hstep
          exact hstep ▸ .taskTerminate k h _ _ _ hk rfl
      | exitDeregister h =>
          simp only [hk] at hstep
          obtain ⟨o, ho, rfl⟩ := Option.map_eq_some_iff.mp hstep
          exact .taskDeregister k h o hk ho
      | terminate h err =>
          simp only [hk, Option.some.injEq] at hstep
          exact hstep ▸ .taskTerminate k h _ _ _ hk rfl

/-- Nothing but these steps. -/
theorem stepped {ev : ConnEvent} (hstep : c.step ev = some c') : Stepped c ev c' := by
  cases ev with
  | recv f =>
      obtain ⟨hloop, ⟨⟩⟩ := Option.ite_none_right_eq_some.mp hstep
      exact .recv f hloop
  | recvFails err =>
      obtain ⟨hloop, ⟨⟩⟩ := Option.ite_none_right_eq_some.mp hstep
      exact .recvFails err hloop
  | advance => exact stepped_advance hstep
  | drop => exact stepped_drop hstep
  | newStream dedicated =>
      obtain ⟨hrole, ⟨⟩⟩ := Option.ite_none_right_eq_some.mp hstep
      exact .newStream dedicated hrole
  | write h env =>
      obtain ⟨o, ho, rfl⟩ := Option.map_eq_some_iff.mp hstep
      by_cases hended : (o.stream.terminated || o.stream.ctxErr.isSome) = true
      · rw [if_pos hended]
        exact .writeRefused h env o ho hended
      · rw [if_neg hended]
        exact .writeChecked h env o ho (Bool.eq_false_iff.mpr hended)
  | read h =>
      have hstep : c.read h = some c' := hstep
      unfold read at hstep
      cases ho : c.objs[h]? with
      | none => simp [ho] at hstep
      | some o =>
          simp only [ho] at hstep
          by_cases hdone : o.handlerDone = true
          · simp [hdone] at hstep
          · rw [if_neg hdone] at hstep
            obtain ⟨⟨env, stream⟩, hreceive, rfl⟩ := Option.map_eq_some_iff.mp hstep
            exact .read h o env stream ho (Bool.eq_false_iff.mpr hdone) hreceive
  | cancel h err =>
      obtain rfl := Option.some.inj hstep
      exact .cancel h err
  | close h =>
      obtain ⟨hrole, hstep⟩ := Option.ite_none_right_eq_some.mp hstep
      obtain ⟨o, ho, rfl⟩ := Option.map_eq_some_iff.mp hstep
      exact .close h o hrole ho
  | shutdown =>
      obtain ⟨hrole, ⟨⟩⟩ := Option.ite_none_right_eq_some.mp hstep
      exact .shutdown hrole
  | handlerReturn h =>
      obtain ⟨hrole, hstep⟩ := Option.ite_none_right_eq_some.mp hstep
      obtain ⟨o, ho, hstep⟩ := Option.bind_eq_some_iff.mp hstep
      obtain ⟨hdone, hstep⟩ := Option.ite_none_left_eq_some.mp hstep
      obtain rfl := Option.some.inj hstep
      exact .handlerReturn h o hrole ho (Bool.eq_false_iff.mpr hdone)
  | task k => exact stepped_runTask hstep
  | writeFails k =>
      have hstep : c.writeFails k = some c' := hstep
      unfold writeFails at hstep
      cases hk : c.tasks[k]? with
      | none => simp [hk] at hstep
      | some t =>
          cases t with
          | write h env =>
              simp only [hk, Option.some.injEq] at hstep
              exact hstep ▸ .writeFails k h env hk
          | closeReset h finished =>
              simp only [hk, Option.some.injEq] at hstep
              exact hstep ▸ .resetFails k h finished hk
          | close h => simp [hk] at hstep
          | closeTerminate h finished => simp [hk] at hstep
          | exit h => simp [hk] at hstep
          | exitDeregister h => simp [hk] at hstep
          | terminate h err => simp [hk] at hstep

end MuxConn
end ConnectWebSocket
end BidiWeb
