/-
  BidiWeb.ConnectWebSocket.Transport

  `type transport` of `connectwebsocket/connectwebsocket.go`: every connection
  it has dialled and every call of its methods, in progress or returned.

  A label is one step of one goroutine: a call takes `t.mu`, goes on to its
  next dial or lock, or a dial returns.  A dial holds no lock but `t.mu`, and
  that only on the way to the shared connection, so the read loops, the
  streams and the other calls go on meanwhile.
-/

import BidiWeb.ConnectWebSocket.StreamIds
import BidiWeb.ConnectWebSocket.WireSteps

namespace BidiWeb
namespace ConnectWebSocket

open BidiWeb.Lib
open BidiWeb.Core (Code)

-- ============================================================================
-- State
-- ============================================================================

/-- A method of the transport. -/
inductive Method where
  /-- `NewClientStream`, with `spec.StreamType == connect.StreamTypeUnary`. -/
  | newClientStream (unary : Bool)
  | close
deriving DecidableEq, Repr

/-- How far a call is. -/
inductive Phase where
  /-- Before `t.mu.Lock()`. -/
  | waiting
  /-- `sharedStream` has the lock. -/
  | locked
  /-- `sharedStream` dials, with the lock. -/
  | dialing
  /-- `sharedStream` has made connection `k` the shared one, with the lock. -/
  | dialed (k : Nat)
  /-- `NewClientStream` dials a connection for its stream. -/
  | dialingOwn
  | dialedOwn (k : Nat)
  /-- Connection `k` was dialled for a stream that could not be opened. -/
  | failedOwn (k : Nat) (err : Option GoError)
  /-- `Close` has taken connection `k` out of `t.shared`. -/
  | closing (k : Nat)
  /-- `NewClientStream` has returned stream `h` of connection `k`. -/
  | opened (k h : Nat)
  | failed (err : Option GoError)
  /-- `Close` has found no connection, or has terminated the streams of the one
      it found and has its socket left to close. -/
  | closed
deriving DecidableEq, Repr

structure Call where
  method : Method
  phase : Phase
deriving DecidableEq, Repr

/-- A connection that has been dialled. -/
structure Dialed where
  mc : MuxConn
  /-- The call whose stream it was dialled for; a shared one has none. -/
  call : Option Nat

structure Transport where
  url : String
  connectionPerStream : Bool
  /-- The call that holds `t.mu`. -/
  lock : Option Nat := none
  shared : Option Nat := none
  /-- Every connection dialled, in order. -/
  conns : List Dialed := []
  /-- Every call, in order. -/
  calls : List Call := []

inductive TransportEvent where
  | call (method : Method)
  /-- Call `i` takes `t.mu`. -/
  | lock (i : Nat)
  /-- `websocket.Dial` returns a connection to call `i`. -/
  | dialed (i : Nat)
  | dialFails (i : Nat) (err : String)
  /-- Call `i` goes on. -/
  | advance (i : Nat)
  /-- Connection `k` or one of its streams takes a step. -/
  | conn (k : Nat) (ev : WireEvent)
deriving DecidableEq, Repr

/-- The call of `MuxConn` is made by the transport. -/
def WireEvent.ofTransport : WireEvent → Bool
  | .other (.newStream _) | .other .shutdown => true
  | _ => false

def dialErr (err : String) : GoError :=
  GoError.connectErrorf Code.unavailable ("failed to dial WebSocket: " ++ err)

-- ============================================================================
-- The methods
-- ============================================================================

namespace Transport

variable (t : Transport)

def setPhase (i : Nat) (phase : Phase) : Transport :=
  { t with calls := t.calls.modify i fun c => { c with phase } }

def setConn (k : Nat) (f : MuxConn → MuxConn) : Transport :=
  { t with conns := t.conns.modify k fun d => { d with mc := f d.mc } }

/-- `NewClientStream` dials a connection for its stream. -/
def dedicates (unary : Bool) : Bool := t.connectionPerStream && !unary

/-- A call up to its first dial or lock. -/
def enter : Method → Phase
  | .newClientStream unary =>
      if t.url = "" then .failed (some (.text "connectwebsocket: empty URL"))
      else if t.dedicates unary then .dialingOwn
      else .waiting
  | .close => .waiting

/-- `t.mu.Lock()`.  `Close` does no more with the lock than to take the
    shared connection. -/
def acquire (i : Nat) : Option Transport :=
  match t.lock, t.calls[i]? with
  | none, some ⟨.newClientStream _, .waiting⟩ => some { t.setPhase i .locked with lock := some i }
  | none, some ⟨.close, .waiting⟩ =>
      match t.shared with
      | some k => some { t.setPhase i (.closing k) with shared := none }
      | none => some (t.setPhase i .closed)
  | _, _ => none

/-- `dial` returns a connection. -/
def dial (i : Nat) : Option Transport :=
  match t.calls[i]? with
  | some ⟨_, .dialing⟩ =>
      some
        { t.setPhase i (.dialed t.conns.length) with
          conns := t.conns ++ [{ mc := { role := .client }, call := none }]
          shared := some t.conns.length }
  | some ⟨_, .dialingOwn⟩ =>
      some
        { t.setPhase i (.dialedOwn t.conns.length) with
          conns := t.conns ++ [{ mc := { role := .client }, call := some i }] }
  | _ => none

/-- `dial` fails. -/
def dialFails (i : Nat) (err : String) : Option Transport :=
  match t.calls[i]? with
  | some ⟨_, .dialing⟩ =>
      some { t.setPhase i (.failed (some (dialErr err))) with lock := none }
  | some ⟨_, .dialingOwn⟩ => some (t.setPhase i (.failed (some (dialErr err))))
  | _ => none

/-- What is left of `sharedStream`. -/
def advanceShared (i : Nat) : Option Transport :=
  match t.shared with
  | none => some (t.setPhase i .dialing)
  | some k =>
      t.conns[k]?.map fun d =>
        let after := t.setConn k (MuxConn.newStream · false)
        match d.mc.opened false with
        | .ok _ => { after.setPhase i (.opened k d.mc.objs.length) with lock := none }
        -- The shared connection failed; dial a replacement.
        | .error _ => after.setPhase i .dialing

def advance (i : Nat) : Option Transport :=
  match t.calls[i]? with
  | some ⟨_, .locked⟩ => t.advanceShared i
  | some ⟨_, .dialed k⟩ =>
      t.conns[k]?.map fun d =>
        let after := t.setConn k (MuxConn.newStream · false)
        match d.mc.opened false with
        | .ok _ => { after.setPhase i (.opened k d.mc.objs.length) with lock := none }
        | .error err => { after.setPhase i (.failed err) with lock := none }
  | some ⟨_, .dialedOwn k⟩ =>
      t.conns[k]?.map fun d =>
        let after := t.setConn k (MuxConn.newStream · true)
        match d.mc.opened true with
        | .ok _ => after.setPhase i (.opened k d.mc.objs.length)
        | .error err => after.setPhase i (.failedOwn k err)
  | some ⟨_, .failedOwn k err⟩ =>
      some ((t.setConn k (MuxConn.terminateAll · errConnClosed)).setPhase i (.failed err))
  | some ⟨_, .closing k⟩ =>
      some ((t.setConn k (MuxConn.terminateAll · errConnClosed)).setPhase i .closed)
  | _ => none

def step (ev : TransportEvent) : Option Transport :=
  match ev with
  | .call method => some { t with calls := t.calls ++ [⟨method, t.enter method⟩] }
  | .lock i => t.acquire i
  | .dialed i => t.dial i
  | .dialFails i err => t.dialFails i err
  | .advance i => t.advance i
  | .conn k ev =>
      if ev.ofTransport then none
      else
        t.conns[k]?.bind fun d => (d.mc.wireStep ev).map fun c => t.setConn k fun _ => c

end Transport

/-- `NewTransport` -/
def transport (url : String) (connectionPerStream : Bool) : Machine Transport TransportEvent where
  init := { url, connectionPerStream }
  step := Transport.step

namespace Transport

variable {t t' : Transport}

-- ============================================================================
-- Cases of a step
-- ============================================================================

/-- `newStream` on connection `k`. -/
def afterNewStream (t : Transport) (k : Nat) (dedicated : Bool) : Transport :=
  t.setConn k (MuxConn.newStream · dedicated)

/-- `shutdown` of connection `k`. -/
def afterShutdown (t : Transport) (k : Nat) : Transport :=
  t.setConn k (MuxConn.terminateAll · errConnClosed)

inductive Stepped (t : Transport) : TransportEvent → Transport → Prop where
  | called (method : Method) :
      Stepped t (.call method) { t with calls := t.calls ++ [⟨method, t.enter method⟩] }
  | locked (i : Nat) (unary : Bool) : t.lock = none →
      t.calls[i]? = some ⟨.newClientStream unary, .waiting⟩ →
      Stepped t (.lock i) { t.setPhase i .locked with lock := some i }
  | taken (i k : Nat) : t.lock = none → t.calls[i]? = some ⟨.close, .waiting⟩ →
      t.shared = some k → Stepped t (.lock i) { t.setPhase i (.closing k) with shared := none }
  | idle (i : Nat) : t.lock = none → t.calls[i]? = some ⟨.close, .waiting⟩ → t.shared = none →
      Stepped t (.lock i) (t.setPhase i .closed)
  | dialed (i : Nat) (m : Method) : t.calls[i]? = some ⟨m, .dialing⟩ →
      Stepped t (.dialed i)
        { t.setPhase i (.dialed t.conns.length) with
          conns := t.conns ++ [{ mc := { role := .client }, call := none }]
          shared := some t.conns.length }
  | dialedOwn (i : Nat) (m : Method) : t.calls[i]? = some ⟨m, .dialingOwn⟩ →
      Stepped t (.dialed i)
        { t.setPhase i (.dialedOwn t.conns.length) with
          conns := t.conns ++ [{ mc := { role := .client }, call := some i }] }
  | dialFails (i : Nat) (m : Method) (err : String) : t.calls[i]? = some ⟨m, .dialing⟩ →
      Stepped t (.dialFails i err)
        { t.setPhase i (.failed (some (dialErr err))) with lock := none }
  | dialOwnFails (i : Nat) (m : Method) (err : String) : t.calls[i]? = some ⟨m, .dialingOwn⟩ →
      Stepped t (.dialFails i err) (t.setPhase i (.failed (some (dialErr err))))
  /-- There is no shared connection. -/
  | dials (i : Nat) (m : Method) : t.calls[i]? = some ⟨m, .locked⟩ → t.shared = none →
      Stepped t (.advance i) (t.setPhase i .dialing)
  /-- The shared connection is no good any more. -/
  | redials (i : Nat) (m : Method) (k : Nat) (d : Dialed) (err : Option GoError) :
      t.calls[i]? = some ⟨m, .locked⟩ → t.shared = some k → t.conns[k]? = some d →
      d.mc.opened false = .error err →
      Stepped t (.advance i) ((t.afterNewStream k false).setPhase i .dialing)
  | opens (i : Nat) (m : Method) (phase : Phase) (k : Nat) (d : Dialed) (s : MuxStream) :
      t.calls[i]? = some ⟨m, phase⟩ →
      phase = .locked ∧ t.shared = some k ∨ phase = .dialed k → t.conns[k]? = some d →
      d.mc.opened false = .ok s →
      Stepped t (.advance i)
        { (t.afterNewStream k false).setPhase i (.opened k d.mc.objs.length) with lock := none }
  | fails (i : Nat) (m : Method) (k : Nat) (d : Dialed) (err : Option GoError) :
      t.calls[i]? = some ⟨m, .dialed k⟩ → t.conns[k]? = some d → d.mc.opened false = .error err →
      Stepped t (.advance i)
        { (t.afterNewStream k false).setPhase i (.failed err) with lock := none }
  | opensOwn (i : Nat) (m : Method) (k : Nat) (d : Dialed) (s : MuxStream) :
      t.calls[i]? = some ⟨m, .dialedOwn k⟩ → t.conns[k]? = some d → d.mc.opened true = .ok s →
      Stepped t (.advance i)
        ((t.afterNewStream k true).setPhase i (.opened k d.mc.objs.length))
  | failsOwn (i : Nat) (m : Method) (k : Nat) (d : Dialed) (err : Option GoError) :
      t.calls[i]? = some ⟨m, .dialedOwn k⟩ → t.conns[k]? = some d →
      d.mc.opened true = .error err →
      Stepped t (.advance i) ((t.afterNewStream k true).setPhase i (.failedOwn k err))
  | shutsOwn (i : Nat) (m : Method) (k : Nat) (err : Option GoError) :
      t.calls[i]? = some ⟨m, .failedOwn k err⟩ →
      Stepped t (.advance i) ((t.afterShutdown k).setPhase i (.failed err))
  | shuts (i : Nat) (m : Method) (k : Nat) : t.calls[i]? = some ⟨m, .closing k⟩ →
      Stepped t (.advance i) ((t.afterShutdown k).setPhase i .closed)
  | conn (k : Nat) (ev : WireEvent) (d : Dialed) (c : MuxConn) : ev.ofTransport = false →
      t.conns[k]? = some d → d.mc.WireStepped ev c →
      Stepped t (.conn k ev) (t.setConn k fun _ => c)

theorem stepped_acquire {i : Nat} (hstep : t.acquire i = some t') : Stepped t (.lock i) t' := by
  unfold acquire at hstep
  split at hstep
  · rename_i unary hlock hcall
    cases hstep
    exact .locked i unary hlock hcall
  · rename_i hlock hcall
    split at hstep
    · rename_i k hshared
      cases hstep
      exact .taken i k hlock hcall hshared
    · rename_i hshared
      cases hstep
      exact .idle i hlock hcall hshared
  · cases hstep

theorem stepped_dial {i : Nat} (hstep : t.dial i = some t') : Stepped t (.dialed i) t' := by
  unfold dial at hstep
  split at hstep
  · rename_i m hcall
    cases hstep
    exact .dialed i m hcall
  · rename_i m hcall
    cases hstep
    exact .dialedOwn i m hcall
  · cases hstep

theorem stepped_dialFails {i : Nat} {err : String} (hstep : t.dialFails i err = some t') :
    Stepped t (.dialFails i err) t' := by
  unfold dialFails at hstep
  split at hstep
  · rename_i m hcall
    cases hstep
    exact .dialFails i m err hcall
  · rename_i m hcall
    cases hstep
    exact .dialOwnFails i m err hcall
  · cases hstep

theorem stepped_advanceShared {i : Nat} {m : Method} (hcall : t.calls[i]? = some ⟨m, .locked⟩)
    (hstep : t.advanceShared i = some t') : Stepped t (.advance i) t' := by
  unfold advanceShared at hstep
  split at hstep
  · rename_i hshared
    cases hstep
    exact .dials i m hcall hshared
  · rename_i k hshared
    obtain ⟨d, hd, rfl⟩ := Option.map_eq_some_iff.mp hstep
    cases hopened : d.mc.opened false with
    | ok s => exact .opens i m .locked k d s hcall (.inl ⟨rfl, hshared⟩) hd hopened
    | error err => exact .redials i m k d err hcall hshared hd hopened

theorem stepped_advance {i : Nat} (hstep : t.advance i = some t') : Stepped t (.advance i) t' := by
  unfold advance at hstep
  split at hstep
  · rename_i m hcall
    exact stepped_advanceShared hcall hstep
  · rename_i m k hcall
    obtain ⟨d, hd, rfl⟩ := Option.map_eq_some_iff.mp hstep
    cases hopened : d.mc.opened false with
    | ok s => exact .opens i m (.dialed k) k d s hcall (.inr rfl) hd hopened
    | error err => exact .fails i m k d err hcall hd hopened
  · rename_i m k hcall
    obtain ⟨d, hd, rfl⟩ := Option.map_eq_some_iff.mp hstep
    cases hopened : d.mc.opened true with
    | ok s => exact .opensOwn i m k d s hcall hd hopened
    | error err => exact .failsOwn i m k d err hcall hd hopened
  · rename_i m k err hcall
    cases hstep
    exact .shutsOwn i m k err hcall
  · rename_i m k hcall
    cases hstep
    exact .shuts i m k hcall
  · cases hstep

theorem stepped {ev : TransportEvent} (hstep : t.step ev = some t') : Stepped t ev t' := by
  cases ev with
  | call method =>
      cases hstep
      exact .called method
  | lock i => exact stepped_acquire hstep
  | dialed i => exact stepped_dial hstep
  | dialFails i err => exact stepped_dialFails hstep
  | advance i => exact stepped_advance hstep
  | conn k ev =>
      obtain ⟨hev, hstep⟩ := Option.ite_none_left_eq_some.mp hstep
      obtain ⟨d, hd, hstep⟩ := Option.bind_eq_some_iff.mp hstep
      obtain ⟨c, hc, rfl⟩ := Option.map_eq_some_iff.mp hstep
      exact .conn k ev d c (Bool.eq_false_iff.mpr hev) hd (MuxConn.wireStepped hc)

-- ============================================================================
-- What a step does to a connection
-- ============================================================================

/-- The messages that a step takes from connection `k`. -/
def heardOn (k : Nat) : TransportEvent → List Bytes
  | .conn j (.message data) => if j = k then [data] else []
  | _ => []

/-- Connection `k` after a step is a new one, or the step is one of its own
    or leaves it alone. -/
inductive ConnStepped (t : Transport) (ev : TransportEvent) (k : Nat) (d' : Dialed) : Prop where
  | new : k = t.conns.length → d'.mc = { role := .client } → heardOn k ev = [] →
      ConnStepped t ev k d'
  | same : t.conns[k]? = some d' → heardOn k ev = [] → ConnStepped t ev k d'
  | moved (d : Dialed) (own : WireEvent) : t.conns[k]? = some d → d'.call = d.call →
      d.mc.WireStepped own d'.mc → own.takes.toList = heardOn k ev → ConnStepped t ev k d'

variable {ev : TransportEvent}

theorem connStepped_setConn {j k : Nat} {f : MuxConn → MuxConn} {d d' : Dialed}
    {own : WireEvent} {c : MuxConn} (hd : t.conns[j]? = some d) (hmoved : d.mc.WireStepped own c)
    (hf : f d.mc = c) (htakes : own.takes.toList = heardOn j ev)
    (hother : ∀ k, j ≠ k → heardOn k ev = []) (hd' : (t.setConn j f).conns[k]? = some d') :
    ConnStepped t ev k d' := by
  unfold setConn at hd'
  rw [Store.getElem?_modify] at hd'
  by_cases hjk : j = k
  · subst hjk
    rw [if_pos rfl] at hd'
    obtain ⟨x, hx, rfl⟩ := hd'
    obtain rfl : d = x := Option.some.inj (hd.symm.trans hx)
    exact .moved d own hd rfl (hf ▸ hmoved) htakes
  · rw [if_neg hjk] at hd'
    exact .same hd' (hother k hjk)

/-- Every connection is that of a client. -/
def Clients (t : Transport) : Prop := ∀ d ∈ t.conns, d.mc.role = .client

theorem connStepped (ht : t.Clients) (hstep : Stepped t ev t') {k : Nat} {d' : Dialed}
    (hd' : t'.conns[k]? = some d') : ConnStepped t ev k d' := by
  have hnew : ∀ {d : Dialed} (dedicated : Bool), d ∈ t.conns →
      d.mc.WireStepped (.other (.newStream dedicated)) (d.mc.newStream dedicated) := by
    intro d dedicated hmem
    refine .other _ _ rfl ?_
    rw [MuxConn.step, if_pos (ht d hmem)]
  have hshut : ∀ {d : Dialed}, d ∈ t.conns →
      d.mc.WireStepped (.other .shutdown) (d.mc.terminateAll errConnClosed) := by
    intro d hmem
    refine .other _ _ rfl ?_
    rw [MuxConn.step, if_pos (ht d hmem)]
  have hopen : ∀ {j : Nat} {d : Dialed} {dedicated : Bool}, t.conns[j]? = some d →
      (∀ k, heardOn k ev = []) → (t.afterNewStream j dedicated).conns[k]? = some d' →
      ConnStepped t ev k d' := by
    intro j d dedicated hd hquiet h
    have hmoved := hnew dedicated (List.mem_of_getElem? hd)
    exact connStepped_setConn hd hmoved rfl (hquiet j).symm (fun k _ => hquiet k) h
  have hclose : ∀ {j : Nat}, (∀ k, heardOn k ev = []) →
      (t.afterShutdown j).conns[k]? = some d' → ConnStepped t ev k d' := by
    intro j hquiet h
    cases hd : t.conns[j]? with
    | some d =>
        have hmoved := hshut (List.mem_of_getElem? hd)
        exact connStepped_setConn hd hmoved rfl (hquiet j).symm (fun k _ => hquiet k) h
    | none =>
        have hsame : (t.afterShutdown j).conns = t.conns := by
          rw [afterShutdown, setConn, List.modify_eq_self]
          exact List.getElem?_eq_none_iff.mp hd
        exact .same (hsame ▸ h) (hquiet k)
  cases hstep with
  | dialed | dialedOwn =>
      rcases Store.getElem?_concat.mp hd' with hold | ⟨rfl, rfl⟩
      · exact .same hold rfl
      · exact .new rfl rfl rfl
  | redials _ _ _ _ _ _ _ hd => exact hopen hd (fun _ => rfl) hd'
  | opens _ _ _ _ _ _ _ _ hd => exact hopen hd (fun _ => rfl) hd'
  | fails _ _ _ _ _ _ hd => exact hopen hd (fun _ => rfl) hd'
  | opensOwn _ _ _ _ _ _ hd => exact hopen hd (fun _ => rfl) hd'
  | failsOwn _ _ _ _ _ _ hd => exact hopen hd (fun _ => rfl) hd'
  | shutsOwn => exact hclose (fun _ => rfl) hd'
  | shuts => exact hclose (fun _ => rfl) hd'
  | conn j own d c _ hd hmoved =>
      refine connStepped_setConn hd hmoved rfl ?_ ?_ hd'
      · cases own with
        | message data => simp [WireEvent.takes, heardOn]
        | other ev => rfl
      · intro k hjk
        cases own with
        | message data => simp [heardOn, hjk]
        | other ev => rfl
  | _ => exact .same hd' rfl

theorem length_conns (hstep : Stepped t ev t') : t.conns.length ≤ t'.conns.length := by
  cases hstep with
  | dialed | dialedOwn => simp
  | redials | opens | fails | opensOwn | failsOwn | shutsOwn | shuts | conn =>
      simp [setPhase, setConn, afterNewStream, afterShutdown]
  | _ => exact Nat.le_refl _

/-- Messages are taken from connections that have been dialled. -/
theorem heardOn_of_length_le (hstep : Stepped t ev t') {k : Nat} (hk : t.conns.length ≤ k) :
    heardOn k ev = [] := by
  cases hstep with
  | conn j own d c _ hd _ =>
      have hj := (List.getElem?_eq_some_iff.mp hd).1
      cases own with
      | message data => exact if_neg fun h => by omega
      | other ev => rfl
  | _ => rfl

end Transport

end ConnectWebSocket
end BidiWeb
