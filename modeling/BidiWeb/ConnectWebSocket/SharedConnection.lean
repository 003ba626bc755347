/-
  BidiWeb.ConnectWebSocket.SharedConnection

  The calls of a transport and the connections it dials, over every
  interleaving of the calls with each other and with what happens on the
  connections.

  The lock is held from the look at `t.shared` to the first stream on the
  connection that replaces it, so only one call at a time dials a shared
  connection, and only once the one before is of no use.  A connection that is
  dialled for one stream is known to no other call.
-/

import BidiWeb.ConnectWebSocket.ClientConn
import BidiWeb.ConnectWebSocket.Transport

namespace BidiWeb
namespace ConnectWebSocket

open BidiWeb.Lib

/-- `t.mu` is held. -/
def Phase.locks : Phase → Bool
  | .locked | .dialing | .dialed _ => true
  | .waiting | .dialingOwn | .dialedOwn _ | .failedOwn .. | .closing _ | .opened .. | .failed _
  | .closed => false

/-- The connection and the stream that a phase has returned. -/
def Phase.stream? : Phase → Option (Nat × Nat)
  | .opened k h => some (k, h)
  | _ => none

namespace Transport

variable {t t' : Transport}

theorem getElem?_setPhase {i j : Nat} {phase : Phase} {c : Call} :
    (t.setPhase i phase).calls[j]? = some c ↔
      if i = j then ∃ x : Call, t.calls[j]? = some x ∧ { x with phase } = c
      else t.calls[j]? = some c :=
  Store.getElem?_modify

theorem enter_locks (t : Transport) (m : Method) : (t.enter m).locks = false := by
  unfold enter
  split
  · split
    · rfl
    · split <;> rfl
  · rfl

-- ============================================================================
-- The lock
-- ============================================================================

/-- The lock and the call that holds it. -/
structure Locks (t : Transport) : Prop where
  holder : ∀ (i : Nat) (c : Call), t.calls[i]? = some c → (c.phase.locks = true ↔ t.lock = some i)
  present : ∀ i, t.lock = some i → i < t.calls.length

theorem locks_init (url : String) (connectionPerStream : Bool) :
    (transport url connectionPerStream).init.Locks where
  holder := fun _ _ h => by cases h
  present := fun _ h => by cases h

/-- Call `i` moves on; the lock is its own before or after, or stays. -/
theorem Locks.set (ht : t.Locks) {i : Nat} {c : Call} (hc : t.calls[i]? = some c) {phase : Phase}
    (hcalls : t'.calls = (t.setPhase i phase).calls)
    (hlock : t'.lock = t.lock ∧ phase.locks = c.phase.locks ∨
      (t.lock = none ∨ t.lock = some i) ∧ t'.lock = if phase.locks then some i else none) :
    t'.Locks := by
  have hlt := (List.getElem?_eq_some_iff.mp hc).1
  have hlength : t'.calls.length = t.calls.length := by
    rw [hcalls]
    exact List.length_modify ..
  refine ⟨fun j x hx => ?_, fun j hj => ?_⟩
  · rw [hcalls, getElem?_setPhase] at hx
    by_cases hij : i = j
    · subst hij
      rw [if_pos rfl] at hx
      obtain ⟨c', hc', rfl⟩ := hx
      obtain rfl : c = c' := Option.some.inj (hc.symm.trans hc')
      rcases hlock with ⟨hsame, hphase⟩ | ⟨-, hnew⟩
      · rw [hsame]
        show phase.locks = true ↔ _
        rw [hphase]
        exact ht.holder i c hc
      · rw [hnew]
        show phase.locks = true ↔ _
        cases phase.locks <;> simp
    · rw [if_neg hij] at hx
      rw [ht.holder j x hx]
      rcases hlock with ⟨hsame, -⟩ | ⟨hold, hnew⟩
      · rw [hsame]
      · rw [hnew]
        rcases hold with hold | hold <;> rw [hold] <;> cases phase.locks <;> simp [hij]
  · rw [hlength]
    rcases hlock with ⟨hsame, -⟩ | ⟨-, hnew⟩
    · exact ht.present j (hsame ▸ hj)
    · rw [hnew] at hj
      split at hj <;> cases hj
      exact hlt

theorem Locks.step (ht : t.Locks) {ev : TransportEvent} (hstep : Stepped t ev t') : t'.Locks := by
  have hheld : ∀ {i : Nat} {c : Call}, t.calls[i]? = some c → c.phase.locks = true →
      t.lock = none ∨ t.lock = some i := fun hc h => .inr ((ht.holder _ _ hc).mp h)
  cases hstep with
  | called m =>
      refine ⟨fun i c hc => ?_, fun i hi => ?_⟩
      · rcases Store.getElem?_concat.mp hc with hold | ⟨rfl, rfl⟩
        · exact ht.holder i c hold
        · show (t.enter m).locks = true ↔ _
          rw [enter_locks]
          exact ⟨nofun, fun h => absurd (ht.present _ h) (Nat.lt_irrefl _)⟩
      · have hlt := ht.present i hi
        show i < (t.calls ++ [_]).length
        rw [List.length_append]
        omega
  | locked i unary hfree hc => exact ht.set hc rfl (.inr ⟨.inl hfree, rfl⟩)
  | taken i k hfree hc => exact ht.set hc rfl (.inl ⟨rfl, rfl⟩)
  | idle i hfree hc => exact ht.set hc rfl (.inl ⟨rfl, rfl⟩)
  | dialed i m hc => exact ht.set hc rfl (.inl ⟨rfl, rfl⟩)
  | dialedOwn i m hc => exact ht.set hc rfl (.inl ⟨rfl, rfl⟩)
  | dialFails i m err hc => exact ht.set hc rfl (.inr ⟨hheld hc rfl, rfl⟩)
  | dialOwnFails i m err hc => exact ht.set hc rfl (.inl ⟨rfl, rfl⟩)
  | dials i m hc => exact ht.set hc rfl (.inl ⟨rfl, rfl⟩)
  | redials i m k d err hc => exact ht.set hc rfl (.inl ⟨rfl, rfl⟩)
  | opens i m phase k d s hc hphase =>
      have hlocks : phase.locks = true := by
        rcases hphase with ⟨rfl, -⟩ | rfl <;> rfl
      exact ht.set hc rfl (.inr ⟨hheld hc hlocks, rfl⟩)
  | fails i m k d err hc => exact ht.set hc rfl (.inr ⟨hheld hc rfl, rfl⟩)
  | opensOwn i m k d s hc => exact ht.set hc rfl (.inl ⟨rfl, rfl⟩)
  | failsOwn i m k d err hc => exact ht.set hc rfl (.inl ⟨rfl, rfl⟩)
  | shutsOwn i m k err hc => exact ht.set hc rfl (.inl ⟨rfl, rfl⟩)
  | shuts i m k hc => exact ht.set hc rfl (.inl ⟨rfl, rfl⟩)
  | conn => exact ⟨ht.holder, ht.present⟩

-- ============================================================================
-- Where a call stands
-- ============================================================================

/-- What call `i` knows of the connections. -/
inductive Placed (t : Transport) (i : Nat) : Call → Prop where
  | waiting (m : Method) :
      (∀ unary, m = .newClientStream unary → t.dedicates unary = false) →
      Placed t i ⟨m, .waiting⟩
  | locked (unary : Bool) : t.dedicates unary = false →
      Placed t i ⟨.newClientStream unary, .locked⟩
  | dialing (unary : Bool) : t.dedicates unary = false →
      (∀ k, t.shared = some k → ∃ d : Dialed, t.conns[k]? = some d ∧ d.mc.Spent) →
      Placed t i ⟨.newClientStream unary, .dialing⟩
  | dialed (unary : Bool) (k : Nat) : t.dedicates unary = false → t.shared = some k →
      Placed t i ⟨.newClientStream unary, .dialed k⟩
  | dialingOwn (unary : Bool) : t.dedicates unary = true →
      Placed t i ⟨.newClientStream unary, .dialingOwn⟩
  | dialedOwn (unary : Bool) (k : Nat) (d : Dialed) : t.dedicates unary = true →
      t.conns[k]? = some d → d.call = some i →
      Placed t i ⟨.newClientStream unary, .dialedOwn k⟩
  | failedOwn (unary : Bool) (k : Nat) (err : Option GoError) (d : Dialed) :
      t.dedicates unary = true → t.conns[k]? = some d → d.call = some i →
      Placed t i ⟨.newClientStream unary, .failedOwn k err⟩
  | closing (k : Nat) (d : Dialed) : t.conns[k]? = some d → d.call = none →
      Placed t i ⟨.close, .closing k⟩
  | opened (unary : Bool) (k h : Nat) (d : Dialed) : t.conns[k]? = some d →
      d.call = (if t.dedicates unary then some i else none) →
      Placed t i ⟨.newClientStream unary, .opened k h⟩
  | failed (unary : Bool) (err : Option GoError) : Placed t i ⟨.newClientStream unary, .failed err⟩
  | closed : Placed t i ⟨.close, .closed⟩

/-- Connections stay, each with the call it was dialled for. -/
def Grown (t t' : Transport) : Prop :=
  ∀ (k : Nat) (d : Dialed), t.conns[k]? = some d → ∃ d' : Dialed, t'.conns[k]? = some d' ∧
    d'.call = d.call ∧ (d.mc.Spent → d'.mc.Spent)

theorem grown_step (ht : t.Clients) {ev : TransportEvent} (hstep : Stepped t ev t') :
    Grown t t' := by
  intro k d hd
  have hlt := (List.getElem?_eq_some_iff.mp hd).1
  have hlt' := Nat.lt_of_lt_of_le hlt (length_conns hstep)
  refine ⟨_, List.getElem?_eq_getElem hlt', ?_⟩
  cases connStepped ht hstep (List.getElem?_eq_getElem hlt') with
  | new hk _ _ => omega
  | same hsame _ =>
      obtain rfl := Option.some.inj (hd.symm.trans hsame)
      exact ⟨rfl, id⟩
  | moved d₀ own hd₀ hcall hmoved _ =>
      obtain rfl : d = d₀ := Option.some.inj (hd.symm.trans hd₀)
      obtain ⟨ev', hev⟩ := hmoved.step
      exact ⟨hcall, fun hspent => hspent.step hev⟩

theorem dedicates_step {ev : TransportEvent} (hstep : Stepped t ev t') (unary : Bool) :
    t'.dedicates unary = t.dedicates unary := by
  cases hstep <;> rfl

/-- A call that does not move, while the lock keeps `t.shared` for it. -/
theorem Placed.kept {i : Nat} {c : Call} (hc : t.Placed i c) (hgrown : Grown t t')
    (hdedicates : ∀ unary, t'.dedicates unary = t.dedicates unary)
    (hshared : c.phase.locks = true → t'.shared = t.shared) : t'.Placed i c := by
  cases hc with
  | waiting m hm => exact .waiting m fun unary h => (hdedicates unary).trans (hm unary h)
  | locked unary h => exact .locked unary ((hdedicates unary).trans h)
  | dialing unary h hspent =>
      refine .dialing unary ((hdedicates unary).trans h) fun k hk => ?_
      obtain ⟨d, hd, hd_spent⟩ := hspent k ((hshared rfl).symm.trans hk)
      obtain ⟨d', hd', -, hkept⟩ := hgrown k d hd
      exact ⟨d', hd', hkept hd_spent⟩
  | dialed unary k h hk =>
      exact .dialed unary k ((hdedicates unary).trans h) ((hshared rfl).trans hk)
  | dialingOwn unary h => exact .dialingOwn unary ((hdedicates unary).trans h)
  | dialedOwn unary k d h hd hcall =>
      obtain ⟨d', hd', hsame, -⟩ := hgrown k d hd
      exact .dialedOwn unary k d' ((hdedicates unary).trans h) hd' (hsame.trans hcall)
  | failedOwn unary k err d h hd hcall =>
      obtain ⟨d', hd', hsame, -⟩ := hgrown k d hd
      exact .failedOwn unary k err d' ((hdedicates unary).trans h) hd' (hsame.trans hcall)
  | closing k d hd hcall =>
      obtain ⟨d', hd', hsame, -⟩ := hgrown k d hd
      exact .closing k d' hd' (hsame.trans hcall)
  | opened unary k h d hd hcall =>
      obtain ⟨d', hd', hsame, -⟩ := hgrown k d hd
      refine .opened unary k h d' hd' ?_
      rw [hsame, hcall, hdedicates]
  | failed unary err => exact .failed unary err
  | closed => exact .closed

-- ============================================================================
-- The connections
-- ============================================================================

/-- Some `Close` has connection `k` in hand. -/
def Closing (t : Transport) (k : Nat) : Prop :=
  ∃ i : Nat, t.calls[i]? = some ⟨.close, .closing k⟩

structure Uses (t : Transport) : Prop where
  calls : ∀ (i : Nat) (c : Call), t.calls[i]? = some c → t.Placed i c
  shared : ∀ k, t.shared = some k → ∃ d : Dialed, t.conns[k]? = some d ∧ d.call = none
  /-- A connection to share is the shared one, until it is spent. -/
  usable : ∀ (k : Nat) (d : Dialed), t.conns[k]? = some d → d.call = none →
    d.mc.Spent ∨ t.shared = some k ∨ t.Closing k
  mapped : ∀ d ∈ t.conns, d.mc.Mapped

theorem uses_init (url : String) (connectionPerStream : Bool) :
    (transport url connectionPerStream).init.Uses where
  calls := fun _ _ h => by cases h
  shared := fun _ h => by cases h
  usable := fun _ _ h => by cases h
  mapped := fun _ h => by cases h

theorem clients_step (ht : t.Clients) {ev : TransportEvent} (hstep : Stepped t ev t') :
    t'.Clients := by
  intro d' hmem
  obtain ⟨k, hd'⟩ := List.getElem?_of_mem hmem
  cases connStepped ht hstep hd' with
  | new _ hmc _ => rw [hmc]
  | same hsame _ => exact ht d' (List.mem_of_getElem? hsame)
  | moved d own hd _ hmoved _ =>
      obtain ⟨ev', hev⟩ := hmoved.step
      exact (MuxConn.looped_step hev).2.trans (ht d (List.mem_of_getElem? hd))

theorem mapped_step (ht : t.Clients) (hmapped : ∀ d ∈ t.conns, d.mc.Mapped) {ev : TransportEvent}
    (hstep : Stepped t ev t') : ∀ d ∈ t'.conns, d.mc.Mapped := by
  intro d' hmem
  obtain ⟨k, hd'⟩ := List.getElem?_of_mem hmem
  cases connStepped ht hstep hd' with
  | new _ hmc _ =>
      rw [hmc]
      exact nofun
  | same hsame _ => exact hmapped d' (List.mem_of_getElem? hsame)
  | moved d own hd _ hmoved _ =>
      obtain ⟨ev', hev⟩ := hmoved.step
      have hd := List.mem_of_getElem? hd
      exact (hmapped d hd).step (MuxConn.stepped hev) (ht d hd)

/-- The other calls stay where they are. -/
theorem Uses.others (ht : t.Uses) (hgrown : Grown t t')
    (hdedicates : ∀ unary, t'.dedicates unary = t.dedicates unary) {i : Nat} {phase : Phase}
    (hcalls : t'.calls = (t.setPhase i phase).calls) {c : Call} (hc : t.calls[i]? = some c)
    (hown : t'.Placed i { c with phase })
    (hshared : ∀ j x, i ≠ j → t.calls[j]? = some x → x.phase.locks = true →
      t'.shared = t.shared) (j : Nat) (x : Call) (hx : t'.calls[j]? = some x) : t'.Placed j x := by
  rw [hcalls, getElem?_setPhase] at hx
  by_cases hij : i = j
  · subst hij
    rw [if_pos rfl] at hx
    obtain ⟨c', hc', rfl⟩ := hx
    obtain rfl : c = c' := Option.some.inj (hc.symm.trans hc')
    exact hown
  · rw [if_neg hij] at hx
    exact (ht.calls j x hx).kept hgrown hdedicates (hshared j x hij hx)

/-- The lock is another call's, or no one's. -/
theorem Locks.alone (ht : t.Locks) {i j : Nat} {c x : Call} (hij : i ≠ j)
    (hc : t.calls[i]? = some c) (hx : t.calls[j]? = some x) (hlocks : c.phase.locks = true) :
    x.phase.locks = false := by
  refine Bool.eq_false_iff.mpr fun h => hij ?_
  have hi := (ht.holder i c hc).mp hlocks
  rw [(ht.holder j x hx).mp h] at hi
  exact (Option.some.inj hi).symm

theorem placed_enter (t : Transport) (i : Nat) (m : Method) : t.Placed i ⟨m, t.enter m⟩ := by
  cases m with
  | close => exact .waiting .close nofun
  | newClientStream unary =>
      show Placed _ _ ⟨_, if t.url = "" then _ else _⟩
      split
      · exact .failed unary _
      · split
        · exact .dialingOwn unary ‹_›
        · refine .waiting _ fun u hu => ?_
          cases hu
          exact Bool.eq_false_iff.mpr ‹_›

/-- The stream of a call on the shared connection. -/
theorem Uses.placed_opened (ht : t.Uses) (hgrown : Grown t t')
    (hdedicates : ∀ unary, t'.dedicates unary = t.dedicates unary) {i k : Nat} {m : Method}
    {phase : Phase} {d : Dialed} (hc : t.calls[i]? = some ⟨m, phase⟩)
    (hphase : phase = .locked ∧ t.shared = some k ∨ phase = .dialed k)
    (hd : t.conns[k]? = some d) (h : Nat) : t'.Placed i ⟨m, .opened k h⟩ := by
  obtain ⟨d', hd', hsame, -⟩ := hgrown k d hd
  obtain ⟨unary, rfl, hno, hk⟩ : ∃ unary, m = .newClientStream unary ∧
      t.dedicates unary = false ∧ t.shared = some k := by
    rcases hphase with ⟨rfl, hk⟩ | rfl
    · cases ht.calls i _ hc with
      | locked unary h => exact ⟨unary, rfl, h, hk⟩
    · cases ht.calls i _ hc with
      | dialed unary k h hk => exact ⟨unary, rfl, h, hk⟩
  refine .opened unary k _ d' hd' ?_
  obtain ⟨d₀, hd₀, hcall⟩ := ht.shared k hk
  obtain rfl : d = d₀ := Option.some.inj (hd.symm.trans hd₀)
  rw [hsame, hcall, hdedicates, hno]
  rfl

/-- A call with a connection of its own keeps it, whatever comes of the stream. -/
theorem Uses.placed_own (ht : t.Uses) (hgrown : Grown t t')
    (hdedicates : ∀ unary, t'.dedicates unary = t.dedicates unary) {i k : Nat} {m : Method}
    {d : Dialed} (hc : t.calls[i]? = some ⟨m, .dialedOwn k⟩) (hd : t.conns[k]? = some d) :
    (∀ h, t'.Placed i ⟨m, .opened k h⟩) ∧ ∀ err, t'.Placed i ⟨m, .failedOwn k err⟩ := by
  obtain ⟨d', hd', hsame, -⟩ := hgrown k d hd
  cases ht.calls i _ hc with
  | dialedOwn unary _ d₀ hown hd₀ hcall =>
      obtain rfl : d = d₀ := Option.some.inj (hd.symm.trans hd₀)
      have hown' := (hdedicates unary).trans hown
      refine ⟨fun h => .opened unary k h d' hd' ?_, fun err => ?_⟩
      · rw [hsame, hcall, hown']
        rfl
      · exact .failedOwn unary k err d' hown' hd' (hsame.trans hcall)

/-- A call that holds the lock dials once the shared connection is spent. -/
theorem Uses.placed_dialing (ht : t.Uses)
    (hdedicates : ∀ unary, t'.dedicates unary = t.dedicates unary) {i : Nat} {m : Method}
    (hc : t.calls[i]? = some ⟨m, .locked⟩)
    (hspent : ∀ k, t'.shared = some k → ∃ d : Dialed, t'.conns[k]? = some d ∧ d.mc.Spent) :
    t'.Placed i ⟨m, .dialing⟩ := by
  cases ht.calls i _ hc with
  | locked unary h => exact .dialing unary ((hdedicates unary).trans h) hspent

/-- Only a `NewClientStream` can fail. -/
theorem Uses.placed_failed (ht : t.Uses) {i : Nat} {m : Method} {phase : Phase}
    (hc : t.calls[i]? = some ⟨m, phase⟩) (hphase : phase = .dialing ∨ phase = .dialingOwn ∨
      (∃ k, phase = .dialed k) ∨ ∃ k err, phase = .failedOwn k err) (err : Option GoError) :
    t'.Placed i ⟨m, .failed err⟩ := by
  rcases hphase with rfl | rfl | ⟨k, rfl⟩ | ⟨k, err', rfl⟩ <;>
    · cases ht.calls i _ hc
      exact .failed _ _

theorem Uses.callsStep (ht : t.Uses) (hlocks : t.Locks) (hclients : t.Clients)
    {ev : TransportEvent} (hstep : Stepped t ev t') :
    ∀ (i : Nat) (c : Call), t'.calls[i]? = some c → t'.Placed i c := by
  have hgrown := grown_step hclients hstep
  have hdedicates := dedicates_step hstep
  -- most steps leave `t.shared` alone
  have hset : ∀ {i : Nat} {c : Call} {phase : Phase}, t.calls[i]? = some c →
      t'.calls = (t.setPhase i phase).calls → t'.shared = t.shared →
      t'.Placed i { c with phase } →
      ∀ (j : Nat) (x : Call), t'.calls[j]? = some x → t'.Placed j x :=
    fun hc hcalls hsame hown =>
      ht.others hgrown hdedicates hcalls hc hown fun _ _ _ _ _ => hsame
  cases hstep with
  | called m =>
      intro j x hx
      rcases Store.getElem?_concat.mp hx with hold | ⟨rfl, rfl⟩
      · exact (ht.calls j x hold).kept hgrown hdedicates fun _ => rfl
      · exact (placed_enter t _ m).kept hgrown hdedicates fun _ => rfl
  | locked i unary hfree hc =>
      refine hset hc rfl rfl ?_
      cases ht.calls i _ hc with
      | waiting _ hm => exact .locked unary (hm unary rfl)
  | taken i k hfree hc hshared =>
      obtain ⟨d, hd, hcall⟩ := ht.shared k hshared
      refine ht.others hgrown hdedicates rfl hc (.closing k d hd hcall) fun j x _ hx hheld => ?_
      rw [hlocks.holder j x hx, hfree] at hheld
      cases hheld
  | idle i hfree hc => exact hset hc rfl rfl .closed
  | dialed i m hc =>
      refine ht.others hgrown hdedicates rfl hc ?_ fun j x hij hx hheld => ?_
      · cases ht.calls i _ hc with
        | dialing unary h => exact .dialed unary _ h rfl
      · rw [hlocks.alone hij hc hx rfl] at hheld
        cases hheld
  | dialedOwn i m hc =>
      refine hset hc rfl rfl ?_
      cases ht.calls i _ hc with
      | dialingOwn unary h =>
          exact .dialedOwn unary _ _ h (Store.getElem?_concat.mpr (.inr ⟨rfl, rfl⟩)) rfl
  | dialFails i m err hc => exact hset hc rfl rfl (ht.placed_failed hc (.inl rfl) _)
  | dialOwnFails i m err hc => exact hset hc rfl rfl (ht.placed_failed hc (.inr (.inl rfl)) _)
  | dials i m hc hnone =>
      refine hset hc rfl rfl (ht.placed_dialing hdedicates hc fun k hk => ?_)
      cases hnone.symm.trans hk
  | redials i m k d err hc hshared hd herr =>
      refine hset hc rfl rfl (ht.placed_dialing hdedicates hc fun j hj => ?_)
      obtain rfl : k = j := Option.some.inj (hshared.symm.trans hj)
      obtain ⟨d', hd', -, hkept⟩ := hgrown k d hd
      exact ⟨d', hd', hkept ((ht.mapped d (List.mem_of_getElem? hd)).spent herr)⟩
  | opens i m phase k d s hc hphase hd hok =>
      exact hset hc rfl rfl (ht.placed_opened hgrown hdedicates hc hphase hd _)
  | fails i m k d err hc =>
      exact hset hc rfl rfl (ht.placed_failed hc (.inr (.inr (.inl ⟨k, rfl⟩))) _)
  | opensOwn i m k d s hc hd hok =>
      exact hset hc rfl rfl ((ht.placed_own hgrown hdedicates hc hd).1 _)
  | failsOwn i m k d err hc hd herr =>
      exact hset hc rfl rfl ((ht.placed_own hgrown hdedicates hc hd).2 err)
  | shutsOwn i m k err hc =>
      exact hset hc rfl rfl (ht.placed_failed hc (.inr (.inr (.inr ⟨k, err, rfl⟩))) _)
  | shuts i m k hc =>
      refine hset hc rfl rfl ?_
      cases ht.calls i _ hc
      exact .closed
  | conn => exact fun j x hx => (ht.calls j x hx).kept hgrown hdedicates fun _ => rfl

theorem Uses.sharedStep (ht : t.Uses) (hclients : t.Clients) {ev : TransportEvent}
    (hstep : Stepped t ev t') (k : Nat) (hk : t'.shared = some k) :
    ∃ d : Dialed, t'.conns[k]? = some d ∧ d.call = none := by
  have hkept : t'.shared = t.shared → ∃ d : Dialed, t'.conns[k]? = some d ∧ d.call = none := by
    intro hsame
    obtain ⟨d, hd, hcall⟩ := ht.shared k (hsame.symm.trans hk)
    obtain ⟨d', hd', hsame, -⟩ := grown_step hclients hstep k d hd
    exact ⟨d', hd', hsame.trans hcall⟩
  cases hstep with
  | taken => cases hk
  | dialed i m hc =>
      obtain rfl : t.conns.length = k := Option.some.inj hk
      exact ⟨_, Store.getElem?_concat.mpr (.inr ⟨rfl, rfl⟩), rfl⟩
  | _ => exact hkept rfl

/-- A `Close` goes on with the connection it has in hand until it has shut it
    down. -/
theorem closing_step {ev : TransportEvent} (hstep : Stepped t ev t') {k : Nat}
    (hk : t.Closing k) {d' : Dialed} (hd' : t'.conns[k]? = some d') :
    d'.mc.Spent ∨ t'.Closing k := by
  obtain ⟨j, hj⟩ := hk
  have hother : ∀ {i : Nat} {m : Method} {before phase : Phase}, t.calls[i]? = some ⟨m, before⟩ →
      (∀ k, before ≠ .closing k) → t'.calls = (t.setPhase i phase).calls → t'.Closing k := by
    intro i m before phase hc hne hcalls
    refine ⟨j, ?_⟩
    rw [hcalls, getElem?_setPhase]
    by_cases hij : i = j
    · subst hij
      cases Option.some.inj (hc.symm.trans hj)
      exact absurd rfl (hne k)
    · rw [if_neg hij]
      exact hj
  cases hstep with
  | called m => exact .inr ⟨j, Store.getElem?_concat.mpr (.inl hj)⟩
  | locked i unary _ hc => exact .inr (hother hc nofun rfl)
  | taken i _ _ hc => exact .inr (hother hc nofun rfl)
  | idle i _ hc => exact .inr (hother hc nofun rfl)
  | dialed i m hc => exact .inr (hother hc nofun rfl)
  | dialedOwn i m hc => exact .inr (hother hc nofun rfl)
  | dialFails i m err hc => exact .inr (hother hc nofun rfl)
  | dialOwnFails i m err hc => exact .inr (hother hc nofun rfl)
  | dials i m hc => exact .inr (hother hc nofun rfl)
  | redials i m _ d err hc => exact .inr (hother hc nofun rfl)
  | opens i m phase _ d s hc hphase =>
      refine .inr (hother hc (fun l hl => ?_) rfl)
      rcases hphase with ⟨rfl, -⟩ | rfl <;> cases hl
  | fails i m _ d err hc => exact .inr (hother hc nofun rfl)
  | opensOwn i m _ d s hc => exact .inr (hother hc nofun rfl)
  | failsOwn i m _ d err hc => exact .inr (hother hc nofun rfl)
  | shutsOwn i m _ err hc => exact .inr (hother hc nofun rfl)
  | shuts i m l hc =>
      by_cases hij : i = j
      · -- it is this one, and it shuts the connection down
        subst hij
        cases Option.some.inj (hc.symm.trans hj)
        change (t.conns.modify k _)[k]? = some d' at hd'
        rw [Store.getElem?_modify, if_pos rfl] at hd'
        obtain ⟨d, -, rfl⟩ := hd'
        exact .inl (.inl rfl)
      · refine .inr ⟨j, ?_⟩
        rw [getElem?_setPhase, if_neg hij]
        exact hj
  | conn => exact .inr ⟨j, hj⟩

theorem Uses.usableStep (ht : t.Uses) (hclients : t.Clients) {ev : TransportEvent}
    (hstep : Stepped t ev t') (k : Nat) (d' : Dialed) (hd' : t'.conns[k]? = some d')
    (hcall' : d'.call = none) : d'.mc.Spent ∨ t'.shared = some k ∨ t'.Closing k := by
  by_cases hk : k < t.conns.length
  · obtain ⟨d₁, hd₁, hsame, hkept⟩ :=
      grown_step hclients hstep k _ (List.getElem?_eq_getElem hk)
    obtain rfl : d' = d₁ := Option.some.inj (hd'.symm.trans hd₁)
    rcases ht.usable k _ (List.getElem?_eq_getElem hk) (hsame.symm.trans hcall') with
      hspent | hshared | hclosing
    · exact .inl (hkept hspent)
    · cases hstep with
      | taken i l _ hc hl =>
          obtain rfl : k = l := Option.some.inj (hshared.symm.trans hl)
          refine .inr (.inr ⟨i, ?_⟩)
          rw [getElem?_setPhase, if_pos rfl]
          exact ⟨_, hc, rfl⟩
      | dialed i m hc =>
          -- what is replaced is of no use
          cases ht.calls i _ hc with
          | dialing unary _ hspent =>
              obtain ⟨d, hd, hspent⟩ := hspent k hshared
              obtain rfl := Option.some.inj ((List.getElem?_eq_getElem hk).symm.trans hd)
              exact .inl (hkept hspent)
      | _ => exact .inr (.inl hshared)
    · rcases closing_step hstep hclosing hd' with hspent | hclosing
      · exact .inl hspent
      · exact .inr (.inr hclosing)
  · have hnew : ∀ {d : Dialed}, (t.conns ++ [d])[k]? = some d' → k = t.conns.length ∧ d' = d := by
      intro d h
      rcases Store.getElem?_concat.mp h with hold | hnew
      · exact absurd (List.getElem?_eq_some_iff.mp hold).1 hk
      · exact hnew
    have hold : t'.conns.length = t.conns.length → False := fun hlength =>
      hk (hlength ▸ (List.getElem?_eq_some_iff.mp hd').1)
    cases hstep with
    | dialed i m hc =>
        obtain ⟨rfl, -⟩ := hnew hd'
        exact .inr (.inl rfl)
    | dialedOwn i m hc =>
        obtain ⟨-, rfl⟩ := hnew hd'
        cases hcall'
    | redials | opens | fails | opensOwn | failsOwn | shutsOwn | shuts | conn =>
        exact (hold (List.length_modify ..)).elim
    | _ => exact (hold rfl).elim

theorem Uses.step (ht : t.Uses) (hlocks : t.Locks) (hclients : t.Clients) {ev : TransportEvent}
    (hstep : Stepped t ev t') : t'.Uses where
  calls := ht.callsStep hlocks hclients hstep
  shared := ht.sharedStep hclients hstep
  usable := ht.usableStep hclients hstep
  mapped := mapped_step hclients ht.mapped hstep

-- ============================================================================
-- The streams
-- ============================================================================

/-- The stream that call `i` has returned. -/
def openedBy (t : Transport) (i : Nat) : Option (Nat × Nat) :=
  match t.calls[i]? with
  | some c => c.phase.stream?
  | none => none

theorem openedBy_eq_some {i k h : Nat} :
    t.openedBy i = some (k, h) ↔ ∃ m, t.calls[i]? = some ⟨m, .opened k h⟩ := by
  unfold openedBy
  split
  · rename_i c hc
    obtain ⟨m, phase⟩ := c
    rw [hc]
    cases phase <;> simp [Phase.stream?]
  · rename_i hc
    simp [hc]

/-- Each stream was returned by one call, and each is where it was dialled
    for. -/
structure Streams (t : Transport) : Prop where
  flags : ∀ (k : Nat) (d : Dialed), t.conns[k]? = some d → ∀ b ∈ d.mc.flags, b = d.call.isSome
  given : ∀ (k h : Nat) (d : Dialed), t.conns[k]? = some d → h < d.mc.objs.length →
    ∃ i, t.openedBy i = some (k, h)
  stream : ∀ i k h, t.openedBy i = some (k, h) →
    ∃ d : Dialed, t.conns[k]? = some d ∧ h < d.mc.objs.length
  unique : ∀ i j p, t.openedBy i = some p → t.openedBy j = some p → i = j

theorem streams_init (url : String) (connectionPerStream : Bool) :
    (transport url connectionPerStream).init.Streams where
  flags := fun _ _ h => by cases h
  given := fun _ _ _ h => by cases h
  stream := fun _ _ _ h => by cases h
  unique := fun _ _ _ h => by cases h

theorem length_objs_step (ht : t.Clients) {ev : TransportEvent} (hstep : Stepped t ev t') {k : Nat}
    {d : Dialed} (hd : t.conns[k]? = some d) :
    ∃ d' : Dialed, t'.conns[k]? = some d' ∧ d.mc.objs.length ≤ d'.mc.objs.length := by
  have hlt := (List.getElem?_eq_some_iff.mp hd).1
  have hlt' := Nat.lt_of_lt_of_le hlt (length_conns hstep)
  refine ⟨_, List.getElem?_eq_getElem hlt', ?_⟩
  cases connStepped ht hstep (List.getElem?_eq_getElem hlt') with
  | new hk _ _ => omega
  | same hsame _ =>
      obtain rfl := Option.some.inj (hd.symm.trans hsame)
      exact Nat.le_refl _
  | moved d₀ own hd₀ _ hmoved _ =>
      obtain rfl : d = d₀ := Option.some.inj (hd.symm.trans hd₀)
      obtain ⟨ev', hev⟩ := hmoved.step
      rw [← MuxConn.length_ids, ← MuxConn.length_ids]
      exact (MuxConn.wrote_step hev).ids_grow.length_le

/-- No stream is opened, though a connection may be dialled. -/
def NoneOpened (t t' : Transport) : Prop :=
  ∀ (k : Nat) (d' : Dialed), t'.conns[k]? = some d' → d'.mc.objs = [] ∨
    ∃ d : Dialed, t.conns[k]? = some d ∧ d'.call = d.call ∧ d'.mc.flags = d.mc.flags

theorem Streams.quiet (ht : t.Streams) (hclients : t.Clients) {ev : TransportEvent}
    (hstep : Stepped t ev t') (hnone : NoneOpened t t')
    (hopened : ∀ i, t'.openedBy i = t.openedBy i) : t'.Streams where
  flags := fun k d' hd' b hb => by
    rcases hnone k d' hd' with hnil | ⟨d, hd, hcall, hflags⟩
    · rw [MuxConn.flags, hnil] at hb
      cases hb
    · rw [hcall]
      exact ht.flags k d hd b (hflags ▸ hb)
  given := fun k h d' hd' hh => by
    rcases hnone k d' hd' with hnil | ⟨d, hd, hcall, hflags⟩
    · rw [hnil] at hh
      cases hh
    · rw [MuxConn.length_of_flags hflags] at hh
      obtain ⟨i, hi⟩ := ht.given k h d hd hh
      exact ⟨i, (hopened i).trans hi⟩
  stream := fun i k h hi => by
    obtain ⟨d, hd, hh⟩ := ht.stream i k h ((hopened i).symm.trans hi)
    obtain ⟨d', hd', hle⟩ := length_objs_step hclients hstep hd
    exact ⟨d', hd', Nat.lt_of_lt_of_le hh hle⟩
  unique := fun i j p hi hj =>
    ht.unique i j p ((hopened i).symm.trans hi) ((hopened j).symm.trans hj)

/-- Call `i` opens the next stream of connection `k`. -/
theorem Streams.opens (ht : t.Streams) {i k : Nat} {d : Dialed} {s : MuxStream} {dedicated : Bool}
    (hd : t.conns[k]? = some d) (hok : d.mc.opened dedicated = .ok s)
    (hcall : dedicated = d.call.isSome) (hi : t.openedBy i = none)
    (hconns : t'.conns = (t.afterNewStream k dedicated).conns)
    (hopened : ∀ j, t'.openedBy j =
      if i = j then some (k, d.mc.objs.length) else t.openedBy j) : t'.Streams := by
  have hself := (hopened i).trans (if_pos rfl)
  have hothers : ∀ j, i ≠ j → t'.openedBy j = t.openedBy j := fun j hij =>
    (hopened j).trans (if_neg hij)
  have hobjs : (d.mc.newStream dedicated).objs = d.mc.objs ++ [{ stream := s }] ∧
      s.dedicated = dedicated := by
    rcases d.mc.opened_cases dedicated with ⟨s', hok', hded, hobjs⟩ | ⟨err, herr, -⟩
    · rw [hok] at hok'
      cases hok'
      exact ⟨hobjs, hded⟩
    · rw [hok] at herr
      cases herr
  have hback : ∀ {j : Nat} {d' : Dialed}, t'.conns[j]? = some d' →
      j = k ∧ d' = { d with mc := d.mc.newStream dedicated } ∨
        j ≠ k ∧ t.conns[j]? = some d' := by
    intro j d' hd'
    rw [hconns] at hd'
    change (t.conns.modify k _)[j]? = some d' at hd'
    rw [Store.getElem?_modify] at hd'
    by_cases hkj : k = j
    · subst hkj
      rw [if_pos rfl] at hd'
      obtain ⟨x, hx, rfl⟩ := hd'
      obtain rfl : d = x := Option.some.inj (hd.symm.trans hx)
      exact .inl ⟨rfl, rfl⟩
    · rw [if_neg hkj] at hd'
      exact .inr ⟨fun h => hkj h.symm, hd'⟩
  have hforth : ∀ {j : Nat} {x : Dialed}, t.conns[j]? = some x →
      ∃ x' : Dialed, t'.conns[j]? = some x' ∧ x.mc.objs.length ≤ x'.mc.objs.length := by
    intro j x hx
    rw [hconns]
    change ∃ x', (t.conns.modify k _)[j]? = some x' ∧ _
    by_cases hkj : k = j
    · subst hkj
      obtain rfl : d = x := Option.some.inj (hd.symm.trans hx)
      refine ⟨_, Store.getElem?_modify.mpr ((if_pos rfl).mpr ⟨d, hd, rfl⟩), ?_⟩
      rw [hobjs.1, List.length_append]
      exact Nat.le_add_right _ _
    · exact ⟨x, Store.getElem?_modify.mpr ((if_neg hkj).mpr hx), Nat.le_refl _⟩
  have hlast : ∃ d' : Dialed, t'.conns[k]? = some d' ∧ d.mc.objs.length < d'.mc.objs.length := by
    rw [hconns]
    refine ⟨_, Store.getElem?_modify.mpr ((if_pos rfl).mpr ⟨d, hd, rfl⟩), ?_⟩
    rw [hobjs.1, List.length_append]
    exact Nat.lt_succ_self _
  refine ⟨fun j d' hd' b hb => ?_, fun j h d' hd' hh => ?_, fun j l h hj => ?_, ?_⟩
  · rcases hback hd' with ⟨rfl, rfl⟩ | ⟨-, hold⟩
    · rw [MuxConn.flags, hobjs.1, List.map_append] at hb
      rcases List.mem_append.mp hb with hb | hb
      · exact ht.flags j d hd b hb
      · rw [List.mem_singleton.mp hb]
        exact hobjs.2.trans hcall
    · exact ht.flags j d' hold b hb
  · rcases hback hd' with ⟨rfl, rfl⟩ | ⟨hne, hold⟩
    · rw [hobjs.1, List.length_append, List.length_singleton] at hh
      by_cases hnew : h = d.mc.objs.length
      · exact ⟨i, hnew ▸ hself⟩
      · obtain ⟨l, hl⟩ := ht.given j h d hd (by omega)
        refine ⟨l, (hothers l fun hil => ?_).trans hl⟩
        rw [← hil, hi] at hl
        cases hl
    · obtain ⟨l, hl⟩ := ht.given j h d' hold hh
      refine ⟨l, (hothers l fun hil => ?_).trans hl⟩
      rw [← hil, hi] at hl
      cases hl
  · by_cases hij : i = j
    · subst hij
      obtain ⟨rfl, rfl⟩ := Prod.mk.inj (Option.some.inj (hself.symm.trans hj))
      exact hlast
    · obtain ⟨x, hx, hh⟩ := ht.stream j l h ((hothers j hij).symm.trans hj)
      obtain ⟨x', hx', hle⟩ := hforth hx
      exact ⟨x', hx', Nat.lt_of_lt_of_le hh hle⟩
  · -- the new stream has a number that no other has
    have hfresh : ∀ j, i ≠ j → t'.openedBy j ≠ some (k, d.mc.objs.length) := by
      intro j hij hj
      obtain ⟨x, hx, hh⟩ := ht.stream j _ _ ((hothers j hij).symm.trans hj)
      obtain rfl : d = x := Option.some.inj (hd.symm.trans hx)
      exact Nat.lt_irrefl _ hh
    intro j l p hj hl
    by_cases hij : i = j
    · subst hij
      by_contra hil
      exact hfresh l hil (hl.trans (hj.symm.trans hself))
    · by_cases hil : i = l
      · subst hil
        exact absurd (hj.trans (hl.symm.trans hself)) (hfresh j hij)
      · exact ht.unique j l p ((hothers j hij).symm.trans hj) ((hothers l hil).symm.trans hl)

theorem openedBy_setPhase {i : Nat} {c : Call} {phase : Phase} (hc : t.calls[i]? = some c)
    (hcalls : t'.calls = (t.setPhase i phase).calls) (j : Nat) :
    t'.openedBy j = if i = j then phase.stream? else t.openedBy j := by
  have hget : t'.calls[j]? = (t.setPhase i phase).calls[j]? := by rw [hcalls]
  unfold openedBy
  rw [hget]
  by_cases hij : i = j
  · subst hij
    have hnew : (t.setPhase i phase).calls[i]? = some { c with phase } :=
      getElem?_setPhase.mpr ((if_pos rfl).mpr ⟨c, hc, rfl⟩)
    rw [hnew, if_pos rfl]
  · rw [if_neg hij]
    have hsame : (t.setPhase i phase).calls[j]? = t.calls[j]? := by
      rw [setPhase, List.getElem?_modify]
      simp [hij]
    rw [hsame]

theorem enter_stream? (t : Transport) (m : Method) : (t.enter m).stream? = none := by
  unfold enter
  split
  · split
    · rfl
    · split <;> rfl
  · rfl

theorem openedBy_called (m : Method) (j : Nat) :
    openedBy { t with calls := t.calls ++ [⟨m, t.enter m⟩] } j = t.openedBy j := by
  unfold openedBy
  cases hold : t.calls[j]? with
  | some c => rw [Store.getElem?_concat.mpr (.inl hold)]
  | none =>
      cases hnew : (t.calls ++ [⟨m, t.enter m⟩])[j]? with
      | none => rfl
      | some c =>
          rcases Store.getElem?_concat.mp hnew with hc | ⟨-, rfl⟩
          · rw [hold] at hc
            cases hc
          · exact enter_stream? t m

/-- What happens on a connection opens no stream. -/
theorem flags_of_moved {c c' : MuxConn} {own : WireEvent} (hown : own.ofTransport = false)
    (hrole : c.role = .client) (hmoved : c.WireStepped own c') : c'.flags = c.flags := by
  have hflags : ∀ {ev : ConnEvent}, c.step ev = some c' → (∀ b, ev ≠ .newStream b) →
      c'.flags = c.flags := by
    intro ev hev hne
    rcases MuxConn.quiet_step (MuxConn.stepped hev) hrole with ⟨b, hb, -⟩ | ⟨-, hsame⟩
    · exact absurd hb (hne b)
    · exact hsame
  cases hmoved with
  | frame f _ hev => exact hflags hev nofun
  | refused data err _ hev => exact hflags hev nofun
  | other ev _ _ hev =>
      refine hflags hev fun b hb => ?_
      subst hb
      cases hown

theorem noneOpened_setConn {k : Nat} {f : MuxConn → MuxConn}
    (hf : ∀ d, t.conns[k]? = some d → (f d.mc).flags = d.mc.flags)
    (hconns : t'.conns = (t.setConn k f).conns) : NoneOpened t t' := by
  intro j d' hd'
  rw [hconns] at hd'
  change (t.conns.modify k _)[j]? = some d' at hd'
  rw [Store.getElem?_modify] at hd'
  refine .inr ?_
  by_cases hkj : k = j
  · subst hkj
    rw [if_pos rfl] at hd'
    obtain ⟨d, hd, rfl⟩ := hd'
    exact ⟨d, hd, rfl, hf d hd⟩
  · rw [if_neg hkj] at hd'
    exact ⟨d', hd', rfl, rfl⟩

theorem flags_of_error {c : MuxConn} {dedicated : Bool} {err : Option GoError}
    (herr : c.opened dedicated = .error err) : (c.newStream dedicated).flags = c.flags := by
  rcases c.opened_cases dedicated with ⟨s, hok, -⟩ | ⟨-, -, hobjs, -⟩
  · rw [hok] at herr
    cases herr
  · rw [MuxConn.flags, hobjs, MuxConn.flags]

theorem Streams.step (ht : t.Streams) (huses : t.Uses) (hclients : t.Clients)
    {ev : TransportEvent} (hstep : Stepped t ev t') : t'.Streams := by
  have hsame : ∀ {x : Transport}, x.conns = t.conns → NoneOpened t x := fun h k d' hd' =>
    .inr ⟨d', h ▸ hd', rfl, rfl⟩
  -- a call moves on that neither has opened nor opens a stream
  have hmoves : ∀ {i : Nat} {c : Call} {phase : Phase}, t.calls[i]? = some c →
      c.phase.stream? = none → phase.stream? = none → t'.calls = (t.setPhase i phase).calls →
      NoneOpened t t' → t'.Streams := by
    intro i c phase hc hbefore hafter hcalls hnone
    refine ht.quiet hclients hstep hnone fun j => ?_
    rw [openedBy_setPhase hc hcalls]
    by_cases hij : i = j
    · subst hij
      rw [if_pos rfl, hafter, openedBy, hc]
      exact hbefore.symm
    · rw [if_neg hij]
  have hfails : ∀ {k : Nat} {d : Dialed} {dedicated : Bool} {err : Option GoError},
      t.conns[k]? = some d → d.mc.opened dedicated = .error err →
      t'.conns = (t.afterNewStream k dedicated).conns → NoneOpened t t' :=
    fun hd herr hconns => noneOpened_setConn (fun x hx => by
      obtain rfl := Option.some.inj (hd.symm.trans hx)
      exact flags_of_error herr) hconns
  have hshuts : ∀ {k : Nat}, t'.conns = (t.afterShutdown k).conns → NoneOpened t t' :=
    noneOpened_setConn fun _ _ => rfl
  have hdials : ∀ {d : Dialed}, d.mc.objs = [] → t'.conns = t.conns ++ [d] →
      NoneOpened t t' := by
    intro d hnil hconns k d' hd'
    rw [hconns] at hd'
    rcases Store.getElem?_concat.mp hd' with hold | ⟨-, rfl⟩
    · exact .inr ⟨d', hold, rfl, rfl⟩
    · exact .inl hnil
  cases hstep with
  | called m =>
      refine ht.quiet hclients (.called m) (hsame rfl) fun i => ?_
      exact openedBy_called m i
  | locked i unary _ hc => exact hmoves hc rfl rfl rfl (hsame rfl)
  | taken i k _ hc => exact hmoves hc rfl rfl rfl (hsame rfl)
  | idle i _ hc => exact hmoves hc rfl rfl rfl (hsame rfl)
  | dialed i m hc => exact hmoves hc rfl rfl rfl (hdials rfl rfl)
  | dialedOwn i m hc => exact hmoves hc rfl rfl rfl (hdials rfl rfl)
  | dialFails i m err hc => exact hmoves hc rfl rfl rfl (hsame rfl)
  | dialOwnFails i m err hc => exact hmoves hc rfl rfl rfl (hsame rfl)
  | dials i m hc => exact hmoves hc rfl rfl rfl (hsame rfl)
  | redials i m k d err hc _ hd herr => exact hmoves hc rfl rfl rfl (hfails hd herr rfl)
  | opens i m phase k d s hc hphase hd hok =>
      have hshared : t.shared = some k := by
        rcases hphase with ⟨rfl, hk⟩ | rfl
        · exact hk
        · cases huses.calls i _ hc with
          | dialed unary k h hk => exact hk
      obtain ⟨d₀, hd₀, hcall⟩ := huses.shared k hshared
      obtain rfl : d = d₀ := Option.some.inj (hd.symm.trans hd₀)
      have hnot : phase.stream? = none := by
        rcases hphase with ⟨rfl, -⟩ | rfl <;> rfl
      have hbefore : t.openedBy i = none := by
        rw [openedBy, hc]
        exact hnot
      exact ht.opens hd hok (by rw [hcall]; rfl) hbefore rfl fun j => openedBy_setPhase hc rfl j
  | fails i m k d err hc hd herr => exact hmoves hc rfl rfl rfl (hfails hd herr rfl)
  | opensOwn i m k d s hc hd hok =>
      cases huses.calls i _ hc with
      | dialedOwn unary _ d₀ h hd₀ hcall =>
          obtain rfl : d = d₀ := Option.some.inj (hd.symm.trans hd₀)
          have hbefore : t.openedBy i = none := by
            rw [openedBy, hc]
            rfl
          exact ht.opens hd hok (by rw [hcall]; rfl) hbefore rfl fun j =>
            openedBy_setPhase hc rfl j
  | failsOwn i m k d err hc hd herr => exact hmoves hc rfl rfl rfl (hfails hd herr rfl)
  | shutsOwn i m k err hc => exact hmoves hc rfl rfl rfl (hshuts rfl)
  | shuts i m k hc => exact hmoves hc rfl rfl rfl (hshuts rfl)
  | conn k own d c hown hd hmoved =>
      refine ht.quiet hclients (.conn k own d c hown hd hmoved) ?_ fun _ => rfl
      refine noneOpened_setConn (fun x hx => ?_) rfl
      obtain rfl := Option.some.inj (hd.symm.trans hx)
      exact flags_of_moved hown (hclients d (List.mem_of_getElem? hd)) hmoved

-- ============================================================================
-- Whole runs
-- ============================================================================

/-- Each connection has a history of its own. -/
def Histories (t : Transport) : Prop :=
  ∀ d ∈ t.conns, ∃ evs, (muxConn .client).run evs = some d.mc

theorem histories_step (ht : t.Histories) (hclients : t.Clients) {ev : TransportEvent}
    (hstep : Stepped t ev t') : t'.Histories := by
  intro d' hmem
  obtain ⟨k, hd'⟩ := List.getElem?_of_mem hmem
  cases connStepped hclients hstep hd' with
  | new _ hmc _ => exact ⟨[], by rw [hmc]; rfl⟩
  | same hsame _ => exact ht d' (List.mem_of_getElem? hsame)
  | moved d own hd _ hmoved _ =>
      obtain ⟨ev', hev⟩ := hmoved.step
      obtain ⟨evs, hevs⟩ := ht d (List.mem_of_getElem? hd)
      exact ⟨evs ++ [ev'], (Machine.exec_append _).mpr
        ⟨_, hevs, (Machine.exec_cons _).mpr ⟨_, hev, rfl⟩⟩⟩

structure Inv (connectionPerStream : Bool) (t : Transport) : Prop where
  dedicates : t.connectionPerStream = connectionPerStream
  clients : t.Clients
  locks : t.Locks
  uses : t.Uses
  streams : t.Streams
  histories : t.Histories

theorem inv_of_run {url : String} {connectionPerStream : Bool} {evs : List TransportEvent}
    (hrun : (transport url connectionPerStream).run evs = some t) :
    t.Inv connectionPerStream := by
  refine (transport url connectionPerStream).exec_invariant (I := Inv connectionPerStream)
    ?_ ?_ hrun
  · intro t ev t' ht hstep
    have hstep := stepped hstep
    exact
      { dedicates := by
          cases hstep <;> exact ht.dedicates
        clients := clients_step ht.clients hstep
        locks := ht.locks.step hstep
        uses := ht.uses.step ht.locks ht.clients hstep
        streams := ht.streams.step ht.uses ht.clients hstep
        histories := histories_step ht.histories ht.clients hstep }
  · exact
      { dedicates := rfl
        clients := nofun
        locks := locks_init url connectionPerStream
        uses := uses_init url connectionPerStream
        streams := streams_init url connectionPerStream
        histories := nofun }

/-- A connection dialled for a stream has no other. -/
theorem Streams.only (ht : t.Streams) (huses : t.Uses) {i k h : Nat}
    (hi : t.openedBy i = some (k, h)) {d : Dialed} (hd : t.conns[k]? = some d)
    (hcall : d.call = some i) : d.mc.objs.length = 1 := by
  have hsame : ∀ j < d.mc.objs.length, j = h := by
    intro j hj
    obtain ⟨l, hl⟩ := ht.given k j d hd hj
    obtain ⟨m, hm⟩ := openedBy_eq_some.mp hl
    cases huses.calls l _ hm with
    | opened unary _ _ d₀ hd₀ hown =>
        obtain rfl : d = d₀ := Option.some.inj (hd.symm.trans hd₀)
        rw [hcall] at hown
        split at hown <;> cases hown
        rw [hi] at hl
        exact (Prod.mk.inj (Option.some.inj hl)).2.symm
  obtain ⟨d₀, hd₀, hlt⟩ := ht.stream i k h hi
  obtain rfl : d = d₀ := Option.some.inj (hd.symm.trans hd₀)
  have hzero := hsame 0 (by omega)
  by_contra hne
  have hone := hsame 1 (by omega)
  omega

end Transport

/-- What `NewClientStream` returns is a stream of its own: of a connection
    dialled for it alone, if the transport is to have one for each stream and
    the call is none of a unary RPC, and of one it shares otherwise.  No other
    stream is ever opened, and each connection goes its own way. -/
theorem calls_own_their_streams (url : String) (connectionPerStream : Bool)
    (evs : List TransportEvent) {t : Transport}
    (hrun : (transport url connectionPerStream).run evs = some t) :
    (∀ (i : Nat) (m : Method) (k h : Nat), t.calls[i]? = some ⟨m, .opened k h⟩ →
      ∃ (unary : Bool) (d : Dialed) (o : StreamObject), m = .newClientStream unary ∧
        t.conns[k]? = some d ∧ d.mc.objs[h]? = some o ∧
        o.stream.dedicated = (connectionPerStream && !unary) ∧
        d.call = (if o.stream.dedicated then some i else none) ∧
        (o.stream.dedicated = true → d.mc.objs.length = 1)) ∧
    (∀ (k h : Nat) (d : Dialed), t.conns[k]? = some d → h < d.mc.objs.length →
      ∃! i : Nat, ∃ m, t.calls[i]? = some ⟨m, .opened k h⟩) ∧
    ∀ d ∈ t.conns, ∃ evs, (muxConn .client).run evs = some d.mc := by
  have ht := Transport.inv_of_run hrun
  refine ⟨fun i m k h hc => ?_, fun k h d hd hh => ?_, ht.histories⟩
  · have hi : t.openedBy i = some (k, h) := Transport.openedBy_eq_some.mpr ⟨m, hc⟩
    cases ht.uses.calls i _ hc with
    | opened unary _ _ d hd hcall =>
        obtain ⟨d₀, hd₀, hlt⟩ := ht.streams.stream i k h hi
        obtain rfl : d = d₀ := Option.some.inj (hd.symm.trans hd₀)
        have hdedicates : t.dedicates unary = (connectionPerStream && !unary) := by
          rw [Transport.dedicates, ht.dedicates]
        have hflag : (d.mc.objs[h]).stream.dedicated = (connectionPerStream && !unary) := by
          rw [ht.streams.flags k d hd _ (List.mem_map_of_mem (List.getElem_mem hlt)), hcall,
            ← hdedicates]
          cases t.dedicates unary <;> rfl
        have hsame : (d.mc.objs[h]).stream.dedicated = t.dedicates unary :=
          hflag.trans hdedicates.symm
        rw [← hsame] at hcall
        refine ⟨unary, d, _, rfl, hd, List.getElem?_eq_getElem hlt, hflag, hcall, fun hded => ?_⟩
        rw [hded, if_pos rfl] at hcall
        exact ht.streams.only ht.uses hi hd hcall
  · obtain ⟨i, hi⟩ := ht.streams.given k h d hd hh
    refine ⟨i, Transport.openedBy_eq_some.mp hi, fun j hj => ?_⟩
    exact ht.streams.unique j i _ (Transport.openedBy_eq_some.mpr hj) hi

/-- The connection of the first call fails; the second one dials again. -/
def redialled : List TransportEvent := [
  .call (.newClientStream true), .call (.newClientStream true), .lock 0, .advance 0, .dialed 0,
  .advance 0, .conn 0 (.other (.recvFails errConnClosed)), .lock 1, .advance 1, .dialed 1,
  .advance 1]

theorem redialled_own_stream :
    ∃ t, (transport "ws://host" true).run redialled = some t ∧
      ∃! i : Nat, ∃ m, t.calls[i]? = some ⟨m, .opened 1 0⟩ := by
  have hrun : (transport "ws://host" true).run redialled = some _ := rfl
  exact ⟨_, hrun, (calls_own_their_streams "ws://host" true redialled hrun).2.1 1 0 _ rfl
    (by decide)⟩

/-- One call at a time looks for the shared connection, a connection is only
    replaced once it is closed or has handed out as many streams as there are
    IDs, and each other one dialled to be shared is the shared one, or one that
    a `Close` is about to shut down. -/
theorem one_shared_connection (url : String) (connectionPerStream : Bool)
    (evs : List TransportEvent) {t : Transport}
    (hrun : (transport url connectionPerStream).run evs = some t) :
    (∀ (i j : Nat) (c x : Call), t.calls[i]? = some c → t.calls[j]? = some x →
      c.phase.locks = true → x.phase.locks = true → i = j) ∧
    (∀ (i : Nat) (m : Method), t.calls[i]? = some ⟨m, .dialing⟩ → ∀ k, t.shared = some k →
      ∃ d : Dialed, t.conns[k]? = some d ∧ d.mc.Spent) ∧
    ∀ (k : Nat) (d : Dialed), t.conns[k]? = some d → d.call = none → ¬ d.mc.Spent →
      t.shared = some k ∨ t.Closing k := by
  have ht := Transport.inv_of_run hrun
  refine ⟨fun i j c x hc hx hlocks hlocks' => ?_, fun i m hc k hk => ?_,
    fun k d hd hcall hne => ?_⟩
  · by_contra hij
    rw [ht.locks.alone hij hc hx hlocks] at hlocks'
    cases hlocks'
  · cases ht.uses.calls i _ hc with
    | dialing unary _ hspent => exact hspent k hk
  · rcases ht.uses.usable k d hd hcall with hspent | hused
    · exact absurd hspent hne
    · exact hused

theorem redialled_shared :
    ∃ t, (transport "ws://host" true).run redialled = some t ∧
      (t.shared = some 1 ∨ t.Closing 1) := by
  have hrun : (transport "ws://host" true).run redialled = some _ := rfl
  refine ⟨_, hrun, (one_shared_connection "ws://host" true redialled hrun).2.2 1 _ rfl rfl ?_⟩
  rintro (hclosed | hfull)
  · cases hclosed
  · revert hfull
    decide

end ConnectWebSocket
end BidiWeb
