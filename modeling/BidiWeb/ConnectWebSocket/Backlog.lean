/-
  BidiWeb.ConnectWebSocket.Backlog

  Whether the read loop of `ServeHTTP` can get through the frames that lie
  between it and a reset, while the handler of the stream does nothing.

  A stream is seen here as a door: nobody behind it, a stream that ends and
  drops what it cannot hold, or an inbox that holds so many envelopes.
  `passes` computes whether a list of envelopes gets through; the exit of an
  older handler of the same ID deregisters whatever the map has, and is used
  up when there is no other way.
-/

import BidiWeb.ConnectWebSocket.ServerStreams

namespace BidiWeb
namespace ConnectWebSocket

open BidiWeb.Lib

-- ============================================================================
-- Doors
-- ============================================================================

/-- What stands between the read loop and the handler. -/
inductive Door where
  /-- No stream is registered. -/
  | absent
  /-- The stream is terminated, or its handler has returned. -/
  | passing
  /-- The inbox holds `n` envelopes. -/
  | inbox (n : Nat)
deriving DecidableEq, Repr

namespace Door

/-- An envelope for which `lookup` finds no stream. -/
def enter (e : Envelope) : Door := if e.flag = flagEnvelopeHeaders then .inbox 1 else .absent

def takes : Door → Bool
  | .absent => false
  | .passing => true
  | .inbox n => n < inboxCap

/-- After an envelope has been delivered. -/
def taken : Door → Door
  | .absent => .absent
  | .passing => .passing
  | .inbox n => .inbox (n + 1)

/-- The envelopes get through the door, with `m` exits of older handlers to
    make the ID free. -/
def passes : List Envelope → Nat → Door → Bool
  | [], _, _ => true
  | e :: es, m, .absent => passes es m (enter e)
  | e :: es, m, .passing => passes es m (if e.isReset then .absent else .passing)
  | e :: es, m, .inbox n =>
      if e.isReset then passes es m .absent
      else if n < inboxCap then passes es m (.inbox (n + 1))
      else
        match m with
        | 0 => false
        | m + 1 => passes es m (enter e)

/-- `d'` with `m'` exits lets through what `d` does with `m`: it is no fuller,
    or there is one exit more to empty it. -/
inductive Below : Nat → Door → Nat → Door → Prop where
  | absent {m m' : Nat} : m ≤ m' → Below m .absent m' .absent
  | inbox {m m' n n' : Nat} : m ≤ m' → n' ≤ n → Below m (.inbox n) m' (.inbox n')
  | emptied {m m' n : Nat} : m ≤ m' → Below m (.inbox n) m' .absent
  | ended {m m' : Nat} {d : Door} : m ≤ m' → Below m d m' .passing
  | spare {m m' : Nat} {d d' : Door} : d ≠ .passing → m < m' → Below m d m' d'

variable {e : Envelope} {es : List Envelope} {m m' : Nat} {d d' : Door}

theorem enter_of_reset (h : e.isReset = true) : enter e = .absent := by
  have hflag : e.flag = flagEnvelopeReset := by simpa [Envelope.isReset] using h
  have hne : flagEnvelopeReset ≠ flagEnvelopeHeaders := by decide
  rw [enter, hflag, if_neg hne]

theorem enter_ne_passing (e : Envelope) : enter e ≠ .passing := by
  unfold enter
  split <;> nofun

theorem below_enter (hm : m ≤ m') : Below m (enter e) m' (enter e) := by
  unfold enter
  split
  · exact .inbox hm (Nat.le_refl 1)
  · exact .absent hm

theorem below_inbox_enter (hm : m ≤ m') (n : Nat) : Below m (.inbox (n + 1)) m' (enter e) := by
  unfold enter
  split
  · exact .inbox hm (Nat.succ_le_succ (Nat.zero_le n))
  · exact .emptied hm

/-- An envelope that is no reset, at a full inbox. -/
theorem passes_full {n : Nat} (hplain : e.isReset = false) (hfull : ¬ n < inboxCap) :
    passes (e :: es) m (.inbox n) = true ↔ ∃ k, m = k + 1 ∧ passes es k (enter e) = true := by
  cases m with
  | zero => simp [passes, hplain, hfull]
  | succ k => simp [passes, hplain, hfull]

theorem passes_room {n : Nat} (hplain : e.isReset = false) (hroom : n < inboxCap) :
    passes (e :: es) m (.inbox n) = passes es m (.inbox (n + 1)) := by
  simp [passes, hplain, hroom]

theorem passes_reset (hreset : e.isReset = true) : passes (e :: es) m d = passes es m .absent := by
  cases d with
  | absent => simp [passes, enter_of_reset hreset]
  | passing => simp [passes, hreset]
  | inbox n => simp [passes, hreset]

theorem passes_passing (hplain : e.isReset = false) :
    passes (e :: es) m .passing = passes es m .passing := by
  simp [passes, hplain]

theorem passes_takes (hplain : e.isReset = false) (htakes : d.takes = true) :
    passes (e :: es) m d = passes es m d.taken := by
  cases d with
  | absent => cases htakes
  | passing => exact passes_passing hplain
  | inbox n => exact passes_room hplain (by simpa [takes] using htakes)

theorem passes_absent : passes (e :: es) m .absent = passes es m (enter e) := rfl

theorem passes_mono (hbelow : Below m d m' d') (h : passes es m d = true) :
    passes es m' d' = true := by
  induction es generalizing m m' d d' with
  | nil => rfl
  | cons e es ih =>
      cases hreset : e.isReset with
      | true =>
          rw [passes_reset hreset] at h ⊢
          have hle : m ≤ m' := by cases hbelow <;> omega
          exact ih (.absent hle) h
      | false =>
          cases hbelow with
          | absent hm => exact ih (below_enter hm) h
          | inbox hm hn =>
              rename_i n n'
              by_cases hroom : n < inboxCap
              · rw [passes_room hreset hroom] at h
                rw [passes_room hreset (Nat.lt_of_le_of_lt hn hroom)]
                exact ih (.inbox hm (Nat.succ_le_succ hn)) h
              · obtain ⟨k, rfl, hrest⟩ := (passes_full hreset hroom).mp h
                by_cases hroom' : n' < inboxCap
                · rw [passes_room hreset hroom']
                  exact ih (.spare (enter_ne_passing e) hm) hrest
                · obtain ⟨k', rfl⟩ : ∃ k', m' = k' + 1 := ⟨m' - 1, by omega⟩
                  refine (passes_full hreset hroom').mpr ⟨k', rfl, ?_⟩
                  exact ih (below_enter (by omega)) hrest
          | emptied hm =>
              rename_i n
              rw [passes_absent]
              by_cases hroom : n < inboxCap
              · rw [passes_room hreset hroom] at h
                exact ih (below_inbox_enter hm n) h
              · obtain ⟨k, rfl, hrest⟩ := (passes_full hreset hroom).mp h
                exact ih (below_enter (by omega)) hrest
          | ended hm =>
              rw [passes_passing hreset]
              cases d with
              | absent => exact ih (.ended hm) h
              | passing =>
                  rw [passes_passing hreset] at h
                  exact ih (.ended hm) h
              | inbox n =>
                  by_cases hroom : n < inboxCap
                  · rw [passes_room hreset hroom] at h
                    exact ih (.ended hm) h
                  · obtain ⟨k, rfl, hrest⟩ := (passes_full hreset hroom).mp h
                    have hk : k ≤ m' := by omega
                    exact ih (.ended hk) hrest
          | spare hd hm =>
              -- what is left of the envelopes gets through some door but `passing`
              obtain ⟨k, d₁, hd₁, hk, hroom, h⟩ : ∃ k d₁, d₁ ≠ .passing ∧ k < m' ∧
                  (∀ {k'}, k ≤ k' → Below k d₁ k' (enter e)) ∧ passes es k d₁ = true := by
                cases d with
                | absent => exact ⟨m, enter e, enter_ne_passing e, hm, fun hk => below_enter hk, h⟩
                | passing => exact absurd rfl hd
                | inbox n =>
                    by_cases hroom : n < inboxCap
                    · rw [passes_room hreset hroom] at h
                      exact ⟨m, .inbox (n + 1), nofun, hm, fun hk => below_inbox_enter hk n, h⟩
                    · obtain ⟨k, rfl, hrest⟩ := (passes_full hreset hroom).mp h
                      exact
                        ⟨k, enter e, enter_ne_passing e, by omega, fun hk => below_enter hk, hrest⟩
              cases d' with
              | absent => exact ih (hroom (Nat.le_of_lt hk)) h
              | passing =>
                  rw [passes_passing hreset]
                  exact ih (.ended (Nat.le_of_lt hk)) h
              | inbox n' =>
                  by_cases hroom' : n' < inboxCap
                  · rw [passes_room hreset hroom']
                    exact ih (.spare hd₁ hk) h
                  · obtain ⟨k', rfl⟩ : ∃ k', m' = k' + 1 := ⟨m' - 1, by omega⟩
                    refine (passes_full hreset hroom').mpr ⟨k', rfl, ?_⟩
                    exact ih (hroom (by omega)) h

end Door

-- ============================================================================
-- The doors of a connection
-- ============================================================================

/-- The stream whose handler has returned and has deferred calls to make. -/
def Task.exiting : Task → Option Nat
  | .exit h | .exitDeregister h => some h
  | .write .. | .close _ | .closeTerminate .. | .closeReset .. | .terminate .. => none

namespace MuxConn

/-- What the read loop meets at stream `h`. -/
def doorAt (c : MuxConn) (h : Nat) : Door :=
  match c.objs[h]? with
  | none => .absent
  | some o =>
      if o.stream.terminated ∨ .exit h ∈ c.tasks then .passing else .inbox o.stream.inbox.length

/-- What a frame with the ID `id` meets. -/
def doorOf (c : MuxConn) (id : UInt32) : Door :=
  match c.streams id with
  | none => .absent
  | some h => c.doorAt h

/-- Exits of handlers of streams with the ID `id`. -/
def spares (c : MuxConn) (id : UInt32) : Nat :=
  c.tasks.countP fun t => t.exiting.bind c.idOf = some id

/-- The frame in hand and the frames still to be read, all with the ID `id`,
    can be handled. -/
def clears (c : MuxConn) (id : UInt32) (todo : List Envelope) : Bool :=
  match c.loop with
  | .reading | .resetting _ => Door.passes todo (c.spares id) (c.doorOf id)
  | .got f => Door.passes (f.env :: todo) (c.spares id) (c.doorOf id)
  | .missing f => Door.passes todo (c.spares id) (Door.enter f.env)
  | .found h f =>
      if f.env.isReset then Door.passes todo (c.spares id) .absent
      else (c.doorAt h).takes && Door.passes todo (c.spares id) (c.doorOf id).taken
  | .stopped => false

variable {c c' : MuxConn} {ev : ConnEvent} {id : UInt32} {h : Nat} {o : StreamObject}
  {todo : List Envelope}

theorem doorAt_eq (ho : c.objs[h]? = some o) : c.doorAt h =
    if o.stream.terminated ∨ .exit h ∈ c.tasks then .passing else .inbox o.stream.inbox.length := by
  simp [doorAt, ho]

/-- A stream that is as full as before, and ends if it did. -/
theorem doorAt_congr {o' : StreamObject} (ho : c.objs[h]? = some o) (ho' : c'.objs[h]? = some o')
    (hterm : o'.stream.terminated = o.stream.terminated)
    (hinbox : o'.stream.inbox.length = o.stream.inbox.length)
    (htasks : .exit h ∈ c'.tasks ↔ .exit h ∈ c.tasks) : c'.doorAt h = c.doorAt h := by
  rw [doorAt_eq ho, doorAt_eq ho', hterm, hinbox]
  simp only [htasks]

theorem doorAt_same (hobjs : c'.objs = c.objs) (htasks : .exit h ∈ c'.tasks ↔ .exit h ∈ c.tasks) :
    c'.doorAt h = c.doorAt h := by
  simp only [doorAt, hobjs, htasks]

/-- Streams that are no fuller than before, and end if they did. -/
theorem doorAt_modify {f : StreamObject → StreamObject} {j : Nat}
    (hf : ∀ o, c.objs[h]? = some o → h = j → (f o).stream.terminated = o.stream.terminated ∧
      (f o).stream.inbox.length = o.stream.inbox.length)
    (hobjs : c'.objs = c.objs.modify h f) (htasks : .exit j ∈ c'.tasks ↔ .exit j ∈ c.tasks) :
    c'.doorAt j = c.doorAt j := by
  cases hj : c.objs[j]? with
  | none =>
      have hafter : c'.objs[j]? = none := by simpa [hobjs] using hj
      simp [doorAt, hj, hafter]
  | some o =>
      by_cases hhj : h = j
      · subst hhj
        obtain ⟨hterm, hinbox⟩ := hf o hj rfl
        exact doorAt_congr hj (by simp [hobjs, hj]) hterm hinbox htasks
      · have hafter : c'.objs[j]? = some o := by simp [hobjs, hhj, hj]
        exact doorAt_congr hj hafter rfl rfl htasks

theorem doorOf_eq (hreg : c.streams id = some h) : c.doorOf id = c.doorAt h := by
  simp [doorOf, hreg]

theorem doorOf_absent (hfree : c.streams id = none) : c.doorOf id = .absent := by
  simp [doorOf, hfree]

theorem doorOf_congr (hstreams : c'.streams id = c.streams id)
    (hdoors : ∀ h, c.streams id = some h → c'.doorAt h = c.doorAt h) :
    c'.doorOf id = c.doorOf id := by
  cases hreg : c.streams id with
  | none => rw [doorOf_absent hreg, doorOf_absent (hstreams.trans hreg)]
  | some h => rw [doorOf_eq hreg, doorOf_eq (hstreams.trans hreg), hdoors h hreg]

theorem doorAt_ne_absent (ho : c.objs[h]? = some o) : c.doorAt h ≠ .absent := by
  rw [doorAt_eq ho]
  split <;> nofun

theorem clears_stopped (hstopped : c.loop = .stopped) : c.clears id todo = false := by
  simp [clears, hstopped]

/-- What other goroutines do, the loop aside. -/
theorem clears_congr (hloop : c'.loop = c.loop) (hspares : c'.spares id = c.spares id)
    (hstreams : c'.streams id = c.streams id)
    (hdoors : ∀ h, c.idOf h = some id → c'.doorAt h = c.doorAt h) (htable : c.Table)
    (hhand : ∀ f, c.loop.frame = some f → f.id = id) : c'.clears id todo = c.clears id todo := by
  have hdoor : c'.doorOf id = c.doorOf id :=
    doorOf_congr hstreams fun h hreg => hdoors h (htable.streams id h hreg)
  unfold clears
  rw [hloop, hspares, hdoor]
  cases hl : c.loop with
  | found h f =>
      have hid : c.idOf h = some id := by
        rw [(htable.found h f hl).1, hhand f (by rw [hl]; rfl)]
      simp only [hdoors h hid]
  | reading | got | missing | resetting | stopped => rfl

-- ============================================================================
-- The steps of the read loop
-- ============================================================================

theorem clears_recv {f : Frame} (hl : c.loop = .reading) :
    { c with loop := .got f, seen := c.seen ++ [f] }.clears id todo =
      c.clears id (f.env :: todo) := by
  show Door.passes (f.env :: todo) (c.spares id) (c.doorOf id) = _
  simp [clears, hl]

/-- `lookup` finds a stream that takes the frame. -/
theorem clears_found {f : Frame} (hl : c.loop = .got f) (hreg : c.streams id = some h)
    (htakes : f.env.isReset = true ∨ (c.doorAt h).takes = true) :
    { c with loop := .found h f }.clears id todo = c.clears id todo := by
  have hnow : c.clears id todo = Door.passes (f.env :: todo) (c.spares id) (c.doorAt h) := by
    simp [clears, hl, doorOf_eq hreg]
  rw [hnow]
  show (if f.env.isReset then Door.passes todo (c.spares id) .absent
    else (c.doorAt h).takes && Door.passes todo (c.spares id) (c.doorOf id).taken) = _
  cases hreset : f.env.isReset with
  | true => rw [if_pos rfl, Door.passes_reset hreset]
  | false =>
      have htakes : (c.doorAt h).takes = true := htakes.resolve_left (by simp [hreset])
      rw [if_neg Bool.false_ne_true, htakes, Bool.true_and, doorOf_eq hreg,
        Door.passes_takes hreset htakes]

/-- `lookup` finds a stream that does not. -/
theorem clears_found_full {f : Frame} (hfull : f.env.isReset = false ∧ (c.doorAt h).takes = false) :
    { c with loop := .found h f }.clears id todo = false := by
  show (if f.env.isReset then Door.passes todo (c.spares id) .absent
    else (c.doorAt h).takes && Door.passes todo (c.spares id) (c.doorOf id).taken) = _
  simp [hfull.1, hfull.2]

theorem clears_missing {f : Frame} (hl : c.loop = .got f) (hfree : c.streams id = none) :
    { c with loop := .missing f }.clears id todo = c.clears id todo := by
  show Door.passes todo (c.spares id) (Door.enter f.env) = _
  simp [clears, hl, doorOf_absent hfree, Door.passes_absent]

theorem clears_skip {f : Frame} (htable : c.Table) (hl : c.loop = .missing f) (hid : f.id = id)
    (hplain : f.env.flag ≠ flagEnvelopeHeaders) :
    { c with loop := .reading }.clears id todo = c.clears id todo := by
  have hfree : c.streams id = none := hid ▸ htable.missing f hl
  show Door.passes todo (c.spares id) (c.doorOf id) = _
  simp [clears, hl, doorOf_absent hfree, Door.enter, hplain]

/-- The tasks are about streams that exist. -/
theorem exists_of_exiting (hexit : c.Exiting) {t : Task} (ht : t ∈ c.tasks)
    (hexiting : t.exiting = some h) : ∃ o : StreamObject, c.objs[h]? = some o := by
  have hok := hexit.tasks t ht
  cases t with
  | exit j =>
      obtain rfl : j = h := by simpa [Task.exiting] using hexiting
      obtain ⟨o, ho, -⟩ := hok
      exact ⟨o, ho⟩
  | exitDeregister j =>
      obtain rfl : j = h := by simpa [Task.exiting] using hexiting
      obtain ⟨o, ho, -⟩ := hok
      exact ⟨o, ho⟩
  | write | close | closeTerminate | closeReset | terminate => cases hexiting

/-- The exits depend on the IDs of the streams that exist. -/
theorem spares_congr (hexit : c.Exiting) (htasks : c'.tasks = c.tasks)
    (hids : ∀ (h : Nat) (o : StreamObject), c.objs[h]? = some o → c'.idOf h = c.idOf h) :
    c'.spares id = c.spares id := by
  unfold spares
  rw [htasks]
  refine List.countP_congr fun t ht => ?_
  cases hexiting : t.exiting with
  | none => rfl
  | some h =>
      obtain ⟨o, ho⟩ := exists_of_exiting hexit ht hexiting
      simp [hids h o ho]

theorem spares_of_idOf (htasks : c'.tasks = c.tasks) (hids : ∀ h, c'.idOf h = c.idOf h) :
    c'.spares id = c.spares id := by
  have hfun : c'.idOf = c.idOf := funext hids
  rw [spares, spares, htasks, hfun]

theorem clears_start {f : Frame} (htable : c.Table) (hexit : c.Exiting) (hl : c.loop = .missing f)
    (hid : f.id = id) (hheaders : f.env.flag = flagEnvelopeHeaders) :
    { c.startStream f with loop := .reading }.clears id todo = c.clears id todo := by
  have hopen : ¬ (c.closed = true ∨ (c.streams f.id).isSome = true) := by
    rintro (hclosed | hreg)
    · rw [htable.closed hclosed] at hl
      cases hl
    · rw [htable.missing f hl] at hreg
      cases hreg
  let s : StreamObject :=
    { stream := { id := f.id, inbox := [⟨flagEnvelopeHeaders, f.env.payload⟩], cancel := true } }
  have hstart : c.startStream f = c.insert s := if_neg hopen
  have hspares : (c.insert s).spares id = c.spares id := by
    refine spares_congr hexit rfl fun h o ho => ?_
    rw [idOf_of_get ho]
    exact idOf_insert (idOf_of_get ho)
  have hreg :
      (c.insert s).streams id = some c.objs.length := insert_streams.mpr (.inl ⟨hid.symm, rfl⟩)
  have hnone : Task.exit c.objs.length ∉ c.tasks := by
    intro hmem
    obtain ⟨o, ho⟩ := exists_of_exiting hexit hmem rfl
    have := (List.getElem?_eq_some_iff.mp ho).1
    omega
  have hdoor : (c.insert s).doorOf id = .inbox 1 := by
    rw [doorOf_eq hreg, doorAt_eq (o := s) (Store.getElem?_concat.mpr (.inr ⟨rfl, rfl⟩)), if_neg]
    · rfl
    · exact not_or.mpr ⟨Bool.false_ne_true, hnone⟩
  rw [hstart]
  show Door.passes todo ((c.insert s).spares id) ((c.insert s).doorOf id) = _
  rw [hspares, hdoor]
  simp [clears, hl, Door.enter, hheaders]

theorem clears_reset {f : Frame} (hl : c.loop = .found h f) (hid : f.id = id)
    (hreset : f.env.isReset = true) :
    { c.deregister f.id with loop := .resetting h }.clears id todo = c.clears id todo := by
  have hfree : (c.deregister f.id).streams id = none := by
    subst hid
    exact Function.update_self ..
  show Door.passes todo (c.spares id) ((c.deregister f.id).doorOf id) = _
  rw [doorOf_absent hfree]
  simp [clears, hl, hreset]

theorem clears_deliver {f : Frame} (htable : c.Table) (hl : c.loop = .found h f) (hid : f.id = id)
    (hplain : f.env.isReset = false) (ho : c.objs[h]? = some o)
    (hroom : (o.stream.deliverSend f.env).isSome) :
    { c.modify h (StreamObject.push · f.env) with loop := .reading }.clears id todo =
      c.clears id todo := by
  have hlt : o.stream.inbox.length < inboxCap := by
    unfold MuxStream.deliverSend at hroom
    split at hroom
    · assumption
    · cases hroom
  have hafter : (c.modify h (StreamObject.push · f.env)).objs[h]? = some (o.push f.env) := by
    simp [MuxConn.modify, ho]
  have hids : ∀ j, (c.modify h (StreamObject.push · f.env)).idOf j = c.idOf j :=
    idOf_modify fun _ => rfl
  have hspares : (c.modify h (StreamObject.push · f.env)).spares id = c.spares id :=
    spares_of_idOf rfl hids
  have htakes : (c.doorAt h).takes = true := by
    rw [doorAt_eq ho]
    split
    · rfl
    · simp [Door.takes, hlt]
  have hdoor : (c.modify h (StreamObject.push · f.env)).doorAt h = (c.doorAt h).taken := by
    rw [doorAt_eq ho, doorAt_eq hafter]
    show (if o.stream.terminated ∨ .exit h ∈ c.tasks then Door.passing
      else .inbox (o.stream.inbox ++ [f.env]).length) = _
    split
    · rfl
    · simp [Door.taken]
  have hof : (c.modify h (StreamObject.push · f.env)).doorOf id = (c.doorOf id).taken := by
    cases hreg : c.streams id with
    | none => rw [doorOf_absent (c := c.modify h _) hreg, doorOf_absent hreg, Door.taken]
    | some j =>
        obtain rfl : j = h := (htable.found h f hl).2 j (hid ▸ hreg)
        rw [doorOf_eq (c := c.modify j _) hreg, doorOf_eq hreg, hdoor]
  show Door.passes todo ((c.modify h _).spares id) ((c.modify h _).doorOf id) = _
  rw [hspares, hof]
  simp [clears, hl, hplain, htakes]

theorem clears_drop {f : Frame} (htable : c.Table) (hl : c.loop = .found h f) (hid : f.id = id)
    (hplain : f.env.isReset = false) (ho : c.objs[h]? = some o)
    (hterm : o.stream.terminated = true) :
    { c with loop := .reading }.clears id todo = c.clears id todo := by
  have hdoor : c.doorAt h = .passing := by
    rw [doorAt_eq ho, if_pos (.inl hterm)]
  have hof : (c.doorOf id).taken = c.doorOf id := by
    cases hreg : c.streams id with
    | none => rw [doorOf_absent hreg, Door.taken]
    | some j =>
        obtain rfl : j = h := (htable.found h f hl).2 j (hid ▸ hreg)
        rw [doorOf_eq hreg, hdoor, Door.taken]
  show Door.passes todo (c.spares id) (c.doorOf id) = _
  simp [clears, hl, hplain, hdoor, hof, Door.takes]

theorem spares_terminate (err : GoError) : (c.terminate h err).spares id = c.spares id := by
  have hids : ∀ j, (c.terminate h err).idOf j = c.idOf j :=
    idOf_modify fun o => o.stream.terminate_id err
  exact spares_of_idOf rfl hids

theorem clears_resetTerminate (htable : c.Table) (hl : c.loop = .resetting h) (err : GoError) :
    { c.terminate h err with loop := .reading }.clears id todo = c.clears id todo := by
  have hof : (c.terminate h err).doorOf id = c.doorOf id := by
    refine doorOf_congr rfl fun j hreg => ?_
    have hne : h ≠ j := fun heq => htable.resetting h hl id (heq ▸ hreg)
    obtain ⟨o, ho, -⟩ := idOf_eq_some.mp (htable.streams id j hreg)
    have hafter : (c.terminate h err).objs[j]? = some o := by
      simp [MuxConn.terminate, MuxConn.modify, hne, ho]
    exact doorAt_congr ho hafter rfl rfl Iff.rfl
  show Door.passes todo ((c.terminate h err).spares id) ((c.terminate h err).doorOf id) = _
  rw [spares_terminate, hof]
  simp [clears, hl]

-- ============================================================================
-- The steps of the handlers
-- ============================================================================

/-- A task takes its next step, which ends no handler and begins no exit. -/
theorem spares_setTask {k : Nat} {t : Task} (hk : c.tasks[k]? = some t) {rest : List Task}
    (hsame : rest.countP (fun t => t.exiting.bind c.idOf = some id) =
      if t.exiting.bind c.idOf = some id then 1 else 0) :
    (c.setTask k rest).spares id = c.spares id := by
  have hcount := countP_setTask hk rest fun t => decide (t.exiting.bind c.idOf = some id)
  simp only [decide_eq_true_eq] at hcount
  show (c.setTask k rest).tasks.countP (fun t => decide (t.exiting.bind c.idOf = some id)) =
    c.tasks.countP fun t => decide (t.exiting.bind c.idOf = some id)
  omega

theorem mem_exit_setTask {k : Nat} {t : Task} (hk : c.tasks[k]? = some t) (hne : t ≠ .exit h)
    {rest : List Task} (hrest : Task.exit h ∉ rest) :
    .exit h ∈ (c.setTask k rest).tasks ↔ .exit h ∈ c.tasks := by
  constructor
  · intro hmem
    exact List.mem_of_mem_eraseIdx ((List.mem_append.mp hmem).resolve_right hrest)
  · intro hmem
    obtain ⟨i, hi⟩ := List.getElem?_of_mem hmem
    refine List.mem_append_left _ (List.mem_eraseIdx_iff_getElem?.mpr ⟨i, ?_, hi⟩)
    rintro rfl
    exact hne (Option.some.inj (hk.symm.trans hi))

/-- A task that is no exit is done. -/
theorem clears_taskDone (htable : c.Table) (hhand : ∀ f, c.loop.frame = some f → f.id = id)
    {k : Nat} {t : Task} (hk : c.tasks[k]? = some t) (hother : t.exiting = none) :
    (c.setTask k []).clears id todo = c.clears id todo := by
  have hne : ∀ {h}, t ≠ .exit h := by
    rintro h rfl
    cases hother
  refine clears_congr rfl (spares_setTask hk ?_) rfl (fun h _ => ?_) htable hhand
  · simp [hother]
  · exact doorAt_same rfl (mem_exit_setTask hk hne List.not_mem_nil)

/-- The deferred `stream.terminate` of a handler. -/
theorem clears_exit (htable : c.Table) (hexit : c.Exiting)
    (hhand : ∀ f, c.loop.frame = some f → f.id = id) {k : Nat} (hk : c.tasks[k]? = some (.exit h)) :
    ((c.setTask k [.exitDeregister h]).terminate h errStreamClosed).clears id todo =
      c.clears id todo := by
  have hmem := List.mem_of_getElem? hk
  obtain ⟨o, ho⟩ := exists_of_exiting hexit hmem rfl
  refine clears_congr rfl ?_ rfl (fun j _ => ?_) htable hhand
  · rw [spares_terminate]
    refine spares_setTask hk ?_
    by_cases hid : c.idOf h = some id <;> simp [Task.exiting, hid]
  · by_cases hjh : h = j
    · subst hjh
      have hafter : ((c.setTask k [.exitDeregister h]).terminate h errStreamClosed).objs[h]? =
          some { o with stream := o.stream.terminate errStreamClosed } := by
        simp [MuxConn.terminate, MuxConn.modify, setTask, ho]
      have hends : (o.stream.terminate errStreamClosed).terminated = true :=
        o.stream.terminated_terminate _
      rw [doorAt_eq hafter, if_pos (.inl hends), doorAt_eq ho, if_pos (.inr hmem)]
    · have hdoor : (c.setTask k [.exitDeregister h]).doorAt j = c.doorAt j := by
        refine doorAt_same rfl (mem_exit_setTask hk ?_ (by simp))
        simpa using hjh
      rw [← hdoor]
      exact doorAt_modify (f := fun o => { o with stream := o.stream.terminate errStreamClosed })
        (fun o _ heq => absurd heq hjh) rfl Iff.rfl

/-- The deferred `mc.deregister` of a handler. -/
theorem spares_deregister {k : Nat} (hk : c.tasks[k]? = some (.exitDeregister h))
    (ho : c.objs[h]? = some o) :
    c.spares o.stream.id = ((c.setTask k []).deregister o.stream.id).spares o.stream.id + 1 := by
  have hcount := countP_setTask hk []
    fun t => decide (t.exiting.bind c.idOf = some o.stream.id)
  rw [if_pos (by simp [Task.exiting, idOf_of_get ho]), List.countP_nil] at hcount
  exact hcount.symm

theorem clears_of_deregister (htable : c.Table) (hhand : ∀ f, c.loop.frame = some f → f.id = id)
    {k : Nat} (hk : c.tasks[k]? = some (.exitDeregister h)) (ho : c.objs[h]? = some o)
    (hclears : ((c.setTask k []).deregister o.stream.id).clears id todo = true) :
    c.clears id todo = true := by
  have hne : ∀ j, Task.exitDeregister h ≠ .exit j := fun _ heq => by cases heq
  have hdoors : ∀ j, (c.setTask k []).doorAt j = c.doorAt j := fun j =>
    doorAt_same rfl (mem_exit_setTask hk (hne j) List.not_mem_nil)
  by_cases hid : o.stream.id = id
  · subst hid
    have hfree : ((c.setTask k []).deregister o.stream.id).streams o.stream.id = none :=
      Function.update_self ..
    have hfewer : ((c.setTask k []).deregister o.stream.id).spares o.stream.id <
        c.spares o.stream.id := by
      rw [spares_deregister hk ho]
      exact Nat.lt_succ_self _
    have hspare : ∀ {es : List Envelope} {d : Door}, d ≠ .passing →
        Door.passes es (((c.setTask k []).deregister o.stream.id).spares o.stream.id) d = true →
          ∀ d', Door.passes es (c.spares o.stream.id) d' = true := fun hd hpass d' =>
      Door.passes_mono (.spare hd hfewer) hpass
    have hopen : Door.absent ≠ .passing := fun h => by cases h
    unfold clears at hclears ⊢
    rw [show ((c.setTask k []).deregister o.stream.id).loop = c.loop from rfl] at hclears
    rw [doorOf_absent hfree] at hclears
    cases hl : c.loop with
    | reading | resetting =>
        rw [hl] at hclears
        exact hspare hopen hclears _
    | got f =>
        rw [hl] at hclears
        exact hspare hopen hclears _
    | missing f =>
        rw [hl] at hclears
        exact hspare (Door.enter_ne_passing _) hclears _
    | found j f =>
        rw [hl] at hclears
        simp only at hclears ⊢
        cases hreset : f.env.isReset with
        | true =>
            rw [hreset, if_pos rfl] at hclears
            rw [if_pos rfl]
            exact hspare hopen hclears _
        | false =>
            rw [hreset, if_neg Bool.false_ne_true, Bool.and_eq_true] at hclears
            rw [if_neg Bool.false_ne_true, Bool.and_eq_true]
            refine ⟨?_, hspare hopen hclears.2 _⟩
            rw [← hdoors j]
            exact hclears.1
    | stopped =>
        rw [hl] at hclears
        cases hclears
  · have hsame : ((c.setTask k []).deregister o.stream.id).clears id todo = c.clears id todo := by
      refine clears_congr rfl ?_ ?_ (fun j _ => hdoors j) htable hhand
      · refine spares_setTask hk ?_
        simp [Task.exiting, idOf_of_get ho, hid]
      · exact Function.update_of_ne (Ne.symm hid) ..
    exact hsame ▸ hclears

-- ============================================================================
-- The steps of the handlers
-- ============================================================================

theorem clears_writeChecked (htable : c.Table) (hhand : ∀ f, c.loop.frame = some f → f.id = id)
    (env : Envelope) :
    { c with tasks := c.tasks ++ [Task.write h env] }.clears id todo = c.clears id todo := by
  refine clears_congr rfl ?_ rfl (fun j _ => ?_) htable hhand
  · show (c.tasks ++ [Task.write h env]).countP
      (fun t => decide (t.exiting.bind c.idOf = some id)) =
      c.tasks.countP fun t => decide (t.exiting.bind c.idOf = some id)
    simp [Task.exiting]
  · refine doorAt_same rfl ?_
    show Task.exit j ∈ c.tasks ++ [Task.write h env] ↔ _
    simp

/-- A handler of another stream reads. -/
theorem clears_read (htable : c.Table) (hhand : ∀ f, c.loop.frame = some f → f.id = id)
    (hother : c.idOf h ≠ some id) {stream : MuxStream} {env : Envelope}
    (ho : c.objs[h]? = some o) (hreceive : o.stream.receive = some (env, stream)) :
    (c.modify h fun o => { o with stream, returned := o.returned ++ [env] }).clears id todo =
      c.clears id todo := by
  refine clears_congr rfl ?_ rfl (fun j hj => ?_) htable hhand
  · exact spares_of_idOf rfl (idOf_read ho hreceive)
  · exact doorAt_modify (fun _ _ heq => absurd (heq ▸ hj) hother) rfl Iff.rfl

theorem clears_cancel (htable : c.Table) (hhand : ∀ f, c.loop.frame = some f → f.id = id)
    (err : GoError) :
    (c.modify h fun o => { o with stream := { o.stream with
      ctxErr := o.stream.ctxErr.or (some err) } }).clears id todo = c.clears id todo := by
  refine clears_congr rfl ?_ rfl (fun j _ => ?_) htable hhand
  · exact spares_of_idOf rfl (idOf_modify fun _ => rfl)
  · exact doorAt_modify (f := fun o =>
      { o with stream := { o.stream with ctxErr := o.stream.ctxErr.or (some err) } })
      (fun _ _ _ => ⟨rfl, rfl⟩) rfl Iff.rfl

/-- A handler of another stream returns. -/
theorem clears_handlerReturn (htable : c.Table) (hhand : ∀ f, c.loop.frame = some f → f.id = id)
    (hother : c.idOf h ≠ some id) :
    { c.modify h fun o => { o with handlerDone := true } with
      tasks := c.tasks ++ [Task.exit h] }.clears id todo = c.clears id todo := by
  let returned := c.modify h fun o => { o with handlerDone := true }
  have hids : ∀ j, returned.idOf j = c.idOf j := idOf_modify fun _ => rfl
  refine clears_congr rfl ?_ rfl (fun j hj => ?_) htable hhand
  · have hsame : returned.spares id = c.spares id := spares_of_idOf rfl hids
    rw [← hsame]
    show (c.tasks ++ [Task.exit h]).countP
      (fun t => decide (t.exiting.bind returned.idOf = some id)) = _
    rw [List.countP_append]
    simp [Task.exiting, hids h, hother, spares]
    rfl
  · refine doorAt_modify (fun _ _ heq => absurd (heq ▸ hj) hother) rfl ?_
    have hne : j ≠ h := fun heq => hother (heq ▸ hj)
    show Task.exit j ∈ c.tasks ++ [Task.exit h] ↔ _
    simp [hne]

theorem clears_taskWrite (htable : c.Table) (hhand : ∀ f, c.loop.frame = some f → f.id = id)
    {k : Nat} {env : Envelope} (hk : c.tasks[k]? = some (.write h env)) :
    (((c.setTask k []).writeFrame ⟨o.stream.id, env⟩).modify h (StreamObject.write · env)).clears id
      todo = c.clears id todo := by
  have hdone : (c.setTask k []).clears id todo = c.clears id todo :=
    clears_taskDone htable hhand hk rfl
  have htable' : (c.setTask k []).Table :=
    htable.of_streams rfl rfl rfl (fun _ => rfl) fun _ _ hreg => hreg
  rw [← hdone]
  refine clears_congr rfl ?_ rfl (fun j _ => ?_) htable' hhand
  · exact spares_of_idOf rfl (idOf_modify (f := (StreamObject.write · env)) fun _ => rfl)
  · exact doorAt_modify (f := (StreamObject.write · env)) (fun _ _ _ => ⟨rfl, rfl⟩) rfl Iff.rfl

/-- Of the goroutines that terminate a stream only those of a handler that has
    returned can clear the way. -/
theorem clears_of_terminate (htable : c.Table) (hexit : c.Exiting)
    (hhand : ∀ f, c.loop.frame = some f → f.id = id) {k : Nat} {t : Task} {rest : List Task}
    {err : GoError} (hk : c.tasks[k]? = some t) (hrest : t.terminates = some (h, rest, err))
    (hclears : ((c.setTask k rest).terminate h err).clears id todo = true) :
    c.clears id todo = true := by
  cases t with
  | exit j =>
      obtain ⟨rfl, rfl, rfl⟩ : j = h ∧ [.exitDeregister j] = rest ∧ errStreamClosed = err := by
        simpa [Task.terminates] using hrest
      exact (clears_exit htable hexit hhand hk).symm.trans hclears
  | terminate j e =>
      have hstopped : c.loop = .stopped := hexit.tasks _ (List.mem_of_getElem? hk)
      cases hclears.symm.trans (clears_stopped hstopped)
  | closeTerminate j finished => exact (hexit.tasks _ (List.mem_of_getElem? hk)).elim
  | write | close | closeReset | exitDeregister => cases hrest

end MuxConn

-- ============================================================================
-- Runs in which the handler does nothing
-- ============================================================================

/-- The event is neither a `ReadEnvelope` nor the return of a handler of a
    stream with the ID `id`. -/
def Patient (id : UInt32) (c : MuxConn) : ConnEvent → Prop
  | .read h | .handlerReturn h => c.idOf h ≠ some id
  | .recv _ | .recvFails _ | .advance | .drop | .newStream _ | .write .. | .cancel .. | .close _
  | .shutdown | .task _ | .writeFails _ => True

instance (id : UInt32) (c : MuxConn) : DecidablePred (Patient id c)
  | .read h | .handlerReturn h => inferInstanceAs (Decidable (c.idOf h ≠ some id))
  | .recv _ | .recvFails _ | .advance | .drop | .newStream _ | .write .. | .cancel .. | .close _
  | .shutdown | .task _ | .writeFails _ => isTrue trivial

/-- The server with the frames it has received and not read, all of stream
    `id`. -/
abbrev Backlog := MuxConn × List Envelope

def Backlog.step (id : UInt32) (p : Backlog) (ev : ConnEvent) : Option Backlog :=
  if Patient id p.1 ev then
    match ev with
    | .recv f =>
        match p.2 with
        | e :: es => if f = ⟨id, e⟩ then (p.1.step ev).map (·, es) else none
        | [] => none
    | ev => (p.1.step ev).map (·, p.2)
  else none

def backlog (id : UInt32) : Machine Backlog ConnEvent where
  init := (serveHTTP.init, [])
  step := Backlog.step id

namespace Backlog

open MuxConn

variable {id : UInt32} {p q : Backlog} {ev : ConnEvent}

theorem step_cases (hstep : p.step id ev = some q) : Patient id p.1 ev ∧ p.1.step ev = some q.1 ∧
    ((∃ e, ev = .recv ⟨id, e⟩ ∧ p.2 = e :: q.2) ∨ (∀ f, ev ≠ .recv f) ∧ q.2 = p.2) := by
  unfold Backlog.step at hstep
  obtain ⟨hpatient, hstep⟩ := Option.ite_none_right_eq_some.mp hstep
  refine ⟨hpatient, ?_⟩
  cases ev with
  | recv f =>
      simp only at hstep
      split at hstep
      · rename_i e es htodo
        obtain ⟨rfl, hstep⟩ := Option.ite_none_right_eq_some.mp hstep
        obtain ⟨c, hc, rfl⟩ := Option.map_eq_some_iff.mp hstep
        exact ⟨hc, .inl ⟨e, rfl, htodo⟩⟩
      · cases hstep
  | recvFails | advance | drop | newStream | write | read | cancel | close | shutdown
  | handlerReturn | task | writeFails =>
      obtain ⟨c, hc, rfl⟩ := Option.map_eq_some_iff.mp hstep
      exact ⟨hc, .inr ⟨nofun, rfl⟩⟩

theorem step_recv {e : Envelope} {c : MuxConn} {es : List Envelope}
    (hstep : p.1.step (.recv ⟨id, e⟩) = some c) (htodo : p.2 = e :: es) :
    p.step id (.recv ⟨id, e⟩) = some (c, es) := by
  simp [Backlog.step, Patient, htodo, hstep]

theorem step_other {c : MuxConn} (hpatient : Patient id p.1 ev) (hother : ∀ f, ev ≠ .recv f)
    (hstep : p.1.step ev = some c) : p.step id ev = some (c, p.2) := by
  unfold Backlog.step
  rw [if_pos hpatient]
  cases ev with
  | recv f => exact absurd rfl (hother f)
  | recvFails | advance | drop | newStream | write | read | cancel | close | shutdown
  | handlerReturn | task | writeFails => simp [hstep]

/-- The frames in hand and received are those of the stream. -/
structure Waits (id : UInt32) (p : Backlog) : Prop where
  table : p.1.Table
  exiting : p.1.Exiting
  hand : ∀ f, p.1.loop.frame = some f → f.id = id

/-- The frame in hand after a step was in hand before, or has been read. -/
theorem frame_back {c c' : MuxConn} (hstep : Stepped c ev c') {f : Frame}
    (hf : c'.loop.frame = some f) : c.loop.frame = some f ∨ ev = .recv f := by
  cases hstep with
  | recv g => exact .inr (by rw [Option.some.inj hf])
  | found h g hl => exact .inl (by rw [hl]; exact hf)
  | missing g hl => exact .inl (by rw [hl]; exact hf)
  | recvFails | start | skip | reset | deliver | resetTerminate | drop => cases hf
  | newStream =>
      rw [newStream_loop] at hf
      exact .inl hf
  | writeRefused | writeChecked | read | cancel | close | shutdown | handlerReturn | taskWrite
  | taskClose | taskTerminate | taskReset | taskClosed | taskDeregister | writeFails
  | resetFails => exact .inl hf

theorem Waits.step (hp : Waits id p) (hstep : p.step id ev = some q) : Waits id q := by
  obtain ⟨-, hc, htodo⟩ := step_cases hstep
  refine ⟨hp.table.step (stepped hc), hp.exiting.step hp.table (stepped hc), fun f hf => ?_⟩
  rcases frame_back (stepped hc) hf with hold | hnew
  · exact hp.hand f hold
  · rcases htodo with ⟨e, heq, -⟩ | ⟨hother, -⟩
    · rw [hnew] at heq
      obtain rfl : f = ⟨id, e⟩ := by simpa using heq
      rfl
    · exact absurd hnew (hother f)

/-- A frame handed over to the loop or lost to it: no step makes a way. -/
theorem clears_of_step (hp : Waits id p) (hstep : p.step id ev = some q)
    (hclears : q.1.clears id q.2 = true) : p.1.clears id p.2 = true := by
  obtain ⟨hpatient, hc, htodo⟩ := step_cases hstep
  obtain ⟨c', todo'⟩ := q
  obtain ⟨c, todo⟩ := p
  have htable : c.Table := hp.table
  have hexit : c.Exiting := hp.exiting
  have hhand : ∀ f, c.loop.frame = some f → f.id = id := hp.hand
  have hin : ∀ {l f}, c.loop = l → l.frame = some f → f.id = id := fun hl hf =>
    hhand _ (hl ▸ hf)
  show c.clears id todo = true
  change c'.clears id todo' = true at hclears
  rcases htodo with ⟨e, rfl, htodo⟩ | ⟨hother, heq⟩
  · obtain rfl : todo = e :: todo' := htodo
    cases stepped hc with
    | recv f hl => exact (clears_recv hl).symm.trans hclears
  obtain rfl : todo' = todo := heq
  cases stepped hc with
  | recv f hl => exact absurd rfl (hother f)
  | recvFails err => cases hclears
  | found h f hl hreg =>
      obtain rfl := hin hl rfl
      by_cases htakes : f.env.isReset = true ∨ (c.doorAt h).takes = true
      · exact (clears_found hl hreg htakes).symm.trans hclears
      · obtain ⟨hplain, hfull⟩ := not_or.mp htakes
        rw [clears_found_full ⟨by simpa using hplain, by simpa using hfull⟩] at hclears
        cases hclears
  | missing f hl hfree =>
      obtain rfl := hin hl rfl
      exact (clears_missing hl hfree).symm.trans hclears
  | start f hl _ hheaders =>
      exact (clears_start htable hexit hl (hin hl rfl) hheaders).symm.trans hclears
  | skip f hl hplain =>
      have hnot : f.env.flag ≠ flagEnvelopeHeaders := fun h => hplain ⟨htable.role, h⟩
      exact (clears_skip htable hl (hin hl rfl) hnot).symm.trans hclears
  | reset h f hl hreset => exact (clears_reset hl (hin hl rfl) hreset).symm.trans hclears
  | deliver h f o hl hplain ho hroom =>
      exact (clears_deliver htable hl (hin hl rfl) hplain ho hroom).symm.trans hclears
  | resetTerminate h hl => exact (clears_resetTerminate htable hl _).symm.trans hclears
  | drop h f o hl hplain ho hdrop =>
      have hterminated := o.stream.terminated_of_drop hdrop
      exact (clears_drop htable hl (hin hl rfl) hplain ho hterminated).symm.trans hclears
  | newStream _ hrole | close _ _ hrole | shutdown hrole =>
      rw [htable.role] at hrole
      cases hrole
  | writeRefused => exact hclears
  | writeChecked h env => exact (clears_writeChecked htable hhand env).symm.trans hclears
  | read h o env stream ho _ hreceive =>
      exact (clears_read htable hhand hpatient ho hreceive).symm.trans hclears
  | cancel h err => exact (clears_cancel htable hhand err).symm.trans hclears
  | handlerReturn h o => exact (clears_handlerReturn htable hhand hpatient).symm.trans hclears
  | taskWrite k h env o hk ho => exact (clears_taskWrite htable hhand hk).symm.trans hclears
  | taskTerminate k h t rest err hk hrest =>
      exact clears_of_terminate htable hexit hhand hk hrest hclears
  | taskDeregister k h o hk ho => exact clears_of_deregister htable hhand hk ho hclears
  | taskClose k h o hk => exact (hexit.tasks _ (List.mem_of_getElem? hk)).elim
  | taskReset k h finished o hk => exact (hexit.tasks _ (List.mem_of_getElem? hk)).elim
  | taskClosed k h finished o hk => exact (hexit.tasks _ (List.mem_of_getElem? hk)).elim
  | resetFails k h finished hk => exact (hexit.tasks _ (List.mem_of_getElem? hk)).elim
  | writeFails k h env hk => exact (clears_taskDone htable hhand hk rfl).symm.trans hclears

theorem clears_of_exec {evs : List ConnEvent} (hp : Waits id p)
    (hrun : (backlog id).exec p evs = some q) (hclears : q.1.clears id q.2 = true) :
    p.1.clears id p.2 = true := by
  induction evs generalizing p with
  | nil =>
      cases hrun
      exact hclears
  | cons ev evs ih =>
      obtain ⟨p', hstep, hrest⟩ := (backlog id).exec_cons.mp hrun
      have hstep : p.step id ev = some p' := hstep
      exact clears_of_step hp hstep (ih (hp.step hstep) hrest)

-- ============================================================================
-- Getting through
-- ============================================================================

/-- What the read loop has still to do. -/
def load (p : Backlog) : Nat :=
  4 * p.2.length + match p.1.loop with
    | .got _ => 3
    | .found .. | .missing _ => 2
    | .resetting _ => 1
    | .reading | .stopped => 0

/-- A run that leaves less to do, and a way. -/
def Advances (id : UInt32) (p : Backlog) : Prop :=
  ∃ evs q, (backlog id).exec p evs = some q ∧ q.1.clears id q.2 = true ∧ load q < load p

/-- One step that does. -/
theorem advances_of_step (hstep : p.step id ev = some q) (hclears : q.1.clears id q.2 = true)
    (hload : load q < load p) : Advances id p :=
  ⟨[ev], q, (backlog id).exec_cons.mpr ⟨q, hstep, rfl⟩, hclears, hload⟩

/-- A step first that leaves as much to do. -/
theorem Advances.after (hstep : p.step id ev = some q) (hload : load q = load p)
    (hq : Advances id q) : Advances id p := by
  obtain ⟨evs, t, hrun, hclears, hless⟩ := hq
  exact ⟨ev :: evs, t, (backlog id).exec_cons.mpr ⟨q, hstep, hrun⟩, hclears, hload ▸ hless⟩

variable {c : MuxConn} {todo : List Envelope} {f : Frame} {h k : Nat} {o : StreamObject}

theorem step_advance {c' : MuxConn} (hstep : c.step .advance = some c') :
    step id (c, todo) .advance = some (c', todo) :=
  step_other (p := (c, todo)) trivial (fun _ h => by cases h) hstep

theorem step_drop {c' : MuxConn} (hstep : c.step .drop = some c') :
    step id (c, todo) .drop = some (c', todo) :=
  step_other (p := (c, todo)) trivial (fun _ h => by cases h) hstep

theorem step_task {c' : MuxConn} (hstep : c.step (.task k) = some c') :
    step id (c, todo) (.task k) = some (c', todo) :=
  step_other (p := (c, todo)) trivial (fun _ h => by cases h) hstep

theorem step_exit (hk : c.tasks[k]? = some (.exit h)) : step id (c, todo) (.task k) =
    some ((c.setTask k [.exitDeregister h]).terminate h errStreamClosed, todo) :=
  step_task (by simp [MuxConn.step, runTask, hk])

theorem step_deregister (hk : c.tasks[k]? = some (.exitDeregister h)) (ho : c.objs[h]? = some o) :
    step id (c, todo) (.task k) = some ((c.setTask k []).deregister o.stream.id, todo) :=
  step_task (by simp [MuxConn.step, runTask, hk, ho])

/-- An older handler deregisters the stream whose inbox is full. -/
theorem advances_of_deregister (hl : c.loop = .got f) (hk : c.tasks[k]? = some (.exitDeregister h))
    (ho : c.objs[h]? = some o) (hid : o.stream.id = id) (hfid : f.id = id) {m : Nat}
    (hm : c.spares id = m + 1) (hpass : Door.passes todo m (Door.enter f.env) = true) :
    Advances id (c, todo) := by
  subst hid
  have hspares := spares_deregister hk ho
  have hfree : ((c.setTask k []).deregister o.stream.id).streams f.id = none := by
    rw [hfid]
    exact Function.update_self ..
  refine Advances.after (step_deregister hk ho) (by simp [load, setTask, MuxConn.deregister]) ?_
  have hstep : ((c.setTask k []).deregister o.stream.id).step .advance =
      some { (c.setTask k []).deregister o.stream.id with loop := .missing f } := by
    simp only [MuxConn.step, advance]
    rw [show ((c.setTask k []).deregister o.stream.id).loop = .got f from hl]
    simp only [hfree]
  refine advances_of_step (step_advance hstep) ?_ ?_
  · show Door.passes todo (((c.setTask k []).deregister o.stream.id).spares o.stream.id)
      (Door.enter f.env) = true
    have hleft : ((c.setTask k []).deregister o.stream.id).spares o.stream.id = m := by omega
    rw [hleft]
    exact hpass
  · simp [load, setTask, MuxConn.deregister, hl]

/-- A frame for a full inbox, and an older handler that is exiting. -/
theorem advances_of_spare (hl : c.loop = .got f) (hfid : f.id = id)
    {m : Nat} (hm : c.spares id = m + 1) (hpass : Door.passes todo m (Door.enter f.env) = true) :
    Advances id (c, todo) := by
  have hpos : 0 < c.spares id := by omega
  obtain ⟨t, ht, hmine⟩ := List.countP_pos_iff.mp hpos
  simp only [decide_eq_true_eq, Option.bind_eq_some_iff] at hmine
  obtain ⟨j, hexiting, hjid⟩ := hmine
  obtain ⟨o, ho, hoid⟩ := idOf_eq_some.mp hjid
  obtain ⟨k, hk⟩ := List.getElem?_of_mem ht
  cases t with
  | exitDeregister i =>
      obtain rfl : i = j := by simpa [Task.exiting] using hexiting
      exact advances_of_deregister hl hk ho hoid hfid hm hpass
  | exit i =>
      obtain rfl : i = j := by simpa [Task.exiting] using hexiting
      -- first its deferred `terminate`
      let c₁ := (c.setTask k [.exitDeregister i]).terminate i errStreamClosed
      have hmem : Task.exitDeregister i ∈ c₁.tasks :=
        List.mem_append_right _ (List.mem_singleton_self _)
      obtain ⟨k₁, hk₁⟩ := List.getElem?_of_mem hmem
      have ho₁ : c₁.objs[i]? = some { o with stream := o.stream.terminate errStreamClosed } := by
        simp [c₁, MuxConn.terminate, MuxConn.modify, setTask, ho]
      have hm₁ : c₁.spares id = m + 1 := by
        rw [← hm]
        refine (spares_terminate _).trans (spares_setTask hk ?_)
        simp [Task.exiting, hjid]
      refine Advances.after (step_exit hk)
        (by simp [load, MuxConn.terminate, MuxConn.modify, setTask]) ?_
      exact advances_of_deregister (c := c₁) hl hk₁ ho₁ ((o.stream.terminate_id _).trans hoid) hfid
        hm₁ hpass
  | write => cases hexiting
  | close => cases hexiting
  | closeTerminate => cases hexiting
  | closeReset => cases hexiting
  | terminate => cases hexiting

theorem advances_of_got (hp : Waits id (c, todo)) (hl : c.loop = .got f)
    (hclears : c.clears id todo = true) : Advances id (c, todo) := by
  have hfid : f.id = id := hp.hand f (by rw [show (c, todo).1.loop = _ from hl]; rfl)
  cases hreg : c.streams f.id with
  | none =>
      refine advances_of_step (q := ({ c with loop := .missing f }, todo))
        (step_advance (by simp [MuxConn.step, advance, hl, hreg])) ?_ (by simp [load, hl])
      exact (clears_missing hl (hfid ▸ hreg)).trans hclears
  | some h =>
      by_cases htakes : f.env.isReset = true ∨ (c.doorAt h).takes = true
      · refine advances_of_step (q := ({ c with loop := .found h f }, todo))
          (step_advance (by simp [MuxConn.step, advance, hl, hreg])) ?_
          (by simp [load, hl])
        exact (clears_found hl (hfid ▸ hreg) htakes).trans hclears
      · obtain ⟨hplain, hfull⟩ := not_or.mp htakes
        have hplain : f.env.isReset = false := by simpa using hplain
        have hpass : Door.passes (f.env :: todo) (c.spares id) (c.doorAt h) = true := by
          rw [← hclears]
          simp [clears, hl, doorOf_eq (hfid ▸ hreg)]
        have htable : c.Table := hp.table
        obtain ⟨o, ho, -⟩ := idOf_eq_some.mp (htable.streams _ h hreg)
        cases hdoor : c.doorAt h with
        | absent => exact absurd hdoor (doorAt_ne_absent ho)
        | passing => simp [hdoor, Door.takes] at hfull
        | inbox n =>
            rw [hdoor] at hpass hfull
            have hroom : ¬ n < inboxCap := by simpa [Door.takes] using hfull
            obtain ⟨m, hm, hrest⟩ := (Door.passes_full hplain hroom).mp hpass
            exact advances_of_spare hl hfid hm hrest

theorem advances_of_missing (hp : Waits id (c, todo)) (hl : c.loop = .missing f)
    (hclears : c.clears id todo = true) : Advances id (c, todo) := by
  have hfid : f.id = id := hp.hand f (by rw [show (c, todo).1.loop = _ from hl]; rfl)
  have htable : c.Table := hp.table
  by_cases hheaders : f.env.flag = flagEnvelopeHeaders
  · refine advances_of_step (q := ({ c.startStream f with loop := .reading }, todo))
      (step_advance (by simp [MuxConn.step, advance, hl, htable.role, hheaders])) ?_
      (by simp [load, hl])
    exact (clears_start htable hp.exiting hl hfid hheaders).trans hclears
  · refine advances_of_step (q := ({ c with loop := .reading }, todo))
      (step_advance (by simp [MuxConn.step, advance, hl, hheaders])) ?_ (by simp [load, hl])
    exact (clears_skip htable hl hfid hheaders).trans hclears

/-- `deliver` to a stream that has terminated. -/
theorem advances_of_drop (htable : c.Table) (hl : c.loop = .found h f) (hfid : f.id = id)
    (hplain : f.env.isReset = false) (ho : c.objs[h]? = some o) (hterm : o.stream.terminated = true)
    (hclears : c.clears id todo = true) : Advances id (c, todo) := by
  have hflag : f.env.flag ≠ flagEnvelopeReset := by simpa [Envelope.isReset] using hplain
  refine advances_of_step (q := ({ c with loop := .reading }, todo))
    (step_drop ?_) ?_ (by simp [load, hl])
  · simp [MuxConn.step, drop, hl, ho, hflag, MuxStream.deliverDrop, hterm]
  · exact (clears_drop htable hl hfid hplain ho hterm).trans hclears

theorem advances_of_found (hp : Waits id (c, todo)) (hl : c.loop = .found h f)
    (hclears : c.clears id todo = true) : Advances id (c, todo) := by
  have hfid : f.id = id := hp.hand f (by rw [show (c, todo).1.loop = _ from hl]; rfl)
  have htable : c.Table := hp.table
  have hhand : ∀ f, c.loop.frame = some f → f.id = id := hp.hand
  obtain ⟨o, ho, -⟩ := idOf_eq_some.mp (htable.found h f hl).1
  cases hreset : f.env.isReset with
  | true =>
      have hflag : f.env.flag = flagEnvelopeReset := by simpa [Envelope.isReset] using hreset
      refine advances_of_step (q := ({ c.deregister f.id with loop := .resetting h }, todo))
        (step_advance (by simp [MuxConn.step, advance, hl, hflag])) ?_ (by simp [load, hl])
      exact (clears_reset hl hfid hreset).trans hclears
  | false =>
      have hflag : f.env.flag ≠ flagEnvelopeReset := by simpa [Envelope.isReset] using hreset
      by_cases hterm : o.stream.terminated = true
      · exact advances_of_drop htable hl hfid hreset ho hterm hclears
      · by_cases hexits : Task.exit h ∈ c.tasks
        · -- the handler's deferred `terminate` unblocks the loop
          obtain ⟨k, hk⟩ := List.getElem?_of_mem hexits
          have hafter : (c.setTask k [.exitDeregister h]).Table :=
            htable.of_streams rfl rfl rfl (fun _ => rfl) fun _ _ hreg => hreg
          refine Advances.after (step_exit hk)
            (by simp [load, MuxConn.terminate, MuxConn.modify, setTask]) ?_
          refine advances_of_drop (hafter.terminate h _) hl hfid hreset
            (o := { o with stream := o.stream.terminate errStreamClosed }) ?_
            (o.stream.terminated_terminate _)
              ((clears_exit htable hp.exiting hhand hk).trans hclears)
          simp [MuxConn.terminate, MuxConn.modify, setTask, ho]
        · have htakes : (c.doorAt h).takes = true := by
            rw [clears, hl] at hclears
            simp only [hreset, Bool.false_eq_true, if_false, Bool.and_eq_true] at hclears
            exact hclears.1
          rw [doorAt_eq ho, if_neg (not_or.mpr ⟨hterm, hexits⟩)] at htakes
          have hroom : o.stream.inbox.length < inboxCap := by simpa [Door.takes] using htakes
          have hsend : (o.stream.deliverSend f.env).isSome = true := by
            simp [MuxStream.deliverSend, hroom]
          refine advances_of_step
            (q := ({ c.modify h (StreamObject.push · f.env) with loop := .reading }, todo))
            (step_advance ?_) ?_ (by simp [load, hl])
          · simp [MuxConn.step, advance, hl, hflag, ho, MuxStream.deliverSend, hroom]
          · exact (clears_deliver htable hl hfid hreset ho hsend).trans hclears

/-- There is a step to take as long as there is a way and something to do. -/
theorem advances (hp : Waits id (c, todo)) (hclears : c.clears id todo = true)
    (hbusy : todo ≠ [] ∨ c.loop ≠ .reading) : Advances id (c, todo) := by
  cases hl : c.loop with
  | reading =>
      obtain ⟨e, es, rfl⟩ := List.exists_cons_of_ne_nil (hbusy.resolve_right (by simp [hl]))
      refine advances_of_step
        (step_recv (e := e) (p := (c, e :: es)) (by simp [MuxConn.step, hl]; rfl)
        rfl) ?_ ?_
      · exact (clears_recv (f := ⟨id, e⟩) hl).trans hclears
      · simp [load, hl]
        omega
  | got f => exact advances_of_got hp hl hclears
  | missing f => exact advances_of_missing hp hl hclears
  | found h f => exact advances_of_found hp hl hclears
  | resetting h =>
      refine advances_of_step
        (q := ({ c.terminate h (resetErr c.role) with loop := .reading }, todo))
        (step_advance (by simp [MuxConn.step, advance, hl])) ?_ (by simp [load, hl])
      exact (clears_resetTerminate hp.table hl _).trans hclears
  | stopped =>
      rw [clears_stopped hl] at hclears
      cases hclears

theorem reaches_of_clears (hp : Waits id p) (hclears : p.1.clears id p.2 = true) :
    ∃ evs c', (backlog id).exec p evs = some (c', []) ∧ c'.loop = .reading := by
  induction hload : load p using Nat.strongRecOn generalizing p with
  | _ n ih =>
      obtain ⟨c, todo⟩ := p
      by_cases hdone : todo = [] ∧ c.loop = .reading
      · obtain ⟨rfl, hl⟩ := hdone
        exact ⟨[], c, rfl, hl⟩
      · have hbusy : todo ≠ [] ∨ c.loop ≠ .reading := not_and_or.mp hdone
        obtain ⟨evs, q, hrun, hclears', hless⟩ := advances hp hclears hbusy
        have hq : Waits id q := (backlog id).exec_invariant
          (fun p ev q hp hstep => hp.step hstep) hp hrun
        obtain ⟨evs', c', hrun', hl⟩ := ih (load q) (hload ▸ hless) hq hclears' rfl
        exact ⟨evs ++ evs', c', (backlog id).exec_append.mpr ⟨q, hrun, hrun'⟩, hl⟩

end Backlog

-- ============================================================================
-- Main results
-- ============================================================================

/-- A reset of stream `id` has been received and not been handled, and what is
    ahead of it belongs to the stream. -/
structure ResetWaits (id : UInt32) (c : MuxConn) (todo : List Envelope) : Prop where
  hand : ∀ f, c.loop.frame = some f → f.id = id
  reset : ∃ ahead e, c.loop.frame.toList.map (·.env) ++ todo = ahead ++ [e] ∧ e.isReset = true

theorem waits_of_run {evs : List ConnEvent} {c : MuxConn} (hrun : serveHTTP.run evs = some c)
    {id : UInt32} (hhand : ∀ f, c.loop.frame = some f → f.id = id) (todo : List Envelope) :
    Backlog.Waits id (c, todo) := by
  have hinv : c.Table ∧ c.Exiting := serveHTTP.exec_invariant
    (I := fun c => c.Table ∧ c.Exiting)
    (fun c ev c' hc hstep =>
      ⟨hc.1.step (MuxConn.stepped hstep), hc.2.step hc.1 (MuxConn.stepped hstep)⟩)
    ⟨MuxConn.table_init, MuxConn.exiting_init⟩ hrun
  exact ⟨hinv.1, hinv.2, hhand⟩

/-- The read loop can get to a waiting reset and handle it while the handler
    of the stream does nothing, in every state that it can be in, exactly if
    the frames ahead fit what room there is. -/
theorem reset_reached_iff (evs : List ConnEvent) (c : MuxConn) (hrun : serveHTTP.run evs = some c)
    (id : UInt32) (todo : List Envelope) (hwaits : ResetWaits id c todo) :
    (∃ more c', (backlog id).exec (c, todo) more = some (c', []) ∧ c'.loop = .reading) ↔
      c.clears id todo = true := by
  have hp := waits_of_run hrun hwaits.hand todo
  constructor
  · rintro ⟨more, c', hmore, hl⟩
    refine Backlog.clears_of_exec hp hmore ?_
    simp [MuxConn.clears, hl, Door.passes]
  · exact fun hclears => Backlog.reaches_of_clears hp hclears

/-- A handler has been started, has read the headers and reads no more. -/
def idleHandler : List ConnEvent :=
  [.recv ⟨1, ⟨flagEnvelopeHeaders, []⟩⟩, .advance, .advance, .read 0]

theorem idleHandler_reset_reached :
    ∃ c, serveHTTP.run idleHandler = some c ∧
      ((∃ more c', (backlog 1).exec (c, [⟨0, []⟩, ⟨flagEnvelopeReset, []⟩]) more = some (c', []) ∧
          c'.loop = .reading) ↔ c.clears 1 [⟨0, []⟩, ⟨flagEnvelopeReset, []⟩] = true) ∧
      c.clears 1 [⟨0, []⟩, ⟨flagEnvelopeReset, []⟩] = true := by
  refine ⟨_, rfl, ?_, by decide⟩
  refine reset_reached_iff idleHandler _ rfl 1 _ ⟨fun _ hf => ?_, [⟨0, []⟩], _, rfl, rfl⟩
  cases hf

/-- The client sends 65 messages behind the headers and then the reset. -/
theorem backlog_blocks_reset :
    ¬ ∀ evs c, serveHTTP.run evs = some c → ∀ id todo, ResetWaits id c todo →
      ∃ more c', (backlog id).exec (c, todo) more = some (c', []) ∧ c'.loop = .reading := by
  intro h
  let todo : List Envelope := List.replicate 65 ⟨0, []⟩ ++ [⟨flagEnvelopeReset, []⟩]
  have hhand : ∀ c, serveHTTP.run idleHandler = some c → ∀ f, c.loop.frame = some f → f.id = 1 := by
    rintro c ⟨⟩ f hf
    cases hf
  obtain ⟨more, c', hmore, hl⟩ := h idleHandler _ rfl 1 todo ⟨hhand _ rfl, _, _, rfl, rfl⟩
  have hrun : serveHTTP.run idleHandler = some _ := rfl
  have hclears := Backlog.clears_of_exec (waits_of_run hrun (hhand _ rfl) todo) hmore
    (by simp [MuxConn.clears, hl, Door.passes])
  exact absurd hclears (by decide)

end ConnectWebSocket
end BidiWeb
