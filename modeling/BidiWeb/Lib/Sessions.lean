/-
  BidiWeb.Lib.Sessions

  Sessions multiplexed on one connection.  One end, the caller, opens them
  and picks their IDs; the other, the answerer, has a session of its own for
  each.  `Caller` and `Answerer` say what each end makes of the messages it
  takes and puts on the connection; neither mentions the other end.

  `joined` is what follows when two such ends are joined: what one side of a
  session is given is a beginning of what the other side has put in, and all
  of it, but for what is still under way, while it takes messages.
-/

import Mathlib.Data.List.Infix
import Mathlib.Data.List.Nodup
import Mathlib.Tactic.TypeStar

namespace BidiWeb
namespace Lib

variable {ι ε μ : Type*}

-- ============================================================================
-- Sessions
-- ============================================================================

/-- A session as one end has it. -/
structure Session (ι ε : Type*) where
  id : ι
  /-- What has been put in. -/
  put : List ε
  /-- What has been given out. -/
  got : List ε
  /-- What is to be given out next. -/
  buffered : List ε
  /-- It still takes messages. -/
  live : Prop

/-- Only the first item opens the session. -/
def OpensFirst (opens : ε → Bool) : List ε → Prop
  | [] => True
  | e :: rest => opens e = true ∧ ∀ x ∈ rest, opens x = false

variable {opens : ε → Bool}

theorem OpensFirst.mono {xs ys : List ε} (h : OpensFirst opens ys) (hpre : xs <+: ys) :
    OpensFirst opens xs := by
  obtain ⟨more, rfl⟩ := hpre
  match xs with
  | [] => trivial
  | e :: rest => exact ⟨h.1, fun x hx => h.2 x (List.mem_append_left _ hx)⟩

/-- An opening item has nothing before it. -/
theorem OpensFirst.eq_nil {xs ys : List ε} {e : ε} (h : OpensFirst opens (xs ++ e :: ys))
    (he : opens e = true) : xs = [] := by
  match xs with
  | [] => rfl
  | x :: rest =>
      have hlater := h.2 e (List.mem_append_right _ List.mem_cons_self)
      rw [he] at hlater
      cases hlater

-- ============================================================================
-- What messages carry
-- ============================================================================

variable [DecidableEq ι] (label : μ → Option (ι × ε))

/-- What a message carries for session `i`. -/
def carries (i : ι) (m : μ) : Option ε :=
  match label m with
  | some (j, e) => if j = i then some e else none
  | none => none

/-- What the messages carry for session `i`. -/
def carried (i : ι) (ms : List μ) : List ε := ms.filterMap (carries label i)

/-- A message is for session `i`. -/
def names (i : ι) (ms : List μ) : Prop := ∃ m ∈ ms, ∃ e, label m = some (i, e)

variable {label} {i : ι} {ms ns : List μ} {m : μ}

theorem carries_of_label {e : ε} (h : label m = some (i, e)) : carries label i m = some e := by
  simp [carries, h]

theorem carries_of_ne {j : ι} {e : ε} (h : label m = some (j, e)) (hne : j ≠ i) :
    carries label i m = none := by
  simp [carries, h, hne]

theorem carries_of_none (h : label m = none) : carries label i m = none := by
  simp [carries, h]

theorem carries_eq_some {e : ε} : carries label i m = some e ↔ label m = some (i, e) := by
  constructor
  · intro h
    cases hlabel : label m with
    | none => rw [carries_of_none hlabel] at h; cases h
    | some p =>
        obtain ⟨j, e'⟩ := p
        by_cases hj : j = i
        · subst hj
          rw [carries_of_label hlabel] at h
          rw [Option.some.inj h]
        · rw [carries_of_ne hlabel hj] at h
          cases h
  · exact carries_of_label

@[simp] theorem carried_nil : carried label i [] = [] := rfl

theorem carried_append : carried label i (ms ++ ns) = carried label i ms ++ carried label i ns :=
  List.filterMap_append ..

theorem carried_singleton : carried label i [m] = (carries label i m).toList := by
  unfold carried
  cases h : carries label i m <;> simp [h]

theorem carried_mono (h : ms <+: ns) : carried label i ms <+: carried label i ns := by
  obtain ⟨more, rfl⟩ := h
  rw [carried_append]
  exact List.prefix_append ..

theorem carried_eq_nil : carried label i ms = [] ↔ ¬ names label i ms := by
  unfold carried names
  rw [List.filterMap_eq_nil_iff]
  constructor
  · rintro hnone ⟨m, hm, e, hlabel⟩
    have hm := hnone m hm
    rw [carries_of_label hlabel] at hm
    cases hm
  · intro hnot m hm
    cases hcarries : carries label i m with
    | none => rfl
    | some e => exact absurd ⟨m, hm, e, carries_eq_some.mp hcarries⟩ hnot

/-- What has been taken, and what is under way. -/
theorem carried_split (h : ms <+: ns) :
    carried label i ns = carried label i ms ++ carried label i (ns.drop ms.length) := by
  obtain ⟨more, rfl⟩ := h
  rw [carried_append, List.drop_left]

-- ============================================================================
-- The messages that open a session
-- ============================================================================

/-- The session a message opens. -/
def openedBy (label : μ → Option (ι × ε)) (opens : ε → Bool) (m : μ) : Option ι :=
  match label m with
  | some (i, e) => if opens e then some i else none
  | none => none

/-- The sessions that messages open, in order. -/
def openers (label : μ → Option (ι × ε)) (opens : ε → Bool) (ms : List μ) : List ι :=
  ms.filterMap (openedBy label opens)

omit [DecidableEq ι] in
theorem openedBy_eq_some : openedBy label opens m = some i ↔
    ∃ e, label m = some (i, e) ∧ opens e = true := by
  unfold openedBy
  split
  · rename_i j e hlabel
    simp [hlabel, and_comm]
  · rename_i hlabel
    simp [hlabel]

omit [DecidableEq ι] in
theorem openers_append :
    openers label opens (ms ++ ns) = openers label opens ms ++ openers label opens ns :=
  List.filterMap_append ..

omit [DecidableEq ι] in
theorem names_of_mem_openers (h : i ∈ openers label opens ms) : names label i ms := by
  obtain ⟨m, hm, hopened⟩ := List.mem_filterMap.mp h
  obtain ⟨e, hlabel, -⟩ := openedBy_eq_some.mp hopened
  exact ⟨m, hm, e, hlabel⟩

theorem count_openers (i : ι) (ms : List μ) :
    (openers label opens ms).count i = (carried label i ms).countP opens := by
  induction ms with
  | nil => rfl
  | cons m ms ih =>
      have hcons : openers label opens ([m] ++ ms) =
          openers label opens [m] ++ openers label opens ms := openers_append
      have hcarried : carried label i ([m] ++ ms) = carried label i [m] ++ carried label i ms :=
        carried_append
      rw [List.singleton_append] at hcons hcarried
      rw [hcons, hcarried, List.count_append, List.countP_append, ih]
      refine congrArg (· + _) ?_
      cases hlabel : label m with
      | none => simp [openers, openedBy, carried_singleton, carries_of_none hlabel, hlabel]
      | some p =>
          obtain ⟨j, e⟩ := p
          by_cases hj : j = i
          · subst hj
            cases he : opens e <;>
              simp [openers, openedBy, carried_singleton, carries_of_label hlabel, hlabel, he]
          · cases he : opens e <;>
              simp [openers, openedBy, carried_singleton, carries_of_ne hlabel hj, hlabel, he, hj]

theorem OpensFirst.countP_le {es : List ε} (h : OpensFirst opens es) : es.countP opens ≤ 1 := by
  match es with
  | [] => exact Nat.zero_le 1
  | e :: rest =>
      have hrest : rest.countP opens = 0 :=
        List.countP_eq_zero.mpr fun x hx => by simp [h.2 x hx]
      rw [List.countP_cons, hrest]
      split
      · exact Nat.le_refl 1
      · exact Nat.zero_le 1

/-- No session is opened twice. -/
theorem nodup_openers (h : ∀ i, OpensFirst opens (carried label i ms)) :
    (openers label opens ms).Nodup := by
  rw [List.nodup_iff_count]
  intro i
  rw [count_openers]
  exact (h i).countP_le

-- ============================================================================
-- The two ends
-- ============================================================================

/-- A session against the messages that one end has taken and put. -/
structure Session.Served (label : μ → Option (ι × ε)) (s : Session ι ε)
    (sent heard : List μ) : Prop where
  put : carried label s.id sent = s.put
  got : s.got <+: carried label s.id heard
  live : s.live → s.got ++ s.buffered = carried label s.id heard

/-- The end that opens the sessions. -/
structure Caller (label : μ → Option (ι × ε)) (ss : List (Session ι ε))
    (sent heard : List μ) : Prop where
  served : ∀ s ∈ ss, s.Served label sent heard
  owner : ∀ i, names label i sent → ∃ s ∈ ss, s.id = i

/-- The end that answers them, each opened by its first item. -/
structure Answerer (label : μ → Option (ι × ε)) (opens : ε → Bool) (ss : List (Session ι ε))
    (sent heard : List μ) : Prop where
  /-- It uses no ID it has not been given. -/
  asked : ∀ i, names label i sent → names label i heard
  opened : ∀ s ∈ ss, names label s.id heard
  owner : ∀ i, names label i sent → ∃ s ∈ ss, s.id = i
  nodup : (∀ i, OpensFirst opens (carried label i heard)) → (ss.map (·.id)).Nodup
  served : (∀ i, OpensFirst opens (carried label i heard)) → ∀ s ∈ ss, s.Served label sent heard

/-- What a caller relies on: a message is for a session it has used. -/
def Asked (label : μ → Option (ι × ε)) (own : List μ) (m : μ) : Prop :=
  ∀ i e, label m = some (i, e) → names label i own

theorem Answerer.asks {ss : List (Session ι ε)} {sent heard own : List μ}
    (h : Answerer label opens ss sent heard) (hheard : heard <+: own) (hm : m ∈ sent) :
    Asked label own m := by
  intro i e hlabel
  obtain ⟨n, hn, hname⟩ := h.asked i ⟨m, hm, e, hlabel⟩
  exact ⟨n, hheard.subset hn, hname⟩

-- ============================================================================
-- Joined
-- ============================================================================

/-- The two sides of a session, with what is under way between them. -/
structure Paired (caller answerer : Session ι ε) (underwayUp underwayDown : List ε) : Prop where
  up : answerer.got <+: caller.put
  down : caller.got <+: answerer.put
  /-- Nothing is lost, doubled or out of order while it is taken. -/
  allUp : answerer.live → caller.put = answerer.got ++ answerer.buffered ++ underwayUp
  allDown : caller.live → answerer.put = caller.got ++ caller.buffered ++ underwayDown

variable {cs as : List (Session ι ε)} {up down sentUp sentDown : List μ}

/-- Two ends that are joined: `up` and `down` are what each has taken of what
    the other has put. -/
structure Joined (label : μ → Option (ι × ε)) (cs as : List (Session ι ε))
    (up down sentUp sentDown : List μ) : Prop where
  /-- A session is answered once at most. -/
  nodup : (as.map (·.id)).Nodup
  /-- Nothing is answered that was not called. -/
  called : ∀ a ∈ as, ∃ c ∈ cs, c.id = a.id
  paired : ∀ c ∈ cs, ∀ a ∈ as, a.id = c.id →
    Paired c a (carried label c.id (sentUp.drop up.length))
      (carried label c.id (sentDown.drop down.length))
  /-- A session that is not answered is given nothing. -/
  silent : ∀ c ∈ cs, (∀ a ∈ as, a.id ≠ c.id) → c.got = []

theorem Caller.opened (hcaller : Caller label cs sentUp down) (hup : up <+: sentUp)
    (hopens : ∀ c ∈ cs, OpensFirst opens c.put) (i : ι) :
    OpensFirst opens (carried label i up) := by
  apply OpensFirst.mono _ (carried_mono hup)
  by_cases hname : names label i sentUp
  · obtain ⟨s, hs, rfl⟩ := hcaller.owner i hname
    rw [(hcaller.served s hs).put]
    exact hopens s hs
  · rw [carried_eq_nil.mpr hname]
    trivial

/-- The two sides of one session. -/
theorem Session.Served.paired {c a : Session ι ε} (hc : c.Served label sentUp down)
    (ha : a.Served label sentDown up) (hup : up <+: sentUp) (hdown : down <+: sentDown)
    (hid : a.id = c.id) :
    Paired c a (carried label c.id (sentUp.drop up.length))
      (carried label c.id (sentDown.drop down.length)) := by
  have hputUp : carried label a.id sentUp = c.put := by
    rw [hid]
    exact hc.put
  have hputDown : carried label c.id sentDown = a.put := by
    rw [← hid]
    exact ha.put
  refine ⟨?_, ?_, fun hlive => ?_, fun hlive => ?_⟩
  · exact hputUp ▸ ha.got.trans (carried_mono hup)
  · exact hputDown ▸ hc.got.trans (carried_mono hdown)
  · rw [ha.live hlive, ← hputUp, hid]
    exact carried_split hup
  · rw [hc.live hlive, ← hputDown]
    exact carried_split hdown

theorem joined (hcaller : Caller label cs sentUp down)
    (hanswer : Answerer label opens as sentDown up) (hup : up <+: sentUp)
    (hdown : down <+: sentDown) (hopens : ∀ c ∈ cs, OpensFirst opens c.put) :
    Joined label cs as up down sentUp sentDown where
  nodup := hanswer.nodup (hcaller.opened hup hopens)
  called := fun a ha => by
    obtain ⟨m, hm, e, hlabel⟩ := hanswer.opened a ha
    exact hcaller.owner a.id ⟨m, hup.subset hm, e, hlabel⟩
  paired := fun c hc a ha hid =>
    (hcaller.served c hc).paired (hanswer.served (hcaller.opened hup hopens) a ha) hup hdown hid
  silent := fun c hc hnone => by
    have hnil : carried label c.id sentDown = [] := by
      rw [carried_eq_nil]
      intro hname
      obtain ⟨a, ha, hid⟩ := hanswer.owner c.id hname
      exact hnone a ha hid
    have hgot : c.got <+: [] := by
      rw [← hnil]
      exact (hcaller.served c hc).got.trans (carried_mono hdown)
    exact List.prefix_nil.mp hgot

end Lib
end BidiWeb
