/-
  BidiWeb.Lib.Star

  One machine, the hub, and a peer at the other end of each of its
  connections.  A connection delivers in order what was put on it; when, and
  how much of it, is up to the run.

  `star_inv` composes an invariant of the hub with one of the peers.  Each is
  proved of its end alone, against whatever messages arrive there: the hub's
  may rely on a relation between what it has sent on a connection and the
  message it takes from it, which the peers' must then imply.
-/

import BidiWeb.Lib.Machine
import Mathlib.Data.List.Infix
import Mathlib.Logic.Function.Basic

namespace BidiWeb
namespace Lib

-- ============================================================================
-- The ends
-- ============================================================================

/-- The end that has the connections `κ`. -/
structure Hub (σ α κ μ : Type*) extends Machine σ α where
  /-- The connection that a label takes a message from, and the message. -/
  takes : α → Option (κ × μ)
  /-- The messages put on a connection so far. -/
  sent : σ → κ → List μ

/-- The other end of one connection. -/
structure Peer (τ β μ : Type*) extends Machine τ β where
  takes : β → Option μ
  sent : τ → List μ

/-- Both ends of every connection. -/
structure Star (σ τ κ μ : Type*) where
  hub : σ
  peer : κ → τ
  /-- The messages the hub has taken from a connection. -/
  down : κ → List μ
  /-- The messages the peer has taken from a connection. -/
  up : κ → List μ

variable {σ τ α β κ μ : Type*} [DecidableEq κ] [DecidableEq μ]

namespace Star

variable (H : Hub σ α κ μ) (P : Peer τ β μ) (p : Star σ τ κ μ)

/-- The hub takes a step.  A message it takes is the next one the peer has
    put on that connection. -/
def stepHub (a : α) : Option (Star σ τ κ μ) :=
  match H.takes a with
  | none => (H.step p.hub a).map fun s => { p with hub := s }
  | some (k, m) =>
      if (P.sent (p.peer k))[(p.down k).length]? = some m then
        (H.step p.hub a).map fun s =>
          { p with hub := s, down := Function.update p.down k (p.down k ++ [m]) }
      else none

/-- The peer of connection `k` takes a step. -/
def stepPeer (k : κ) (b : β) : Option (Star σ τ κ μ) :=
  match P.takes b with
  | none => (P.step (p.peer k) b).map fun t => { p with peer := Function.update p.peer k t }
  | some m =>
      if (H.sent p.hub k)[(p.up k).length]? = some m then
        (P.step (p.peer k) b).map fun t =>
          { p with
            peer := Function.update p.peer k t
            up := Function.update p.up k (p.up k ++ [m]) }
      else none

end Star

/-- The hub and its peers. -/
def star (H : Hub σ α κ μ) (P : Peer τ β μ) : Machine (Star σ τ κ μ) (α ⊕ κ × β) where
  init := { hub := H.init, peer := fun _ => P.init, down := fun _ => [], up := fun _ => [] }
  step p
    | .inl a => p.stepHub H P a
    | .inr (k, b) => p.stepPeer H P k b

-- ============================================================================
-- What is proved of one end
-- ============================================================================

/-- `inv` relates every state of the hub to what it has taken from its
    connections, as long as what it takes is as `rely` says. -/
structure Hub.Upholds (H : Hub σ α κ μ) (rely : List μ → μ → Prop)
    (inv : σ → (κ → List μ) → Prop) : Prop where
  init : inv H.init fun _ => []
  quiet : ∀ s heard a s', inv s heard → H.takes a = none → H.step s a = some s' → inv s' heard
  hears : ∀ s heard a s' k m, inv s heard → H.takes a = some (k, m) → rely (H.sent s k) m →
    H.step s a = some s' → inv s' (Function.update heard k (heard k ++ [m]))
  grows : ∀ s heard a s', inv s heard → H.step s a = some s' → ∀ k, H.sent s k <+: H.sent s' k

/-- `inv` relates every state of a peer to what it has taken. -/
structure Peer.Upholds (P : Peer τ β μ) (inv : τ → List μ → Prop) : Prop where
  init : inv P.init []
  quiet : ∀ t heard b t', inv t heard → P.takes b = none → P.step t b = some t' → inv t' heard
  hears : ∀ t heard b t' m, inv t heard → P.takes b = some m → P.step t b = some t' →
    inv t' (heard ++ [m])
  grows : ∀ t b t', P.step t b = some t' → P.sent t <+: P.sent t'

omit [DecidableEq μ] in
/-- What the hub keeps by itself is kept beside it. -/
theorem Hub.Upholds.and_kept {H : Hub σ α κ μ} {rely : List μ → μ → Prop}
    {inv : σ → (κ → List μ) → Prop} {kept : σ → Prop} (hH : H.Upholds rely inv)
    (hinit : kept H.init) (hstep : ∀ s a s', kept s → H.step s a = some s' → kept s') :
    H.Upholds rely fun s heard => inv s heard ∧ kept s where
  init := ⟨hH.init, hinit⟩
  quiet := fun s heard a s' hs hquiet h =>
    ⟨hH.quiet s heard a s' hs.1 hquiet h, hstep s a s' hs.2 h⟩
  hears := fun s heard a s' k m hs htakes hrely h =>
    ⟨hH.hears s heard a s' k m hs.1 htakes hrely h, hstep s a s' hs.2 h⟩
  grows := fun s heard a s' hs h => hH.grows s heard a s' hs.1 h

-- ============================================================================
-- Composition
-- ============================================================================

omit [DecidableEq μ] in
/-- What is taken next of a list of which a beginning has been taken. -/
theorem prefix_concat_of_next {sent heard : List μ} {m : μ} (hbefore : heard <+: sent)
    (hnext : sent[heard.length]? = some m) : heard ++ [m] <+: sent := by
  obtain ⟨more, rfl⟩ := hbefore
  rw [List.getElem?_append_right (Nat.le_refl _), Nat.sub_self] at hnext
  cases more with
  | nil => cases hnext
  | cons x rest =>
      obtain rfl : x = m := by simpa using hnext
      exact ⟨rest, by simp⟩

/-- What holds of a hub and its peers. -/
structure Star.Inv (H : Hub σ α κ μ) (P : Peer τ β μ) (hubInv : σ → (κ → List μ) → Prop)
    (peerInv : τ → List μ → Prop) (p : Star σ τ κ μ) : Prop where
  hub : hubInv p.hub p.down
  peer : ∀ k, peerInv (p.peer k) (p.up k)
  down : ∀ k, p.down k <+: P.sent (p.peer k)
  up : ∀ k, p.up k <+: H.sent p.hub k

variable {H : Hub σ α κ μ} {P : Peer τ β μ} {rely : List μ → μ → Prop}
  {hubInv : σ → (κ → List μ) → Prop} {peerInv : τ → List μ → Prop} {p q : Star σ τ κ μ}

theorem Star.Inv.stepHub (hp : p.Inv H P hubInv peerInv) (hH : H.Upholds rely hubInv)
    (hrely : ∀ t heard own, peerInv t heard → heard <+: own → ∀ m ∈ P.sent t, rely own m)
    {a : α} (hstep : p.stepHub H P a = some q) : q.Inv H P hubInv peerInv := by
  unfold Star.stepHub at hstep
  split at hstep
  · rename_i htakes
    obtain ⟨s, hs, rfl⟩ := Option.map_eq_some_iff.mp hstep
    exact
      { hub := hH.quiet _ _ _ _ hp.hub htakes hs
        peer := hp.peer
        down := hp.down
        up := fun k => (hp.up k).trans (hH.grows _ _ _ _ hp.hub hs k) }
  · rename_i k m htakes
    obtain ⟨hnext, hstep⟩ := Option.ite_none_right_eq_some.mp hstep
    obtain ⟨s, hs, rfl⟩ := Option.map_eq_some_iff.mp hstep
    have hm : rely (H.sent p.hub k) m :=
      hrely _ _ _ (hp.peer k) (hp.up k) m (List.mem_of_getElem? hnext)
    refine
      { hub := hH.hears _ _ _ _ k m hp.hub htakes hm hs
        peer := hp.peer
        down := fun j => ?_
        up := fun j => (hp.up j).trans (hH.grows _ _ _ _ hp.hub hs j) }
    by_cases hj : j = k
    · subst hj
      show Function.update p.down j (p.down j ++ [m]) j <+: _
      rw [Function.update_self]
      exact prefix_concat_of_next (hp.down j) hnext
    · show Function.update p.down k (p.down k ++ [m]) j <+: _
      rw [Function.update_of_ne hj]
      exact hp.down j

theorem Star.Inv.stepPeer (hp : p.Inv H P hubInv peerInv) (hP : P.Upholds peerInv) {k : κ} {b : β}
    (hstep : p.stepPeer H P k b = some q) : q.Inv H P hubInv peerInv := by
  -- the other peers are where they were
  have hdown : ∀ {t}, P.step (p.peer k) b = some t → ∀ j,
      p.down j <+: P.sent (Function.update p.peer k t j) := by
    intro t ht j
    by_cases hj : j = k
    · subst hj
      rw [Function.update_self]
      exact (hp.down j).trans (hP.grows _ _ _ ht)
    · rw [Function.update_of_ne hj]
      exact hp.down j
  unfold Star.stepPeer at hstep
  split at hstep
  · rename_i htakes
    obtain ⟨t, ht, rfl⟩ := Option.map_eq_some_iff.mp hstep
    refine { hub := hp.hub, peer := fun j => ?_, down := hdown ht, up := hp.up }
    by_cases hj : j = k
    · subst hj
      show peerInv (Function.update p.peer j t j) (p.up j)
      rw [Function.update_self]
      exact hP.quiet _ _ _ _ (hp.peer j) htakes ht
    · show peerInv (Function.update p.peer k t j) (p.up j)
      rw [Function.update_of_ne hj]
      exact hp.peer j
  · rename_i m htakes
    obtain ⟨hnext, hstep⟩ := Option.ite_none_right_eq_some.mp hstep
    obtain ⟨t, ht, rfl⟩ := Option.map_eq_some_iff.mp hstep
    refine { hub := hp.hub, peer := fun j => ?_, down := hdown ht, up := fun j => ?_ }
    · show peerInv (Function.update p.peer k t j) (Function.update p.up k (p.up k ++ [m]) j)
      by_cases hj : j = k
      · subst hj
        rw [Function.update_self, Function.update_self]
        exact hP.hears _ _ _ _ m (hp.peer j) htakes ht
      · rw [Function.update_of_ne hj, Function.update_of_ne hj]
        exact hp.peer j
    · show Function.update p.up k (p.up k ++ [m]) j <+: _
      by_cases hj : j = k
      · subst hj
        rw [Function.update_self]
        exact prefix_concat_of_next (hp.up j) hnext
      · rw [Function.update_of_ne hj]
        exact hp.up j

/-- Both invariants hold after every run, if what the peers uphold implies
    what the hub relies on. -/
theorem star_inv (hH : H.Upholds rely hubInv) (hP : P.Upholds peerInv)
    (hrely : ∀ t heard own, peerInv t heard → heard <+: own → ∀ m ∈ P.sent t, rely own m)
    {evs : List (α ⊕ κ × β)} (hrun : (star H P).run evs = some p) :
    p.Inv H P hubInv peerInv := by
  refine (star H P).exec_invariant (I := Star.Inv H P hubInv peerInv) ?_ ?_ hrun
  · intro p a q hp hstep
    cases a with
    | inl a => exact hp.stepHub hH hrely hstep
    | inr b => exact hp.stepPeer hP hstep
  · exact
      { hub := hH.init
        peer := fun _ => hP.init
        down := fun _ => List.nil_prefix
        up := fun _ => List.nil_prefix }

end Lib
end BidiWeb
