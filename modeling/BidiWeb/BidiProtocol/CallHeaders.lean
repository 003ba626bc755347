/-
  BidiWeb.BidiProtocol.CallHeaders

  Headers and trailers on their way from the call info of one side to that of
  the other.  A call info has canonical keys, since it is filled by
  `SetValues`; what goes over the wire has pseudo-headers besides.
-/

import BidiWeb.BidiProtocol.Server
import BidiWeb.ConnectProtocol.RoundTrip

namespace BidiWeb
namespace BidiProtocol

open BidiWeb.ConnectProtocol
open BidiWeb.Lib

-- ============================================================================
-- Setting values
-- ============================================================================

/-- Every key is one that `net/http` leaves as it is. -/
def CanonicalKeys (h : Header) : Prop := ∀ k ∈ h, canonicalHeaderKey k = k

theorem setAllValues_eq (h : Header) (hs : List (GoString × List GoString)) :
    setAllValues h hs = insertAll h (hs.map fun e => (canonicalHeaderKey e.1, e.2)) := by
  rw [setAllValues, insertAll, List.foldl_map]

theorem canonicalKeys_empty : CanonicalKeys ∅ := by
  intro k hk
  cases hk

theorem CanonicalKeys.setAllValues {h : Header} (hh : CanonicalKeys h)
    (hs : List (GoString × List GoString)) : CanonicalKeys (setAllValues h hs) := by
  induction hs generalizing h with
  | nil => exact hh
  | cons e hs ih =>
      apply ih
      intro k hk
      rcases (AList.mem_insert _).mp hk with rfl | hk
      · exact canonicalHeaderKey_canonicalHeaderKey e.1
      · exact hh k hk

/-- Keys that are canonical already are set as they are. -/
theorem setAllValues_of_canonical (h : Header) {hs : List (GoString × List GoString)}
    (hkeys : ∀ e ∈ hs, canonicalHeaderKey e.1 = e.1) : setAllValues h hs = insertAll h hs := by
  have hmap : hs.map (fun e => (canonicalHeaderKey e.1, e.2)) = hs := by
    refine (List.map_congr_left ?_).trans (List.map_id _)
    rintro ⟨k, vs⟩ he
    simp [hkeys _ he]
  rw [setAllValues_eq, hmap]

/-- Setting every entry of a map with canonical keys. -/
theorem lookup_setAllValues (range : RangeOrder (List GoString)) (h : Header) {hs : Header}
    (hkeys : CanonicalKeys hs) (k : GoString) :
    (setAllValues h (range.visit hs)).lookup k = (hs.lookup k).or (h.lookup k) := by
  have hvisit : ∀ e ∈ range.visit hs, canonicalHeaderKey e.1 = e.1 := by
    rintro ⟨k, vs⟩ he
    exact hkeys k (mem_of_lookup ((mem_visit range).mp he))
  rw [setAllValues_of_canonical h hvisit]
  exact lookup_insertAll h fun vs => mem_visit range

/-- Setting every entry but the pseudo-headers. -/
theorem lookup_setAllValues_filter (range : RangeOrder (List GoString)) (h : Header)
    {hs : Header} (hkeys : ∀ k ∈ hs, IsWireKey k) {k : GoString} (hk : isPseudo k = false) :
    (setAllValues h ((range.visit hs).filter fun e => !isPseudo e.1)).lookup k =
      (hs.lookup k).or (h.lookup k) := by
  have hvisit : ∀ e ∈ (range.visit hs).filter (fun e => !isPseudo e.1),
      canonicalHeaderKey e.1 = e.1 := by
    rintro ⟨k, vs⟩ he
    obtain ⟨hmem, hnot⟩ := List.mem_filter.mp he
    rcases hkeys k (mem_of_lookup ((mem_visit range).mp hmem)) with hpseudo | hcanonical
    · simp [hpseudo] at hnot
    · exact hcanonical
  rw [setAllValues_of_canonical h hvisit]
  apply lookup_insertAll
  intro vs
  rw [List.mem_filter, mem_visit]
  simp [hk]

/-- The call info that `HandleRPC` makes of the request headers. -/
def requestInfo {κ μ : Type} (srv : ServerConfig κ μ) (headers : Header) : CallInfo where
  requestHeader := setAllValues ∅ ((srv.rangeHeaders.visit headers).filter fun e => !isPseudo e.1)

-- ============================================================================
-- Reading values
-- ============================================================================

/-- The keys of the headers that go over the wire. -/
def WireKeys (h : Header) : Prop := ∀ k ∈ h, IsWireKey k

theorem WireKeys.set {h : Header} (hh : WireKeys h) (key value : GoString) :
    WireKeys (h.set key value) := by
  intro k hk
  rcases (AList.mem_insert _).mp hk with rfl | hk
  · exact Or.inr (canonicalHeaderKey_canonicalHeaderKey key)
  · exact hh k hk

theorem insertAll_empty_lookup (h : Header) (k : GoString) :
    (Header.insertAll ∅ h).lookup k = h.lookup k := by
  have heq : Header.insertAll ∅ h =
      insertAll ∅ ((RangeOrder.stored : RangeOrder (List GoString)).visit h) := by
    rw [Header.insertAll, insertAll, RangeOrder.stored, List.foldl_map]
  rw [heq, lookup_insertAll ∅ fun vs => mem_visit _, AList.lookup_empty, Option.or_none]

theorem wireKeys_insertAll {h : Header} (hh : CanonicalKeys h) :
    WireKeys (Header.insertAll ∅ h) := by
  intro k hk
  rw [← AList.lookup_isSome, insertAll_empty_lookup, AList.lookup_isSome] at hk
  exact Or.inr (hh k hk)

theorem get_set_self (h : Header) (key value : GoString) : (h.set key value).get key = value := by
  rw [Header.get, Header.values, Header.set, AList.lookup_insert]
  rfl

theorem get_set_of_ne (h : Header) {key key' : GoString} (value : GoString)
    (hne : canonicalHeaderKey key' ≠ canonicalHeaderKey key) :
    (h.set key value).get key' = h.get key' := by
  rw [Header.get, Header.values, Header.set, AList.lookup_insert_ne hne]
  rfl

/-- Headers that answer alike have the same values. -/
theorem get_congr {h h' : Header} (key : GoString)
    (hlookup : h'.lookup (canonicalHeaderKey key) = h.lookup (canonicalHeaderKey key)) :
    h'.get key = h.get key := by
  rw [Header.get, Header.get, Header.values, Header.values, hlookup]

end BidiProtocol
end BidiWeb
