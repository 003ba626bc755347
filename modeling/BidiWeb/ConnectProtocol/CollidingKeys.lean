/-
  BidiWeb.ConnectProtocol.CollidingKeys

  `UnmarshalHeaders` of metadata with several keys for one header.  Each key
  that is visited replaces what the last one has set, in the order of a
  `range` over a map, so that no value is lost only if there is one at most.
-/

import BidiWeb.ConnectProtocol.RoundTrip

namespace BidiWeb
namespace ConnectProtocol

open BidiWeb.Lib

-- ============================================================================
-- What a payload holds
-- ============================================================================

/-- A member of the metadata: its key and its values. -/
abbrev Member := GoString × List GoString

/-- The members of one `metadata`. -/
def fieldMembers : Json → List Member
  | .obj members =>
      members.map fun m => (Unicode.decodeUtf16 m.1, (unmarshalStrings m.2).getD [])
  | .null | .bool _ | .num _ | .str _ | .arr _ => []

/-- The members of the metadata of a payload, in the order of the text. -/
structure PayloadMembers where
  /-- A `null` comes after these, which empties the map. -/
  dropped : List Member := []
  kept : List Member := []

def PayloadMembers.read (ms : PayloadMembers) : Json → PayloadMembers
  | .null => { dropped := ms.dropped ++ ms.kept }
  | field => { ms with kept := ms.kept ++ fieldMembers field }

def messageMembers : Json → PayloadMembers
  | .obj members => (fieldValues "metadata".toList members).foldl PayloadMembers.read {}
  | .null | .bool _ | .num _ | .str _ | .arr _ => {}

def payloadMembers (data : Bytes) : PayloadMembers :=
  ((parseJson data).map messageMembers).getD {}

/-- The name by which `UnmarshalHeaders` sets the values of a key. -/
def wireName (key : GoString) : GoString :=
  if isPseudo key then key else canonicalHeaderKey key

/-- The values of the members that are for `name`. -/
def valuesFor (ms : List Member) (name : GoString) : List GoString :=
  (ms.filter fun m => wireName m.1 = name).flatMap (·.2)

/-- All values that the payload holds for `name`. -/
def heldFor (data : Bytes) (name : GoString) : List GoString :=
  valuesFor ((payloadMembers data).dropped ++ (payloadMembers data).kept) name

theorem unmarshalStringsMap_obj {old m : StringsMap} {members : List (List UInt16 × Json)}
    (h : unmarshalStringsMap old (.obj members) = some m) :
    m = insertAll old (fieldMembers (.obj members)) := by
  simp only [unmarshalStringsMap] at h
  induction members generalizing old with
  | nil =>
      obtain rfl := Option.some.inj h
      rfl
  | cons member members ih =>
      rw [List.foldlM_cons] at h
      obtain ⟨next, hnext, hrest⟩ := Option.bind_eq_some_iff.mp h
      obtain ⟨vs, hvs, rfl⟩ := Option.map_eq_some_iff.mp hnext
      rw [ih hrest, fieldMembers, fieldMembers, List.map_cons, insertAll_cons, hvs]
      rfl

theorem unmarshalStringsMap_fields {fields : List Json} {ms : PayloadMembers} {m : StringsMap}
    (h : fields.foldlM unmarshalStringsMap (insertAll ∅ ms.kept) = some m) :
    m = insertAll ∅ (fields.foldl PayloadMembers.read ms).kept := by
  induction fields generalizing ms with
  | nil => exact (Option.some.inj h).symm
  | cons field fields ih =>
      rw [List.foldlM_cons] at h
      obtain ⟨next, hnext, hrest⟩ := Option.bind_eq_some_iff.mp h
      rw [List.foldl_cons]
      apply ih
      cases field with
      | null =>
          obtain rfl := Option.some.inj hnext
          exact hrest
      | obj members =>
          rw [unmarshalStringsMap_obj hnext, insertAll, insertAll, ← List.foldl_append] at hrest
          exact hrest
      | bool b => cases hnext
      | num literal => cases hnext
      | str units => cases hnext
      | arr elements => cases hnext

/-- The map that is decoded has the last member of each key. -/
theorem unmarshalHeaderMessage_members {message : Json} {m : StringsMap}
    (h : unmarshalHeaderMessage message = some m) :
    m = insertAll ∅ (messageMembers message).kept := by
  cases message with
  | null => exact (Option.some.inj h).symm
  | obj members => exact @unmarshalStringsMap_fields _ {} _ h
  | bool b => cases h
  | num literal => cases h
  | str units => cases h
  | arr elements => cases h

/-- The payload is JSON, and one that `unmarshalHeaderMessage` takes. -/
def isAccepted (data : Bytes) : Bool := ((parseJson data).bind unmarshalHeaderMessage).isSome

theorem unmarshalHeaders_eq (range : RangeOrder (List GoString)) (data : Bytes) :
    unmarshalHeaders range data =
      if isAccepted data then
        some (insertAll ∅ ((range.visit (insertAll ∅ (payloadMembers data).kept)).map fun e =>
          (wireName e.1, e.2)))
      else none := by
  unfold unmarshalHeaders payloadMembers isAccepted
  cases hparse : parseJson data with
  | none => rfl
  | some message =>
      cases hmessage : unmarshalHeaderMessage message with
      | none => simp [hmessage]
      | some metadata =>
          have hmetadata := unmarshalHeaderMessage_members hmessage
          subst hmetadata
          simp only [hmessage, Option.bind_some, Option.map_some, Option.isSome_some, if_true,
            Option.getD_some]
          conv_rhs => rw [insertAll, List.foldl_map]
          rfl

theorem exists_unmarshalHeaders (range : RangeOrder (List GoString)) {data : Bytes}
    (haccepted : isAccepted data = true) : ∃ h, unmarshalHeaders range data = some h := by
  rw [unmarshalHeaders_eq, if_pos haccepted]
  exact ⟨_, rfl⟩

-- ============================================================================
-- Which values stay
-- ============================================================================

/-- No member of the key comes after `m`. -/
def IsLast (ms : List Member) (m : Member) : Prop :=
  ∃ before after, ms = before ++ m :: after ∧ ∀ m' ∈ after, m'.1 ≠ m.1

/-- The entry for `name` that is visited last. -/
def chosen (range : RangeOrder (List GoString)) (ms : List Member) (name : GoString) :
    Option Member :=
  ((range.visit (insertAll ∅ ms)).filter fun e => wireName e.1 = name).getLast?

theorem lookup_chosen (range : RangeOrder (List GoString)) (ms : List Member) (name : GoString) :
    (insertAll ∅ ((range.visit (insertAll ∅ ms)).map fun e => (wireName e.1, e.2))).lookup name =
      (chosen range ms name).map (·.2) := by
  rw [lookup_insertAll_getLast?, AList.lookup_empty, Option.or_none, List.filter_map,
    List.getLast?_map, Option.map_map]
  rfl

theorem lookup_members (ms : List Member) (k : GoString) :
    (insertAll ∅ ms).lookup k = (ms.filter fun m => m.1 = k).getLast?.map (·.2) := by
  rw [lookup_insertAll_getLast?, AList.lookup_empty, Option.or_none]

theorem isLast_of_getLast? {ms : List Member} {m : Member}
    (h : (ms.filter fun m' => m'.1 = m.1).getLast? = some m) : IsLast ms m := by
  obtain ⟨front, hfront⟩ := List.getLast?_eq_some_iff.mp h
  obtain ⟨before, rest, rfl, -, hrest⟩ := List.filter_eq_append_iff.mp hfront
  obtain ⟨between, after, rfl, -, -, hafter⟩ := List.filter_eq_cons_iff.mp hrest
  refine ⟨before ++ between, after, (List.append_assoc ..).symm, fun m' hm' hkey => ?_⟩
  exact List.filter_eq_nil_iff.mp hafter m' hm' (decide_eq_true hkey)

theorem chosen_eq_some {range : RangeOrder (List GoString)} {ms : List Member} {name : GoString}
    {m : Member} (h : chosen range ms name = some m) : wireName m.1 = name ∧ IsLast ms m := by
  obtain ⟨hvisit, hname⟩ := List.mem_filter.mp (List.mem_of_getLast? h)
  refine ⟨of_decide_eq_true hname, isLast_of_getLast? ?_⟩
  have hlookup : (insertAll ∅ ms).lookup m.1 = some m.2 := (mem_visit range).mp hvisit
  rw [lookup_members] at hlookup
  obtain ⟨m', hlast, hvalues⟩ := Option.map_eq_some_iff.mp hlookup
  have hkey := of_decide_eq_true (List.mem_filter.mp (List.mem_of_getLast? hlast)).2
  rw [hlast, Prod.ext hkey hvalues]

theorem chosen_eq_none {range : RangeOrder (List GoString)} {ms : List Member} {name : GoString} :
    chosen range ms name = none ↔ ∀ m ∈ ms, wireName m.1 ≠ name := by
  rw [chosen, List.getLast?_eq_none_iff, List.filter_eq_nil_iff]
  constructor
  · intro h m hm hname
    have hsome : ((ms.filter fun m' => m'.1 = m.1).getLast?).isSome := by
      rw [List.getLast?_isSome]
      exact List.ne_nil_of_mem (List.mem_filter.mpr ⟨hm, decide_eq_true rfl⟩)
    obtain ⟨last, hlast⟩ := Option.isSome_iff_exists.mp hsome
    have hvisit : (m.1, last.2) ∈ range.visit (insertAll ∅ ms) := by
      rw [mem_visit, lookup_members, hlast]
      rfl
    exact h _ hvisit (decide_eq_true hname)
  · intro h e he hname
    have hlookup := (mem_visit range).mp he
    rcases mem_of_lookup_insertAll hlookup with hmem | hnone
    · exact h e hmem (of_decide_eq_true hname)
    · cases hnone

/-- An order that visits `k` after all other keys. -/
def RangeOrder.keyLast {β : Type} (k : GoString) : RangeOrder β where
  visit := fun m =>
    let entries := m.entries.map fun e => (e.1, e.2)
    (entries.filter fun e => e.1 ≠ k) ++ entries.filter fun e => e.1 = k
  perm := fun m => by
    have hsplit := List.filter_append_perm (fun e : GoString × β => decide (e.1 ≠ k))
      (m.entries.map fun e => (e.1, e.2))
    simpa using hsplit

/-- Whichever key of a name is visited last has its way. -/
theorem chosen_keyLast {ms : List Member} {m : Member} (hm : m ∈ ms) :
    ∃ last, chosen (.keyLast m.1) ms (wireName m.1) = some last ∧ last.1 = m.1 := by
  let entries := (insertAll ∅ ms).entries.map fun e => (e.1, e.2)
  have hkey : (entries.filter fun e => e.1 = m.1) ≠ [] := by
    have hlookup : ((insertAll ∅ ms).lookup m.1).isSome := by
      rw [lookup_members, Option.isSome_map, List.getLast?_isSome]
      exact List.ne_nil_of_mem (List.mem_filter.mpr ⟨hm, decide_eq_true rfl⟩)
    obtain ⟨vs, hvs⟩ := Option.isSome_iff_exists.mp hlookup
    exact List.ne_nil_of_mem (List.mem_filter.mpr ⟨mem_pairs.mpr hvs, decide_eq_true rfl⟩)
  have hname : (entries.filter fun e => e.1 = m.1).filter (fun e => wireName e.1 = wireName m.1) =
      entries.filter fun e => e.1 = m.1 := by
    refine List.filter_eq_self.mpr fun e he => ?_
    rw [of_decide_eq_true (List.mem_filter.mp he).2]
    exact decide_eq_true rfl
  obtain ⟨last, hlast⟩ := Option.isSome_iff_exists.mp (List.getLast?_isSome.mpr hkey)
  refine ⟨last, ?_, of_decide_eq_true (List.mem_filter.mp (List.mem_of_getLast? hlast)).2⟩
  have hvisit : (RangeOrder.keyLast m.1).visit (insertAll ∅ ms) =
      (entries.filter fun e => e.1 ≠ m.1) ++ entries.filter fun e => e.1 = m.1 := rfl
  rw [chosen, hvisit, List.filter_append, hname, List.getLast?_append, hlast]
  rfl

-- ============================================================================
-- When nothing is lost
-- ============================================================================

/-- Of two members for one name the first holds nothing, and neither does the
    second if it has another key. -/
def Apart (m m' : Member) : Prop :=
  wireName m.1 = wireName m'.1 → m.2 = [] ∧ (m.1 ≠ m'.1 → m'.2 = [])

/-- No value is in the way of another. -/
structure PayloadMembers.Apart (ms : PayloadMembers) : Prop where
  dropped : ∀ m ∈ ms.dropped, m.2 = []
  kept : ms.kept.Pairwise ConnectProtocol.Apart

/-- Every order of visits yields the same headers, with all values of the
    payload. -/
structure KeepsAll (data : Bytes) : Prop where
  values : ∀ range h, unmarshalHeaders range data = some h →
    ∀ name, (h.values name).Perm (heldFor data name)
  same : ∀ range range' h h', unmarshalHeaders range data = some h →
    unmarshalHeaders range' data = some h' → ∀ name, h'.lookup name = h.lookup name

theorem valuesFor_append (ms ms' : List Member) (name : GoString) :
    valuesFor (ms ++ ms') name = valuesFor ms name ++ valuesFor ms' name := by
  rw [valuesFor, List.filter_append, List.flatMap_append]
  rfl

theorem valuesFor_cons_self (m : Member) (ms : List Member) :
    valuesFor (m :: ms) (wireName m.1) = m.2 ++ valuesFor ms (wireName m.1) := by
  rw [valuesFor, List.filter_cons_of_pos (by simp), List.flatMap_cons]
  rfl

theorem valuesFor_eq_nil {ms : List Member} {name : GoString}
    (h : ∀ m ∈ ms, wireName m.1 = name → m.2 = []) : valuesFor ms name = [] := by
  refine List.flatMap_eq_nil_iff.mpr fun m hm => ?_
  obtain ⟨hmem, hname⟩ := List.mem_filter.mp hm
  exact h m hmem (of_decide_eq_true hname)

theorem length_le_valuesFor {ms : List Member} {m : Member} (hm : m ∈ ms) :
    m.2.length ≤ (valuesFor ms (wireName m.1)).length := by
  obtain ⟨before, after, rfl⟩ := List.append_of_mem hm
  rw [valuesFor_append, valuesFor_cons_self, List.length_append, List.length_append]
  omega

/-- The last member of a key has all values of the name. -/
theorem valuesFor_of_isLast {ms : List Member} (hms : ms.Pairwise Apart) {m : Member}
    (hm : IsLast ms m) : valuesFor ms (wireName m.1) = m.2 := by
  obtain ⟨before, after, rfl, hafter⟩ := hm
  obtain ⟨-, hrest, hbefore⟩ := List.pairwise_append.mp hms
  have hfront : valuesFor before (wireName m.1) = [] :=
    valuesFor_eq_nil fun b hb hname => (hbefore b hb m List.mem_cons_self hname).1
  have hback : valuesFor after (wireName m.1) = [] :=
    valuesFor_eq_nil fun a ha hname =>
      ((List.pairwise_cons.mp hrest).1 a ha hname.symm).2 (hafter a ha).symm
  rw [valuesFor_append, valuesFor_cons_self, hfront, hback, List.append_nil, List.nil_append]

/-- No values are left for a member apart from the one that stays. -/
theorem eq_nil_of_perm {before after dropped : List Member} {last m : Member}
    (hperm : last.2.Perm (valuesFor (dropped ++ (before ++ last :: after)) (wireName last.1)))
    (hm : m ∈ dropped ∨ m ∈ before ∨ m ∈ after) (hname : wireName m.1 = wireName last.1) :
    m.2 = [] := by
  have hlength := hperm.length_eq
  rw [valuesFor_append, valuesFor_append, valuesFor_cons_self, List.length_append,
    List.length_append, List.length_append] at hlength
  have hle : ∀ ms : List Member, m ∈ ms →
      m.2.length ≤ (valuesFor ms (wireName last.1)).length := by
    intro ms hmem
    rw [← hname]
    exact length_le_valuesFor hmem
  apply List.eq_nil_of_length_eq_zero
  rcases hm with hmem | hmem | hmem
  · have hbound := hle dropped hmem
    omega
  · have hbound := hle before hmem
    omega
  · have hbound := hle after hmem
    omega

/-- The first of two members comes before the last one with the second's key. -/
theorem mem_before_of_sublist {before after : List Member} {m m' last : Member}
    (hafter : ∀ a ∈ after, a.1 ≠ last.1) (hkey : m'.1 = last.1)
    (hsub : List.Sublist [m, m'] (before ++ last :: after)) : m ∈ before := by
  have hm' : m' ∉ after := fun hmem => hafter m' hmem hkey
  rw [List.append_cons] at hsub
  obtain ⟨front, back, heq, hfront, hback⟩ := List.sublist_append_iff.mp hsub
  have hnil : back = [] := by
    cases back using List.reverseRecOn with
    | nil => rfl
    | append_singleton back last' =>
        have hlast : m' = last' := by
          have hget := congrArg List.getLast? heq
          rw [← List.append_assoc, List.getLast?_concat] at hget
          exact Option.some.inj hget
        exact absurd (hback.subset (by simp [hlast])) hm'
  rw [hnil, List.append_nil] at heq
  rw [← heq] at hfront
  obtain ⟨front, back, heq, hfront, hback⟩ := List.sublist_append_iff.mp hfront
  cases front with
  | nil =>
      rw [List.nil_append] at heq
      rw [← heq] at hback
      have hlength := hback.length_le
      simp at hlength
  | cons f front =>
      obtain rfl := (List.cons.inj heq).1
      exact hfront.subset List.mem_cons_self

theorem lookup_of_unmarshalHeaders {range : RangeOrder (List GoString)} {data : Bytes} {h : Header}
    (hunmarshal : unmarshalHeaders range data = some h) :
    isAccepted data = true ∧
      ∀ name, h.lookup name = (chosen range (payloadMembers data).kept name).map (·.2) := by
  rw [unmarshalHeaders_eq] at hunmarshal
  split at hunmarshal
  · rename_i haccepted
    obtain rfl := Option.some.inj hunmarshal
    exact ⟨haccepted, lookup_chosen range _⟩
  · cases hunmarshal

section

variable {data : Bytes} {range : RangeOrder (List GoString)} {m : Member}

/-- One of the orders leaves the last member of any key, which then has all
    values of the name. -/
theorem KeepsAll.perm_of_chosen (hall : KeepsAll data) (haccepted : isAccepted data = true)
    (hchosen : chosen range (payloadMembers data).kept (wireName m.1) = some m) :
    m.2.Perm (heldFor data (wireName m.1)) := by
  obtain ⟨h, hunmarshal⟩ := exists_unmarshalHeaders range haccepted
  have hvalues := hall.values range h hunmarshal (wireName m.1)
  rw [Header.values, (lookup_of_unmarshalHeaders hunmarshal).2, hchosen] at hvalues
  exact hvalues

/-- And the others for that name have none. -/
theorem KeepsAll.others (hall : KeepsAll data) (haccepted : isAccepted data = true)
    (hm : m ∈ (payloadMembers data).kept) :
    ∃ before last after, (payloadMembers data).kept = before ++ last :: after ∧
      (∀ a ∈ after, a.1 ≠ last.1) ∧ last.1 = m.1 ∧
        ∀ m', m' ∈ before ∨ m' ∈ after → wireName m'.1 = wireName m.1 → m'.2 = [] := by
  obtain ⟨last, hchosen, hkey⟩ := chosen_keyLast hm
  obtain ⟨-, before, after, hsplit, hafter⟩ := chosen_eq_some hchosen
  refine ⟨before, last, after, hsplit, hafter, hkey, fun m' hm' hname => ?_⟩
  have hlast := hall.perm_of_chosen haccepted (hkey ▸ hchosen)
  rw [heldFor, hsplit] at hlast
  exact eq_nil_of_perm hlast (Or.inr hm') (hname.trans (congrArg wireName hkey.symm))

theorem KeepsAll.dropped (hall : KeepsAll data) (haccepted : isAccepted data = true)
    (hm : m ∈ (payloadMembers data).dropped) : m.2 = [] := by
  cases hchosen : chosen .stored (payloadMembers data).kept (wireName m.1) with
  | none =>
      obtain ⟨h, hunmarshal⟩ := exists_unmarshalHeaders .stored haccepted
      have hvalues := hall.values .stored h hunmarshal (wireName m.1)
      rw [Header.values, (lookup_of_unmarshalHeaders hunmarshal).2, hchosen, heldFor,
        valuesFor_append] at hvalues
      have hlength := hvalues.length_eq
      have hle := length_le_valuesFor hm
      rw [Option.map_none, Option.getD_none, List.length_append, List.length_nil] at hlength
      have hempty : m.2.length = 0 := by omega
      exact List.eq_nil_of_length_eq_zero hempty
  | some last =>
      obtain ⟨hname, before, after, hsplit, -⟩ := chosen_eq_some hchosen
      have hlast := hall.perm_of_chosen haccepted (hname ▸ hchosen)
      rw [heldFor, hsplit] at hlast
      exact eq_nil_of_perm hlast (Or.inl hm) hname.symm

theorem KeepsAll.kept (hall : KeepsAll data) (haccepted : isAccepted data = true) :
    (payloadMembers data).kept.Pairwise ConnectProtocol.Apart := by
  rw [List.pairwise_iff_forall_sublist]
  intro m m' hsub hname
  have hm := hsub.subset List.mem_cons_self
  have hm' := hsub.subset (List.mem_cons_of_mem m List.mem_cons_self)
  constructor
  · obtain ⟨before, last, after, hsplit, hafter, hkey, hnil⟩ := hall.others haccepted hm'
    rw [hsplit] at hsub
    exact hnil m (Or.inl (mem_before_of_sublist hafter hkey.symm hsub)) hname
  · intro hne
    obtain ⟨before, last, after, hsplit, -, hkey, hnil⟩ := hall.others haccepted hm
    refine hnil m' ?_ hname.symm
    rw [hsplit, List.mem_append, List.mem_cons] at hm'
    rcases hm' with hbefore | rfl | hafter
    · exact Or.inl hbefore
    · exact absurd hkey.symm hne
    · exact Or.inr hafter

/-- The member that stays for a name has all its values. -/
theorem PayloadMembers.Apart.eq_heldFor (hapart : (payloadMembers data).Apart) {name : GoString}
    (hm : chosen range (payloadMembers data).kept name = some m) : m.2 = heldFor data name := by
  obtain ⟨rfl, hlast⟩ := chosen_eq_some hm
  rw [heldFor, valuesFor_append, valuesFor_eq_nil fun d hd _ => hapart.dropped d hd,
    List.nil_append, valuesFor_of_isLast hapart.kept hlast]

theorem PayloadMembers.Apart.heldFor_of_none (hapart : (payloadMembers data).Apart)
    {name : GoString} (hnone : chosen range (payloadMembers data).kept name = none) :
    heldFor data name = [] := by
  have hkept : valuesFor (payloadMembers data).kept name = [] :=
    valuesFor_eq_nil fun m hmem hname => absurd hname (chosen_eq_none.mp hnone m hmem)
  rw [heldFor, valuesFor_append, valuesFor_eq_nil fun d hd _ => hapart.dropped d hd, hkept,
    List.nil_append]

theorem keepsAll_of_apart (hapart : isAccepted data = true → (payloadMembers data).Apart) :
    KeepsAll data where
  values := by
    intro range h hunmarshal name
    obtain ⟨haccepted, hlookup⟩ := lookup_of_unmarshalHeaders hunmarshal
    rw [Header.values, hlookup]
    cases hm : chosen range (payloadMembers data).kept name with
    | none => exact List.Perm.of_eq ((hapart haccepted).heldFor_of_none hm).symm
    | some m => exact List.Perm.of_eq ((hapart haccepted).eq_heldFor hm)
  same := by
    intro range range' h h' hunmarshal hunmarshal' name
    obtain ⟨haccepted, hlookup⟩ := lookup_of_unmarshalHeaders hunmarshal
    rw [hlookup, (lookup_of_unmarshalHeaders hunmarshal').2]
    cases hm : chosen range (payloadMembers data).kept name with
    | none => rw [chosen_eq_none.mpr (chosen_eq_none.mp hm)]
    | some m =>
        cases hm' : chosen range' (payloadMembers data).kept name with
        | none =>
            rw [chosen_eq_none.mpr (chosen_eq_none.mp hm')] at hm
            cases hm
        | some m' =>
            have hsame : m.2 = m'.2 := by
              rw [(hapart haccepted).eq_heldFor hm, (hapart haccepted).eq_heldFor hm']
            rw [Option.map_some, Option.map_some, hsame]

end

/-- No metadata is lost exactly if no member is in the way of another. -/
theorem all_values_kept_iff (data : Bytes) :
    KeepsAll data ↔ (isAccepted data = true → (payloadMembers data).Apart) := by
  constructor
  · intro hall haccepted
    exact ⟨fun m hm => hall.dropped haccepted hm, hall.kept haccepted⟩
  · exact keepsAll_of_apart

/-- One header under two spellings of its name. -/
def spelledTwice : Bytes :=
  "\x7b\"metadata\":\x7b\"X-Tag\":[\"a\"],\"x-tag\":[\"b\"]\x7d\x7d".toUTF8.toList

theorem spelled_twice_loses_value : ¬ KeepsAll spelledTwice := by
  intro hall
  have hread : (unmarshalHeaders .stored spelledTwice).map
      (fun h => (h.values "X-Tag".toList).length) = some 1 := by
    decide +kernel
  have hheld : (heldFor spelledTwice "X-Tag".toList).length = 2 := by
    decide +kernel
  obtain ⟨h, hunmarshal, hlength⟩ := Option.map_eq_some_iff.mp hread
  have hperm := (hall.values .stored h hunmarshal "X-Tag".toList).length_eq
  omega

end ConnectProtocol
end BidiWeb
