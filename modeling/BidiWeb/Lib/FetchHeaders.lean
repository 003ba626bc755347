/-
  BidiWeb.Lib.FetchHeaders

  The `Headers` class of the web platform.  Names and values that it refuses
  cannot be built, so that only `append` on arbitrary strings can throw.
-/

import BidiWeb.Lib.JsObject
import Mathlib.Data.List.Dedup
import Mathlib.Data.List.Sort
import Mathlib.Data.List.TakeWhile

namespace BidiWeb
namespace Lib

-- ============================================================================
-- Names
-- ============================================================================

def isLetter (u : UInt16) : Bool := (0x41 ≤ u && u ≤ 0x5A) || (0x61 ≤ u && u ≤ 0x7A)

/-- A code unit of an HTTP token. -/
def isTokenUnit (u : UInt16) : Bool :=
  isLetter u || (0x30 ≤ u && u ≤ 0x39) || (js "!#$%&'*+-.^_`|~").contains u

def lowerUnit (u : UInt16) : UInt16 := if 0x41 ≤ u ∧ u ≤ 0x5A then u + 0x20 else u

theorem lowerUnit_digit {u : UInt16} (h : 0x30 ≤ lowerUnit u ∧ lowerUnit u ≤ 0x39) :
    lowerUnit u = u := by
  unfold lowerUnit at h ⊢
  split
  · rename_i hupper
    rw [if_pos hupper] at h
    have h₁ := UInt16.le_iff_toNat_le.mp hupper.1
    have h₂ := UInt16.le_iff_toNat_le.mp hupper.2
    have h₃ := UInt16.le_iff_toNat_le.mp h.2
    rw [UInt16.toNat_add] at h₃
    simp at h₁ h₂ h₃
    omega
  · rfl

/-- There are no cases to an array index. -/
theorem map_lowerUnit_of_arrayIndex {key : JsString} (h : arrayIndex (key.map lowerUnit) ≠ none) :
    key.map lowerUnit = key := by
  have hdigits := digits_of_arrayIndex h
  refine (List.map_congr_left fun u hu => ?_).trans (List.map_id key)
  exact lowerUnit_digit (hdigits _ (List.mem_map_of_mem hu))

theorem arrayIndex_map_lowerUnit (key : JsString) :
    arrayIndex (key.map lowerUnit) = none ↔ arrayIndex key = none := by
  by_cases hlower : key.map lowerUnit = key
  · rw [hlower]
  · have hleft : arrayIndex (key.map lowerUnit) = none := by
      by_contra hindex
      exact hlower (map_lowerUnit_of_arrayIndex hindex)
    have hright : arrayIndex key = none := by
      by_contra hindex
      have hdigits := digits_of_arrayIndex hindex
      refine hlower ((List.map_congr_left fun u hu => ?_).trans (List.map_id key))
      have hnot : ¬ (0x41 ≤ u ∧ u ≤ 0x5A) := by
        intro hupper
        have h₁ := UInt16.le_iff_toNat_le.mp hupper.1
        have h₂ := UInt16.le_iff_toNat_le.mp (hdigits u hu).2
        simp at h₁ h₂
        omega
      exact if_neg hnot
    exact iff_of_true hleft hright

/-- The spellings of one name are visited in the order of their creation. -/
theorem filter_entries_spelling {α : Type} (o : PlainObject α) (name : JsString) :
    o.entries.filter (fun e => e.1.map lowerUnit = name) =
      o.properties.filter fun e => e.1.map lowerUnit = name := by
  by_cases hindex : arrayIndex name = none
  · refine o.filter_entries fun e _ he => ?_
    rw [← arrayIndex_map_lowerUnit, of_decide_eq_true he, hindex]
  · have hspelling : ∀ key : JsString, key.map lowerUnit = name ↔ key = name := by
      intro key
      constructor
      · rintro rfl
        exact (map_lowerUnit_of_arrayIndex hindex).symm
      · rintro rfl
        exact map_lowerUnit_of_arrayIndex ((arrayIndex_map_lowerUnit key).not.mpr hindex)
    simp only [hspelling]
    exact o.filter_entries_name name

/-- A header name: an HTTP token in lower case. -/
structure HeaderName where
  units : JsString
  isToken : units ≠ [] ∧ units.all isTokenUnit
  isLower : units.map lowerUnit = units
deriving DecidableEq

/-- A header value: Latin-1 without NUL, CR or LF. -/
structure HeaderValue where
  units : JsString
  isValid : units.all fun u => u ≤ 0xFF ∧ u ≠ 0 ∧ u ≠ 0x0A ∧ u ≠ 0x0D
deriving DecidableEq

namespace HeaderName

theorem ext {n n' : HeaderName} (h : n.units = n'.units) : n = n' := by
  cases n
  cases n'
  cases h
  rfl

theorem isTokenUnit_lowerUnit {u : UInt16} (h : isTokenUnit u) : isTokenUnit (lowerUnit u) := by
  unfold lowerUnit
  split
  · rename_i hupper
    have hlow : 0x61 ≤ u + 0x20 ∧ u + 0x20 ≤ 0x7A := by
      have h₁ := UInt16.le_iff_toNat_le.mp hupper.1
      have h₂ := UInt16.le_iff_toNat_le.mp hupper.2
      constructor <;> rw [UInt16.le_iff_toNat_le, UInt16.toNat_add] <;>
        simp at h₁ h₂ ⊢ <;> omega
    simp [isTokenUnit, isLetter, hlow]
  · exact h

theorem lowerUnit_lowerUnit (u : UInt16) : lowerUnit (lowerUnit u) = lowerUnit u := by
  unfold lowerUnit
  split
  · rename_i hupper
    have h₁ := UInt16.le_iff_toNat_le.mp hupper.1
    have h₂ := UInt16.le_iff_toNat_le.mp hupper.2
    rw [if_neg]
    rintro ⟨-, h₃⟩
    have h₃ := UInt16.le_iff_toNat_le.mp h₃
    rw [UInt16.toNat_add] at h₃
    simp at h₁ h₂ h₃
    omega
  · rfl

/-- What `Headers` makes of a name, unless it throws. -/
def ofString? (s : JsString) : Option HeaderName :=
  if h : s ≠ [] ∧ s.all isTokenUnit then
    some
      { units := s.map lowerUnit
        isToken := by
          refine ⟨by simpa using h.1, ?_⟩
          rw [List.all_map]
          exact List.all_eq_true.mpr fun u hu =>
            isTokenUnit_lowerUnit (List.all_eq_true.mp h.2 u hu)
        isLower := by
          rw [List.map_map]
          exact List.map_congr_left fun u _ => lowerUnit_lowerUnit u }
  else none

theorem units_ofString? {s : JsString} {name : HeaderName} (h : ofString? s = some name) :
    name.units = s.map lowerUnit := by
  unfold ofString? at h
  split at h
  · obtain rfl := Option.some.inj h
    rfl
  · cases h

end HeaderName

-- ============================================================================
-- Values
-- ============================================================================

namespace HeaderValue

def isSpace (u : UInt16) : Bool := u = 0x09 || u = 0x0A || u = 0x0D || u = 0x20

/-- Without the HTTP white space at both ends. -/
def strip (s : JsString) : JsString :=
  ((s.dropWhile isSpace).reverse.dropWhile isSpace).reverse

theorem mem_of_mem_strip {s : JsString} {u : UInt16} (h : u ∈ strip s) : u ∈ s := by
  have hdrop := (List.dropWhile_sublist isSpace).subset (List.mem_reverse.mp h)
  exact (List.dropWhile_sublist isSpace).subset (List.mem_reverse.mp hdrop)

theorem dropWhile_eq_self {s : JsString} {p : UInt16 → Bool}
    (h : ∀ u, s.head? = some u → p u = false) : s.dropWhile p = s := by
  cases s with
  | nil => rfl
  | cons u us => rw [List.dropWhile_cons, h u rfl, if_neg Bool.false_ne_true]

theorem head_dropWhile {s : JsString} {p : UInt16 → Bool} {u : UInt16}
    (h : (s.dropWhile p).head? = some u) : p u = false := by
  induction s with
  | nil => cases h
  | cons v vs ih =>
      rw [List.dropWhile_cons] at h
      split at h
      · exact ih h
      · rename_i hv
        obtain rfl := Option.some.inj h
        exact Bool.eq_false_iff.mpr hv

/-- A value that has been stripped stays as it is. -/
theorem strip_strip (s : JsString) : strip (strip s) = strip s := by
  let t := s.dropWhile isSpace
  have hstrip : strip s = (t.reverse.dropWhile isSpace).reverse := rfl
  -- what is left starts as `t` does
  have hfront : (strip s).dropWhile isSpace = strip s := by
    refine dropWhile_eq_self fun u hu => ?_
    have hprefix : strip s <+: t := by
      rw [hstrip, ← List.reverse_suffix, List.reverse_reverse]
      exact List.dropWhile_suffix isSpace
    obtain ⟨rest, hrest⟩ := hprefix
    refine head_dropWhile (s := s) ?_
    show t.head? = some u
    rw [← hrest, List.head?_append, hu]
    rfl
  have hback : (strip s).reverse.dropWhile isSpace = (strip s).reverse := by
    rw [hstrip, List.reverse_reverse]
    exact dropWhile_eq_self fun u hu => head_dropWhile hu
  rw [strip, hfront, hback, List.reverse_reverse]

/-- Nothing is stripped from a string without white space at its ends. -/
theorem strip_eq_self_iff {s : JsString} : strip s = s ↔
    (∀ u, s.head? = some u → isSpace u = false) ∧ ∀ u, s.getLast? = some u → isSpace u = false := by
  constructor
  · intro h
    constructor
    · intro u hu
      have hfront : (s.dropWhile isSpace).length = s.length := by
        have hle := (List.dropWhile_suffix isSpace (l := s)).length_le
        have hstrip := congrArg List.length h
        have hback := (List.dropWhile_suffix isSpace
          (l := (s.dropWhile isSpace).reverse)).length_le
        rw [strip, List.length_reverse] at hstrip
        rw [List.length_reverse] at hback
        omega
      have hsame := (List.dropWhile_suffix isSpace).eq_of_length hfront
      exact head_dropWhile (s := s) (hsame.symm ▸ hu)
    · intro u hu
      rw [← h, strip, List.getLast?_reverse] at hu
      exact head_dropWhile hu
  · rintro ⟨hfront, hback⟩
    have hreverse : s.reverse.dropWhile isSpace = s.reverse :=
      dropWhile_eq_self fun u hu => hback u (by rwa [List.head?_reverse] at hu)
    rw [strip, dropWhile_eq_self hfront, hreverse, List.reverse_reverse]

/-- What `Headers` makes of a value, unless it throws. -/
def ofString? (s : JsString) : Option HeaderValue :=
  if h : (strip s).all fun u => u ≤ 0xFF ∧ u ≠ 0 ∧ u ≠ 0x0A ∧ u ≠ 0x0D then
    some ⟨strip s, h⟩
  else none

def normalize (v : HeaderValue) : HeaderValue where
  units := strip v.units
  isValid := List.all_eq_true.mpr fun u hu =>
    List.all_eq_true.mp v.isValid u (mem_of_mem_strip hu)

@[simp] theorem normalize_normalize (v : HeaderValue) : v.normalize.normalize = v.normalize := by
  rw [HeaderValue.mk.injEq]
  exact strip_strip v.units

theorem normalize_ofString? {s : JsString} {v : HeaderValue} (h : ofString? s = some v) :
    v.normalize.units = strip s := by
  unfold ofString? at h
  split at h
  · obtain rfl := Option.some.inj h
    exact strip_strip s
  · cases h

/-- Several values as one, separated by a comma and a space. -/
def combine : HeaderValue → List HeaderValue → HeaderValue
  | v, [] => v
  | v, w :: ws =>
      let rest := combine w ws
      { units := v.units ++ js ", " ++ rest.units
        isValid := by
          rw [List.all_append, List.all_append, v.isValid, rest.isValid]
          decide }

theorem units_combine (v : HeaderValue) (vs : List HeaderValue) :
    (combine v vs).units = (js ", ").intercalate ((v :: vs).map (·.units)) := by
  induction vs generalizing v with
  | nil => simp [combine]
  | cons w ws ih =>
      rw [combine, List.map_cons, List.map_cons, List.intercalate_cons_cons, ← List.map_cons, ← ih]

theorem ext {v w : HeaderValue} (h : v.units = w.units) : v = w := by
  cases v
  cases w
  cases h
  rfl

/-- A combined value ends as the last of the values does; a last one that is
    empty leaves the space before it. -/
theorem back_combine {v : HeaderValue} {vs : List HeaderValue}
    (hall : ∀ w ∈ v :: vs, strip w.units = w.units) :
    (∀ u, (combine v vs).units.getLast? = some u → isSpace u = false) ↔
      (vs = [] ∨ ((v :: vs).map (·.units)).getLast? ≠ some []) := by
  have hcomma : js ", " = [0x2C, 0x20] := by decide
  induction vs generalizing v with
  | nil => exact iff_of_true (strip_eq_self_iff.mp (hall v List.mem_cons_self)).2 (Or.inl rfl)
  | cons w ws ih =>
      rw [List.forall_mem_cons] at hall
      have hlast : ((v :: w :: ws).map (·.units)).getLast? =
          ((w :: ws).map (·.units)).getLast? := by
        rw [List.map_cons, List.map_cons, List.getLast?_cons_cons]
      have hunits : (combine v (w :: ws)).units = v.units ++ js ", " ++ (combine w ws).units := rfl
      rw [or_iff_right (List.cons_ne_nil w ws), hlast, hunits, List.getLast?_append]
      cases ws with
      | nil =>
          have hw := (strip_eq_self_iff.mp (hall.2 w List.mem_cons_self)).2
          cases hempty : w.units with
          | nil =>
              refine iff_of_false (fun h => ?_) (fun h => h (by simp [hempty]))
              have hspace := h 0x20 (by simp [combine, hempty, hcomma])
              cases hspace
          | cons u us =>
              rw [hempty] at hw
              have hsome : (u :: us).getLast?.isSome := by simp
              obtain ⟨last, hlast⟩ := Option.isSome_iff_exists.mp hsome
              refine iff_of_true (fun u' hu' => hw u' ?_) (by simp [hempty])
              rw [combine, hempty, hlast] at hu'
              rw [hlast]
              exact hu'
      | cons x xs =>
          have hrest := ih hall.2
          rw [or_iff_right (List.cons_ne_nil x xs)] at hrest
          refine Iff.trans ?_ hrest
          have hsome : (combine w (x :: xs)).units.getLast?.isSome := by
            rw [List.getLast?_isSome]
            simp [combine, hcomma]
          obtain ⟨last, hlast⟩ := Option.isSome_iff_exists.mp hsome
          rw [hlast]
          rfl

theorem strip_combine_iff {v : HeaderValue} {vs : List HeaderValue}
    (hall : ∀ w ∈ v :: vs, strip w.units = w.units) :
    strip (combine v vs).units = (combine v vs).units ↔
      (vs = [] ∨ ((v :: vs).map (·.units)).getLast? ≠ some []) := by
  rw [strip_eq_self_iff, back_combine hall, and_iff_right]
  intro u hu
  have hv := (strip_eq_self_iff.mp (hall v List.mem_cons_self)).1
  cases vs with
  | nil => exact hv u hu
  | cons w ws =>
      have hunits : (combine v (w :: ws)).units = v.units ++ js ", " ++ (combine w ws).units := rfl
      rw [hunits, List.append_assoc, List.head?_append] at hu
      cases hempty : v.units with
      | nil =>
          rw [hempty] at hu
          obtain rfl : 0x2C = u := Option.some.inj hu
          rfl
      | cons u' us =>
          rw [hempty] at hu hv
          exact hv u hu

/-- `String.prototype.toLowerCase`, for Latin-1. -/
def toLowerCase (v : HeaderValue) : JsString :=
  v.units.map fun u =>
    if (0x41 ≤ u ∧ u ≤ 0x5A) ∨ (0xC0 ≤ u ∧ u ≤ 0xDE ∧ u ≠ 0xD7) then u + 0x20 else u

end HeaderValue

-- ============================================================================
-- Headers
-- ============================================================================

structure Headers where
  list : List (HeaderName × HeaderValue) := []
deriving DecidableEq

theorem flatMap_ite {α β : Type} (p : α → Prop) [DecidablePred p] (f : α → List β) (l : List α) :
    (l.flatMap fun a => if p a then f a else []) = (l.filter p).flatMap f := by
  induction l with
  | nil => rfl
  | cons a l ih =>
      rw [List.flatMap_cons, ih]
      by_cases ha : p a
      · simp [ha]
      · simp [ha]

/-- What a list without duplicates makes of one of its elements. -/
theorem flatMap_single {α β : Type} [DecidableEq α] {l : List α} (hl : l.Nodup) (a : α)
    (f : α → List β) :
    (l.flatMap fun b => if b = a then f b else []) = if a ∈ l then f a else [] := by
  induction l with
  | nil => rfl
  | cons b l ih =>
      rw [List.nodup_cons] at hl
      rw [List.flatMap_cons, ih hl.2]
      by_cases hb : b = a
      · subst hb
        simp [hl.1]
      · simp [hb, Ne.symm hb]

namespace Headers

variable (h : Headers)

def keys : List HeaderName := h.list.map (·.1)

def valuesOf (name : HeaderName) : List HeaderValue :=
  (h.list.filter fun e => e.1 = name).map (·.2)

/-- The values of a header as strings. -/
def strings (name : HeaderName) : List JsString := (h.valuesOf name).map (·.units)

def get (name : HeaderName) : Option HeaderValue :=
  match h.valuesOf name with
  | [] => none
  | v :: vs => some (HeaderValue.combine v vs)

def append (name : HeaderName) (value : HeaderValue) : Headers :=
  ⟨h.list ++ [(name, value.normalize)]⟩

def delete (name : HeaderName) : Headers := ⟨h.list.filter fun e => e.1 ≠ name⟩

/-- The first of the values is replaced, the others are removed. -/
def set (name : HeaderName) (value : HeaderValue) : Headers :=
  if name ∈ h.keys then
    let before := h.list.takeWhile fun e => e.1 ≠ name
    let after := (h.list.dropWhile fun e => e.1 ≠ name).filter fun e => e.1 ≠ name
    ⟨before ++ (name, value.normalize) :: after⟩
  else h.append name value

def setCookie : HeaderName := ⟨js "set-cookie", by decide, by decide⟩

/-- What iterating over the headers yields: the names in order, each once
    with its values combined, except for cookies. -/
def entries : List (HeaderName × HeaderValue) :=
  let names := h.keys.dedup.insertionSort fun a b => ¬ b.units < a.units
  names.flatMap fun name =>
    if name = setCookie then (h.valuesOf name).map fun v => (name, v)
    else (h.get name).toList.map fun v => (name, v)

theorem valuesOf_ne_nil {name : HeaderName} : h.valuesOf name ≠ [] ↔ name ∈ h.keys := by
  rw [valuesOf, keys, ne_eq, List.map_eq_nil_iff, List.filter_eq_nil_iff, List.mem_map]
  constructor
  · intro hnot
    by_contra hnone
    exact hnot fun e he => by simpa using fun heq => hnone ⟨e, he, heq⟩
  · rintro ⟨e, he, rfl⟩ hnot
    exact hnot e he (by simp)

theorem units_get (name : HeaderName) :
    (h.get name).map (·.units) =
      if h.strings name = [] then none else some ((js ", ").intercalate (h.strings name)) := by
  rw [get, strings]
  cases h.valuesOf name with
  | nil => rfl
  | cons v vs => simp [HeaderValue.units_combine]

/-- What iterating yields for one name. -/
def yielded (name : HeaderName) : List HeaderValue :=
  if name = setCookie then h.valuesOf name else (h.get name).toList

theorem yielded_ne_nil {name : HeaderName} : h.yielded name ≠ [] ↔ name ∈ h.keys := by
  rw [← h.valuesOf_ne_nil, yielded, get]
  cases h.valuesOf name with
  | nil => simp
  | cons v vs => by_cases hcookie : name = setCookie <;> simp [hcookie]

theorem entries_eq : h.entries =
    (h.keys.dedup.insertionSort fun a b => ¬ b.units < a.units).flatMap fun name =>
      (h.yielded name).map fun v => (name, v) := by
  unfold entries yielded
  refine List.flatMap_congr fun name _ => ?_
  split <;> rfl

theorem filter_entries (name : HeaderName) :
    h.entries.filter (fun e => e.1 = name) = (h.yielded name).map fun v => (name, v) := by
  have hnodup : (h.keys.dedup.insertionSort fun a b => ¬ b.units < a.units).Nodup :=
    (List.perm_insertionSort _ _).nodup_iff.mpr (List.nodup_dedup _)
  have hmem : name ∈ h.keys.dedup.insertionSort (fun a b => ¬ b.units < a.units) ↔
      name ∈ h.keys := by
    rw [(List.perm_insertionSort _ _).mem_iff, List.mem_dedup]
  have hnone : name ∉ h.keys → h.yielded name = [] := by
    intro hname
    by_contra hsome
    exact hname (h.yielded_ne_nil.mp hsome)
  have hinner : ∀ n, ((h.yielded n).map fun v => (n, v)).filter (fun e => e.1 = name) =
      if n = name then (h.yielded n).map fun v => (n, v) else [] := by
    intro n
    split
    · rename_i hn
      exact List.filter_eq_self.mpr fun e he => by
        obtain ⟨v, -, rfl⟩ := List.mem_map.mp he
        simpa using hn
    · rename_i hn
      refine List.filter_eq_nil_iff.mpr fun e he => ?_
      obtain ⟨v, -, rfl⟩ := List.mem_map.mp he
      simpa using hn
  rw [entries_eq, List.filter_flatMap]
  simp only [hinner]
  rw [flatMap_single hnodup]
  split
  · rfl
  · rename_i hname
    rw [hnone fun hkey => hname (hmem.mpr hkey)]
    rfl

/-- The names in the order in which iterating visits them. -/
theorem names_unique {names names' : List HeaderName} (h : names.Nodup) (h' : names'.Nodup)
    (hmem : ∀ name, name ∈ names ↔ name ∈ names') :
    (names.insertionSort fun a b => ¬ b.units < a.units) =
      names'.insertionSort fun a b => ¬ b.units < a.units := by
  let r : HeaderName → HeaderName → Prop := fun a b => ¬ b.units < a.units
  have htotal : Std.Total r := ⟨fun a b => List.le_total a.units b.units⟩
  have htrans : IsTrans HeaderName r := ⟨fun _ _ _ => List.le_trans⟩
  have hanti : Std.Antisymm r := ⟨fun _ _ hab hba => HeaderName.ext (List.le_antisymm hab hba)⟩
  have hperm : (names.insertionSort r).Perm (names'.insertionSort r) :=
    ((List.perm_insertionSort r names).trans ((List.perm_ext_iff_of_nodup h h').mpr hmem)).trans
      (List.perm_insertionSort r names').symm
  exact hperm.eq_of_pairwise' (List.pairwise_insertionSort r names)
    (List.pairwise_insertionSort r names')

/-- Headers iterate alike if they yield the same for each name. -/
theorem entries_eq_iff {h' : Headers} :
    h'.entries = h.entries ↔ ∀ name, h'.yielded name = h.yielded name := by
  constructor
  · intro heq name
    have hfilter := h.filter_entries name
    rw [← heq, h'.filter_entries] at hfilter
    exact List.map_injective_iff.mpr (Prod.mk_right_injective name) hfilter
  · intro hall
    have hmem : ∀ name, name ∈ h'.keys.dedup ↔ name ∈ h.keys.dedup := by
      intro name
      rw [List.mem_dedup, List.mem_dedup, ← h'.yielded_ne_nil, ← h.yielded_ne_nil, hall]
    rw [entries_eq, entries_eq, names_unique (List.nodup_dedup _) (List.nodup_dedup _) hmem]
    exact List.flatMap_congr fun name _ => by rw [hall]

/-- What `Headers` holds has been stripped. -/
def Normalized : Prop := ∀ e ∈ h.list, HeaderValue.strip e.2.units = e.2.units

instance : Decidable h.Normalized :=
  inferInstanceAs (Decidable (∀ e ∈ h.list, HeaderValue.strip e.2.units = e.2.units))

theorem Normalized.append {h : Headers} (hh : h.Normalized) (name : HeaderName)
    (value : HeaderValue) : (h.append name value).Normalized := by
  intro e he
  rcases List.mem_append.mp he with hold | hnew
  · exact hh e hold
  · obtain rfl := List.mem_singleton.mp hnew
    exact HeaderValue.strip_strip value.units

/-- Several values are combined, and the last of them is empty. -/
def EndsEmpty (name : HeaderName) : Prop :=
  name ≠ setCookie ∧ 2 ≤ (h.valuesOf name).length ∧ (h.strings name).getLast? = some []

instance (name : HeaderName) : Decidable (h.EndsEmpty name) :=
  inferInstanceAs (Decidable (_ ∧ _))

theorem Normalized.yielded_iff {h : Headers} (hh : h.Normalized) (name : HeaderName) :
    (∀ v ∈ h.yielded name, HeaderValue.strip v.units = v.units) ↔ ¬ h.EndsEmpty name := by
  have hall : ∀ v ∈ h.valuesOf name, HeaderValue.strip v.units = v.units := by
    intro v hv
    obtain ⟨e, he, rfl⟩ := List.mem_map.mp hv
    exact hh e (List.mem_filter.mp he).1
  unfold yielded EndsEmpty
  by_cases hcookie : name = setCookie
  · rw [if_pos hcookie]
    exact iff_of_true hall fun hends => hends.1 hcookie
  · rw [if_neg hcookie, get, strings]
    cases hvalues : h.valuesOf name with
    | nil => simp
    | cons v vs =>
        rw [hvalues] at hall
        have hcombine := HeaderValue.strip_combine_iff hall
        cases vs with
        | nil => simpa [hcookie] using hcombine
        | cons w ws => simpa [hcookie] using hcombine

/-- Iterating visits every name there is. -/
theorem mem_entries_keys {name : HeaderName} : name ∈ h.entries.map (·.1) ↔ name ∈ h.keys := by
  have hnames : name ∈ h.keys.dedup.insertionSort (fun a b => ¬ b.units < a.units) ↔
      name ∈ h.keys := by
    rw [(List.perm_insertionSort _ _).mem_iff, List.mem_dedup]
  rw [← hnames, List.mem_map]
  constructor
  · rintro ⟨e, he, rfl⟩
    obtain ⟨n, hn, hmem⟩ := List.mem_flatMap.mp he
    have hname : e.1 = n := by
      split at hmem
      · obtain ⟨v, -, rfl⟩ := List.mem_map.mp hmem
        rfl
      · obtain ⟨v, -, rfl⟩ := List.mem_map.mp hmem
        rfl
    exact hname ▸ hn
  · intro hmem
    obtain ⟨v, vs, hvalues⟩ := List.exists_cons_of_ne_nil (h.valuesOf_ne_nil.mpr (hnames.mp hmem))
    by_cases hcookie : name = setCookie
    · refine ⟨(name, v), List.mem_flatMap.mpr ⟨name, hmem, ?_⟩, rfl⟩
      rw [if_pos hcookie, hvalues]
      exact List.mem_cons_self ..
    · refine ⟨(name, HeaderValue.combine v vs), List.mem_flatMap.mpr ⟨name, hmem, ?_⟩, rfl⟩
      rw [if_neg hcookie, get, hvalues]
      exact List.mem_singleton_self _

theorem valuesOf_append (name n : HeaderName) (value : HeaderValue) :
    (h.append name value).valuesOf n =
      if name = n then h.valuesOf n ++ [value.normalize] else h.valuesOf n := by
  simp only [append, valuesOf, List.filter_append, List.map_append]
  split <;> simp [*]

theorem valuesOf_delete_of_ne {name n : HeaderName} (hne : n ≠ name) :
    (h.delete name).valuesOf n = h.valuesOf n := by
  rw [valuesOf, delete, List.filter_filter, valuesOf]
  congr 1
  refine List.filter_congr fun e _ => ?_
  by_cases he : e.1 = n
  · simp [he, hne]
  · simp [he]

theorem valuesOf_set_self (name : HeaderName) (value : HeaderValue) :
    (h.set name value).valuesOf name = [value.normalize] := by
  unfold set
  split
  · have hbefore : (h.list.takeWhile fun e => e.1 ≠ name).filter (fun e => e.1 = name) = [] := by
      refine List.filter_eq_nil_iff.mpr fun e he => ?_
      have hother := List.mem_takeWhile_imp he
      simpa using hother
    simp only [valuesOf]
    rw [List.filter_append, hbefore, List.nil_append, List.filter_cons_of_pos (by simp)]
    simp
  · rename_i hname
    have hnone : h.valuesOf name = [] := by
      by_contra hsome
      exact hname (h.valuesOf_ne_nil.mp hsome)
    rw [valuesOf_append, if_pos rfl, hnone]
    rfl

theorem valuesOf_set_of_ne {name n : HeaderName} (hne : n ≠ name) (value : HeaderValue) :
    (h.set name value).valuesOf n = h.valuesOf n := by
  unfold set
  split
  · have hrest : ∀ es : List (HeaderName × HeaderValue),
        (es.filter fun e => e.1 ≠ name).filter (fun e => e.1 = n) = es.filter fun e => e.1 = n := by
      intro es
      rw [List.filter_filter]
      refine List.filter_congr fun e _ => ?_
      by_cases he : e.1 = n
      · simp [he, hne]
      · simp [he]
    simp only [valuesOf]
    rw [List.filter_append, List.filter_cons_of_neg (by simpa using hne.symm), hrest,
      ← List.filter_append, List.takeWhile_append_dropWhile]
  · rw [valuesOf_append, if_neg hne.symm]

theorem get_of_valuesOf {h' : Headers} {n n' : HeaderName}
    (hvalues : h'.valuesOf n' = h.valuesOf n) : h'.get n' = h.get n := by
  rw [get, get, hvalues]

theorem get_set_self (name : HeaderName) (value : HeaderValue) :
    (h.set name value).get name = some value.normalize := by
  rw [get, valuesOf_set_self]
  rfl

theorem get_set_of_ne {name n : HeaderName} (hne : n ≠ name) (value : HeaderValue) :
    (h.set name value).get n = h.get n := h.get_of_valuesOf (h.valuesOf_set_of_ne hne value)

theorem get_delete_of_ne {name n : HeaderName} (hne : n ≠ name) :
    (h.delete name).get n = h.get n := h.get_of_valuesOf (h.valuesOf_delete_of_ne hne)

theorem mem_set_keys {name n : HeaderName} {value : HeaderValue} :
    n ∈ (h.set name value).keys ↔ n = name ∨ n ∈ h.keys := by
  unfold set
  split
  · rename_i hname
    by_cases heq : n = name
    · simp [keys, heq]
    · have hsplit : n ∈ h.keys ↔
          n ∈ (h.list.takeWhile fun e => e.1 ≠ name).map (·.1) ∨
            n ∈ (h.list.dropWhile fun e => e.1 ≠ name).map (·.1) := by
        rw [← List.mem_append, ← List.map_append, List.takeWhile_append_dropWhile, keys]
      rw [hsplit]
      simp [keys, heq]
  · simp [keys, append, or_comm]

end Headers
end Lib
end BidiWeb
