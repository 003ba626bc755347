/-
  BidiWeb.Lib.JsObject

  JavaScript strings and plain objects, and the JSON texts and the strings
  that `JSON.stringify` and a template literal make of a value.

  A plain object inherits the properties of `Object.prototype`, so that
  `object[key]` is not `undefined` for every key that was never set.
-/

import BidiWeb.Lib.Json
import Mathlib.Data.List.Nodup
import Mathlib.Data.List.Sort

namespace BidiWeb
namespace Lib

/-- A JavaScript string: UTF-16 code units. -/
abbrev JsString := List UInt16

def js (s : String) : JsString := Unicode.encodeUtf16 s.toList

/-- A loop that may throw does not, if no step does; which steps throw may
    depend on an invariant of the loop. -/
theorem foldlM_ok_iff_of_keeps {σ α ε : Type} {f : σ → α → Except ε σ} (I : σ → Prop) (P : α → Prop)
    (hok : ∀ s a, I s → ((∃ s', f s a = .ok s') ↔ P a))
    (hkeep : ∀ s a s', I s → f s a = .ok s' → I s') (l : List α) {s : σ} (hs : I s) :
    (∃ s', l.foldlM f s = .ok s') ↔ ∀ a ∈ l, P a := by
  induction l generalizing s with
  | nil => exact ⟨fun _ _ h => absurd h List.not_mem_nil, fun _ => ⟨s, rfl⟩⟩
  | cons a l ih =>
      rw [List.foldlM_cons, List.forall_mem_cons, ← hok s a hs]
      cases hstep : f s a with
      | error err =>
          constructor
          · rintro ⟨s', h⟩
            cases h
          · rintro ⟨⟨s', h⟩, -⟩
            cases h
      | ok s' =>
          rw [← ih (hkeep s a s' hs hstep)]
          exact ⟨fun h => ⟨⟨s', rfl⟩, h⟩, fun h => h.2⟩

theorem foldlM_ok_iff {σ α ε : Type} {f : σ → α → Except ε σ} {P : α → Prop}
    (hok : ∀ s a, (∃ s', f s a = .ok s') ↔ P a) (l : List α) (s : σ) :
    (∃ s', l.foldlM f s = .ok s') ↔ ∀ a ∈ l, P a :=
  foldlM_ok_iff_of_keeps (fun _ => True) P (fun s a _ => hok s a) (fun _ _ _ _ _ => trivial) l
    trivial

/-- The first step of a loop that does not throw, and the others. -/
theorem foldlM_cons_ok {σ α ε : Type} {f : σ → α → Except ε σ} {a : α} {l : List α} {s s' : σ}
    (h : (a :: l).foldlM f s = .ok s') : ∃ t, f s a = .ok t ∧ l.foldlM f t = .ok s' := by
  rw [List.foldlM_cons] at h
  cases hstep : f s a with
  | error err =>
      rw [hstep] at h
      cases h
  | ok t =>
      rw [hstep] at h
      exact ⟨t, rfl, h⟩

/-- A loop that may throw adds to `g` what its steps add. -/
theorem foldlM_append {σ α β ε : Type} {f : σ → α → Except ε σ} (g : σ → List β) (d : α → List β)
    (hstep : ∀ s a s', f s a = .ok s' → g s' = g s ++ d a) (l : List α) {s s' : σ}
    (h : l.foldlM f s = .ok s') : g s' = g s ++ l.flatMap d := by
  induction l generalizing s with
  | nil =>
      obtain rfl := Except.ok.inj h
      exact (List.append_nil _).symm
  | cons a l ih =>
      obtain ⟨t, ha, hrest⟩ := foldlM_cons_ok h
      rw [ih hrest, hstep s a t ha, List.flatMap_cons, List.append_assoc]

-- ============================================================================
-- Plain objects
-- ============================================================================

/-- The own properties of a plain object, in the order they were created. -/
structure PlainObject (α : Type) where
  properties : List (JsString × α) := []
  nodup : (properties.map (·.1)).Nodup := by exact List.nodup_nil

/-- The names an object literal inherits from `Object.prototype`. -/
def inheritedNames : List JsString :=
  ["__defineGetter__", "__defineSetter__", "__lookupGetter__", "__lookupSetter__", "__proto__",
    "constructor", "hasOwnProperty", "isPrototypeOf", "propertyIsEnumerable", "toLocaleString",
    "toString", "valueOf"].map js

def isInherited (key : JsString) : Bool := inheritedNames.any fun name => name = key

/-- The number an array index spells.  `Object.entries` starts with these. -/
def arrayIndex (key : JsString) : Option Nat :=
  if key = [] ∨ ¬ key.all (fun u => 0x30 ≤ u ∧ u ≤ 0x39) then none
  else
    let n := key.foldl (fun n u => n * 10 + (u.toNat - 0x30)) 0
    -- no leading zero, and less than 2^32 - 1
    if key.head? = some 0x30 ∧ key.length ≠ 1 ∨ 0xFFFFFFFF ≤ n then none else some n

theorem digits_of_arrayIndex {key : JsString} (h : arrayIndex key ≠ none) :
    ∀ u ∈ key, 0x30 ≤ u ∧ u ≤ 0x39 := by
  unfold arrayIndex at h
  split at h
  · exact absurd rfl h
  · rename_i hdigits
    rw [not_or, not_not] at hdigits
    exact fun u hu => by simpa using List.all_eq_true.mp hdigits.2 u hu

namespace PlainObject

variable {α : Type} (o : PlainObject α)

def keys : List JsString := o.properties.map (·.1)

/-- The own property `key`. -/
def get? (key : JsString) : Option α := (o.properties.find? fun p => p.1 = key).map (·.2)

/-- Create the property, or overwrite it where it is. -/
def set (key : JsString) (value : α) : PlainObject α :=
  if h : key ∈ o.keys then
    { properties := o.properties.map fun p => if p.1 = key then (key, value) else p
      nodup := by
        rw [List.map_map, List.map_congr_left]
        · exact o.nodup
        · intro p _
          by_cases hp : p.1 = key
          · simp [hp]
          · simp [hp] }
  else
    { properties := o.properties ++ [(key, value)]
      nodup := by
        rw [List.map_append, List.map_singleton]
        refine List.nodup_append.mpr ⟨o.nodup, List.nodup_singleton key, ?_⟩
        intro k hk k' hk' heq
        obtain rfl := List.mem_singleton.mp hk'
        exact h (heq ▸ hk) }

def ofMembers (members : List (JsString × α)) : PlainObject α :=
  members.foldl (fun o m => o.set m.1 m.2) {}

/-- `Object.entries` -/
def entries : List (JsString × α) :=
  let indices := o.properties.filter fun p => (arrayIndex p.1).isSome
  let names := o.properties.filter fun p => (arrayIndex p.1).isNone
  (indices.insertionSort fun p q => (arrayIndex p.1).getD 0 ≤ (arrayIndex q.1).getD 0) ++ names

theorem mem_keys_of_get? {key : JsString} {value : α} (h : o.get? key = some value) :
    key ∈ o.keys := by
  obtain ⟨p, hp, -⟩ := Option.map_eq_some_iff.mp h
  obtain rfl : p.1 = key := by simpa using List.find?_some hp
  exact List.mem_map_of_mem (List.mem_of_find?_eq_some hp)

theorem mem_keys_set {key k : JsString} {value : α} (h : k ∈ (o.set key value).keys) :
    k = key ∨ k ∈ o.keys := by
  unfold set keys at h
  split at h
  · obtain ⟨p, hp, rfl⟩ := List.mem_map.mp h
    obtain ⟨q, hq, rfl⟩ := List.mem_map.mp hp
    by_cases hkey : q.1 = key
    · simp [hkey]
    · rw [if_neg hkey]
      exact Or.inr (List.mem_map_of_mem hq)
  · rw [List.map_append, List.mem_append, List.map_singleton, List.mem_singleton] at h
    exact h.symm

/-- There is one property of each name. -/
theorem get?_eq_some_iff {key : JsString} {value : α} :
    o.get? key = some value ↔ (key, value) ∈ o.properties := by
  constructor
  · intro h
    obtain ⟨p, hp, rfl⟩ := Option.map_eq_some_iff.mp h
    obtain rfl : p.1 = key := by simpa using List.find?_some hp
    exact List.mem_of_find?_eq_some hp
  · intro hmem
    have hfound : (o.properties.find? fun p => p.1 = key).isSome := by
      rw [List.find?_isSome]
      exact ⟨_, hmem, by simp⟩
    obtain ⟨p, hp⟩ := Option.isSome_iff_exists.mp hfound
    have hkey : p.1 = key := by simpa using List.find?_some hp
    have heq := List.inj_on_of_nodup_map o.nodup (List.mem_of_find?_eq_some hp) hmem hkey
    rw [get?, hp, heq, Option.map_some]

@[simp] theorem get?_empty (key : JsString) : ({} : PlainObject α).get? key = none := rfl

@[simp] theorem get?_set_self (key : JsString) (value : α) :
    (o.set key value).get? key = some value := by
  rw [get?_eq_some_iff]
  unfold set
  split
  · rename_i hkey
    obtain ⟨p, hp, rfl⟩ := List.mem_map.mp hkey
    exact List.mem_map.mpr ⟨p, hp, if_pos rfl⟩
  · exact List.mem_append_right _ (List.mem_singleton_self _)

theorem get?_set_of_ne {key k : JsString} (hne : k ≠ key) (value : α) :
    (o.set key value).get? k = o.get? k := by
  apply Option.ext
  intro v
  rw [get?_eq_some_iff, get?_eq_some_iff]
  unfold set
  split
  · constructor
    · intro h
      obtain ⟨p, hp, heq⟩ := List.mem_map.mp h
      split at heq
      · exact absurd (Prod.mk.inj heq).1.symm hne
      · exact heq ▸ hp
    · intro h
      exact List.mem_map.mpr ⟨_, h, if_neg hne⟩
  · rw [List.mem_append, List.mem_singleton, Prod.mk.injEq]
    exact or_iff_left fun h => hne h.1

/-- Members of distinct names stay as they are. -/
theorem properties_ofMembers {members : List (JsString × α)} (h : (members.map (·.1)).Nodup) :
    (ofMembers members).properties = members := by
  have hloop : ∀ (members : List (JsString × α)) (o : PlainObject α),
      ((o.properties ++ members).map (·.1)).Nodup →
        (members.foldl (fun o m => o.set m.1 m.2) o).properties = o.properties ++ members := by
    intro members
    induction members with
    | nil => exact fun o _ => (List.append_nil _).symm
    | cons m members ih =>
        intro o hnodup
        have hnew : m.1 ∉ o.keys := by
          rw [List.map_append, List.map_cons] at hnodup
          intro hold
          exact (List.nodup_append.mp hnodup).2.2 _ hold _ List.mem_cons_self rfl
        have hset : (o.set m.1 m.2).properties = o.properties ++ [m] := by
          rw [set, dif_neg hnew]
        rw [List.foldl_cons, ih _ (by simpa [hset] using hnodup), hset, List.append_assoc,
          List.singleton_append]
  exact (hloop members {} (by simpa using h)).trans (List.nil_append members)

theorem entries_perm : o.entries.Perm o.properties := by
  have hsplit := List.filter_append_perm (fun p : JsString × α => (arrayIndex p.1).isSome)
    o.properties
  have hnot : (o.properties.filter fun p => !(arrayIndex p.1).isSome) =
      o.properties.filter fun p => (arrayIndex p.1).isNone := by simp
  rw [hnot] at hsplit
  exact ((List.perm_insertionSort _ _).append_right _).trans hsplit

theorem mem_entries {e : JsString × α} : e ∈ o.entries ↔ o.get? e.1 = some e.2 :=
  o.entries_perm.mem_iff.trans o.get?_eq_some_iff.symm

theorem nodup_entries : (o.entries.map (·.1)).Nodup :=
  (o.entries_perm.map (·.1)).nodup_iff.mpr o.nodup

/-- An object made of the entries of another is visited in the same order. -/
theorem entries_ofMembers_entries {β : Type} (f : α → β) :
    (ofMembers (o.entries.map fun e => (e.1, f e.2))).entries =
      o.entries.map fun e => (e.1, f e.2) := by
  have hnodup : ((o.entries.map fun e => (e.1, f e.2)).map (·.1)).Nodup := by
    rw [List.map_map]
    exact o.nodup_entries
  rw [entries, properties_ofMembers hnodup]
  let r : JsString × β → JsString × β → Prop :=
    fun p q => (arrayIndex p.1).getD 0 ≤ (arrayIndex q.1).getD 0
  let indices := (o.properties.filter fun p => (arrayIndex p.1).isSome).insertionSort
    fun p q => (arrayIndex p.1).getD 0 ≤ (arrayIndex q.1).getD 0
  let names := o.properties.filter fun p => (arrayIndex p.1).isNone
  have hindices : ∀ p ∈ indices, (arrayIndex p.1).isSome = true := fun p hp =>
    (List.mem_filter.mp ((List.perm_insertionSort _ _).mem_iff.mp hp)).2
  have hnames : ∀ p ∈ names, (arrayIndex p.1).isNone = true := fun p hp => (List.mem_filter.mp hp).2
  have hsorted : (indices.map fun e => (e.1, f e.2)).Pairwise r := by
    have htotal : Std.Total fun p q : JsString × α =>
        (arrayIndex p.1).getD 0 ≤ (arrayIndex q.1).getD 0 := ⟨fun _ _ => Nat.le_total _ _⟩
    have htrans : IsTrans (JsString × α) fun p q =>
        (arrayIndex p.1).getD 0 ≤ (arrayIndex q.1).getD 0 := ⟨fun _ _ _ => Nat.le_trans⟩
    rw [List.pairwise_map]
    exact List.pairwise_insertionSort _ _
  have hentries : o.entries = indices ++ names := rfl
  have hsome : (o.entries.map fun e => (e.1, f e.2)).filter (fun p => (arrayIndex p.1).isSome) =
      indices.map fun e => (e.1, f e.2) := by
    rw [hentries, List.map_append, List.filter_append, List.filter_eq_self.mpr,
      List.filter_eq_nil_iff.mpr, List.append_nil]
    · intro p hp
      obtain ⟨e, he, rfl⟩ := List.mem_map.mp hp
      simpa using hnames e he
    · intro p hp
      obtain ⟨e, he, rfl⟩ := List.mem_map.mp hp
      exact hindices e he
  have hnone : (o.entries.map fun e => (e.1, f e.2)).filter (fun p => (arrayIndex p.1).isNone) =
      names.map fun e => (e.1, f e.2) := by
    rw [hentries, List.map_append, List.filter_append, List.filter_eq_nil_iff.mpr,
      List.filter_eq_self.mpr, List.nil_append]
    · intro p hp
      obtain ⟨e, he, rfl⟩ := List.mem_map.mp hp
      exact hnames e he
    · intro p hp
      obtain ⟨e, he, rfl⟩ := List.mem_map.mp hp
      simpa [Option.isSome_iff_ne_none] using hindices e he
  simp only [hsome, hnone]
  rw [hsorted.insertionSort_eq, hentries, List.map_append]

/-- What has no array index for a name is visited in the order of creation. -/
theorem filter_entries {p : JsString × α → Bool}
    (hp : ∀ e ∈ o.properties, p e = true → arrayIndex e.1 = none) :
    o.entries.filter p = o.properties.filter p := by
  have hindices : ((o.properties.filter fun e => (arrayIndex e.1).isSome).insertionSort
      fun e f => (arrayIndex e.1).getD 0 ≤ (arrayIndex f.1).getD 0).filter p = [] := by
    refine List.filter_eq_nil_iff.mpr fun e he hpe => ?_
    obtain ⟨hmem, hsome⟩ := List.mem_filter.mp ((List.perm_insertionSort _ _).mem_iff.mp he)
    rw [hp e hmem hpe] at hsome
    cases hsome
  rw [entries]
  simp only [List.filter_append, hindices, List.nil_append, List.filter_filter]
  refine List.filter_congr fun e he => ?_
  cases hpe : p e with
  | false => rfl
  | true => rw [hp e he hpe]; rfl

/-- At most one property has the name. -/
theorem properties_filter_name (key : JsString) :
    o.properties.filter (fun e => e.1 = key) =
      (o.get? key).toList.map fun value => (key, value) := by
  have hlist : ∀ properties : List (JsString × α), (properties.map (·.1)).Nodup →
      properties.filter (fun e => e.1 = key) =
        ((properties.find? fun e => e.1 = key).map (·.2)).toList.map fun value => (key, value) := by
    intro properties hnodup
    induction properties with
    | nil => rfl
    | cons p properties ih =>
        rw [List.map_cons, List.nodup_cons] at hnodup
        by_cases hp : p.1 = key
        · have hnone : properties.filter (fun e => e.1 = key) = [] :=
            List.filter_eq_nil_iff.mpr fun e he hkey =>
              hnodup.1 (List.mem_map.mpr ⟨e, he, (of_decide_eq_true hkey).trans hp.symm⟩)
          subst hp
          simp [hnone]
        · rw [List.filter_cons_of_neg (by simpa using hp),
            List.find?_cons_of_neg (by simpa using hp),
            ih hnodup.2]
  exact hlist o.properties o.nodup

theorem filter_entries_name (key : JsString) :
    o.entries.filter (fun e => e.1 = key) = o.properties.filter fun e => e.1 = key := by
  have hperm := o.entries_perm.filter fun e : JsString × α => e.1 = key
  rw [properties_filter_name] at hperm ⊢
  cases hget : o.get? key with
  | none =>
      rw [hget] at hperm
      exact hperm.eq_nil
  | some value =>
      rw [hget] at hperm
      exact hperm.eq_singleton

end PlainObject

-- ============================================================================
-- Values of JSON.parse
-- ============================================================================

namespace Json

/-- The keys of an array or a string. -/
def indexed (values : List Json) : List (JsString × Json) :=
  values.zipIdx.map fun (v, i) => (js i.repr, v)

/-- `value[name]`, for a name that nothing inherits; `some none` is
    `undefined`, and `none` a `TypeError`. -/
def property (name : JsString) : Json → Option (Option Json)
  | .null => none
  | .bool _ | .num _ | .str _ | .arr _ => some none
  | .obj members => some ((PlainObject.ofMembers members).get? name)

/-- Of members with distinct names. -/
theorem property_of_mem {members : List (JsString × Json)} (h : (members.map (·.1)).Nodup)
    {name : JsString} {v : Json} (hmem : (name, v) ∈ members) :
    (Json.obj members).property name = some (some v) := by
  have hown : (name, v) ∈ (PlainObject.ofMembers members).properties := by
    rw [PlainObject.properties_ofMembers h]
    exact hmem
  exact congrArg some ((PlainObject.get?_eq_some_iff _).mpr hown)

theorem property_of_notMem {members : List (JsString × Json)} (h : (members.map (·.1)).Nodup)
    {name : JsString} (hname : name ∉ members.map (·.1)) :
    (Json.obj members).property name = some none := by
  rw [property, Option.some.injEq, Option.eq_none_iff_forall_not_mem]
  intro v hv
  have hown := (PlainObject.get?_eq_some_iff _).mp hv
  rw [PlainObject.properties_ofMembers h] at hown
  exact hname (List.mem_map_of_mem hown)

/-- `Object.entries`; `none` is a `TypeError`. -/
def entries : Json → Option (List (JsString × Json))
  | .null => none
  | .bool _ | .num _ => some []
  | .str units => some (indexed (units.map fun u => .str [u]))
  | .arr elements => some (indexed elements)
  | .obj members => some (PlainObject.ofMembers members).entries

/-- A string in quotes. -/
def quote (s : JsString) : List Char := '"' :: go s
where
  go : JsString → List Char
    | [] => ['"']
    | u :: us =>
        if Unicode.isHighSurrogate u then
          match us with
          | v :: vs =>
              if Unicode.isLowSurrogate v then Unicode.decodeUtf16 [u, v] ++ go vs
              else escapeUnit u.toNat ++ go (v :: vs)
          | [] => escapeUnit u.toNat ++ ['"']
        else if Unicode.isLowSurrogate u then escapeUnit u.toNat ++ go us
        else
          let c := Char.ofNat u.toNat
          (match shortEscape c with
          | some escaped => escaped
          | none => if c < ' ' then escapeUnit u.toNat else [c]) ++ go us

mutual

/-- `JSON.stringify`; it leaves no surrogate unpaired.  A number stays as it is
    spelled. -/
def stringify : Json → List Char
  | .null => "null".toList
  | .bool true => "true".toList
  | .bool false => "false".toList
  | .num literal => literal
  | .str units => quote units
  | .arr elements => '[' :: ((stringifyElements elements).intersperse [',']).flatten ++ [']']
  | .obj members => '\x7b' :: ((stringifyMembers members).intersperse [',']).flatten ++ ['\x7d']

def stringifyElements : List Json → List (List Char)
  | [] => []
  | v :: vs => stringify v :: stringifyElements vs

def stringifyMembers : List (List UInt16 × Json) → List (List Char)
  | [] => []
  | (name, v) :: ms => (quote name ++ ':' :: stringify v) :: stringifyMembers ms

end

mutual

/-- What a template literal makes of a value; `none` is a `TypeError`.  How a
    number is spelled is a parameter. -/
def toText (number : List Char → JsString) : Json → Option JsString
  | .null => some (js "null")
  | .bool true => some (js "true")
  | .bool false => some (js "false")
  | .num literal => some (number literal)
  | .str units => some units
  | .arr elements =>
      (elementTexts number elements).map fun texts => (texts.intersperse (js ",")).flatten
  | .obj members =>
      -- an own `toString` hides that of the prototype, and is no function
      if (members.map (·.1)).contains (js "toString") then none else some (js "[object Object]")

/-- `Array.prototype.join` leaves `null` out. -/
def elementTexts (number : List Char → JsString) : List Json → Option (List JsString)
  | [] => some []
  | .null :: vs => (elementTexts number vs).map ([] :: ·)
  | v :: vs => do
      let text ← toText number v
      let texts ← elementTexts number vs
      some (text :: texts)

end

end Json
end Lib
end BidiWeb
