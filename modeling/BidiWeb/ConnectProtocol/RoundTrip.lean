/-
  BidiWeb.ConnectProtocol.RoundTrip

  What one side has marshalled the other unmarshals: strings, lists and maps
  of them, the headers of an envelope.  A map comes back in another order, so
  maps are compared by what they answer.
-/

import BidiWeb.ConnectProtocol.CompactJson
import BidiWeb.Lib.Insertions

namespace BidiWeb
namespace ConnectProtocol

open BidiWeb.Lib
open BidiWeb.Lib.Json
open BidiWeb.Lib.Unicode (encodeUtf16 decodeUtf16_encode)

-- ============================================================================
-- Strings
-- ============================================================================

theorem readsChar_marshalChar (c : Char) : ReadsChar (marshalChar c) c := by
  unfold marshalChar
  cases hshort : shortEscape c with
  | some text => exact readsChar_shortEscape hshort
  | none =>
      simp only
      split
      · rename_i hescape
        apply readsChar_escapeUnit
        rcases hescape with hlow | rfl | rfl | rfl | rfl | rfl
        · have hlow' : c.toNat < ' '.toNat := hlow
          have hspace : ' '.toNat = 32 := rfl
          omega
        all_goals decide
      · rename_i hplain
        exact readsChar_of_shortEscape_eq_none hshort fun hlow => hplain (Or.inl hlow)

/-- A string as a JSON value. -/
def stringJson (s : GoString) : Json := .str (encodeUtf16 s)

theorem readsName_marshalString (s : GoString) : ReadsName (marshalString s) (encodeUtf16 s) :=
  ⟨_, rfl, readsString_flatMap readsChar_marshalChar s⟩

theorem reads_marshalString (depth : Nat) (s : GoString) :
    Reads depth (marshalString s) (stringJson s) :=
  reads_string depth (readsString_flatMap readsChar_marshalChar s)

@[simp] theorem unmarshalString_stringJson (old s : GoString) :
    unmarshalString old (stringJson s) = some s :=
  congrArg some (decodeUtf16_encode s)

-- ============================================================================
-- Arrays and objects
-- ============================================================================

theorem reads_marshalArray {depth : Nat} {texts : List (List Char)} {vs : List Json}
    (h : List.Forall₂ (Reads depth) texts vs) :
    Reads (depth + 1) (marshalArray texts) (.arr vs) := reads_array h

/-- A member of an object that is written: its name, its text and its value. -/
structure Field where
  name : GoString
  text : List Char
  value : Json

/-- The object that `fields` are written as. -/
def fieldsJson (fields : List Field) : Json :=
  .obj (fields.map fun f => (encodeUtf16 f.name, f.value))

theorem reads_marshalObject {depth : Nat} {fields : List Field}
    (h : ∀ f ∈ fields, Reads depth f.text f.value) :
    Reads (depth + 1) (marshalObject (fields.map fun f => (f.name, f.text)))
      (fieldsJson fields) := by
  have hmembers : List.Forall₂ (ReadsMember depth)
      (fields.map fun f => (marshalString f.name, f.text))
      (fields.map fun f => (encodeUtf16 f.name, f.value)) := by
    rw [List.forall₂_map_left_iff, List.forall₂_map_right_iff, List.forall₂_same]
    exact fun f hf => ⟨readsName_marshalString f.name, h f hf⟩
  have hobject := reads_object hmembers
  rw [List.map_map] at hobject
  unfold marshalObject
  rw [List.map_map]
  exact hobject

/-- What is unmarshalled for a field. -/
theorem fieldValues_map (name : GoString) (fields : List Field) :
    fieldValues name (fields.map fun f => (encodeUtf16 f.name, f.value)) =
      (fields.filter fun f => f.name.map foldRune = name.map foldRune).map (·.value) := by
  unfold fieldValues
  rw [List.filter_map, List.map_map]
  congr 1
  apply List.filter_congr
  intro f _
  simp only [Function.comp, decodeUtf16_encode]

-- ============================================================================
-- Lists and maps of strings
-- ============================================================================

def stringsJson (vs : List GoString) : Json := .arr (vs.map stringJson)

theorem reads_marshalStrings (depth : Nat) (vs : List GoString) :
    Reads (depth + 1) (marshalArray (vs.map marshalString)) (stringsJson vs) := by
  apply reads_marshalArray
  rw [List.forall₂_map_left_iff, List.forall₂_map_right_iff, List.forall₂_same]
  exact fun v _ => reads_marshalString depth v

theorem unmarshalStrings_stringsJson (vs : List GoString) :
    unmarshalStrings (stringsJson vs) = some vs := by
  show (vs.map stringJson).mapM (unmarshalString []) = some vs
  induction vs with
  | nil => rfl
  | cons v vs ih => simp [ih]

/-- The entry of a map as a member of an object. -/
def entryField (e : GoString × List GoString) : Field where
  name := e.1
  text := marshalArray (e.2.map marshalString)
  value := stringsJson e.2

/-- The entries of a map in the order of its text. -/
def sortedEntries (m : StringsMap) : List (GoString × List GoString) :=
  (m.entries.insertionSort fun a b => ¬ b.1 < a.1).map fun e => (e.1, e.2)

theorem marshalStringsMap_eq (m : StringsMap) :
    marshalStringsMap m =
      marshalObject (((sortedEntries m).map entryField).map fun f => (f.name, f.text)) := by
  unfold marshalStringsMap sortedEntries
  rw [List.map_map, List.map_map]
  apply congrArg marshalObject
  exact (List.map_insertionSort _ _
    (fun e : (_ : GoString) × List GoString => (e.1, marshalArray (e.2.map marshalString)))
    m.entries fun _ _ _ _ => Iff.rfl).symm

theorem reads_marshalStringsMap (depth : Nat) (m : StringsMap) :
    Reads (depth + 2) (marshalStringsMap m) (fieldsJson ((sortedEntries m).map entryField)) := by
  rw [marshalStringsMap_eq]
  apply reads_marshalObject
  intro f hf
  obtain ⟨e, -, rfl⟩ := List.mem_map.mp hf
  exact reads_marshalStrings depth e.2

theorem unmarshalStringsMap_fieldsJson (old : StringsMap)
    (entries : List (GoString × List GoString)) :
    unmarshalStringsMap old (fieldsJson (entries.map entryField)) =
      some (insertAll old entries) := by
  unfold unmarshalStringsMap fieldsJson
  simp only
  induction entries generalizing old with
  | nil => rfl
  | cons e entries ih =>
      have hstep : unmarshalStrings (entryField e).value = some e.2 :=
        unmarshalStrings_stringsJson e.2
      have hname : Unicode.decodeUtf16 (encodeUtf16 (entryField e).name) = e.1 :=
        decodeUtf16_encode e.1
      simp only [List.map_cons, List.foldlM_cons, hstep, hname, Option.map_some,
        Option.bind_eq_bind, Option.bind_some]
      exact ih _

theorem mem_sortedEntries {m : StringsMap} {k : GoString} {vs : List GoString} :
    (k, vs) ∈ sortedEntries m ↔ m.lookup k = some vs := by
  rw [sortedEntries, ((List.perm_insertionSort _ _).map _).mem_iff]
  exact mem_pairs

/-- The map that is read back answers as the one that was written. -/
theorem lookup_sortedEntries (m : StringsMap) (k : GoString) :
    (insertAll ∅ (sortedEntries m)).lookup k = m.lookup k := by
  rw [lookup_insertAll ∅ fun vs => mem_sortedEntries, AList.lookup_empty, Option.or_none]

-- ============================================================================
-- Metadata
-- ============================================================================

theorem parseJson_encode (text : List Char) :
    parseJson (Unicode.encodeUtf8 text) = Json.parse maxNestingDepth text := by
  rw [parseJson, Unicode.decodeUtf8Bytewise_encode]

/-- The `metadata` of a message; a map without entries is left out. -/
def metadataFields (m : StringsMap) : List Field :=
  if m.entries.isEmpty then []
  else
    [{ name := "metadata".toList
       text := marshalStringsMap m
       value := fieldsJson ((sortedEntries m).map entryField) }]

theorem metadataFields_texts (m : StringsMap) :
    (metadataFields m).map (fun f => (f.name, f.text)) =
      if m.entries.isEmpty then [] else [("metadata".toList, marshalStringsMap m)] := by
  unfold metadataFields
  split <;> rfl

theorem reads_metadataFields (depth : Nat) (m : StringsMap) :
    ∀ f ∈ metadataFields m, Reads (depth + 2) f.text f.value := by
  intro f hf
  unfold metadataFields at hf
  split at hf
  · cases hf
  · obtain rfl := List.mem_singleton.mp hf
    exact reads_marshalStringsMap depth m

theorem name_of_mem_metadataFields {m : StringsMap} {f : Field} (hf : f ∈ metadataFields m) :
    f.name = "metadata".toList := by
  unfold metadataFields at hf
  split at hf
  · cases hf
  · obtain rfl := List.mem_singleton.mp hf
    rfl

theorem unmarshal_metadataFields (m : StringsMap) :
    ((metadataFields m).map (·.value)).foldlM unmarshalStringsMap ∅ =
      some (insertAll ∅ (sortedEntries m)) := by
  unfold metadataFields
  split
  · rename_i hempty
    rw [sortedEntries, List.isEmpty_iff.mp hempty]
    rfl
  · simp only [List.map_cons, List.map_nil, List.foldlM_cons, List.foldlM_nil,
      unmarshalStringsMap_fieldsJson, Option.bind_eq_bind, Option.bind_some]
    rfl

-- ============================================================================
-- Keys
-- ============================================================================

theorem toNat_lt_of_validHeaderFieldByte {c : Char} (hc : validHeaderFieldByte c = true) :
    c.toNat < 128 := by
  have hbyte : ((decide (c.val ≥ 'A'.val ∧ c.val ≤ 'Z'.val) ||
      (decide (c.val ≥ 'a'.val) && decide (c.val ≤ 'z'.val)) ||
      (decide (c.val ≥ '0'.val) && decide (c.val ≤ '9'.val))) ||
      decide (c ∈ "!#$%&'*+-.^_|~".toList) || decide (c.toNat = 0x60)) = true := hc
  simp only [Bool.or_eq_true, Bool.and_eq_true, decide_eq_true_eq] at hbyte
  rcases hbyte with (((hupper | hlower) | hdigit) | hmark) | hback
  · exact Nat.lt_of_le_of_lt (UInt32.le_iff_toNat_le.mp hupper.2) (by decide)
  · exact Nat.lt_of_le_of_lt (UInt32.le_iff_toNat_le.mp hlower.2) (by decide)
  · exact Nat.lt_of_le_of_lt (UInt32.le_iff_toNat_le.mp hdigit.2) (by decide)
  · have hmarks : "!#$%&'*+-.^_|~".toList.all (fun d => d.toNat < 128) = true := by decide
    exact of_decide_eq_true (List.all_eq_true.mp hmarks c hmark)
  · omega

/-- The case of a byte of a token can be changed once. -/
theorem validHeaderFieldByte_case {c : Char} (hc : validHeaderFieldByte c = true) :
    validHeaderFieldByte c.toUpper = true ∧ validHeaderFieldByte c.toLower = true ∧
      c.toUpper.toUpper = c.toUpper ∧ c.toLower.toLower = c.toLower ∧
      (c.toUpper = '-' ↔ c = '-') ∧ (c.toLower = '-' ↔ c = '-') := by
  have hlt := toNat_lt_of_validHeaderFieldByte hc
  revert hc
  refine Lib.Unicode.forall_char_lt c hlt ?_
  decide +kernel

theorem all_canonicalize {s : GoString} (upper : Bool)
    (hs : s.all validHeaderFieldByte = true) :
    (canonicalize upper s).all validHeaderFieldByte = true := by
  induction s generalizing upper with
  | nil => rfl
  | cons c s ih =>
      rw [List.all_cons, Bool.and_eq_true] at hs
      obtain ⟨hupper, hlower, -⟩ := validHeaderFieldByte_case hs.1
      rw [canonicalize, List.all_cons, ih _ hs.2, Bool.and_true]
      cases upper with
      | false => exact hlower
      | true => exact hupper

theorem canonicalize_canonicalize {s : GoString} (upper : Bool)
    (hs : s.all validHeaderFieldByte = true) :
    canonicalize upper (canonicalize upper s) = canonicalize upper s := by
  induction s generalizing upper with
  | nil => rfl
  | cons c s ih =>
      rw [List.all_cons, Bool.and_eq_true] at hs
      obtain ⟨-, -, hupper, hlower, hupperHyphen, hlowerHyphen⟩ := validHeaderFieldByte_case hs.1
      have hrest := ih (c = '-') hs.2
      cases upper with
      | false => simp [canonicalize, hlower, hlowerHyphen, hrest]
      | true => simp [canonicalize, hupper, hupperHyphen, hrest]

/-- A canonical key is its own. -/
theorem canonicalHeaderKey_canonicalHeaderKey (s : GoString) :
    canonicalHeaderKey (canonicalHeaderKey s) = canonicalHeaderKey s := by
  unfold canonicalHeaderKey
  split
  · rename_i hs
    rw [if_pos (all_canonicalize true hs), canonicalize_canonicalize true hs]
  · rfl

-- ============================================================================
-- Headers envelopes
-- ============================================================================

theorem mem_visit {β : Type} (range : RangeOrder β) {m : AList (fun _ : GoString => β)}
    {k : GoString} {b : β} : (k, b) ∈ range.visit m ↔ m.lookup k = some b := by
  rw [(range.perm m).mem_iff]
  exact mem_pairs

/-- Pseudo-headers, and the keys that `net/http` would not spell otherwise. -/
def IsWireKey (k : GoString) : Prop := isPseudo k = true ∨ canonicalHeaderKey k = k

theorem unmarshalHeaders_marshalHeaders (range : RangeOrder (List GoString)) {h : Header}
    (hkeys : ∀ k ∈ h, IsWireKey k) :
    ∃ data h', marshalHeaders h = .ok data ∧ unmarshalHeaders range data = some h' ∧
      ∀ k, h'.lookup k = h.lookup k := by
  let metadata := insertAll ∅ (sortedEntries h)
  have hlookup : ∀ k, metadata.lookup k = h.lookup k := lookup_sortedEntries h
  have hreads : Reads maxNestingDepth
      (marshalObject ((metadataFields h).map fun f => (f.name, f.text)))
      (fieldsJson (metadataFields h)) := @reads_marshalObject 9999 _ (reads_metadataFields 9997 h)
  have hmessage : unmarshalHeaderMessage (fieldsJson (metadataFields h)) = some metadata := by
    have hall : (metadataFields h).filter
        (fun f => f.name.map foldRune = "metadata".toList.map foldRune) = metadataFields h := by
      apply List.filter_eq_self.mpr
      intro f hf
      rw [name_of_mem_metadataFields hf]
      rfl
    simp only [unmarshalHeaderMessage, fieldsJson, fieldValues_map, hall]
    exact unmarshal_metadataFields h
  have hvisit : (range.visit metadata).map
      (fun e => (if isPseudo e.1 then e.1 else canonicalHeaderKey e.1, e.2)) =
        range.visit metadata := by
    refine (List.map_congr_left ?_).trans (List.map_id _)
    rintro ⟨k, vs⟩ he
    have hk : k ∈ h := mem_of_lookup ((hlookup k).symm.trans ((mem_visit range).mp he))
    rcases hkeys k hk with hpseudo | hcanonical
    · simp [hpseudo]
    · simp [hcanonical]
  refine ⟨_, insertAll ∅ (range.visit metadata), rfl, ?_, ?_⟩
  · rw [unmarshalHeaders, parseJson_encode, ← metadataFields_texts, parse_of_reads hreads,
      Option.bind_some, hmessage, Option.map_some]
    conv_rhs => rw [← hvisit, insertAll, List.foldl_map]
  · intro k
    rw [lookup_insertAll ∅ fun vs => mem_visit range, AList.lookup_empty, Option.or_none, hlookup]

end ConnectProtocol
end BidiWeb
