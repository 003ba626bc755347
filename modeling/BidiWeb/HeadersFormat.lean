/-
  BidiWeb.HeadersFormat

  One headers envelope in two languages: `MarshalHeaders` and
  `UnmarshalHeaders` of `internal/connectprotocol/headers.go`, and
  `encodeHeadersFrame` and `decodeHeadersFrame` of
  `ts/packages/core/src/headers-frame.ts`, of which
  `ts/packages/web/src/headers-frame.ts` has the same text.

  A `http.Header` tells the spellings of a name apart and keeps lists; a
  `Headers` object does neither.
-/

import BidiWeb.ConnectProtocol.NilSlices
import BidiWeb.Core.HeadersFrame

namespace BidiWeb

open BidiWeb.Lib
open BidiWeb.Lib.Unicode
open BidiWeb.ConnectProtocol
open BidiWeb.Core

namespace HeadersFormat

-- ============================================================================
-- Names and values
-- ============================================================================

/-- An RFC 9110 token, in any case. -/
def IsToken (k : GoString) : Prop := k ≠ [] ∧ k.all validHeaderFieldByte

/-- Latin-1 without NUL, CR or LF, and without white space at either end. -/
structure IsFieldValue (v : GoString) : Prop where
  latin1 : ∀ c ∈ v, c.toNat ≤ 0xFF ∧ c.toNat ≠ 0 ∧ c ≠ '\r' ∧ c ≠ '\n'
  front : ∀ c, v.head? = some c → c ≠ ' ' ∧ c ≠ '\t'
  back : ∀ c, v.getLast? = some c → c ≠ ' ' ∧ c ≠ '\t'

instance (v : GoString) : Decidable (IsFieldValue v) :=
  decidable_of_iff
    (v.all (fun c => c.toNat ≤ 0xFF ∧ c.toNat ≠ 0 ∧ c ≠ '\r' ∧ c ≠ '\n') ∧
      v.head?.all (fun c => c ≠ ' ' ∧ c ≠ '\t') ∧ v.getLast?.all fun c => c ≠ ' ' ∧ c ≠ '\t')
    (by
      simp only [List.all_eq_true, Option.all_eq_true, decide_eq_true_eq]
      exact ⟨fun h => ⟨h.1, h.2.1, h.2.2⟩, fun h => ⟨h.latin1, h.front, h.back⟩⟩)

/-- `k` is the name of a header in some case. -/
def Spells (k : GoString) (name : HeaderName) : Prop :=
  encodeUtf16 (k.map Char.toLower) = name.units

instance (k : GoString) (name : HeaderName) : Decidable (Spells k name) :=
  inferInstanceAs (Decidable (encodeUtf16 (k.map Char.toLower) = name.units))

theorem encodeUtf16_cons (c : Char) (cs : List Char) :
    encodeUtf16 (c :: cs) = encodeUtf16Char c ++ encodeUtf16 cs := rfl

theorem encodeUtf16_injective {s t : List Char} (h : encodeUtf16 s = encodeUtf16 t) : s = t := by
  rw [← decodeUtf16_encode s, h, decodeUtf16_encode]

/-- A byte of a token is one unit, and the languages agree on its lower case. -/
theorem encode_validHeaderFieldByte {c : Char} (hc : validHeaderFieldByte c = true) :
    encodeUtf16Char c ≠ [] ∧ (encodeUtf16Char c).all isTokenUnit = true ∧
      (encodeUtf16Char c).map lowerUnit = encodeUtf16Char c.toLower := by
  have hlt := toNat_lt_of_validHeaderFieldByte hc
  revert hc
  refine forall_char_lt c hlt ?_
  decide +kernel

theorem map_lowerUnit_encode {k : GoString} (hk : k.all validHeaderFieldByte = true) :
    (encodeUtf16 k).map lowerUnit = encodeUtf16 (k.map Char.toLower) := by
  induction k with
  | nil => rfl
  | cons c k ih =>
      rw [List.all_cons, Bool.and_eq_true] at hk
      rw [encodeUtf16_cons, List.map_append, ih hk.2, (encode_validHeaderFieldByte hk.1).2.2,
        List.map_cons, encodeUtf16_cons]

theorem all_isTokenUnit_encode {k : GoString} (hk : k.all validHeaderFieldByte = true) :
    (encodeUtf16 k).all isTokenUnit = true := by
  induction k with
  | nil => rfl
  | cons c k ih =>
      rw [List.all_cons, Bool.and_eq_true] at hk
      rw [encodeUtf16_cons, List.all_append, ih hk.2, (encode_validHeaderFieldByte hk.1).2.1]
      rfl

/-- `Headers` takes a token for a name. -/
theorem ofString?_of_isToken {k : GoString} (hk : IsToken k) :
    (HeaderName.ofString? (encodeUtf16 k)).isSome := by
  have hne : encodeUtf16 k ≠ [] := by
    obtain ⟨c, cs, rfl⟩ := List.exists_cons_of_ne_nil hk.1
    have hall := hk.2
    rw [List.all_cons, Bool.and_eq_true] at hall
    rw [encodeUtf16_cons]
    exact List.append_ne_nil_of_left_ne_nil (encode_validHeaderFieldByte hall.1).1 _
  rw [HeaderName.ofString?, dif_pos ⟨hne, all_isTokenUnit_encode hk.2⟩]
  rfl

theorem isPseudoKey_encode (k : GoString) : isPseudoKey (encodeUtf16 k) = isPseudo k := by
  cases k with
  | nil => rfl
  | cons c k =>
      have hcolon : (encodeUtf16 (c :: k)).head? = some 0x3A ↔ c = ':' := by
        rw [encodeUtf16_cons]
        rcases encodeUtf16Char_cases c with ⟨u, hunits, -, -, hc⟩ | ⟨u, v, hunits, hhigh, -, -⟩
        · rw [hunits, List.singleton_append, List.head?_cons, Option.some.injEq]
          constructor
          · rintro rfl
            rw [← Char.ofNat_toNat c, ← hc]
            rfl
          · rintro rfl
            exact UInt16.toNat_inj.mp hc
        · rw [hunits, List.cons_append, List.head?_cons, Option.some.injEq]
          constructor
          · rintro rfl
            exact absurd hhigh (by decide)
          · rintro rfl
            cases hunits
      rw [isPseudoKey, isPseudo, List.head?_cons, decide_eq_decide, hcolon, Option.some.injEq]

/-- A Latin-1 character is one unit. -/
theorem encodeUtf16Char_latin1 {c : Char} (hc : c.toNat ≤ 0xFF) :
    encodeUtf16Char c = [UInt16.ofNat c.toNat] := if_pos (by omega)

theorem encodeUtf16_latin1 {v : GoString} (hv : ∀ c ∈ v, c.toNat ≤ 0xFF) :
    encodeUtf16 v = v.map fun c => UInt16.ofNat c.toNat := by
  induction v with
  | nil => rfl
  | cons c v ih =>
      rw [List.forall_mem_cons] at hv
      rw [encodeUtf16_cons, ih hv.2, encodeUtf16Char_latin1 hv.1, List.map_cons,
        List.singleton_append]

/-- The units that `Headers` refuses in a value, or strips from its ends. -/
theorem unit_latin1 {c : Char} (hc : c.toNat ≤ 0xFF) :
    UInt16.ofNat c.toNat ≤ 0xFF ∧ (UInt16.ofNat c.toNat = 0 → c.toNat = 0) ∧
      (UInt16.ofNat c.toNat = 0x0A → c = '\n') ∧ (UInt16.ofNat c.toNat = 0x0D → c = '\r') ∧
      (HeaderValue.isSpace (UInt16.ofNat c.toNat) = true →
        c = '\t' ∨ c = '\n' ∨ c = '\r' ∨ c = ' ') := by
  refine forall_char_lt c (Nat.lt_succ_of_le hc) ?_
  decide +kernel

theorem strip_encode {v : GoString} (hv : IsFieldValue v) :
    HeaderValue.strip (encodeUtf16 v) = encodeUtf16 v := by
  have hunits := encodeUtf16_latin1 fun c hc => (hv.latin1 c hc).1
  have hspace : ∀ c ∈ v, c ≠ ' ' ∧ c ≠ '\t' →
      HeaderValue.isSpace (UInt16.ofNat c.toNat) = false := by
    intro c hc hends
    obtain ⟨hlatin1, -, hr, hn⟩ := hv.latin1 c hc
    rw [Bool.eq_false_iff]
    intro hspace
    rcases (unit_latin1 hlatin1).2.2.2.2 hspace with rfl | rfl | rfl | rfl
    · exact hends.2 rfl
    · exact hn rfl
    · exact hr rfl
    · exact hends.1 rfl
  have hfront : (encodeUtf16 v).dropWhile HeaderValue.isSpace = encodeUtf16 v := by
    refine HeaderValue.dropWhile_eq_self fun u hu => ?_
    rw [hunits, List.head?_map] at hu
    obtain ⟨c, hc, rfl⟩ := Option.map_eq_some_iff.mp hu
    exact hspace c (List.mem_of_head? hc) (hv.front c hc)
  have hback : (encodeUtf16 v).reverse.dropWhile HeaderValue.isSpace = (encodeUtf16 v).reverse := by
    refine HeaderValue.dropWhile_eq_self fun u hu => ?_
    rw [hunits, List.head?_reverse, List.getLast?_map] at hu
    obtain ⟨c, hc, rfl⟩ := Option.map_eq_some_iff.mp hu
    exact hspace c (List.mem_of_getLast? hc) (hv.back c hc)
  rw [HeaderValue.strip, hfront, hback, List.reverse_reverse]

/-- `Headers` takes a field value for a value. -/
theorem ofString?_of_isFieldValue {v : GoString} (hv : IsFieldValue v) :
    (HeaderValue.ofString? (encodeUtf16 v)).isSome := by
  have hall : (HeaderValue.strip (encodeUtf16 v)).all
      (fun u => u ≤ 0xFF ∧ u ≠ 0 ∧ u ≠ 0x0A ∧ u ≠ 0x0D) = true := by
    rw [strip_encode hv, encodeUtf16_latin1 fun c hc => (hv.latin1 c hc).1, List.all_map,
      List.all_eq_true]
    intro c hc
    obtain ⟨hlatin1, hzero, hr, hn⟩ := hv.latin1 c hc
    obtain ⟨hle, h0, hA, hD, -⟩ := unit_latin1 hlatin1
    simp only [Function.comp, decide_eq_true_eq]
    exact ⟨hle, fun h => hzero (h0 h), fun h => hn (hA h), fun h => hr (hD h)⟩
  rw [HeaderValue.ofString?, dif_pos hall]
  rfl

-- ============================================================================
-- From Go to TypeScript
-- ============================================================================

/-- All values that Go holds under a spelling of `name`, in the order of the text. -/
def heldValues (h : SlicesMap) (name : HeaderName) : List GoString :=
  ((sortedSlices h).filter fun e => Spells e.1 name).flatMap fun e => e.2.getD []

/-- What `Headers.get` makes of the values of a name; `none` is `null`. -/
def joined : List GoString → Option JsString
  | [] => none
  | v :: vs => some (encodeUtf16 (", ".toList.intercalate (v :: vs)))

/-- What TypeScript has of the header that Go held. -/
structure Decodes (h : SlicesMap) (frame : HeadersFrame) : Prop where
  values : ∀ name, (frame.headers.get name).map (·.units) = joined (heldValues h name)
  names : ∀ name ∈ frame.headers.keys, ∃ k ∈ h, isPseudo k = false ∧ Spells k name
  first : ∀ k v vs, isPseudo k = true → h.lookup k = some (some (v :: vs)) →
    frame.pseudo.get? (encodeUtf16 k) = some (.str (encodeUtf16 v))
  pseudo : ∀ key ∈ frame.pseudo.keys, ∃ k ∈ h, isPseudo k = true ∧ encodeUtf16 k = key

/-- The metadata as `JSON.parse` makes it. -/
def slicesObject (h : SlicesMap) : PlainObject Json :=
  .ofMembers ((sortedSlices h).map fun e => (encodeUtf16 e.1, sliceJson e.2))

theorem properties_slicesObject (h : SlicesMap) :
    (slicesObject h).properties =
      (sortedSlices h).map fun e => (encodeUtf16 e.1, sliceJson e.2) := by
  apply PlainObject.properties_ofMembers
  rw [List.map_map]
  have hkeys : ((sortedSlices h).map ((fun m : JsString × Json => m.1) ∘
      fun e => (encodeUtf16 e.1, sliceJson e.2))) =
        ((sortedSlices h).map (·.1)).map encodeUtf16 := by
    rw [List.map_map]
    rfl
  rw [hkeys]
  exact (nodup_sortedSlices h).map fun _ _ => encodeUtf16_injective

theorem mem_entries_slicesObject {h : SlicesMap} {e : JsString × Json} :
    e ∈ (slicesObject h).entries ↔
      ∃ k slice, h.lookup k = some slice ∧ (encodeUtf16 k, sliceJson slice) = e := by
  rw [(slicesObject h).entries_perm.mem_iff, properties_slicesObject, List.mem_map]
  constructor
  · rintro ⟨⟨k, slice⟩, hmem, rfl⟩
    exact ⟨k, slice, mem_sortedSlices.mp hmem, rfl⟩
  · rintro ⟨k, slice, hlookup, rfl⟩
    exact ⟨(k, slice), mem_sortedSlices.mpr hlookup, rfl⟩

/-- `decodeHeadersFrame` finds the object that Go has written. -/
theorem decodeHeadersFrame_marshal (h : SlicesMap) :
    ∃ data, marshalHeaderSlices h = .ok data ∧
      decodeHeadersFrame data = (slicesObject h).entries.foldlM decodeEntry {} := by
  obtain ⟨text, hmarshal, hopen, hparse⟩ := parse_marshalHeaderSlices h
  refine ⟨_, hmarshal, ?_⟩
  have hpayload : parsePayload (encodeUtf8 text) = some (fieldsJson (slicesMetadata h)) := by
    have hmark : ¬ text.head? = some (Char.ofNat 0xFEFF) := by
      rw [hopen]
      decide
    simp only [parsePayload, decodeUtf8_encode, if_neg hmark, hparse]
  rw [decodeHeadersFrame, hpayload]
  by_cases hempty : h.entries.isEmpty
  · have hnone : slicesMetadata h = [] := if_pos hempty
    have hobject : (slicesObject h).entries = [] := by
      have hproperties := properties_slicesObject h
      rw [sortedSlices, List.isEmpty_iff.mp hempty] at hproperties
      have hperm := (slicesObject h).entries_perm
      rw [hproperties] at hperm
      exact hperm.eq_nil
    rw [hnone, hobject]
    rfl
  · have hsome : slicesMetadata h = [⟨"metadata".toList, marshalSlicesMap h,
        fieldsJson ((sortedSlices h).map sliceField)⟩] := if_neg hempty
    have hmembers : fieldsJson ((sortedSlices h).map sliceField) =
        .obj ((sortedSlices h).map fun e => (encodeUtf16 e.1, sliceJson e.2)) := by
      rw [fieldsJson, List.map_map]
      rfl
    rw [hsome, hmembers]
    rfl

theorem decodableEntry_of_isFieldValue {h : SlicesMap}
    (hnames : ∀ k ∈ h, isPseudo k = false → IsToken k)
    (hvalues : ∀ k vs, isPseudo k = false → h.lookup k = some (some vs) →
      ∀ v ∈ vs, IsFieldValue v) {e : JsString × Json} (he : e ∈ (slicesObject h).entries) :
    DecodableEntry e := by
  obtain ⟨k, slice, hlookup, rfl⟩ := mem_entries_slicesObject.mp he
  cases hpseudo : isPseudo k with
  | true => exact Or.inl ((isPseudoKey_encode k).trans hpseudo)
  | false =>
      refine Or.inr fun units hmem => ?_
      have hk : k ∈ h := mem_of_lookup hlookup
      cases slice with
      | none =>
          obtain hnull := List.mem_singleton.mp hmem
          cases hnull
      | some vs =>
          obtain ⟨v, hv, hunits⟩ := List.mem_map.mp hmem
          obtain rfl := Json.str.inj hunits
          exact ⟨ofString?_of_isToken (hnames k hk hpseudo),
            ofString?_of_isFieldValue (hvalues k vs hpseudo hlookup v hv)⟩

/-- TypeScript takes the same keys for a spelling of a name. -/
theorem spelling_iff {k : GoString} (hk : isPseudo k = false → IsToken k) (name : HeaderName) :
    (encodeUtf16 k).map lowerUnit = name.units ↔ Spells k name := by
  cases hpseudo : isPseudo k with
  | false => rw [map_lowerUnit_encode (hk hpseudo).2, Spells]
  | true =>
      have hleft : (encodeUtf16 k).map lowerUnit ≠ name.units :=
        spelling_ne_of_isPseudoKey ((isPseudoKey_encode k).trans hpseudo) name
      have hright : ¬ Spells k name := by
        intro hspells
        have hlower : isPseudo (k.map Char.toLower) = true := by
          cases k with
          | nil => cases hpseudo
          | cons c k =>
              obtain rfl : c = ':' := by simpa [isPseudo] using hpseudo
              rfl
        have hname : isPseudoKey name.units = true := by
          rw [← hspells, isPseudoKey_encode, hlower]
        exact spelling_ne_of_isPseudoKey hname name name.isLower
      exact iff_of_false hleft hright

theorem not_isPseudo_of_spells {k : GoString} {name : HeaderName} (hk : Spells k name) :
    isPseudo k = false := by
  rw [Bool.eq_false_iff]
  intro hpseudo
  have hnot := (spelling_iff (fun h => absurd hpseudo (by simp [h])) name).mpr hk
  exact spelling_ne_of_isPseudoKey ((isPseudoKey_encode k).trans hpseudo) name hnot

theorem entryValues_slice {slice : Option (List GoString)} {key : JsString}
    (hvalues : ∀ vs, slice = some vs → ∀ v ∈ vs, IsFieldValue v) :
    entryValues (key, sliceJson slice) = (slice.getD []).map encodeUtf16 := by
  cases slice with
  | none => rfl
  | some vs =>
      have hstrings : ∀ v ∈ vs, HeaderValue.strip (encodeUtf16 v) = encodeUtf16 v :=
        fun v hv => strip_encode (hvalues vs rfl v hv)
      show ((vs.map stringJson).filterMap stringUnits).map HeaderValue.strip = vs.map encodeUtf16
      rw [List.filterMap_map]
      have hsome : stringUnits ∘ stringJson = fun v => some (encodeUtf16 v) := rfl
      rw [hsome, List.filterMap_eq_map', List.map_map]
      exact List.map_congr_left hstrings

theorem strings_decoded {h : SlicesMap} (hnames : ∀ k ∈ h, isPseudo k = false → IsToken k)
    (hvalues : ∀ k vs, isPseudo k = false → h.lookup k = some (some vs) →
      ∀ v ∈ vs, IsFieldValue v)
    {frame : HeadersFrame} (hrun : (slicesObject h).entries.foldlM decodeEntry {} = .ok frame)
    (name : HeaderName) :
    frame.headers.strings name = (heldValues h name).map encodeUtf16 := by
  have hspells : ∀ e ∈ sortedSlices h,
      (encodeUtf16 e.1).map lowerUnit = name.units ↔ Spells e.1 name := by
    rintro ⟨k, slice⟩ he
    have hk : k ∈ h := mem_of_lookup (mem_sortedSlices.mp he)
    exact spelling_iff (hnames k hk) name
  have hentry : ∀ e ∈ (sortedSlices h).filter (fun e => Spells e.1 name),
      entryValues (encodeUtf16 e.1, sliceJson e.2) = (e.2.getD []).map encodeUtf16 := by
    rintro ⟨k, slice⟩ he
    obtain ⟨hmem, hname⟩ := List.mem_filter.mp he
    refine entryValues_slice fun vs hslice => ?_
    subst hslice
    exact hvalues k vs (not_isPseudo_of_spells (of_decide_eq_true hname)) (mem_sortedSlices.mp hmem)
  rw [strings_decodeEntries hrun name, filter_entries_spelling, properties_slicesObject,
    List.filter_map, List.flatMap_map]
  have hfilter : (sortedSlices h).filter ((fun e : JsString × Json =>
      decide (e.1.map lowerUnit = name.units)) ∘ fun e => (encodeUtf16 e.1, sliceJson e.2)) =
        (sortedSlices h).filter fun e => Spells e.1 name :=
    List.filter_congr fun e he => decide_eq_decide.mpr (hspells e he)
  rw [hfilter, List.flatMap_congr hentry, heldValues, List.map_flatMap]
  rfl

theorem encode_intercalate (sep : GoString) (vs : List GoString) :
    encodeUtf16 (sep.intercalate vs) = (encodeUtf16 sep).intercalate (vs.map encodeUtf16) := by
  induction vs with
  | nil => rfl
  | cons v vs ih =>
      cases vs with
      | nil => simp
      | cons w ws =>
          rw [List.intercalate_cons_cons, List.map_cons, List.map_cons, List.intercalate_cons_cons,
            ← List.map_cons, ← ih]
          simp [encodeUtf16, List.flatMap_append]

/-- What Go has marshalled, TypeScript decodes. -/
theorem decodes_marshalled {h : SlicesMap} (hnames : ∀ k ∈ h, isPseudo k = false → IsToken k)
    (hvalues : ∀ k vs, isPseudo k = false → h.lookup k = some (some vs) →
      ∀ v ∈ vs, IsFieldValue v) :
    ∃ data frame, marshalHeaderSlices h = .ok data ∧ decodeHeadersFrame data = .ok frame ∧
      Decodes h frame := by
  obtain ⟨data, hmarshal, hdecode⟩ := decodeHeadersFrame_marshal h
  have hloop := foldlM_ok_iff (f := decodeEntry) (fun _ _ => decodeEntry_ok_iff)
    (slicesObject h).entries {}
  obtain ⟨frame, hrun⟩ :=
    hloop.mpr fun e he => decodableEntry_of_isFieldValue hnames hvalues he
  have hstrings := strings_decoded hnames hvalues hrun
  refine ⟨data, frame, hmarshal, hdecode.trans hrun, ?_, ?_, ?_, ?_⟩
  · intro name
    rw [Headers.units_get, hstrings]
    cases heldValues h name with
    | nil => rfl
    | cons v vs =>
        rw [joined, encode_intercalate]
        rfl
  · intro name hname
    have hsome : frame.headers.strings name ≠ [] := by
      rw [Headers.strings, ne_eq, List.map_eq_nil_iff]
      exact frame.headers.valuesOf_ne_nil.mpr hname
    rw [hstrings, ne_eq, List.map_eq_nil_iff, heldValues, List.flatMap_eq_nil_iff] at hsome
    simp only [not_forall] at hsome
    obtain ⟨⟨k, slice⟩, he, -⟩ := hsome
    obtain ⟨hmem, hspells⟩ := List.mem_filter.mp he
    have hspells := of_decide_eq_true hspells
    exact ⟨k, mem_of_lookup (mem_sortedSlices.mp hmem), not_isPseudo_of_spells hspells, hspells⟩
  · intro k v vs hpseudo hlookup
    have hmem : (encodeUtf16 k, sliceJson (some (v :: vs))) ∈ (slicesObject h).entries :=
      mem_entries_slicesObject.mpr ⟨k, some (v :: vs), hlookup, rfl⟩
    exact pseudo_decodeEntries hrun (slicesObject h).nodup_entries hmem
      ((isPseudoKey_encode k).trans hpseudo) rfl
  · intro key hkey
    rcases pseudo_keys_decodeEntries hrun hkey with hnone | ⟨hpseudo, hmem⟩
    · cases hnone
    · obtain ⟨e, he, rfl⟩ := List.mem_map.mp hmem
      obtain ⟨k, slice, hlookup, rfl⟩ := mem_entries_slicesObject.mp he
      exact ⟨k, mem_of_lookup hlookup, (isPseudoKey_encode k).symm.trans hpseudo, rfl⟩

-- ============================================================================
-- Strings that Go reads as they are
-- ============================================================================

/-- No surrogate is unpaired. -/
def IsWellFormed (s : JsString) : Prop := encodeUtf16 (decodeUtf16 s) = s

instance (s : JsString) : Decidable (IsWellFormed s) :=
  inferInstanceAs (Decidable (encodeUtf16 (decodeUtf16 s) = s))

/-- The characters of a Latin-1 string are its units. -/
theorem encode_units {s : JsString} (hs : ∀ u ∈ s, u ≤ 0xFF) :
    encodeUtf16 (s.map fun u => Char.ofNat u.toNat) = s := by
  induction s with
  | nil => rfl
  | cons u s ih =>
      rw [List.forall_mem_cons] at hs
      have hu : u.toNat < 256 := by
        have hle := UInt16.le_iff_toNat_le.mp hs.1
        simp at hle
        omega
      have hall : ∀ n < 256, encodeUtf16Char (Char.ofNat n) = [UInt16.ofNat n] := by
        decide +kernel
      have hunit := hall u.toNat hu
      rw [UInt16.ofNat_toNat] at hunit
      rw [List.map_cons, encodeUtf16_cons, hunit, ih hs.2, List.singleton_append]

theorem decode_units {s : JsString} (hs : ∀ u ∈ s, u ≤ 0xFF) :
    decodeUtf16 s = s.map fun u => Char.ofNat u.toNat := by
  rw [← decodeUtf16_encode (s.map fun u => Char.ofNat u.toNat), encode_units hs]

theorem isWellFormed_of_latin1 {s : JsString} (hs : ∀ u ∈ s, u ≤ 0xFF) : IsWellFormed s := by
  rw [IsWellFormed, decode_units hs, encode_units hs]

theorem isWellFormed_value (v : HeaderValue) : IsWellFormed v.units :=
  isWellFormed_of_latin1 fun u hu => (of_decide_eq_true (List.all_eq_true.mp v.isValid u hu)).1

theorem toNat_lt_of_isTokenUnit {u : UInt16} (hu : isTokenUnit u = true) : u.toNat < 128 := by
  simp only [isTokenUnit, isLetter, Bool.or_eq_true, Bool.and_eq_true, decide_eq_true_eq,
    List.contains_iff_mem] at hu
  rcases hu with ((hupper | hlower) | hdigit) | hmark
  · exact Nat.lt_of_le_of_lt (UInt16.le_iff_toNat_le.mp hupper.2) (by decide)
  · exact Nat.lt_of_le_of_lt (UInt16.le_iff_toNat_le.mp hlower.2) (by decide)
  · exact Nat.lt_of_le_of_lt (UInt16.le_iff_toNat_le.mp hdigit.2) (by decide)
  · have hmarks : (js "!#$%&'*+-.^_`|~").all (fun v => v.toNat < 128) = true := by decide
    exact of_decide_eq_true (List.all_eq_true.mp hmarks u hmark)

theorem latin1_name (name : HeaderName) : ∀ u ∈ name.units, u ≤ 0xFF := by
  intro u hu
  have hlt := toNat_lt_of_isTokenUnit (List.all_eq_true.mp name.isToken.2 u hu)
  rw [UInt16.le_iff_toNat_le]
  exact Nat.le_of_lt (Nat.lt_trans hlt (by decide))

theorem isWellFormed_name (name : HeaderName) : IsWellFormed name.units :=
  isWellFormed_of_latin1 (latin1_name name)

theorem all_validHeaderFieldByte_name (name : HeaderName) :
    (decodeUtf16 name.units).all validHeaderFieldByte = true := by
  rw [decode_units (latin1_name name), List.all_map, List.all_eq_true]
  intro u hu
  have htoken := List.all_eq_true.mp name.isToken.2 u hu
  have hall : ∀ n < 128, isTokenUnit (UInt16.ofNat n) = true →
      validHeaderFieldByte (Char.ofNat n) = true := by
    decide +kernel
  have hunit := hall u.toNat (toNat_lt_of_isTokenUnit htoken)
  rw [UInt16.ofNat_toNat] at hunit
  exact hunit htoken

/-- `net/http` changes the case of a name, and nothing else. -/
theorem map_toLower_canonicalize (upper : Bool) {k : GoString}
    (hk : k.all validHeaderFieldByte = true) :
    (canonicalize upper k).map Char.toLower = k.map Char.toLower := by
  have hcase : ∀ c : Char, validHeaderFieldByte c = true → c.toUpper.toLower = c.toLower := by
    intro c hc
    refine forall_char_lt c (toNat_lt_of_validHeaderFieldByte hc) ?_
    decide +kernel
  induction k generalizing upper with
  | nil => rfl
  | cons c k ih =>
      rw [List.all_cons, Bool.and_eq_true] at hk
      rw [canonicalize, List.map_cons, ih _ hk.2, List.map_cons]
      cases upper with
      | false => simp [(validHeaderFieldByte_case hk.1).2.2.2.1]
      | true => simp [hcase c hk.1]

theorem spells_canonical (name : HeaderName) :
    Spells (canonicalHeaderKey (decodeUtf16 name.units)) name := by
  have hvalid := all_validHeaderFieldByte_name name
  rw [canonicalHeaderKey, if_pos hvalid, Spells, map_toLower_canonicalize true hvalid,
    ← map_lowerUnit_encode hvalid, isWellFormed_name name]
  exact name.isLower

theorem spells_unique {k : GoString} {name name' : HeaderName} (h : Spells k name)
    (h' : Spells k name') : name = name' := HeaderName.ext (h.symm.trans h')

/-- A name, as it comes from `Headers`, is the lower case of its canonical key. -/
theorem not_isPseudo_name (name : HeaderName) : isPseudo (decodeUtf16 name.units) = false := by
  have hspells : Spells (decodeUtf16 name.units) name := by
    rw [Spells, ← map_lowerUnit_encode (all_validHeaderFieldByte_name name), isWellFormed_name name]
    exact name.isLower
  exact not_isPseudo_of_spells hspells

-- ============================================================================
-- From TypeScript to Go
-- ============================================================================

/-- What Go has of the headers and the pseudo-headers that TypeScript held. -/
structure Unmarshals (headers : Headers) (pseudo : PlainObject JsString) (h : Header) : Prop where
  values : ∀ name ∈ headers.keys, h.lookup (canonicalHeaderKey (decodeUtf16 name.units)) =
    some ((headers.yielded name).map fun v => decodeUtf16 v.units)
  once : ∀ name, ∀ k ∈ h, Spells k name → k = canonicalHeaderKey (decodeUtf16 name.units)
  pseudoKeys : ∀ key value, pseudo.get? key = some value →
    h.lookup (decodeUtf16 key) = some [decodeUtf16 value]
  keys : ∀ k ∈ h, (∃ name ∈ headers.keys, Spells k name) ∨ ∃ key ∈ pseudo.keys, decodeUtf16 key = k

/-- Pseudo-headers begin with a colon, and are text. -/
def PseudoHeaders (pseudo : PlainObject JsString) : Prop :=
  ∀ key value, pseudo.get? key = some value →
    isPseudoKey key = true ∧ IsWellFormed key ∧ IsWellFormed value

/-- The metadata in the strings of Go. -/
def goEntries (metadata : PlainObject (List JsString)) : List (GoString × List GoString) :=
  metadata.entries.map fun e => (decodeUtf16 e.1, e.2.map decodeUtf16)

theorem fieldsJson_entries (entries : List (GoString × List GoString)) :
    fieldsJson (entries.map entryField) =
      .obj ((entries.map fun e => (e.1, stringsJson e.2)).map fun m => (encodeUtf16 m.1, m.2)) := by
  rw [fieldsJson, List.map_map, List.map_map]
  rfl

/-- Every key and every value of the metadata is text. -/
def FormedMetadata (metadata : PlainObject (List JsString)) : Prop :=
  ∀ key values, metadata.get? key = some values →
    IsWellFormed key ∧ ∀ v ∈ values, IsWellFormed v

theorem headersMessage_eq {metadata : PlainObject (List JsString)}
    (hformed : FormedMetadata metadata) :
    headersMessage metadata =
      .obj [(encodeUtf16 "metadata".toList, fieldsJson ((goEntries metadata).map entryField))] := by
  have hmembers : metadata.entries.map (fun e => (e.1, Json.arr (e.2.map .str))) =
      ((goEntries metadata).map fun e => (e.1, stringsJson e.2)).map
        fun m => (encodeUtf16 m.1, m.2) := by
    rw [goEntries, List.map_map, List.map_map]
    refine List.map_congr_left fun e he => ?_
    obtain ⟨hkey, hvalues⟩ := hformed e.1 e.2 (metadata.mem_entries.mp he)
    have hstrings : (e.2.map decodeUtf16).map stringJson = e.2.map .str := by
      rw [List.map_map]
      exact List.map_congr_left fun v hv => congrArg Json.str (hvalues v hv)
    simp only [Function.comp, stringsJson, hstrings]
    rw [hkey]
  rw [headersMessage, hmembers, fieldsJson_entries]
  rfl

/-- The metadata as the one field of its message. -/
def metadataField (metadata : PlainObject (List JsString)) : Field :=
  ⟨"metadata".toList, [], fieldsJson ((goEntries metadata).map entryField)⟩

/-- Go parses the text of `JSON.stringify`. -/
theorem parseJson_headersMessage {metadata : PlainObject (List JsString)}
    (hformed : FormedMetadata metadata) :
    parseJson (encodeUtf8 (headersMessage metadata).stringify) =
      some (fieldsJson [metadataField metadata]) := by
  have hmessage : headersMessage metadata = fieldsJson [metadataField metadata] :=
    headersMessage_eq hformed
  have hreads : Json.Reads maxNestingDepth (headersMessage metadata).stringify
      (headersMessage metadata) := reads_headersMessage 9997 metadata
  rw [parseJson_encode, Json.parse_of_reads hreads, hmessage]

/-- Go takes the metadata from its field. -/
theorem unmarshal_metadataField (metadata : PlainObject (List JsString)) :
    (fieldValues "metadata".toList
        ([metadataField metadata].map fun f => (encodeUtf16 f.name, f.value))).foldlM
      unmarshalStringsMap ∅ = some (insertAll ∅ (goEntries metadata)) := by
  have hvalues : fieldValues "metadata".toList
      ([metadataField metadata].map fun f => (encodeUtf16 f.name, f.value)) =
        [fieldsJson ((goEntries metadata).map entryField)] :=
    (fieldValues_map _ [metadataField metadata]).trans rfl
  rw [hvalues, List.foldlM_cons, unmarshalStringsMap_fieldsJson]
  rfl

theorem unmarshalHeaders_message (range : RangeOrder (List GoString))
    {metadata : PlainObject (List JsString)} (hformed : FormedMetadata metadata) :
    unmarshalHeaders range (encodeUtf8 (headersMessage metadata).stringify) =
      some (insertAll ∅ ((range.visit (insertAll ∅ (goEntries metadata))).map fun e =>
        (if isPseudo e.1 then e.1 else canonicalHeaderKey e.1, e.2))) := by
  have hfields : unmarshalHeaderMessage (fieldsJson [metadataField metadata]) =
      some (insertAll ∅ (goEntries metadata)) := unmarshal_metadataField metadata
  rw [unmarshalHeaders, parseJson_headersMessage hformed, Option.bind_some, hfields,
    Option.map_some]
  conv_rhs => rw [insertAll, List.foldl_map]

theorem lookup_goEntries {metadata : PlainObject (List JsString)}
    (hformed : FormedMetadata metadata) (k : GoString) :
    (insertAll ∅ (goEntries metadata)).lookup k =
      (metadata.get? (encodeUtf16 k)).map fun values => values.map decodeUtf16 := by
  have hmem : ∀ b, (k, b) ∈ goEntries metadata ↔
      ((metadata.get? (encodeUtf16 k)).map fun values => values.map decodeUtf16) = some b := by
    intro b
    rw [goEntries, List.mem_map, Option.map_eq_some_iff]
    constructor
    · rintro ⟨⟨key, values⟩, he, heq⟩
      obtain ⟨rfl, rfl⟩ := Prod.mk.inj heq
      have hget := metadata.mem_entries.mp he
      refine ⟨values, ?_, rfl⟩
      rw [(hformed key values hget).1]
      exact hget
    · rintro ⟨values, hget, rfl⟩
      refine ⟨(encodeUtf16 k, values), ?_, ?_⟩
      · exact metadata.mem_entries.mpr hget
      · rw [decodeUtf16_encode]
  rw [lookup_insertAll ∅ hmem, AList.lookup_empty, Option.or_none]

/-- The entries that Go inserts: each pseudo-header, and each header by its
    canonical key. -/
theorem mem_wireEntries (range : RangeOrder (List GoString)) {headers : Headers}
    {pseudo : PlainObject JsString} (hpseudo : PseudoHeaders pseudo)
    {metadata : PlainObject (List JsString)} (hformed : FormedMetadata metadata)
    (hget : ∀ key values, metadata.get? key = some values ↔
      (∃ value, pseudo.get? key = some value ∧ values = [value]) ∨
        ∃ name ∈ headers.keys, name.units = key ∧ values = (headers.yielded name).map (·.units))
    (k : GoString) (b : List GoString) :
    (k, b) ∈ (range.visit (insertAll ∅ (goEntries metadata))).map (fun e =>
        (if isPseudo e.1 then e.1 else canonicalHeaderKey e.1, e.2)) ↔
      (∃ key value, pseudo.get? key = some value ∧ decodeUtf16 key = k ∧
        b = [decodeUtf16 value]) ∨
      ∃ name ∈ headers.keys, canonicalHeaderKey (decodeUtf16 name.units) = k ∧
        b = (headers.yielded name).map fun v => decodeUtf16 v.units := by
  have hcolon : ∀ key value, pseudo.get? key = some value → isPseudo (decodeUtf16 key) = true := by
    intro key value hvalue
    obtain ⟨hkey, hformedKey, -⟩ := hpseudo key value hvalue
    rw [← isPseudoKey_encode, hformedKey]
    exact hkey
  rw [List.mem_map]
  constructor
  · rintro ⟨⟨k₀, b₀⟩, he, heq⟩
    obtain ⟨hk, rfl⟩ := Prod.mk.inj heq
    have hlookup := (mem_visit range).mp he
    rw [lookup_goEntries hformed, Option.map_eq_some_iff] at hlookup
    obtain ⟨values, hvalues, rfl⟩ := hlookup
    rcases (hget _ _).mp hvalues with ⟨value, hvalue, rfl⟩ | ⟨name, hname, hunits, rfl⟩
    · have hk₀ := hcolon _ _ hvalue
      rw [decodeUtf16_encode] at hk₀
      simp only [hk₀, if_true] at hk
      exact Or.inl ⟨_, value, hvalue, (decodeUtf16_encode k₀).trans hk, rfl⟩
    · have hk₀ : decodeUtf16 name.units = k₀ := by rw [hunits, decodeUtf16_encode]
      have hnot := not_isPseudo_name name
      rw [hk₀] at hnot
      simp only [hnot, Bool.false_eq_true, if_false] at hk
      refine Or.inr ⟨name, hname, (congrArg canonicalHeaderKey hk₀).trans hk, ?_⟩
      rw [List.map_map]
      rfl
  · rintro (⟨key, value, hvalue, rfl, rfl⟩ | ⟨name, hname, rfl, rfl⟩)
    · refine ⟨(decodeUtf16 key, [decodeUtf16 value]), (mem_visit range).mpr ?_, ?_⟩
      · rw [lookup_goEntries hformed, (hpseudo key value hvalue).2.1,
          (hget key [value]).mpr (Or.inl ⟨value, hvalue, rfl⟩)]
        rfl
      · simp only [hcolon key value hvalue, if_true]
    · refine ⟨(decodeUtf16 name.units, (headers.yielded name).map fun v => decodeUtf16 v.units),
        (mem_visit range).mpr ?_, ?_⟩
      · rw [lookup_goEntries hformed, isWellFormed_name name,
          (hget name.units _).mpr (Or.inr ⟨name, hname, rfl, rfl⟩), Option.map_some, List.map_map]
        rfl
      · simp only [not_isPseudo_name, Bool.false_eq_true, if_false]

/-- What TypeScript has encoded, Go unmarshals. -/
theorem unmarshals_encoded (range : RangeOrder (List GoString)) {headers : Headers}
    {pseudo : PlainObject JsString} (hpseudo : PseudoHeaders pseudo) {payload : Bytes}
    (hencode : encodeHeadersFrame headers pseudo = .ok payload) :
    ∃ h, unmarshalHeaders range payload = some h ∧ Unmarshals headers pseudo h := by
  obtain ⟨pushed, hpush, rfl⟩ := encodeHeadersFrame_eq_ok.mp hencode
  have hget := get?_metadata (fun e he => (hpseudo e.1 e.2 (pseudo.mem_entries.mp he)).1) hpush
  generalize pseudo.entries.foldl assignPseudo pushed = metadata at hget
  have hformed : FormedMetadata metadata := by
    intro key values hvalues
    rcases (hget key values).mp hvalues with ⟨value, hvalue, rfl⟩ | ⟨name, -, rfl, rfl⟩
    · obtain ⟨-, hkey, htext⟩ := hpseudo key value hvalue
      exact ⟨hkey, fun v hv => List.mem_singleton.mp hv ▸ htext⟩
    · refine ⟨isWellFormed_name name, fun v hv => ?_⟩
      obtain ⟨w, -, rfl⟩ := List.mem_map.mp hv
      exact isWellFormed_value w
  have hwire := mem_wireEntries range hpseudo hformed hget
  rw [unmarshalHeaders_message range hformed]
  generalize (range.visit (insertAll ∅ (goEntries metadata))).map (fun e =>
    (if isPseudo e.1 then e.1 else canonicalHeaderKey e.1, e.2)) = wire at hwire
  -- no pseudo-header is a spelling of a name
  have hapart : ∀ key value, pseudo.get? key = some value → ∀ name,
      ¬ Spells (decodeUtf16 key) name := by
    intro key value hvalue name hspells
    obtain ⟨hkey, hformedKey, -⟩ := hpseudo key value hvalue
    have hcolon := not_isPseudo_of_spells hspells
    rw [← isPseudoKey_encode, hformedKey, hkey] at hcolon
    cases hcolon
  have hinserted : ∀ k ∈ insertAll ∅ wire, ∃ b, (k, b) ∈ wire := by
    intro k hk
    obtain ⟨b, hb⟩ := Option.isSome_iff_exists.mp (AList.lookup_isSome.mpr hk)
    rcases mem_of_lookup_insertAll hb with hmem | hnone
    · exact ⟨b, hmem⟩
    · cases hnone
  refine ⟨_, rfl, ?_, ?_, ?_, ?_⟩
  · intro name hname
    rw [lookup_insertAll ∅ (v := some ((headers.yielded name).map fun v => decodeUtf16 v.units)),
      Option.some_or]
    intro b
    rw [hwire, Option.some.injEq]
    constructor
    · rintro (⟨key, value, hvalue, hkey, -⟩ | ⟨name', -, hkey, rfl⟩)
      · exact absurd (hkey ▸ spells_canonical name) (hapart key value hvalue name)
      · rw [spells_unique (spells_canonical name) (hkey ▸ spells_canonical name')]
    · rintro rfl
      exact Or.inr ⟨name, hname, rfl, rfl⟩
  · intro name k hk hspells
    obtain ⟨b, hmem⟩ := hinserted k hk
    rcases (hwire k b).mp hmem with ⟨key, value, hvalue, rfl, -⟩ | ⟨name', -, rfl, -⟩
    · exact absurd hspells (hapart key value hvalue name)
    · rw [spells_unique hspells (spells_canonical name')]
  · intro key value hvalue
    rw [lookup_insertAll ∅ (v := some [decodeUtf16 value]), Option.some_or]
    intro b
    rw [hwire, Option.some.injEq]
    constructor
    · rintro (⟨key', value', hvalue', hkey, rfl⟩ | ⟨name, -, hkey, -⟩)
      · have hsame : key' = key := by
          rw [← (hpseudo key' value' hvalue').2.1, hkey, (hpseudo key value hvalue).2.1]
        rw [hsame, hvalue] at hvalue'
        rw [Option.some.inj hvalue']
      · exact absurd (hkey ▸ spells_canonical name) (hapart key value hvalue name)
    · rintro rfl
      exact Or.inl ⟨key, value, hvalue, rfl, rfl⟩
  · intro k hk
    obtain ⟨b, hmem⟩ := hinserted k hk
    rcases (hwire k b).mp hmem with ⟨key, value, hvalue, rfl, -⟩ | ⟨name, hname, rfl, -⟩
    · exact Or.inr ⟨key, pseudo.mem_keys_of_get? hvalue, rfl⟩
    · exact Or.inl ⟨name, hname, spells_canonical name⟩

-- ============================================================================
-- Both directions
-- ============================================================================

/-- What one language puts in a headers envelope, the other takes out. -/
theorem envelopes_agree :
    (∀ h : SlicesMap, (∀ k ∈ h, isPseudo k = false → IsToken k) →
      (∀ k vs, isPseudo k = false → h.lookup k = some (some vs) → ∀ v ∈ vs, IsFieldValue v) →
      ∃ data frame, marshalHeaderSlices h = .ok data ∧ decodeHeadersFrame data = .ok frame ∧
        Decodes h frame) ∧
    ∀ (range : RangeOrder (List GoString)) (headers : Headers) (pseudo : PlainObject JsString)
      (payload : Bytes), PseudoHeaders pseudo → encodeHeadersFrame headers pseudo = .ok payload →
      ∃ h, unmarshalHeaders range payload = some h ∧ Unmarshals headers pseudo h :=
  ⟨fun _ hnames hvalues => decodes_marshalled hnames hvalues,
    fun range _ _ _ hpseudo hencode => unmarshals_encoded range hpseudo hencode⟩

/-- Two spellings of one name, a pseudo-header and one whose slice is nil. -/
def spelledTwice : SlicesMap :=
  ((((∅ : SlicesMap).insert "x-tag".toList (some ["c".toList])).insert ":none".toList none).insert
    "X-Tag".toList (some ["a".toList, "b".toList])).insert ":path".toList (some ["/p".toList])

def xTag : HeaderName := ⟨js "x-tag", by decide, by decide⟩

/-- A header with two values, and two cookies. -/
def taggedCookies : Headers :=
  ⟨[(xTag, ⟨js "1", .refl true⟩), (Headers.setCookie, ⟨js "a=1", .refl true⟩),
    (xTag, ⟨js "2", .refl true⟩), (Headers.setCookie, ⟨js "b=2", .refl true⟩)]⟩

theorem spelledTwice_agrees :
    (∃ data frame, marshalHeaderSlices spelledTwice = .ok data ∧
      decodeHeadersFrame data = .ok frame ∧
      (frame.headers.get xTag).map (·.units) = some (js "a, b, c") ∧
      frame.pseudo.get? (js ":path") = some (.str (js "/p"))) ∧
    ∃ payload h,
      encodeHeadersFrame taggedCookies (({} : PlainObject JsString).set (js ":path") (js "/p")) =
        .ok payload ∧
      unmarshalHeaders .stored payload = some h ∧
      h.lookup "X-Tag".toList = some ["1, 2".toList] ∧
      h.lookup "Set-Cookie".toList = some ["a=1".toList, "b=2".toList] ∧
      h.lookup ":path".toList = some ["/p".toList] := by
  constructor
  · have hkeys : spelledTwice.keys.all (fun k =>
        isPseudo k || k ≠ [] && k.all validHeaderFieldByte) = true := by
      decide +kernel
    have hnames : ∀ k ∈ spelledTwice.keys, isPseudo k = false → IsToken k := by
      intro k hk hpseudo
      have hkey := List.all_eq_true.mp hkeys k hk
      rw [hpseudo, Bool.false_or, Bool.and_eq_true] at hkey
      exact ⟨of_decide_eq_true hkey.1, hkey.2⟩
    have hall : spelledTwice.entries.all (fun e =>
        isPseudo e.1 || (e.2.getD []).all fun v => IsFieldValue v) = true := by
      decide +kernel
    have hvalues : ∀ e ∈ spelledTwice.entries, isPseudo e.1 = false →
        ∀ v ∈ e.2.getD [], IsFieldValue v := by
      intro e he hpseudo v hv
      have hentry := List.all_eq_true.mp hall e he
      rw [hpseudo, Bool.false_or] at hentry
      exact of_decide_eq_true (List.all_eq_true.mp hentry v hv)
    obtain ⟨data, frame, hmarshal, hdecode, hheld⟩ := envelopes_agree.1 spelledTwice
      (fun k hk => hnames k hk) fun k vs hpseudo hlookup =>
        hvalues ⟨k, some vs⟩ (AList.mem_lookup_iff.mp hlookup) hpseudo
    refine ⟨data, frame, hmarshal, hdecode, ?_, ?_⟩
    · rw [hheld.values]
      decide +kernel
    · exact hheld.first ":path".toList "/p".toList [] rfl (by decide +kernel)
  · obtain ⟨payload, hencode⟩ := (encodeHeadersFrame_ok_iff taggedCookies
      (({} : PlainObject JsString).set (js ":path") (js "/p"))).mpr (by decide +kernel)
    have hpseudo : PseudoHeaders (({} : PlainObject JsString).set (js ":path") (js "/p")) := by
      intro key value hget
      have hmem := (PlainObject.get?_eq_some_iff _).mp hget
      obtain ⟨rfl, rfl⟩ := Prod.mk.inj (List.mem_singleton.mp hmem)
      decide +kernel
    obtain ⟨h, hunmarshal, hall⟩ :=
      envelopes_agree.2 .stored taggedCookies _ payload hpseudo hencode
    have htag : canonicalHeaderKey (decodeUtf16 xTag.units) = "X-Tag".toList := by decide +kernel
    have hcookie : canonicalHeaderKey (decodeUtf16 Headers.setCookie.units) =
        "Set-Cookie".toList := by
      decide +kernel
    have hpath : decodeUtf16 (js ":path") = ":path".toList := by decide +kernel
    refine ⟨payload, h, hencode, hunmarshal, ?_, ?_, ?_⟩
    · rw [← htag, hall.values xTag (by decide +kernel)]
      decide +kernel
    · rw [← hcookie, hall.values Headers.setCookie (by decide +kernel)]
      decide +kernel
    · rw [← hpath, hall.pseudoKeys (js ":path") (js "/p") (PlainObject.get?_set_self _ _ _)]
      decide +kernel

end HeadersFormat
end BidiWeb
