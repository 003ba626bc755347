/-
  BidiWeb.Core.HeadersRoundTrip

  A headers frame that TypeScript has encoded and TypeScript decodes.  The
  encoder collects the values of a header in a plain object, where a name
  that every object inherits is taken already; the decoder strips each value,
  and one that was combined may end in white space.
-/

import BidiWeb.Core.HeadersFrame

namespace BidiWeb
namespace Core

open BidiWeb.Lib

-- ============================================================================
-- Decoding what was encoded
-- ============================================================================

/-- The entries of the metadata as the decoder visits them. -/
def metadataEntries (metadata : PlainObject (List JsString)) : List (JsString × Json) :=
  metadata.entries.map fun e => (e.1, .arr (e.2.map .str))

theorem decodeHeadersFrame_message (metadata : PlainObject (List JsString)) :
    decodeHeadersFrame (Unicode.encodeUtf8 (headersMessage metadata).stringify) =
      (metadataEntries metadata).foldlM decodeEntry {} := by
  have hlong : 3 ≤ (headersMessage metadata).stringify.length := by
    simp only [headersMessage, Json.stringify, Json.stringifyMembers, Json.quote, js]
    simp
    omega
  have hparse : parsePayload (Unicode.encodeUtf8 (headersMessage metadata).stringify) =
      some (headersMessage metadata) :=
    parsePayload_stringify (fun d => reads_headersMessage d metadata) hlong
  have hentries : (Json.obj (metadataEntries metadata)).entries = some (metadataEntries metadata) :=
    congrArg some (metadata.entries_ofMembers_entries fun values => Json.arr (values.map .str))
  have hmetadata : (headersMessage metadata).property (js "metadata") =
      some (some (.obj (metadataEntries metadata))) :=
    rfl
  rw [decodeHeadersFrame, hparse]
  simp only [hmetadata, hentries]

/-- The values of a header are those of its property, stripped. -/
theorem strings_decoded {metadata : PlainObject (List JsString)} {frame : HeadersFrame}
    (hrun : (metadataEntries metadata).foldlM decodeEntry {} = .ok frame)
    (hkeys : ∀ e ∈ metadata.entries, ∀ name : HeaderName, e.1.map lowerUnit = name.units →
      e.1 = name.units) (name : HeaderName) :
    frame.headers.strings name =
      ((metadata.get? name.units).getD []).map HeaderValue.strip := by
  have hvalues : ∀ values : List JsString,
      entryValues (name.units, .arr (values.map .str)) = values.map HeaderValue.strip := by
    intro values
    have hunits : (values.map Json.str).filterMap stringUnits = values := by
      rw [List.filterMap_map]
      exact List.filterMap_some
    show ((values.map Json.str).filterMap stringUnits).map HeaderValue.strip = _
    rw [hunits]
  have hfilter : metadata.entries.filter (fun e => e.1.map lowerUnit = name.units) =
      metadata.entries.filter fun e => e.1 = name.units := by
    refine List.filter_congr fun e he => decide_eq_decide.mpr ⟨hkeys e he name, fun h => ?_⟩
    rw [h]
    exact name.isLower
  rw [strings_decodeEntries hrun name, metadataEntries, List.filter_map]
  show [] ++ ((metadata.entries.filter fun e => e.1.map lowerUnit = name.units).map _).flatMap
    entryValues = _
  rw [hfilter, metadata.filter_entries_name, metadata.properties_filter_name]
  cases metadata.get? name.units with
  | none => rfl
  | some values => simp [hvalues]

-- ============================================================================
-- Pseudo-headers
-- ============================================================================

/-- The property that an entry with a pseudo key becomes. -/
def pseudoProperty (e : JsString × Json) : Option (JsString × Json) :=
  if isPseudoKey e.1 then (metadataValues e.2).head?.map fun v => (e.1, v) else none

theorem pseudo_decodeEntries_eq {frame frame' : HeadersFrame} {entries : List (JsString × Json)}
    (h : entries.foldlM decodeEntry frame = .ok frame') :
    frame'.pseudo =
      (entries.filterMap pseudoProperty).foldl (fun o e => o.set e.1 e.2) frame.pseudo := by
  induction entries generalizing frame with
  | nil =>
      obtain rfl := Except.ok.inj h
      rfl
  | cons e entries ih =>
      obtain ⟨next, hstep, hrest⟩ := foldlM_cons_ok h
      rw [ih hrest, List.filterMap_cons]
      rcases decodeEntry_cases hstep with ⟨hpseudo, hnil, rfl⟩ | ⟨v, vs, hpseudo, hcons, rfl⟩ |
        ⟨headers, hnot, -, rfl⟩
      · simp [pseudoProperty, hpseudo, hnil]
      · simp [pseudoProperty, hpseudo, hcons]
      · simp [pseudoProperty, hnot]

/-- Pseudo-headers come after the headers, in their order. -/
theorem properties_assignPseudos {metadata : PlainObject (List JsString)}
    {entries : List (JsString × JsString)}
    (hnodup : (metadata.properties.map (·.1) ++ entries.map (·.1)).Nodup)
    (hpseudo : ∀ e ∈ entries, isPseudoKey e.1 = true) :
    (entries.foldl assignPseudo metadata).properties =
      metadata.properties ++ entries.map fun e => (e.1, [e.2]) := by
  induction entries generalizing metadata with
  | nil => exact (List.append_nil _).symm
  | cons e entries ih =>
      rw [List.forall_mem_cons] at hpseudo
      have hnew : e.1 ∉ metadata.keys := fun hold =>
        (List.nodup_append.mp hnodup).2.2 _ hold _ List.mem_cons_self rfl
      have hset : (assignPseudo metadata e).properties = metadata.properties ++ [(e.1, [e.2])] := by
        rw [assignPseudo, if_neg (isPseudoKey_ne_proto hpseudo.1), PlainObject.set, dif_neg hnew]
      rw [List.foldl_cons, ih _ hpseudo.2, hset, List.append_assoc, List.singleton_append,
        List.map_cons]
      rw [hset, List.map_append]
      simpa using hnodup

theorem pseudo_decoded {pseudo : PlainObject JsString}
    (hpseudo : ∀ e ∈ pseudo.entries, isPseudoKey e.1 = true)
    {pushed : PlainObject (List JsString)} (hnames : ∀ key ∈ pushed.keys, isPseudoKey key = false)
    {frame : HeadersFrame}
    (hrun : (metadataEntries (pseudo.entries.foldl assignPseudo pushed)).foldlM decodeEntry {} =
      .ok frame) :
    frame.pseudo.entries = pseudo.entries.map fun e => (e.1, .str e.2) := by
  have hproperties := @properties_assignPseudos pushed pseudo.entries
    (List.nodup_append.mpr ⟨pushed.nodup, pseudo.nodup_entries, ?_⟩) hpseudo
  · generalize pseudo.entries.foldl assignPseudo pushed = metadata at hrun hproperties
    have hindex : ∀ e ∈ metadata.properties, isPseudoKey e.1 = true → arrayIndex e.1 = none := by
      intro e _ he
      by_contra hsome
      cases hkey : e.1 with
      | nil =>
          rw [hkey] at he
          cases he
      | cons u us =>
          rw [hkey] at he hsome
          obtain rfl : u = 0x3A := by simpa [isPseudoKey] using he
          have hdigit := digits_of_arrayIndex hsome 0x3A List.mem_cons_self
          revert hdigit
          decide
    have hfilter : metadata.entries.filter (fun e => isPseudoKey e.1) =
        pseudo.entries.map fun e => (e.1, [e.2]) := by
      rw [metadata.filter_entries hindex, hproperties, List.filter_append,
        List.filter_eq_nil_iff.mpr, List.nil_append, List.filter_eq_self.mpr]
      · intro p hp
        obtain ⟨e, he, rfl⟩ := List.mem_map.mp hp
        exact hpseudo e he
      · intro e he
        simp [hnames e.1 (List.mem_map_of_mem he)]
    have hfound : (metadataEntries metadata).filterMap pseudoProperty =
        pseudo.entries.map fun e => (e.1, .str e.2) := by
      have hsplit : (metadataEntries metadata).filterMap pseudoProperty =
          (metadata.entries.filter fun e => isPseudoKey e.1).filterMap fun e =>
            pseudoProperty (e.1, .arr (e.2.map .str)) := by
        rw [metadataEntries, List.filterMap_map, List.filterMap_filter]
        refine List.filterMap_congr fun e _ => ?_
        by_cases he : isPseudoKey e.1
        · rw [if_pos he]
          rfl
        · rw [if_neg he]
          exact if_neg he
      have hsome : ∀ e ∈ pseudo.entries,
          pseudoProperty (e.1, .arr ([e.2].map .str)) = some (e.1, .str e.2) :=
        fun e he => if_pos (hpseudo e he)
      rw [hsplit, hfilter, List.filterMap_map]
      exact (List.filterMap_congr hsome).trans (congrFun List.filterMap_eq_map pseudo.entries)
    have hpseudos := pseudo_decodeEntries_eq hrun
    rw [hfound] at hpseudos
    rw [hpseudos]
    exact pseudo.entries_ofMembers_entries Json.str
  · rintro key hkey key' hkey' rfl
    obtain ⟨e, he, rfl⟩ := List.mem_map.mp hkey'
    have hnot := hnames e.1 hkey
    rw [hpseudo e he] at hnot
    cases hnot

-- ============================================================================
-- Round trips
-- ============================================================================

/-- Encoding succeeds, and decoding yields the same entries. -/
def RoundTrips (headers : Headers) (pseudo : PlainObject JsString) : Prop :=
  ∃ payload frame, encodeHeadersFrame headers pseudo = .ok payload ∧
    decodeHeadersFrame payload = .ok frame ∧ frame.headers.entries = headers.entries ∧
    frame.pseudo.entries = pseudo.entries.map fun e => (e.1, .str e.2)

/-- The names of headers are in lower case, as few of the inherited ones are. -/
theorem isInherited_name_iff (name : HeaderName) :
    isInherited name.units = true ↔
      name.units = js "__proto__" ∨ name.units = js "constructor" := by
  have hlower : ∀ key ∈ inheritedNames, key.map lowerUnit = key →
      key = js "__proto__" ∨ key = js "constructor" := by
    decide
  constructor
  · intro h
    obtain ⟨key, hkey, heq⟩ := List.any_eq_true.mp h
    obtain rfl : key = name.units := of_decide_eq_true heq
    exact hlower _ hkey name.isLower
  · rintro (h | h)
    · rw [h]
      decide
    · rw [h]
      decide

theorem ofString?_name (name : HeaderName) : (HeaderName.ofString? name.units).isSome = true := by
  rw [HeaderName.ofString?, dif_pos name.isToken]
  rfl

theorem ofString?_value (v : HeaderValue) : (HeaderValue.ofString? v.units).isSome = true := by
  have hvalid := v.normalize.isValid
  simp only [HeaderValue.normalize] at hvalid
  rw [HeaderValue.ofString?, dif_pos hvalid]
  rfl

/-- What is encoded decodes, with every value stripped. -/
theorem decoded {headers : Headers} {pseudo : PlainObject JsString}
    (hpseudo : ∀ key ∈ pseudo.keys, isPseudoKey key = true) {payload : Bytes}
    (hencode : encodeHeadersFrame headers pseudo = .ok payload) :
    ∃ frame, decodeHeadersFrame payload = .ok frame ∧
      frame.pseudo.entries = pseudo.entries.map (fun e => (e.1, .str e.2)) ∧
      ∀ name, frame.headers.strings name =
        (headers.yielded name).map fun v => HeaderValue.strip v.units := by
  have hentries : ∀ e ∈ pseudo.entries, isPseudoKey e.1 = true := fun e he =>
    hpseudo e.1 (List.mem_map_of_mem (pseudo.entries_perm.mem_iff.mp he))
  obtain ⟨pushed, hpush, rfl⟩ := encodeHeadersFrame_eq_ok.mp hencode
  have hget := get?_metadata hentries hpush
  have hnames : ∀ key ∈ pushed.keys, isPseudoKey key = false := by
    intro key hkey
    obtain ⟨p, hp, rfl⟩ := List.mem_map.mp hkey
    obtain ⟨name, hname⟩ := name_of_pushed hpush (pushed.get?_eq_some_iff.mpr hp)
    rw [← hname, Bool.eq_false_iff]
    exact fun hcolon => spelling_ne_of_isPseudoKey hcolon name name.isLower
  rw [decodeHeadersFrame_message]
  have hpseudos := @pseudo_decoded pseudo hentries pushed hnames
  generalize pseudo.entries.foldl assignPseudo pushed = metadata at hget hpseudos
  have hdecodable : ∀ e ∈ metadataEntries metadata, DecodableEntry e := by
    intro e he
    obtain ⟨⟨key, values⟩, hmem, rfl⟩ := List.mem_map.mp he
    rcases (hget key values).mp (metadata.mem_entries.mp hmem) with
      ⟨value, hvalue, rfl⟩ | ⟨name, -, rfl, rfl⟩
    · exact Or.inl (hpseudo key (pseudo.mem_keys_of_get? hvalue))
    · refine Or.inr fun units hunits => ⟨ofString?_name name, ?_⟩
      obtain ⟨u, hu, heq⟩ := List.mem_map.mp hunits
      obtain rfl := Json.str.inj heq
      obtain ⟨v, -, rfl⟩ := List.mem_map.mp hu
      exact ofString?_value v
  have hloop := foldlM_ok_iff (f := decodeEntry) (fun _ _ => decodeEntry_ok_iff)
    (metadataEntries metadata) {}
  obtain ⟨frame, hrun⟩ := hloop.mpr hdecodable
  refine ⟨frame, hrun, hpseudos hrun, fun name => ?_⟩
  rw [strings_decoded hrun]
  · cases hvalues : metadata.get? name.units with
    | none =>
        have hnone : name ∉ headers.keys := fun hmem => by
          have hsome := (hget name.units _).mpr (Or.inr ⟨name, hmem, rfl, rfl⟩)
          rw [hvalues] at hsome
          cases hsome
        rw [← headers.yielded_ne_nil, ne_eq, not_not] at hnone
        rw [hnone]
        rfl
    | some values =>
        rcases (hget _ _).mp hvalues with ⟨value, hvalue, rfl⟩ | ⟨name', -, hunits, rfl⟩
        · have hcolon := hpseudo _ (pseudo.mem_keys_of_get? hvalue)
          exact absurd name.isLower (spelling_ne_of_isPseudoKey hcolon name)
        · rw [HeaderName.ext hunits, Option.getD_some, List.map_map]
          rfl
  · rintro ⟨key, values⟩ hmem name' hspells
    rcases (hget key values).mp (metadata.mem_entries.mp hmem) with
      ⟨value, hvalue, -⟩ | ⟨name, -, rfl, -⟩
    · have hcolon := hpseudo key (pseudo.mem_keys_of_get? hvalue)
      exact absurd hspells (spelling_ne_of_isPseudoKey hcolon name')
    · exact name.isLower.symm.trans hspells

/-- Headers that hold the values of others, stripped, iterate as these do if
    nothing has been stripped. -/
theorem yielded_of_stripped {headers headers' : Headers} {name : HeaderName}
    (hstrings : headers'.strings name =
      (headers.yielded name).map fun v => HeaderValue.strip v.units) :
    (headers'.yielded name).map (·.units) =
      (headers.yielded name).map fun v => HeaderValue.strip v.units := by
  rw [← hstrings]
  unfold Headers.yielded at hstrings ⊢
  by_cases hcookie : name = Headers.setCookie
  · rw [if_pos hcookie]
    rfl
  · rw [if_neg hcookie] at hstrings ⊢
    have hget := headers'.units_get name
    rw [hstrings] at hget ⊢
    cases hvalue : headers.get name with
    | none =>
        rw [hvalue, Option.toList_none, List.map_nil, if_pos rfl, Option.map_eq_none_iff] at hget
        rw [hget]
        rfl
    | some v =>
        rw [hvalue, Option.toList_some, List.map_singleton, if_neg (List.cons_ne_nil _ _)] at hget
        obtain ⟨w, hw, hunits⟩ := Option.map_eq_some_iff.mp hget
        rw [hw, Option.toList_some, List.map_singleton, hunits]
        simp

/-- A frame comes back as it was if no name is inherited by every object, and
    no combined value ends in an empty one. -/
theorem headers_round_trip_iff {headers : Headers} (hheaders : headers.Normalized)
    {pseudo : PlainObject JsString} (hpseudo : ∀ key ∈ pseudo.keys, isPseudoKey key = true) :
    RoundTrips headers pseudo ↔
      ∀ name ∈ headers.keys, name.units ≠ js "__proto__" ∧ name.units ≠ js "constructor" ∧
        ¬ headers.EndsEmpty name := by
  have hencodable : EncodableHeaders headers ↔
      ∀ name ∈ headers.keys, name.units ≠ js "__proto__" ∧ name.units ≠ js "constructor" := by
    refine forall_congr' fun name => imp_congr Iff.rfl ?_
    rw [isInherited_name_iff, not_or]
  have hsame : ∀ headers' : Headers, (∀ name, headers'.strings name =
      (headers.yielded name).map fun v => HeaderValue.strip v.units) →
        (headers'.entries = headers.entries ↔ ∀ name, ¬ headers.EndsEmpty name) := by
    intro headers' hstrings
    rw [Headers.entries_eq_iff]
    refine forall_congr' fun name => ?_
    rw [← hheaders.yielded_iff, ← List.map_inj_right fun _ _ => HeaderValue.ext,
      yielded_of_stripped (hstrings name), List.map_inj_left]
  have hempty : ∀ name, headers.EndsEmpty name → name ∈ headers.keys := by
    intro name hends
    rw [← headers.valuesOf_ne_nil]
    exact List.ne_nil_of_length_pos (Nat.lt_of_lt_of_le Nat.zero_lt_two hends.2.1)
  constructor
  · rintro ⟨payload, frame, hencode, hdecode, hentries, -⟩ name hname
    obtain ⟨frame', hdecode', -, hstrings⟩ := decoded hpseudo hencode
    obtain rfl := Except.ok.inj (hdecode.symm.trans hdecode')
    have hnames := hencodable.mp ((encodeHeadersFrame_ok_iff headers pseudo).mp ⟨payload, hencode⟩)
    exact ⟨(hnames name hname).1, (hnames name hname).2, (hsame _ hstrings).mp hentries name⟩
  · intro hnames
    obtain ⟨payload, hencode⟩ := (encodeHeadersFrame_ok_iff headers pseudo).mpr
      (hencodable.mpr fun name hname => ⟨(hnames name hname).1, (hnames name hname).2.1⟩)
    obtain ⟨frame, hdecode, hentries, hstrings⟩ := decoded hpseudo hencode
    refine ⟨payload, frame, hencode, hdecode, (hsame _ hstrings).mpr fun name hends => ?_, hentries⟩
    exact (hnames name (hempty name hends)).2.2 hends

def accept : HeaderName := ⟨js "accept", by decide, by decide⟩

/-- A header with three values, one of them empty, and two cookies. -/
def negotiated : Headers :=
  ({} : Headers)
    |>.append accept ⟨js "text/plain", by decide⟩
    |>.append Headers.setCookie ⟨js "a=1", by decide⟩
    |>.append accept ⟨js "", by decide⟩
    |>.append accept ⟨js "image/png", by decide⟩
    |>.append Headers.setCookie ⟨js "", by decide⟩

theorem negotiated_round_trips :
    RoundTrips negotiated (({} : PlainObject JsString).set (js ":path") (js "/p")) := by
  have hempty : ({} : Headers).Normalized := nofun
  have hheaders : negotiated.Normalized :=
    ((((hempty.append _ _).append _ _).append _ _).append _ _).append _ _
  exact (headers_round_trip_iff hheaders (by decide)).mpr (by decide)

def constructorName : HeaderName := ⟨js "constructor", by decide, by decide⟩

/-- Every object has a `constructor`, which is no list of values. -/
theorem constructor_not_encoded : ¬ RoundTrips ⟨[(constructorName, ⟨js "x", by decide⟩)]⟩ {} := by
  rintro ⟨payload, frame, hencode, -⟩
  have hencodable := (encodeHeadersFrame_ok_iff _ _).mp ⟨payload, hencode⟩
  revert hencodable
  decide

end Core
end BidiWeb
