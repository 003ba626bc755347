/-
  BidiWeb.Core.HeadersFrame

  `ts/packages/core/src/headers-frame.ts`: the JSON payload of a headers
  envelope.  Both directions can throw; `encodeHeadersFrame_ok_iff` and
  `decodeHeadersFrame_ok_iff` say when they do not.
-/

import BidiWeb.Core.Wire
import BidiWeb.Lib.FetchHeaders
import BidiWeb.Lib.Stringify

namespace BidiWeb
namespace Core

open BidiWeb.Lib

-- ============================================================================
-- encodeHeadersFrame
-- ============================================================================

/-- What `headers.forEach` does with one header. -/
def pushHeader (metadata : PlainObject (List JsString)) (e : HeaderName × HeaderValue) :
    Except JsError (PlainObject (List JsString)) :=
  let key := e.1.units
  match metadata.get? key with
  | some values => .ok (metadata.set key (values ++ [e.2.units]))
  | none =>
      -- what is inherited is not `undefined`, so that no list replaces it
      if isInherited key then .error (.typeError "metadata[key].push is not a function")
      else .ok (metadata.set key [e.2.units])

/-- `metadata[key] = [value]`; the setter of `__proto__` adds no property. -/
def assignPseudo (metadata : PlainObject (List JsString)) (e : JsString × JsString) :
    PlainObject (List JsString) :=
  if e.1 = js "__proto__" then metadata else metadata.set e.1 [e.2]

def headersMessage (metadata : PlainObject (List JsString)) : Json :=
  .obj [(js "metadata", .obj (metadata.entries.map fun e => (e.1, .arr (e.2.map .str))))]

/-- Serialize request or response headers into the JSON payload of a headers
    envelope. -/
def encodeHeadersFrame (headers : Headers) (pseudo : PlainObject JsString) :
    Except JsError Bytes := do
  let metadata ← headers.entries.foldlM pushHeader {}
  let metadata := pseudo.entries.foldl assignPseudo metadata
  return Unicode.encodeUtf8 (headersMessage metadata).stringify

/-- No header has the name of a property that every object inherits. -/
def EncodableHeaders (headers : Headers) : Prop := ∀ name ∈ headers.keys, ¬ isInherited name.units

instance (headers : Headers) : Decidable (EncodableHeaders headers) :=
  inferInstanceAs (Decidable (∀ name ∈ headers.keys, ¬ isInherited name.units))

/-- The first value of a name makes a list, unless something inherited is there. -/
theorem pushHeader_ok {metadata metadata' : PlainObject (List JsString)}
    {e : HeaderName × HeaderValue} (h : pushHeader metadata e = .ok metadata') :
    (metadata.get? e.1.units = none → ¬ isInherited e.1.units) ∧
      metadata' =
        metadata.set e.1.units ((metadata.get? e.1.units).getD [] ++ [e.2.units]) := by
  cases hget : metadata.get? e.1.units with
  | some values =>
      simp only [pushHeader, hget] at h
      exact ⟨nofun, (Except.ok.inj h).symm⟩
  | none =>
      simp only [pushHeader, hget] at h
      split at h
      · cases h
      · exact ⟨fun _ => ‹_›, (Except.ok.inj h).symm⟩

/-- Only the loop over the headers can throw. -/
theorem encodeHeadersFrame_eq_ok {headers : Headers} {pseudo : PlainObject JsString}
    {payload : Bytes} : encodeHeadersFrame headers pseudo = .ok payload ↔
      ∃ metadata, headers.entries.foldlM pushHeader {} = .ok metadata ∧
        Unicode.encodeUtf8 (headersMessage (pseudo.entries.foldl assignPseudo metadata)).stringify =
          payload := by
  unfold encodeHeadersFrame
  cases headers.entries.foldlM pushHeader {} with
  | error err =>
      constructor
      · intro h
        cases h
      · rintro ⟨metadata, h, -⟩
        cases h
  | ok metadata =>
      constructor
      · intro h
        exact ⟨metadata, rfl, Except.ok.inj h⟩
      · rintro ⟨metadata', h, rfl⟩
        obtain rfl := Except.ok.inj h
        rfl

theorem encodeHeadersFrame_ok_iff (headers : Headers) (pseudo : PlainObject JsString) :
    (∃ payload, encodeHeadersFrame headers pseudo = .ok payload) ↔ EncodableHeaders headers := by
  have hloop := foldlM_ok_iff_of_keeps (f := pushHeader)
    (I := fun metadata => ∀ key ∈ metadata.keys, ¬ isInherited key)
    (P := fun e => ¬ isInherited e.1.units) ?_ ?_ headers.entries (s := {})
    (by simp [PlainObject.keys])
  · have hnames : (∀ e ∈ headers.entries, ¬ isInherited e.1.units) ↔ EncodableHeaders headers := by
      unfold EncodableHeaders
      rw [← List.forall_mem_map (f := fun e : HeaderName × HeaderValue => e.1)
        (P := fun name => ¬ isInherited name.units)]
      exact forall_congr' fun name => imp_congr headers.mem_entries_keys Iff.rfl
    rw [← hnames, ← hloop]
    simp only [encodeHeadersFrame_eq_ok]
    constructor
    · rintro ⟨payload, metadata, h, -⟩
      exact ⟨metadata, h⟩
    · rintro ⟨metadata, h⟩
      exact ⟨_, metadata, h, rfl⟩
  · intro metadata e hmetadata
    cases hget : metadata.get? e.1.units with
    | some values => simp [pushHeader, hget, hmetadata _ (metadata.mem_keys_of_get? hget)]
    | none => by_cases hkey : isInherited e.1.units <;> simp [pushHeader, hget, hkey]
  · intro metadata e metadata' hmetadata hpush key hmem
    obtain ⟨hfresh, rfl⟩ := pushHeader_ok hpush
    rcases metadata.mem_keys_set hmem with rfl | hold
    · cases hget : metadata.get? e.1.units with
      | some values => exact hmetadata _ (metadata.mem_keys_of_get? hget)
      | none => exact hfresh hget
    · exact hmetadata key hold

-- ============================================================================
-- What was encoded
-- ============================================================================

/-- The metadata has the values of a name in the order of the headers. -/
theorem get?_pushHeaders {metadata metadata' : PlainObject (List JsString)}
    {entries : List (HeaderName × HeaderValue)}
    (h : entries.foldlM pushHeader metadata = .ok metadata') (key : JsString) :
    metadata'.get? key =
      match (entries.filter fun e => e.1.units = key).map (·.2.units) with
      | [] => metadata.get? key
      | v :: vs => some ((metadata.get? key).getD [] ++ v :: vs) := by
  induction entries generalizing metadata with
  | nil =>
      obtain rfl := Except.ok.inj h
      rfl
  | cons e entries ih =>
      obtain ⟨next, hstep, hrest⟩ := foldlM_cons_ok h
      obtain ⟨-, rfl⟩ := pushHeader_ok hstep
      rw [ih hrest]
      by_cases hkey : e.1.units = key
      · subst hkey
        rw [List.filter_cons_of_pos (by simp), List.map_cons, PlainObject.get?_set_self]
        cases (entries.filter fun f => f.1.units = e.1.units).map (·.2.units) with
        | nil => rfl
        | cons v vs => simp
      · rw [List.filter_cons_of_neg (by simpa using hkey),
          PlainObject.get?_set_of_ne _ (Ne.symm hkey)]

/-- The text of the metadata is read back. -/
theorem reads_headersMessage (depth : Nat) (metadata : PlainObject (List JsString)) :
    Json.Reads (depth + 3) (headersMessage metadata).stringify (headersMessage metadata) := by
  apply Json.reads_stringify_obj
  intro m hm
  obtain rfl := List.mem_singleton.mp hm
  apply Json.reads_stringify_obj
  intro m hm
  obtain ⟨e, -, rfl⟩ := List.mem_map.mp hm
  apply Json.reads_stringify_arr
  intro v hv
  obtain ⟨units, -, rfl⟩ := List.mem_map.mp hv
  exact Json.reads_stringify_str depth units

theorem get?_assignPseudo {metadata : PlainObject (List JsString)} {e : JsString × JsString}
    (he : e.1 ≠ js "__proto__") (key : JsString) :
    (assignPseudo metadata e).get? key = if key = e.1 then some [e.2] else metadata.get? key := by
  rw [assignPseudo, if_neg he]
  split
  · rename_i hkey
    rw [hkey, PlainObject.get?_set_self]
  · rename_i hkey
    exact metadata.get?_set_of_ne hkey [e.2]

/-- Each pseudo-header replaces what the metadata had for its key. -/
theorem get?_assignPseudos {metadata : PlainObject (List JsString)}
    {entries : List (JsString × JsString)} (hnodup : (entries.map (·.1)).Nodup)
    (hproto : ∀ e ∈ entries, e.1 ≠ js "__proto__") (key : JsString) (values : List JsString) :
    (entries.foldl assignPseudo metadata).get? key = some values ↔
      (∃ value, (key, value) ∈ entries ∧ values = [value]) ∨
        key ∉ entries.map (·.1) ∧ metadata.get? key = some values := by
  induction entries generalizing metadata with
  | nil => simp
  | cons e entries ih =>
      rw [List.map_cons, List.nodup_cons] at hnodup
      rw [List.forall_mem_cons] at hproto
      rw [List.foldl_cons, ih hnodup.2 hproto.2, get?_assignPseudo hproto.1]
      by_cases hkey : key = e.1
      · subst hkey
        have hnone : ∀ value, (e.1, value) ∉ entries :=
          fun value hmem => hnodup.1 (List.mem_map.mpr ⟨_, hmem, rfl⟩)
        simp [hnone, hnodup.1, Prod.ext_iff, eq_comm]
      · simp [hkey, Prod.ext_iff]

-- ============================================================================
-- decodeHeadersFrame
-- ============================================================================

structure HeadersFrame where
  headers : Headers := {}
  pseudo : PlainObject Json := {}

/-- `JSON.parse(decoder.decode(payload))`; the decoder drops a byte order mark. -/
def parsePayload (payload : Bytes) : Option Json :=
  let text := Unicode.decodeUtf8 payload
  let text := if text.head? = some (Char.ofNat 0xFEFF) then text.tail else text
  Json.parse text.length text

/-- The text of an object is parsed, unless it nests deeper than it is long. -/
theorem parsePayload_stringify {members : List (JsString × Json)} {depth : Nat}
    (hreads : ∀ d, Json.Reads (d + depth) (Json.obj members).stringify (.obj members))
    (hlong : depth ≤ (Json.obj members).stringify.length) :
    parsePayload (Unicode.encodeUtf8 (Json.obj members).stringify) = some (.obj members) := by
  have hopen : (Json.obj members).stringify.head? = some '\x7b' := by
    rw [Json.stringify]
    rfl
  have hmark : ¬ (Json.obj members).stringify.head? = some (Char.ofNat 0xFEFF) := by
    rw [hopen]
    decide
  have htext := hreads ((Json.obj members).stringify.length - depth)
  rw [Nat.sub_add_cancel hlong] at htext
  simp only [parsePayload, Unicode.decodeUtf8_encode, if_neg hmark]
  exact Json.parse_of_reads htext

/-- A single value stands for a list of one. -/
def metadataValues : Json → List Json
  | .arr values => values
  | v => [v]

def isPseudoKey (key : JsString) : Bool := key.head? = some 0x3A

def appendHeader (key : JsString) (headers : Headers) : Json → Except JsError Headers
  | .str units =>
      match HeaderName.ofString? key, HeaderValue.ofString? units with
      | some name, some value => .ok (headers.append name value)
      | _, _ => .error (.typeError "invalid header")
  | _ => .ok headers

/-- What the loop does with one entry of the metadata. -/
def decodeEntry (frame : HeadersFrame) (e : JsString × Json) : Except JsError HeadersFrame :=
  if isPseudoKey e.1 then
    match metadataValues e.2 with
    | [] => .ok frame
    | v :: _ => .ok { frame with pseudo := frame.pseudo.set e.1 v }
  else do
    let headers ← (metadataValues e.2).foldlM (appendHeader e.1) frame.headers
    return { frame with headers }

/-- Parse the JSON payload of a headers envelope: the application headers and
    the pseudo-headers. -/
def decodeHeadersFrame (payload : Bytes) : Except JsError HeadersFrame :=
  match parsePayload payload with
  | none => .error (.error "invalid JSON")
  | some message =>
      match message.property (js "metadata") with
      | none => .error (.typeError "Cannot read properties of null (reading 'metadata')")
      | some none => .ok {}
      | some (some metadata) =>
          match metadata.entries with
          | none => .error (.typeError "Cannot convert undefined or null to object")
          | some entries => entries.foldlM decodeEntry {}

/-- An entry with a pseudo key, or one whose strings are values of a header
    by that name. -/
def DecodableEntry (e : JsString × Json) : Prop :=
  isPseudoKey e.1 ∨ ∀ units, .str units ∈ metadataValues e.2 →
    (HeaderName.ofString? e.1).isSome ∧ (HeaderValue.ofString? units).isSome

/-- JSON, not null; and its metadata, if any, is not null either and has
    only headers. -/
def DecodablePayload (payload : Bytes) : Prop :=
  ∃ message, parsePayload payload = some message ∧
    ∃ metadata, message.property (js "metadata") = some metadata ∧
      ∀ m, metadata = some m → ∃ entries, m.entries = some entries ∧
        ∀ e ∈ entries, DecodableEntry e

theorem appendHeader_ok_iff {key : JsString} {headers : Headers} {v : Json} :
    (∃ headers', appendHeader key headers v = .ok headers') ↔
      ∀ units, .str units = v →
        (HeaderName.ofString? key).isSome ∧ (HeaderValue.ofString? units).isSome := by
  cases v with
  | str units =>
      cases hname : HeaderName.ofString? key <;> cases hvalue : HeaderValue.ofString? units <;>
        simp [appendHeader, hname, hvalue]
  | null => simp [appendHeader]
  | bool b => simp [appendHeader]
  | num literal => simp [appendHeader]
  | arr elements => simp [appendHeader]
  | obj members => simp [appendHeader]

theorem decodeEntry_ok_iff {frame : HeadersFrame} {e : JsString × Json} :
    (∃ frame', decodeEntry frame e = .ok frame') ↔ DecodableEntry e := by
  unfold decodeEntry DecodableEntry
  by_cases hpseudo : isPseudoKey e.1
  · cases metadataValues e.2 <;> simp [hpseudo]
  · rw [if_neg hpseudo]
    have hloop := foldlM_ok_iff (f := appendHeader e.1) (fun _ _ => appendHeader_ok_iff)
      (metadataValues e.2) frame.headers
    have hstrings : (∀ v ∈ metadataValues e.2, ∀ units, .str units = v →
          (HeaderName.ofString? e.1).isSome ∧ (HeaderValue.ofString? units).isSome) ↔
        ∀ units, .str units ∈ metadataValues e.2 →
          (HeaderName.ofString? e.1).isSome ∧ (HeaderValue.ofString? units).isSome := by
      constructor
      · intro h units hmem
        exact h _ hmem units rfl
      · rintro h v hmem units rfl
        exact h units hmem
    rw [or_iff_right hpseudo, ← hstrings, ← hloop]
    cases (metadataValues e.2).foldlM (appendHeader e.1) frame.headers with
    | error err => exact ⟨fun ⟨_, h⟩ => (by cases h), fun ⟨_, h⟩ => (by cases h)⟩
    | ok headers => exact ⟨fun _ => ⟨_, rfl⟩, fun _ => ⟨_, rfl⟩⟩

theorem decodeHeadersFrame_ok_iff {payload : Bytes} :
    (∃ frame, decodeHeadersFrame payload = .ok frame) ↔ DecodablePayload payload := by
  unfold decodeHeadersFrame DecodablePayload
  cases hmessage : parsePayload payload with
  | none => simp
  | some message =>
      cases hmetadata : message.property (js "metadata") with
      | none => simp [hmetadata]
      | some metadata =>
          cases metadata with
          | none => simp [hmetadata]
          | some m =>
              cases hentries : m.entries with
              | none => simp [hmetadata, hentries]
              | some entries =>
                  have hloop := foldlM_ok_iff (f := decodeEntry) (fun _ _ => decodeEntry_ok_iff)
                    entries {}
                  simpa [hmetadata, hentries] using hloop

-- ============================================================================
-- What was decoded
-- ============================================================================

def stringUnits : Json → Option JsString
  | .str units => some units
  | .null | .bool _ | .num _ | .arr _ | .obj _ => none

/-- What an entry of the metadata appends to the header that its key names. -/
def entryValues (e : JsString × Json) : List JsString :=
  ((metadataValues e.2).filterMap stringUnits).map HeaderValue.strip

/-- No colon is in a header name. -/
theorem spelling_ne_of_isPseudoKey {key : JsString} (hkey : isPseudoKey key) (name : HeaderName) :
    key.map lowerUnit ≠ name.units := by
  intro heq
  cases key with
  | nil => cases hkey
  | cons u us =>
      obtain rfl : u = 0x3A := by simpa [isPseudoKey] using hkey
      have hcolon : (0x3A : UInt16) ∈ name.units := by
        rw [← heq]
        exact List.mem_cons_self
      have htoken := List.all_eq_true.mp name.isToken.2 _ hcolon
      revert htoken
      decide

theorem strings_appendHeader {key : JsString} {headers headers' : Headers} {v : Json}
    (h : appendHeader key headers v = .ok headers') (name : HeaderName) :
    headers'.strings name = headers.strings name ++
      if key.map lowerUnit = name.units then (stringUnits v).toList.map HeaderValue.strip
      else [] := by
  cases v with
  | str units =>
      cases hname : HeaderName.ofString? key with
      | none => simp [appendHeader, hname] at h
      | some n =>
          cases hvalue : HeaderValue.ofString? units with
          | none => simp [appendHeader, hname, hvalue] at h
          | some value =>
              simp only [appendHeader, hname, hvalue] at h
              obtain rfl := Except.ok.inj h
              have hn : n.units = key.map lowerUnit := HeaderName.units_ofString? hname
              have hv : value.normalize.units = HeaderValue.strip units :=
                HeaderValue.normalize_ofString? hvalue
              rw [Headers.strings, Headers.valuesOf_append, ← hn]
              by_cases hsame : n = name
              · subst hsame
                simp [Headers.strings, stringUnits, hv]
              · have hunits : n.units ≠ name.units := by
                  intro heq
                  exact hsame (HeaderName.ext heq)
                simp [Headers.strings, hsame, hunits]
  | null | bool b | num literal | arr elements | obj members =>
      obtain rfl := Except.ok.inj h
      simp [stringUnits]

/-- A step of the loop: a pseudo-header, with or without a value, or a header. -/
theorem decodeEntry_cases {frame frame' : HeadersFrame} {e : JsString × Json}
    (h : decodeEntry frame e = .ok frame') :
    (isPseudoKey e.1 = true ∧ metadataValues e.2 = [] ∧ frame' = frame) ∨
    (∃ v vs, isPseudoKey e.1 = true ∧ metadataValues e.2 = v :: vs ∧
      frame' = { frame with pseudo := frame.pseudo.set e.1 v }) ∨
    ∃ headers, isPseudoKey e.1 = false ∧
      (metadataValues e.2).foldlM (appendHeader e.1) frame.headers = .ok headers ∧
      frame' = { frame with headers } := by
  unfold decodeEntry at h
  by_cases hpseudo : isPseudoKey e.1
  · rw [if_pos hpseudo] at h
    cases hvalues : metadataValues e.2 with
    | nil =>
        rw [hvalues] at h
        exact Or.inl ⟨hpseudo, rfl, (Except.ok.inj h).symm⟩
    | cons v vs =>
        rw [hvalues] at h
        exact Or.inr (Or.inl ⟨v, vs, hpseudo, rfl, (Except.ok.inj h).symm⟩)
  · rw [if_neg hpseudo] at h
    cases hloop : (metadataValues e.2).foldlM (appendHeader e.1) frame.headers with
    | error err =>
        rw [hloop] at h
        cases h
    | ok headers =>
        rw [hloop] at h
        exact Or.inr (Or.inr ⟨headers, Bool.eq_false_iff.mpr hpseudo, rfl, (Except.ok.inj h).symm⟩)

theorem strings_decodeEntry {frame frame' : HeadersFrame} {e : JsString × Json}
    (h : decodeEntry frame e = .ok frame') (name : HeaderName) :
    frame'.headers.strings name = frame.headers.strings name ++
      if e.1.map lowerUnit = name.units then entryValues e else [] := by
  rcases decodeEntry_cases h with ⟨hpseudo, -, rfl⟩ | ⟨v, vs, hpseudo, -, rfl⟩ |
    ⟨headers, -, hloop, rfl⟩
  · rw [if_neg (spelling_ne_of_isPseudoKey hpseudo name), List.append_nil]
  · rw [if_neg (spelling_ne_of_isPseudoKey hpseudo name), List.append_nil]
  · have hall := foldlM_append (f := appendHeader e.1)
      (fun headers : Headers => headers.strings name) _
      (fun _ _ _ hstep => strings_appendHeader hstep name) _ hloop
    rw [hall]
    split
    · simp [entryValues, List.filterMap_eq_flatMap_toList, List.map_flatMap]
    · simp

/-- The values of a header are what the entries that spell its name append,
    in their order. -/
theorem strings_decodeEntries {frame frame' : HeadersFrame} {entries : List (JsString × Json)}
    (h : entries.foldlM decodeEntry frame = .ok frame') (name : HeaderName) :
    frame'.headers.strings name = frame.headers.strings name ++
      (entries.filter fun e => e.1.map lowerUnit = name.units).flatMap entryValues := by
  rw [← flatMap_ite]
  exact foldlM_append (fun frame : HeadersFrame => frame.headers.strings name)
    (fun e => if e.1.map lowerUnit = name.units then entryValues e else [])
    (fun _ _ _ hstep => strings_decodeEntry hstep name) entries h

/-- A step leaves the pseudo-headers by other names alone. -/
theorem pseudo_decodeEntry_of_ne {frame frame' : HeadersFrame} {e : JsString × Json}
    {key : JsString} (h : decodeEntry frame e = .ok frame') (hne : key ≠ e.1) :
    frame'.pseudo.get? key = frame.pseudo.get? key := by
  rcases decodeEntry_cases h with ⟨-, -, rfl⟩ | ⟨v, vs, -, -, rfl⟩ | ⟨headers, -, -, rfl⟩
  · rfl
  · exact frame.pseudo.get?_set_of_ne hne v
  · rfl

/-- Every pseudo-header is an entry of the metadata. -/
theorem pseudo_keys_decodeEntries {frame frame' : HeadersFrame} {entries : List (JsString × Json)}
    (h : entries.foldlM decodeEntry frame = .ok frame') {key : JsString}
    (hkey : key ∈ frame'.pseudo.keys) :
    key ∈ frame.pseudo.keys ∨ isPseudoKey key = true ∧ key ∈ entries.map (·.1) := by
  induction entries generalizing frame with
  | nil =>
      obtain rfl := Except.ok.inj h
      exact Or.inl hkey
  | cons e entries ih =>
      obtain ⟨next, hstep, hrest⟩ := foldlM_cons_ok h
      rcases ih hrest with hold | ⟨hpseudo, hmem⟩
      · rcases decodeEntry_cases hstep with ⟨-, -, rfl⟩ | ⟨v, vs, hpseudo, -, rfl⟩ |
          ⟨headers, -, -, rfl⟩
        · exact Or.inl hold
        · rcases frame.pseudo.mem_keys_set hold with rfl | hold
          · exact Or.inr ⟨hpseudo, List.mem_cons_self⟩
          · exact Or.inl hold
        · exact Or.inl hold
      · exact Or.inr ⟨hpseudo, List.mem_cons_of_mem _ hmem⟩

/-- A pseudo-header is the first of the values that its one entry has. -/
theorem pseudo_decodeEntries {frame frame' : HeadersFrame} {entries : List (JsString × Json)}
    (h : entries.foldlM decodeEntry frame = .ok frame') (hnodup : (entries.map (·.1)).Nodup)
    {e : JsString × Json} (hmem : e ∈ entries) (hpseudo : isPseudoKey e.1 = true) {v : Json}
    {vs : List Json} (hvalues : metadataValues e.2 = v :: vs) :
    frame'.pseudo.get? e.1 = some v := by
  -- what comes after the entry has other keys
  have hafter : ∀ (entries : List (JsString × Json)) (frame : HeadersFrame),
      entries.foldlM decodeEntry frame = .ok frame' → e.1 ∉ entries.map (·.1) →
        frame'.pseudo.get? e.1 = frame.pseudo.get? e.1 := by
    intro entries
    induction entries with
    | nil =>
        intro frame h _
        obtain rfl := Except.ok.inj h
        rfl
    | cons other entries ih =>
        intro frame h hnot
        rw [List.map_cons, List.mem_cons, not_or] at hnot
        obtain ⟨next, hstep, hrest⟩ := foldlM_cons_ok h
        rw [ih next hrest hnot.2, pseudo_decodeEntry_of_ne hstep hnot.1]
  induction entries generalizing frame with
  | nil => cases hmem
  | cons first entries ih =>
      rw [List.map_cons, List.nodup_cons] at hnodup
      obtain ⟨next, hstep, hrest⟩ := foldlM_cons_ok h
      rcases List.mem_cons.mp hmem with rfl | hmem
      · rw [hafter entries next hrest hnodup.1]
        rcases decodeEntry_cases hstep with ⟨-, hnil, -⟩ | ⟨w, ws, -, hcons, rfl⟩ |
          ⟨headers, hnot, -⟩
        · rw [hvalues] at hnil
          cases hnil
        · obtain ⟨rfl, -⟩ := List.cons.inj (hvalues.symm.trans hcons)
          exact frame.pseudo.get?_set_self e.1 v
        · rw [hpseudo] at hnot
          cases hnot
      · exact ih hrest hnodup.2 hmem

-- ============================================================================
-- The metadata
-- ============================================================================

theorem isPseudoKey_ne_proto {key : JsString} (hkey : isPseudoKey key) : key ≠ js "__proto__" := by
  rintro rfl
  cases hkey

/-- What the headers alone make are properties with their names. -/
theorem name_of_pushed {entries : List (HeaderName × HeaderValue)}
    {metadata : PlainObject (List JsString)} (hpush : entries.foldlM pushHeader {} = .ok metadata)
    {key : JsString} {values : List JsString} (hget : metadata.get? key = some values) :
    ∃ name : HeaderName, name.units = key := by
  by_contra hnone
  have hfilter : entries.filter (fun e => e.1.units = key) = [] :=
    List.filter_eq_nil_iff.mpr fun e _ he => hnone ⟨e.1, of_decide_eq_true he⟩
  rw [get?_pushHeaders hpush, hfilter] at hget
  cases hget

/-- The metadata has a list for each header and one for each pseudo-header. -/
theorem get?_metadata {headers : Headers} {pseudo : PlainObject JsString}
    (hpseudo : ∀ e ∈ pseudo.entries, isPseudoKey e.1 = true)
    {metadata : PlainObject (List JsString)}
    (hpush : headers.entries.foldlM pushHeader {} = .ok metadata) (key : JsString)
    (values : List JsString) :
    (pseudo.entries.foldl assignPseudo metadata).get? key = some values ↔
      (∃ value, pseudo.get? key = some value ∧ values = [value]) ∨
        ∃ name ∈ headers.keys, name.units = key ∧
          values = (headers.yielded name).map (·.units) := by
  have hkeys : ∀ {name : HeaderName}, name.units ∉ pseudo.entries.map (·.1) := by
    intro name hname
    obtain ⟨e, he, hunits⟩ := List.mem_map.mp hname
    exact spelling_ne_of_isPseudoKey (hunits ▸ hpseudo e he) name name.isLower
  have hproto : ∀ e ∈ pseudo.entries, e.1 ≠ js "__proto__" := by
    intro e he hproto
    exact isPseudoKey_ne_proto (hpseudo e he) hproto
  -- what the headers alone put under a name
  have hname : ∀ name : HeaderName, metadata.get? name.units = some values ↔
      name ∈ headers.keys ∧ values = (headers.yielded name).map (·.units) := by
    intro name
    have hfilter : (headers.entries.filter fun e => e.1.units = name.units).map (·.2.units) =
        (headers.yielded name).map (·.units) := by
      have hsame : ∀ e : HeaderName × HeaderValue, e.1.units = name.units ↔ e.1 = name :=
        fun e => ⟨HeaderName.ext, congrArg HeaderName.units⟩
      simp only [hsame]
      rw [headers.filter_entries, List.map_map]
      rfl
    rw [get?_pushHeaders hpush, hfilter, ← headers.yielded_ne_nil]
    cases headers.yielded name with
    | nil => simp
    | cons v vs => simp [eq_comm]
  rw [get?_assignPseudos pseudo.nodup_entries hproto]
  simp only [PlainObject.mem_entries]
  apply or_congr Iff.rfl
  constructor
  · rintro ⟨-, hget⟩
    obtain ⟨name, hunits⟩ := name_of_pushed hpush hget
    rw [← hunits] at hget
    obtain ⟨hmemName, hvalues⟩ := (hname name).mp hget
    exact ⟨name, hmemName, hunits, hvalues⟩
  · rintro ⟨name, hmemName, rfl, hvalues⟩
    exact ⟨hkeys, (hname name).mpr ⟨hmemName, hvalues⟩⟩

end Core
end BidiWeb
