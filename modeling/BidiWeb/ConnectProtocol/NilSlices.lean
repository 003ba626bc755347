/-
  BidiWeb.ConnectProtocol.NilSlices

  `MarshalHeaders` of a header some of whose slices are nil: `encoding/json`
  writes `null` for these.  Without any it is `marshalHeaders`
  (`marshalHeaderSlices_ofHeader`).
-/

import BidiWeb.ConnectProtocol.RoundTrip

namespace BidiWeb
namespace ConnectProtocol

open BidiWeb.Lib
open BidiWeb.Lib.Json
open BidiWeb.Lib.Unicode (encodeUtf16)

/-- `map[string][]string`; `none` is a nil slice. -/
abbrev SlicesMap := AList (fun _ : GoString => Option (List GoString))

def marshalSlice : Option (List GoString) → List Char
  | none => "null".toList
  | some vs => marshalArray (vs.map marshalString)

def marshalSlicesMap (m : SlicesMap) : List Char :=
  let entries := m.entries.map fun e => (e.1, marshalSlice e.2)
  marshalObject (entries.insertionSort fun a b => ¬ b.1 < a.1)

/-- `MarshalHeaders` -/
def marshalHeaderSlices (header : SlicesMap) : Except GoError Bytes :=
  let metadata : List (GoString × List Char) :=
    if header.entries.isEmpty then [] else [("metadata".toList, marshalSlicesMap header)]
  .ok (Unicode.encodeUtf8 (marshalObject metadata))

/-- A header without nil slices. -/
def SlicesMap.ofHeader (h : Header) : SlicesMap where
  entries := h.entries.map fun e => ⟨e.1, some e.2⟩
  nodupKeys := by
    have hkeys : (h.entries.map fun e => (⟨e.1, some e.2⟩ :
        (_ : GoString) × Option (List GoString))).keys = h.entries.keys := by
      rw [List.keys, List.map_map]
      rfl
    rw [List.NodupKeys, hkeys]
    exact h.nodupKeys

theorem marshalHeaderSlices_ofHeader (h : Header) :
    marshalHeaderSlices (SlicesMap.ofHeader h) = marshalHeaders h := by
  have hmap : marshalSlicesMap (SlicesMap.ofHeader h) = marshalStringsMap h := by
    unfold marshalSlicesMap marshalStringsMap SlicesMap.ofHeader
    rw [List.map_map]
    rfl
  unfold marshalHeaderSlices marshalHeaders
  rw [hmap]
  simp only [SlicesMap.ofHeader, List.isEmpty_map]

-- ============================================================================
-- What is written is read back
-- ============================================================================

def sliceJson : Option (List GoString) → Json
  | none => .null
  | some vs => stringsJson vs

theorem reads_marshalSlice (depth : Nat) (slice : Option (List GoString)) :
    Reads (depth + 1) (marshalSlice slice) (sliceJson slice) := by
  cases slice with
  | none => exact reads_null (depth + 1)
  | some vs => exact reads_marshalStrings depth vs

/-- The entries of a map in the order of its text. -/
def sortedSlices (m : SlicesMap) : List (GoString × Option (List GoString)) :=
  (m.entries.insertionSort fun a b => ¬ b.1 < a.1).map fun e => (e.1, e.2)

def sliceField (e : GoString × Option (List GoString)) : Field where
  name := e.1
  text := marshalSlice e.2
  value := sliceJson e.2

theorem mem_sortedSlices {m : SlicesMap} {k : GoString} {slice : Option (List GoString)} :
    (k, slice) ∈ sortedSlices m ↔ m.lookup k = some slice := by
  rw [sortedSlices, ((List.perm_insertionSort _ _).map _).mem_iff]
  exact mem_pairs

theorem nodup_sortedSlices (m : SlicesMap) : ((sortedSlices m).map (·.1)).Nodup := by
  rw [sortedSlices, List.map_map]
  have hperm := (List.perm_insertionSort
    (fun a b : (_ : GoString) × Option (List GoString) => ¬ b.1 < a.1) m.entries).map (·.1)
  exact hperm.nodup_iff.mpr m.nodupKeys

theorem reads_marshalSlicesMap (depth : Nat) (m : SlicesMap) :
    Reads (depth + 2) (marshalSlicesMap m) (fieldsJson ((sortedSlices m).map sliceField)) := by
  have htext : marshalSlicesMap m =
      marshalObject (((sortedSlices m).map sliceField).map fun f => (f.name, f.text)) := by
    unfold marshalSlicesMap sortedSlices
    rw [List.map_map, List.map_map]
    apply congrArg marshalObject
    exact (List.map_insertionSort _ _
      (fun e : (_ : GoString) × Option (List GoString) => (e.1, marshalSlice e.2))
      m.entries fun _ _ _ _ => Iff.rfl).symm
  rw [htext]
  apply reads_marshalObject
  intro f hf
  obtain ⟨e, -, rfl⟩ := List.mem_map.mp hf
  exact reads_marshalSlice depth e.2

/-- The members of a `HeaderMessage`. -/
def slicesMetadata (m : SlicesMap) : List Field :=
  if m.entries.isEmpty then []
  else
    [{ name := "metadata".toList
       text := marshalSlicesMap m
       value := fieldsJson ((sortedSlices m).map sliceField) }]

/-- A headers envelope is read as a `HeaderMessage` by whoever lets a text
    nest as deep as it is long. -/
theorem parse_marshalHeaderSlices (m : SlicesMap) :
    ∃ text, marshalHeaderSlices m = .ok (Unicode.encodeUtf8 text) ∧ text.head? = some '\x7b' ∧
      Json.parse text.length text = some (fieldsJson (slicesMetadata m)) := by
  let text := marshalObject ((slicesMetadata m).map fun f => (f.name, f.text))
  have htexts : (slicesMetadata m).map (fun f => (f.name, f.text)) =
      if m.entries.isEmpty then [] else [("metadata".toList, marshalSlicesMap m)] := by
    unfold slicesMetadata
    split <;> rfl
  have hreads : Reads 3 text (fieldsJson (slicesMetadata m)) := by
    apply reads_marshalObject
    intro f hf
    unfold slicesMetadata at hf
    split at hf
    · cases hf
    · obtain rfl := List.mem_singleton.mp hf
      exact reads_marshalSlicesMap 0 m
  have hparse : Json.parse text.length text = some (fieldsJson (slicesMetadata m)) := by
    by_cases hempty : m.entries.isEmpty
    · have hnone : slicesMetadata m = [] := if_pos hempty
      simp only [text, hnone]
      rfl
    · have hlength : 3 ≤ text.length := by
        have hsome : slicesMetadata m = [⟨"metadata".toList, marshalSlicesMap m,
            fieldsJson ((sortedSlices m).map sliceField)⟩] := if_neg hempty
        simp only [text, hsome, List.map_cons, List.map_nil, marshalObject]
        simp
        omega
      exact parse_deeper hlength (parse_of_reads hreads)
  refine ⟨text, ?_, rfl, hparse⟩
  rw [marshalHeaderSlices, ← htexts]

end ConnectProtocol
end BidiWeb
