/-
  BidiWeb.ConnectProtocol.GoJson

  `encoding/json` as the wire types use it.  A field takes every member whose
  name folds to its own, in the order of the text; `null` leaves a string
  unset and empties a slice or a map; any other mismatch of types fails.
-/

import BidiWeb.Lib.Json
import BidiWeb.Wire.Envelope
import Mathlib.Data.List.AList
import Mathlib.Data.List.Sort

namespace BidiWeb
namespace ConnectProtocol

open BidiWeb.Lib

/-- A Go string that is valid UTF-8, as its runes. -/
abbrev GoString := List Char

/-- `map[string][]string`; a slice of it is never nil. -/
abbrev StringsMap := AList (fun _ : GoString => List GoString)

-- ============================================================================
-- Unmarshal
-- ============================================================================

/-- How deep `encoding/json` lets a text nest. -/
def maxNestingDepth : Nat := 10000

/-- The value of a valid text. -/
def parseJson (data : Bytes) : Option Json :=
  Json.parse maxNestingDepth (Unicode.decodeUtf8Bytewise data)

/-- `foldRune`, for the runes that fold to a letter of a field name. -/
def foldRune (c : Char) : Char :=
  if 'a' ≤ c ∧ c ≤ 'z' then c.toUpper
  else if c = 'ſ' then 'S'
  else if c = Char.ofNat 0x212A then 'K'
  else c

/-- What the text has for the field `name` of a struct. -/
def fieldValues (name : GoString) (members : List (List UInt16 × Json)) : List Json :=
  (members.filter fun m => (Unicode.decodeUtf16 m.1).map foldRune = name.map foldRune).map (·.2)

/-- Unmarshal into a field that holds `old`. -/
def unmarshalString (old : GoString) : Json → Option GoString
  | .null => some old
  | .str units => some (Unicode.decodeUtf16 units)
  | .bool _ | .num _ | .arr _ | .obj _ => none

def unmarshalStrings : Json → Option (List GoString)
  | .null => some []
  | .arr elements => elements.mapM (unmarshalString [])
  | .bool _ | .num _ | .str _ | .obj _ => none

def unmarshalStringsMap (old : StringsMap) : Json → Option StringsMap
  | .null => some ∅
  | .obj members =>
      members.foldlM
        (fun m member =>
          (unmarshalStrings member.2).map fun vs => m.insert (Unicode.decodeUtf16 member.1) vs)
        old
  | .bool _ | .num _ | .str _ | .arr _ => none

-- ============================================================================
-- Marshal
-- ============================================================================

def marshalChar (c : Char) : List Char :=
  match Json.shortEscape c with
  | some escaped => escaped
  | none =>
      -- a browser must not take the text for markup or for a script
      if c < ' ' ∨ c = '<' ∨ c = '>' ∨ c = '&' ∨ c = Char.ofNat 0x2028 ∨ c = Char.ofNat 0x2029 then
        Json.escapeUnit c.toNat
      else [c]

def marshalString (s : GoString) : List Char := '"' :: s.flatMap marshalChar ++ ['"']

def marshalArray (elements : List (List Char)) : List Char :=
  '[' :: (elements.intersperse [',']).flatten ++ [']']

def marshalObject (members : List (GoString × List Char)) : List Char :=
  '\x7b' :: ((members.map fun m => marshalString m.1 ++ ':' :: m.2).intersperse [',']).flatten ++
    ['\x7d']

/-- The keys of a map are sorted. -/
def marshalStringsMap (m : StringsMap) : List Char :=
  let entries := m.entries.map fun e => (e.1, marshalArray (e.2.map marshalString))
  marshalObject (entries.insertionSort fun a b => ¬ b.1 < a.1)

end ConnectProtocol
end BidiWeb
