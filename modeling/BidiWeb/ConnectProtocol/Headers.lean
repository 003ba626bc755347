/-
  BidiWeb.ConnectProtocol.Headers

  `internal/connectprotocol/headers.go`, and what it uses of `net/http`.
-/

import BidiWeb.ConnectProtocol.GoJson
import BidiWeb.Wire.GoError

namespace BidiWeb
namespace ConnectProtocol

open BidiWeb.Lib

-- ============================================================================
-- net/http
-- ============================================================================

/-- `http.Header` -/
abbrev Header := StringsMap

/-- The bytes of an RFC 9110 token. -/
def validHeaderFieldByte (c : Char) : Bool :=
  c.isAlphanum || c ∈ "!#$%&'*+-.^_|~".toList || c.toNat = 0x60

/-- Upper case at the start and after each hyphen, lower case elsewhere. -/
def canonicalize (upper : Bool) : GoString → GoString
  | [] => []
  | c :: cs => (if upper then c.toUpper else c.toLower) :: canonicalize (c = '-') cs

/-- `http.CanonicalHeaderKey`: what is not a token is returned unchanged. -/
def canonicalHeaderKey (s : GoString) : GoString :=
  if s.all validHeaderFieldByte then canonicalize true s else s

namespace Header

/-- `h[key]` -/
def values (h : Header) (key : GoString) : List GoString := (h.lookup key).getD []

def get (h : Header) (key : GoString) : GoString := (h.values (canonicalHeaderKey key)).headD []

def set (h : Header) (key value : GoString) : Header := h.insert (canonicalHeaderKey key) [value]

/-- `maps.Insert` -/
def insertAll (h seq : Header) : Header := seq.entries.foldl (fun h e => h.insert e.1 e.2) h

end Header

-- ============================================================================
-- Headers envelopes
-- ============================================================================

/-- The order in which one `range` visits a map. -/
structure RangeOrder (β : Type) where
  visit : AList (fun _ : GoString => β) → List (GoString × β)
  perm : ∀ m, (visit m).Perm (m.entries.map fun e => (e.1, e.2))

/-- `range` in the order the entries are stored. -/
def RangeOrder.stored {β : Type} : RangeOrder β where
  visit := fun m => m.entries.map fun e => (e.1, e.2)
  perm := fun _ => .rfl

def isPseudo (key : GoString) : Bool := key.head? = some ':'

/-- The metadata of a `HeaderMessage`. -/
def unmarshalHeaderMessage : Json → Option StringsMap
  | .null => some ∅
  | .obj members => (fieldValues "metadata".toList members).foldlM unmarshalStringsMap ∅
  | .bool _ | .num _ | .str _ | .arr _ => none

/-- Serialize an HTTP header map into JSON.  String lists always marshal. -/
def marshalHeaders (header : Header) : Except GoError Bytes :=
  let metadata : List (GoString × List Char) :=
    if header.entries.isEmpty then [] else [("metadata".toList, marshalStringsMap header)]
  .ok (Unicode.encodeUtf8 (marshalObject metadata))

/-- Parse the JSON payload of a headers envelope. -/
def unmarshalHeaders (range : RangeOrder (List GoString)) (data : Bytes) : Option Header :=
  ((parseJson data).bind unmarshalHeaderMessage).map fun metadata =>
    (range.visit metadata).foldl
      (fun res e =>
        res.insert (if isPseudo e.1 then e.1 else canonicalHeaderKey e.1) e.2)
      ∅

end ConnectProtocol
end BidiWeb
