/-
  BidiWeb.ConnectProtocol.EndStream

  `internal/connectprotocol/end_stream.go`.

  The conversions of `connectrpc.com/connect` it calls are a parameter.
-/

import BidiWeb.ConnectProtocol.Headers

namespace BidiWeb
namespace ConnectProtocol

open BidiWeb.Lib
open BidiWeb.Core (Code)

/-- What the wire types call outside of this repository. -/
structure Library where
  /-- The error `json.Unmarshal` returns for a text it refuses. -/
  jsonError : Bytes → GoError
  /-- `Code.UnmarshalText` -/
  codeOfText : GoString → Option Code
  /-- `Code.MarshalText` -/
  codeText : Code → GoString
  /-- `connect.DecodeBinaryHeader` -/
  decodeBinaryHeader : GoString → Option Bytes
  /-- The debug JSON of a detail whose message type is known. -/
  detailDebug : ErrorDetail → Option Bytes

-- ============================================================================
-- Unmarshal
-- ============================================================================

variable (lib : Library)

/-- `WireDetail.UnmarshalJSON`; a nil pointer is `none`.  The debug text is
    not kept: nothing reads that of a received detail. -/
def unmarshalWireDetail : Json → Option (Option ErrorDetail)
  | .null => some none
  | .obj members => do
      let type ← (fieldValues "type".toList members).foldlM unmarshalString []
      let text ← (fieldValues "value".toList members).foldlM unmarshalString []
      let value ← lib.decodeBinaryHeader text
      some (some { type := String.ofList type, value })
  | .bool _ | .num _ | .str _ | .arr _ => none

def unmarshalWireDetails : Json → Option (List (Option ErrorDetail))
  | .null => some []
  | .arr elements => elements.mapM (unmarshalWireDetail lib)
  | .bool _ | .num _ | .str _ | .obj _ => none

structure WireError where
  code : Code := 0
  message : GoString := []
  details : List (Option ErrorDetail) := []

/-- `WireError.UnmarshalJSON` into an error that holds `old`. -/
def unmarshalWireError (old : WireError) : Json → Option WireError
  | .obj members => do
      let code ← (fieldValues "code".toList members).foldlM unmarshalString []
      let message ← (fieldValues "message".toList members).foldlM unmarshalString []
      let details ← (fieldValues "details".toList members).foldlM
        (fun _ v => unmarshalWireDetails lib v) []
      -- the code is left alone if the peer sent an unrecognized value
      some { code := (lib.codeOfText code).getD old.code, message, details }
  | .null | .bool _ | .num _ | .str _ | .arr _ => none

/-- `WireError.AsError` -/
def WireError.asError (e : WireError) : GoError :=
  let code := if e.code < 1 ∨ 16 < e.code then Code.unknown else e.code
  .connect code (String.ofList e.message) true e.details

structure EndStreamMessage where
  error : Option WireError := none
  trailer : Header := ∅

/-- A nil pointer is allocated on the first value that is not `null`. -/
def unmarshalError (old : Option WireError) : Json → Option (Option WireError)
  | .null => some none
  | v => (unmarshalWireError lib (old.getD {}) v).map some

def unmarshalEndStreamMessage : Json → Option EndStreamMessage
  | .null => some {}
  | .obj members => do
      let error ← (fieldValues "error".toList members).foldlM (unmarshalError lib) none
      let trailer ← (fieldValues "metadata".toList members).foldlM unmarshalStringsMap ∅
      some { error, trailer }
  | .bool _ | .num _ | .str _ | .arr _ => none

/-- Parse a Connect EndStreamResponse: the error it carries, and the trailers. -/
def unmarshalEndStream (data : Bytes) : Except GoError (Option GoError × Header) :=
  match (parseJson data).bind (unmarshalEndStreamMessage lib) with
  | some e => .ok (e.error.map WireError.asError, e.trailer)
  | none => .error (lib.jsonError data)

-- ============================================================================
-- Marshal
-- ============================================================================

def base64Digits : List Char :=
  "ABCDEFGHIJKLMNOPQRSTUVWXYZabcdefghijklmnopqrstuvwxyz0123456789+/".toList

/-- `base64.RawStdEncoding.EncodeToString` -/
def encodeBase64 : Bytes → List Char
  | a :: b :: c :: rest =>
      let n := a.toNat * 0x10000 + b.toNat * 0x100 + c.toNat
      [n / 0x40000, n / 0x1000, n / 0x40, n].map digit ++ encodeBase64 rest
  | [a, b] =>
      let n := a.toNat * 0x400 + b.toNat * 4
      [n / 0x1000, n / 0x40, n].map digit
  | [a] => [a.toNat / 4, a.toNat * 0x10].map digit
  | [] => []
where
  digit (n : Nat) : Char := base64Digits.getD (n % 64) 'A'

/-- `json.Compact`, with markup escaped. -/
def compactJson : (inString : Bool) → List Char → List Char
  | _, [] => []
  | true, '\\' :: c :: cs => '\\' :: c :: compactJson true cs
  | inString, c :: cs =>
      if c = '"' then c :: compactJson (!inString) cs
      else if !inString && Json.isSpace c then compactJson inString cs
      else
        (if c = '<' ∨ c = '>' ∨ c = '&' ∨ c = Char.ofNat 0x2028 ∨ c = Char.ofNat 0x2029 then
          Json.escapeUnit c.toNat
        else [c]) ++ compactJson inString cs

/-- `appendCompact`: what an encoder makes of a text that it is given. -/
def appendCompact (text : List Char) : Option (List Char) :=
  (Json.parse maxNestingDepth text).map fun _ => compactJson false text

/-- The debug text of a detail; none at all is left out. -/
def debugText (d : ErrorDetail) : Bytes :=
  if (parseJson d.debug).isSome then d.debug else (lib.detailDebug d).getD []

def marshalDebug (d : ErrorDetail) : Option (List (GoString × List Char)) :=
  if debugText lib d = [] then some []
  else
    (appendCompact (Unicode.decodeUtf8Bytewise (debugText lib d))).map fun text =>
      [("debug".toList, text)]

/-- `WireDetail.MarshalJSON` -/
def marshalWireDetail (d : ErrorDetail) : Option (List Char) :=
  (marshalDebug lib d).map fun debug =>
    marshalObject
      (("type".toList, marshalString d.type.toList) ::
        ("value".toList, marshalString (encodeBase64 d.value)) :: debug)

def marshalDetail : Option ErrorDetail → Option (List Char)
  | none => some "null".toList
  | some d => (marshalWireDetail lib d).bind appendCompact

def marshalWireError (e : WireError) : Option (List Char) :=
  (e.details.mapM (marshalDetail lib)).map fun details =>
    marshalObject
      (("code".toList, marshalString (lib.codeText e.code)) ::
        ((if e.message.isEmpty then [] else [("message".toList, marshalString e.message)]) ++
          if details.isEmpty then [] else [("details".toList, marshalArray details)]))

/-- `NewWireError` -/
def newWireError (err : GoError) : WireError :=
  match err.asConnect with
  | some (.connect code message _ details) => { code, message := message.toList, details }
  | _ => { code := Code.unknown, message := err.error.toList }

def marshalError : Option GoError → Option (List (GoString × List Char))
  | none => some []
  | some err =>
      (marshalWireError lib (newWireError err)).map fun text => [("error".toList, text)]

/-- Serialize a Connect EndStreamResponse.  Only the texts of details can fail. -/
def marshalEndStream (err : Option GoError) (trailer : Header) : Except GoError Bytes :=
  match marshalError lib err with
  | none => .error (.text "json: error calling MarshalJSON for type *connectprotocol.WireDetail")
  | some error =>
      let metadata :=
        if trailer.entries.isEmpty then [] else [("metadata".toList, marshalStringsMap trailer)]
      .ok (Unicode.encodeUtf8 (marshalObject (error ++ metadata)))

end ConnectProtocol
end BidiWeb
