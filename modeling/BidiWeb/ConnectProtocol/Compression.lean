/-
  BidiWeb.ConnectProtocol.Compression

  `internal/connectprotocol/compression.go`, and the text functions of the
  standard library that negotiation uses.
-/

import BidiWeb.ConnectProtocol.GoJson

namespace BidiWeb
namespace ConnectProtocol

/-- `unicode.IsSpace` -/
def isSpaceRune (c : Char) : Bool :=
  let n := c.toNat
  (9 ≤ n && n ≤ 13) || n = 0x20 || n = 0x85 || n = 0xA0 || n = 0x1680 ||
    (0x2000 ≤ n && n ≤ 0x200A) || n = 0x2028 || n = 0x2029 || n = 0x202F || n = 0x205F || n = 0x3000

/-- `strings.TrimSpace` -/
def trimSpace (s : GoString) : GoString :=
  ((s.dropWhile isSpaceRune).reverse.dropWhile isSpaceRune).reverse

/-- `strings.Contains` -/
def contains (s substr : GoString) : Bool := s.tails.any fun t => substr.isPrefixOf t

/-- `strconv.ParseInt(s, 10, 64)`, without its errors. -/
def parseInt64 (s : GoString) : Option Int :=
  let (negative, digits) :=
    match s with
    | '-' :: ds => (true, ds)
    | '+' :: ds => (false, ds)
    | _ => (false, s)
  if digits = [] ∨ ¬ digits.all fun c => '0' ≤ c ∧ c ≤ '9' then none
  else
    let n : Int := digits.foldl (fun n c => n * 10 + (c.toNat - '0'.toNat : Int)) 0
    let n := if negative then -n else n
    if -0x8000000000000000 ≤ n ∧ n < 0x8000000000000000 then some n else none

/-- The first accepted compressor the server supports, with its name. -/
def negotiateCompression {γ : Type} (acceptEncoding : GoString)
    (compressors : AList (fun _ : GoString => γ)) : Option (GoString × γ) :=
  (acceptEncoding.splitOn ',').findSome? fun part =>
    let name := trimSpace part
    (compressors.lookup name).map fun compressor => (name, compressor)

end ConnectProtocol
end BidiWeb
