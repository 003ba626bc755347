/-
  BidiWeb.Lib.Json

  JSON values and texts.  A value keeps what its text says: duplicate members
  in their order, numbers as they are spelled, strings as UTF-16 code units,
  so that an unpaired `\uD800` is not lost.  What a reader makes of these is
  its own business.
-/

import BidiWeb.Lib.Unicode

namespace BidiWeb
namespace Lib

inductive Json where
  | null
  | bool (b : Bool)
  | num (literal : List Char)
  | str (units : List UInt16)
  | arr (elements : List Json)
  | obj (members : List (List UInt16 × Json))

namespace Json

-- ============================================================================
-- Tokens
-- ============================================================================

def isSpace (c : Char) : Bool := c = ' ' || c = '\t' || c = '\n' || c = '\r'

def skipSpace (cs : List Char) : List Char := cs.dropWhile isSpace

/-- `word` at the front of the text. -/
def literal (word : List Char) (cs : List Char) : Option (List Char) :=
  if word.isPrefixOf cs then some (cs.drop word.length) else none

def hexDigit (c : Char) : Option Nat :=
  if '0' ≤ c ∧ c ≤ '9' then some (c.toNat - '0'.toNat)
  else if 'a' ≤ c ∧ c ≤ 'f' then some (c.toNat - 'a'.toNat + 10)
  else if 'A' ≤ c ∧ c ≤ 'F' then some (c.toNat - 'A'.toNat + 10)
  else none

/-- The code unit that four hexadecimal digits stand for. -/
def hexUnit (a b c d : Char) : Option UInt16 := do
  let a ← hexDigit a
  let b ← hexDigit b
  let c ← hexDigit c
  let d ← hexDigit d
  some (UInt16.ofNat (a * 0x1000 + b * 0x100 + c * 0x10 + d))

/-- The character that a one-letter escape stands for. -/
def escape (c : Char) : Option Char :=
  match c with
  | '"' => some '"'
  | '\\' => some '\\'
  | '/' => some '/'
  | 'b' => some (Char.ofNat 8)
  | 'f' => some (Char.ofNat 12)
  | 'n' => some '\n'
  | 'r' => some '\r'
  | 't' => some '\t'
  | _ => none

/-- A string after its opening quote, and the text after its closing one. -/
def string : List Char → Option (List UInt16 × List Char)
  | [] => none
  | '"' :: cs => some ([], cs)
  | '\\' :: 'u' :: a :: b :: c :: d :: cs => do
      let unit ← hexUnit a b c d
      let (units, rest) ← string cs
      some (unit :: units, rest)
  | '\\' :: e :: cs => do
      let c ← escape e
      let (units, rest) ← string cs
      some (Unicode.encodeUtf16Char c ++ units, rest)
  | c :: cs =>
      if c < ' ' then none
      else do
        let (units, rest) ← string cs
        some (Unicode.encodeUtf16Char c ++ units, rest)

def isDigit (c : Char) : Bool := '0' ≤ c && c ≤ '9'

/-- One or more digits. -/
def digits (cs : List Char) : Option (List Char × List Char) :=
  match cs.span isDigit with
  | ([], _) => none
  | (ds, rest) => some (ds, rest)

/-- An exponent, if there is one. -/
def exponent (cs : List Char) : Option (List Char × List Char) :=
  match cs with
  | e :: rest =>
      if e = 'e' ∨ e = 'E' then
        match rest with
        | s :: rest' =>
            if s = '+' ∨ s = '-' then (digits rest').map fun (ds, r) => (e :: s :: ds, r)
            else (digits rest).map fun (ds, r) => (e :: ds, r)
        | [] => none
      else some ([], cs)
  | [] => some ([], cs)

/-- A fraction, if there is one, and what may follow it. -/
def fraction (cs : List Char) : Option (List Char × List Char) :=
  match cs with
  | '.' :: rest => do
      let (ds, rest) ← digits rest
      let (e, rest) ← exponent rest
      some ('.' :: ds ++ e, rest)
  | _ => exponent cs

/-- An unsigned number. -/
def unsigned (cs : List Char) : Option (List Char × List Char) :=
  match cs with
  -- no digit follows a leading zero
  | '0' :: rest => (fraction rest).map fun (f, r) => ('0' :: f, r)
  | _ => do
      let (ds, rest) ← digits cs
      let (f, rest) ← fraction rest
      some (ds ++ f, rest)

def number (cs : List Char) : Option (List Char × List Char) :=
  match cs with
  | '-' :: rest => (unsigned rest).map fun (n, r) => ('-' :: n, r)
  | _ => unsigned cs

-- ============================================================================
-- Values
-- ============================================================================

mutual

/-- A value and the text after it.  Arrays and objects nest `depth` deep at
    most; `fuel` bounds the recursion. -/
def value (fuel depth : Nat) (cs : List Char) : Option (Json × List Char) :=
  match fuel with
  | 0 => none
  | fuel + 1 =>
      match skipSpace cs with
      | 'n' :: rest => (literal ['u', 'l', 'l'] rest).map fun r => (.null, r)
      | 't' :: rest => (literal ['r', 'u', 'e'] rest).map fun r => (.bool true, r)
      | 'f' :: rest => (literal ['a', 'l', 's', 'e'] rest).map fun r => (.bool false, r)
      | '"' :: rest => (string rest).map fun (s, r) => (.str s, r)
      | '[' :: rest =>
          match depth with
          | 0 => none
          | depth + 1 =>
              match skipSpace rest with
              | ']' :: rest => some (.arr [], rest)
              | rest => (elements fuel depth rest).map fun (xs, r) => (.arr xs, r)
      | '{' :: rest =>
          match depth with
          | 0 => none
          | depth + 1 =>
              match skipSpace rest with
              | '}' :: rest => some (.obj [], rest)
              | rest => (members fuel depth rest).map fun (ms, r) => (.obj ms, r)
      | rest => (number rest).map fun (n, r) => (.num n, r)

/-- One or more elements and the closing bracket. -/
def elements (fuel depth : Nat) (cs : List Char) : Option (List Json × List Char) :=
  match fuel with
  | 0 => none
  | fuel + 1 =>
      match value fuel depth cs with
      | none => none
      | some (x, rest) =>
          match skipSpace rest with
          | ',' :: rest => (elements fuel depth rest).map fun (xs, r) => (x :: xs, r)
          | ']' :: rest => some ([x], rest)
          | _ => none

/-- One or more members and the closing brace. -/
def members (fuel depth : Nat) (cs : List Char) :
    Option (List (List UInt16 × Json) × List Char) :=
  match fuel with
  | 0 => none
  | fuel + 1 =>
      match skipSpace cs with
      | '"' :: rest =>
          match string rest with
          | none => none
          | some (name, rest) =>
              match skipSpace rest with
              | ':' :: rest =>
                  match value fuel depth rest with
                  | none => none
                  | some (x, rest) =>
                      match skipSpace rest with
                      | ',' :: rest =>
                          (members fuel depth rest).map fun (ms, r) => ((name, x) :: ms, r)
                      | '}' :: rest => some ([(name, x)], rest)
                      | _ => none
              | _ => none
      | _ => none

end

/-- A whole text. -/
def parse (depth : Nat) (cs : List Char) : Option Json :=
  match value (cs.length + 1) depth cs with
  | some (v, rest) => if (skipSpace rest).isEmpty then some v else none
  | none => none

-- ============================================================================
-- Escapes
-- ============================================================================

def hexDigits : List Char := "0123456789abcdef".toList

/-- `\u` and four hexadecimal digits. -/
def escapeUnit (n : Nat) : List Char :=
  let digit (k : Nat) := hexDigits.getD (k % 16) '0'
  ['\\', 'u', digit (n / 0x1000), digit (n / 0x100), digit (n / 0x10), digit n]

/-- The escapes of one letter, as both languages write them. -/
def shortEscape (c : Char) : Option (List Char) :=
  if c = '"' then some ['\\', '"']
  else if c = '\\' then some ['\\', '\\']
  else if c = Char.ofNat 8 then some ['\\', 'b']
  else if c = Char.ofNat 12 then some ['\\', 'f']
  else if c = '\n' then some ['\\', 'n']
  else if c = '\r' then some ['\\', 'r']
  else if c = '\t' then some ['\\', 't']
  else none

end Json
end Lib
end BidiWeb
