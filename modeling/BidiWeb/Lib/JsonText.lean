/-
  BidiWeb.Lib.JsonText

  Texts that are read back as the value they were written for.  `Reads` says
  so of a text in any place a value may stand, so that it composes: a writer
  proves it of its strings and gets arrays and objects of them.
-/

import BidiWeb.Lib.Json
import Mathlib.Data.List.DropRight

namespace BidiWeb
namespace Lib
namespace Json

-- ============================================================================
-- Characters of a string
-- ============================================================================

/-- `text` stands for the character `c` inside a string. -/
def ReadsChar (text : List Char) (c : Char) : Prop :=
  ∀ rest, string (text ++ rest) =
    (string rest).map fun p => (Unicode.encodeUtf16Char c ++ p.1, p.2)

theorem hexDigit_digit (k : Nat) : hexDigit (hexDigits.getD (k % 16) '0') = some (k % 16) := by
  have hlt : k % 16 < 16 := Nat.mod_lt k (by decide)
  have hall : ∀ d < 16, hexDigit (hexDigits.getD d '0') = some d := by decide
  exact hall _ hlt

theorem string_escapeUnit {n : Nat} (hn : n < 0x10000) (rest : List Char) :
    string (escapeUnit n ++ rest) = (string rest).map fun p => (UInt16.ofNat n :: p.1, p.2) := by
  have hunit : hexUnit (hexDigits.getD (n / 0x1000 % 16) '0')
      (hexDigits.getD (n / 0x100 % 16) '0') (hexDigits.getD (n / 0x10 % 16) '0')
      (hexDigits.getD (n % 16) '0') = some (UInt16.ofNat n) := by
    simp only [hexUnit, hexDigit_digit, Option.bind_eq_bind, Option.bind_some]
    congr 2
    omega
  simp only [escapeUnit, List.cons_append, List.nil_append, string, hunit,
    Option.bind_eq_bind, Option.bind_some]
  cases string rest <;> rfl

theorem readsChar_escapeUnit {c : Char} (hc : c.toNat < 0x10000) :
    ReadsChar (escapeUnit c.toNat) c := by
  intro rest
  have hchar : Unicode.encodeUtf16Char c = [UInt16.ofNat c.toNat] := by
    simp [Unicode.encodeUtf16Char, hc]
  rw [string_escapeUnit hc, hchar]
  rfl

/-- A letter after a backslash. -/
theorem readsChar_escape {e c : Char} (he : escape e = some c) : ReadsChar ['\\', e] c := by
  intro rest
  have hu : e ≠ 'u' := by
    rintro rfl
    cases he
  have hstring : string ('\\' :: e :: rest) = (escape e).bind fun c =>
      (string rest).bind fun p => some (Unicode.encodeUtf16Char c ++ p.1, p.2) := by
    rw [string.eq_def]
    split
    · rename_i heq
      cases heq
    · rename_i heq
      cases heq
    · rename_i heq
      exact absurd (List.cons.inj (List.cons.inj heq).2).1 hu
    · rename_i heq
      obtain ⟨rfl, rfl⟩ := List.cons.inj (List.cons.inj heq).2
      rfl
    · rename_i hno heq
      obtain ⟨rfl, rfl⟩ := List.cons.inj heq
      exact absurd rfl (hno e rest rfl)
  rw [List.cons_append, List.cons_append, List.nil_append, hstring, he, Option.bind_some]
  cases string rest <;> rfl

theorem readsChar_shortEscape {c : Char} {text : List Char} (h : shortEscape c = some text) :
    ReadsChar text c := by
  have hescape : ∃ e, text = ['\\', e] ∧ escape e = some c := by
    unfold shortEscape at h
    repeat' split at h
    all_goals
      cases h
      try exact ⟨_, rfl, by subst c; rfl⟩
  obtain ⟨e, rfl, he⟩ := hescape
  exact readsChar_escape he

/-- A character that needs no escape. -/
theorem readsChar_self {c : Char} (hspace : ¬ c < ' ') (hquote : c ≠ '"') (hslash : c ≠ '\\') :
    ReadsChar [c] c := by
  intro rest
  rw [List.singleton_append, string.eq_def]
  split
  · rename_i heq
    cases heq
  · rename_i heq
    exact absurd (List.cons.inj heq).1 hquote
  · rename_i heq
    exact absurd (List.cons.inj heq).1 hslash
  · rename_i heq
    exact absurd (List.cons.inj heq).1 hslash
  · rename_i heq
    obtain ⟨rfl, rfl⟩ := List.cons.inj heq
    rw [if_neg hspace]
    cases string rest <;> rfl

/-- A character that has no escape of its own. -/
theorem readsChar_of_shortEscape_eq_none {c : Char} (hshort : shortEscape c = none)
    (hspace : ¬ c < ' ') : ReadsChar [c] c := by
  apply readsChar_self hspace
  · rintro rfl
    cases hshort
  · rintro rfl
    cases hshort

/-- `text` is the rest of a string, its closing quote included. -/
def ReadsString (text : List Char) (units : List UInt16) : Prop :=
  ∀ more, string (text ++ more) = some (units, more)

theorem readsString_append {text more : List Char} {c : Char} {units : List UInt16}
    (hc : ReadsChar text c) (h : ReadsString more units) :
    ReadsString (text ++ more) (Unicode.encodeUtf16Char c ++ units) := by
  intro rest
  rw [List.append_assoc, hc, h rest]
  rfl

theorem readsString_flatMap {f : Char → List Char} (hf : ∀ c, ReadsChar (f c) c)
    (cs : List Char) : ReadsString (cs.flatMap f ++ ['"']) (Unicode.encodeUtf16 cs) := by
  induction cs with
  | nil => exact fun _ => rfl
  | cons c cs ih =>
      rw [List.flatMap_cons, List.append_assoc]
      exact readsString_append (hf c) ih

-- ============================================================================
-- Values
-- ============================================================================

/-- What may follow a value, other than white space. -/
def Delimited : List Char → Prop
  | [] => True
  | c :: _ => c = ',' ∨ c = ']' ∨ c = '}'

/-- Where a value may stand, `text` is read as `v`. -/
def Reads (depth : Nat) (text : List Char) (v : Json) : Prop :=
  ∀ more fuel, Delimited more → text.length < fuel →
    value fuel depth (text ++ more) = some (v, more)

theorem delimited_nil : Delimited [] := trivial

theorem parse_of_reads {depth : Nat} {text : List Char} {v : Json} (h : Reads depth text v) :
    parse depth text = some v := by
  have hvalue := h [] (text.length + 1) delimited_nil (Nat.lt_succ_self _)
  rw [List.append_nil] at hvalue
  simp [parse, hvalue, skipSpace]

theorem reads_null (depth : Nat) : Reads depth "null".toList .null := by
  intro more fuel _ hfuel
  obtain ⟨fuel, rfl⟩ : ∃ n, fuel = n + 1 := ⟨fuel - 1, by omega⟩
  rfl

theorem reads_true (depth : Nat) : Reads depth "true".toList (.bool true) := by
  intro more fuel _ hfuel
  obtain ⟨fuel, rfl⟩ : ∃ n, fuel = n + 1 := ⟨fuel - 1, by omega⟩
  rfl

theorem reads_false (depth : Nat) : Reads depth "false".toList (.bool false) := by
  intro more fuel _ hfuel
  obtain ⟨fuel, rfl⟩ : ∃ n, fuel = n + 1 := ⟨fuel - 1, by omega⟩
  rfl

theorem reads_string (depth : Nat) {text : List Char} {units : List UInt16}
    (h : ReadsString text units) : Reads depth ('"' :: text) (.str units) := by
  intro more fuel _ hfuel
  obtain ⟨fuel, rfl⟩ : ∃ n, fuel = n + 1 := ⟨fuel - 1, by omega⟩
  have hskip : skipSpace ('"' :: text ++ more) = '"' :: (text ++ more) := rfl
  simp only [value, hskip, h more, Option.map_some]

@[simp] theorem skipSpace_skipSpace (cs : List Char) : skipSpace (skipSpace cs) = skipSpace cs := by
  exact List.dropWhile_idempotent isSpace cs

theorem value_skipSpace (fuel depth : Nat) (cs : List Char) :
    value fuel depth (skipSpace cs) = value fuel depth cs := by
  cases fuel with
  | zero => simp [value]
  | succ fuel => simp only [value, skipSpace_skipSpace]

/-- No value begins with a closing bracket. -/
theorem value_bracket (fuel depth : Nat) (cs rest : List Char) (h : skipSpace cs = ']' :: rest) :
    value fuel depth cs = none := by
  cases fuel with
  | zero => simp [value]
  | succ fuel =>
      simp only [value, h]
      rfl

/-- Behind an opening bracket, `text` is read as the elements and the bracket
    that closes them. -/
def ReadsElements (depth : Nat) (text : List Char) (vs : List Json) : Prop :=
  ∀ more fuel, text.length < fuel → elements fuel depth (text ++ more) = some (vs, more)

/-- `elements` after the first. -/
theorem elements_succ {fuel depth : Nat} {text rest : List Char} {v : Json}
    (hvalue : value fuel depth (text ++ rest) = some (v, rest)) :
    elements (fuel + 1) depth (text ++ rest) =
      match skipSpace rest with
      | ',' :: rest => (elements fuel depth rest).map fun (xs, r) => (v :: xs, r)
      | ']' :: rest => some ([v], rest)
      | _ => none := by
  rw [elements]
  split
  · rename_i hnone
    rw [hvalue] at hnone
    cases hnone
  · rename_i x r hsome
    obtain ⟨rfl, rfl⟩ : v = x ∧ rest = r := by simpa using hvalue.symm.trans hsome
    rfl

theorem readsElements_singleton {depth : Nat} {text : List Char} {v : Json}
    (h : Reads depth text v) : ReadsElements depth (text ++ [']']) [v] := by
  intro more fuel hfuel
  obtain ⟨fuel, rfl⟩ : ∃ n, fuel = n + 1 := ⟨fuel - 1, by omega⟩
  have hvalue := h (']' :: more) fuel (Or.inr (Or.inl rfl)) (by simp at hfuel; omega)
  rw [List.append_assoc, List.singleton_append, elements_succ hvalue]
  rfl

theorem readsElements_cons {depth : Nat} {text text' : List Char} {v : Json} {vs : List Json}
    (h : Reads depth text v) (h' : ReadsElements depth text' vs) :
    ReadsElements depth (text ++ ',' :: text') (v :: vs) := by
  intro more fuel hfuel
  obtain ⟨fuel, rfl⟩ : ∃ n, fuel = n + 1 := ⟨fuel - 1, by omega⟩
  rw [List.length_append, List.length_cons] at hfuel
  have hvalue := h (',' :: (text' ++ more)) fuel (Or.inl rfl) (by omega)
  have hrest := h' more fuel (by omega)
  rw [List.append_assoc, List.cons_append, elements_succ hvalue]
  have hcomma : skipSpace (',' :: (text' ++ more)) = ',' :: (text' ++ more) := rfl
  simp only [hcomma, hrest, Option.map_some]

theorem readsElements_of_forall {depth : Nat} {texts : List (List Char)} {vs : List Json}
    (h : List.Forall₂ (Reads depth) texts vs) (hne : texts ≠ []) :
    ReadsElements depth ((texts.intersperse [',']).flatten ++ [']']) vs := by
  induction h with
  | nil => exact absurd rfl hne
  | @cons text v texts vs hv hvs ih =>
      cases hvs with
      | nil =>
          simpa using readsElements_singleton hv
      | @cons text' v' texts vs hv' hvs =>
          have hrest := readsElements_cons hv (ih (by simp))
          simpa [List.intersperse_cons_cons] using hrest

theorem elements_skipSpace (fuel depth : Nat) (cs : List Char) :
    elements fuel depth (skipSpace cs) = elements fuel depth cs := by
  cases fuel with
  | zero => simp [elements]
  | succ fuel => simp only [elements, value_skipSpace]

theorem reads_of_elements {depth : Nat} {text : List Char} {vs : List Json}
    (h : ReadsElements depth text vs) : Reads (depth + 1) ('[' :: text) (.arr vs) := by
  intro more fuel _ hfuel
  obtain ⟨fuel, rfl⟩ : ∃ n, fuel = n + 1 := ⟨fuel - 1, by omega⟩
  have hall := h more fuel (by simpa using hfuel)
  have hopen : skipSpace ('[' :: text ++ more) = '[' :: (text ++ more) := rfl
  simp only [value, hopen]
  split
  · rename_i rest hrest
    -- an element cannot begin with the bracket
    exfalso
    cases fuel with
    | zero => simp [elements] at hall
    | succ fuel => simp [elements, value_bracket fuel depth _ rest hrest] at hall
  · rw [elements_skipSpace, hall]
    rfl

theorem reads_array {depth : Nat} {texts : List (List Char)} {vs : List Json}
    (h : List.Forall₂ (Reads depth) texts vs) :
    Reads (depth + 1) ('[' :: (texts.intersperse [',']).flatten ++ [']']) (.arr vs) := by
  by_cases hne : texts = []
  · subst hne
    cases h
    intro more fuel _ hfuel
    obtain ⟨fuel, rfl⟩ : ∃ n, fuel = n + 1 := ⟨fuel - 1, by omega⟩
    rfl
  · exact reads_of_elements (readsElements_of_forall h hne)

/-- `text` is a string, quotes included, that names a member. -/
def ReadsName (text : List Char) (units : List UInt16) : Prop :=
  ∃ rest, text = '"' :: rest ∧ ReadsString rest units

/-- A member of an object, as its writer joins it. -/
def memberText (m : List Char × List Char) : List Char := m.1 ++ ':' :: m.2

/-- The text of a member against the name and the value it is read as. -/
def ReadsMember (depth : Nat) (m : List Char × List Char) (nv : List UInt16 × Json) : Prop :=
  ReadsName m.1 nv.1 ∧ Reads depth m.2 nv.2

/-- Behind an opening brace, `text` is read as the members and the brace that
    closes them. -/
def ReadsMembers (depth : Nat) (text : List Char) (ms : List (List UInt16 × Json)) : Prop :=
  ∀ more fuel, text.length < fuel → members fuel depth (text ++ more) = some (ms, more)

/-- `members` after the name and the value of the first. -/
theorem members_succ {fuel depth : Nat} {inner text rest : List Char} {units : List UInt16}
    {v : Json} (hname : ReadsString inner units)
    (hvalue : value fuel depth (text ++ rest) = some (v, rest)) :
    members (fuel + 1) depth (memberText ('"' :: inner, text) ++ rest) =
      match skipSpace rest with
      | ',' :: rest => (members fuel depth rest).map fun (ms, r) => ((units, v) :: ms, r)
      | '\x7d' :: rest => some ([(units, v)], rest)
      | _ => none := by
  have hquote : skipSpace (memberText ('"' :: inner, text) ++ rest) =
      '"' :: (inner ++ ':' :: (text ++ rest)) := by
    simp [memberText, skipSpace, isSpace]
  have hcolon : skipSpace (':' :: (text ++ rest)) = ':' :: (text ++ rest) := rfl
  simp only [members, hquote, hname _, hcolon]
  split
  · rename_i hnone
    rw [hvalue] at hnone
    cases hnone
  · rename_i x r hsome
    obtain ⟨rfl, rfl⟩ : v = x ∧ rest = r := by simpa using hvalue.symm.trans hsome
    rfl

theorem length_lt_memberText (name text : List Char) :
    text.length < (memberText (name, text)).length := by
  simp [memberText]
  omega

theorem readsMembers_singleton {depth : Nat} {m : List Char × List Char}
    {nv : List UInt16 × Json} (h : ReadsMember depth m nv) :
    ReadsMembers depth (memberText m ++ ['\x7d']) [nv] := by
  obtain ⟨name, text⟩ := m
  obtain ⟨units, v⟩ := nv
  obtain ⟨⟨inner, rfl, hname⟩, hv⟩ := h
  intro more fuel hfuel
  obtain ⟨fuel, rfl⟩ : ∃ n, fuel = n + 1 := ⟨fuel - 1, by omega⟩
  have hlength := length_lt_memberText ('"' :: inner) text
  rw [List.length_append, List.length_singleton] at hfuel
  have hfuel' : text.length < fuel := by omega
  have hvalue := hv ('\x7d' :: more) fuel (Or.inr (Or.inr rfl)) hfuel'
  rw [List.append_assoc, List.singleton_append, members_succ hname hvalue]
  rfl

theorem readsMembers_cons {depth : Nat} {m : List Char × List Char} {nv : List UInt16 × Json}
    {text' : List Char} {ms : List (List UInt16 × Json)} (h : ReadsMember depth m nv)
    (h' : ReadsMembers depth text' ms) :
    ReadsMembers depth (memberText m ++ ',' :: text') (nv :: ms) := by
  obtain ⟨name, text⟩ := m
  obtain ⟨units, v⟩ := nv
  obtain ⟨⟨inner, rfl, hname⟩, hv⟩ := h
  intro more fuel hfuel
  obtain ⟨fuel, rfl⟩ : ∃ n, fuel = n + 1 := ⟨fuel - 1, by omega⟩
  have hlength := length_lt_memberText ('"' :: inner) text
  rw [List.length_append, List.length_cons] at hfuel
  have hfuel' : text.length < fuel := by omega
  have hvalue := hv (',' :: (text' ++ more)) fuel (Or.inl rfl) hfuel'
  have hrest := h' more fuel (by omega)
  rw [List.append_assoc, List.cons_append, members_succ hname hvalue]
  have hcomma : skipSpace (',' :: (text' ++ more)) = ',' :: (text' ++ more) := rfl
  simp only [hcomma, hrest, Option.map_some]

theorem readsMembers_of_forall {depth : Nat} {texts : List (List Char × List Char)}
    {ms : List (List UInt16 × Json)} (h : List.Forall₂ (ReadsMember depth) texts ms)
    (hne : texts ≠ []) :
    ReadsMembers depth (((texts.map memberText).intersperse [',']).flatten ++ ['\x7d']) ms := by
  induction h with
  | nil => exact absurd rfl hne
  | @cons m nv texts ms hm hms ih =>
      cases hms with
      | nil => simpa using readsMembers_singleton hm
      | @cons m' nv' texts ms hm' hms =>
          have hrest := readsMembers_cons hm (ih (by simp))
          simpa [List.intersperse_cons_cons] using hrest

/-- Members begin with a quote. -/
theorem skipSpace_of_members {fuel depth : Nat} {cs rest : List Char}
    {ms : List (List UInt16 × Json)} (h : members fuel depth cs = some (ms, rest)) :
    ∃ cs', skipSpace cs = '"' :: cs' := by
  cases fuel with
  | zero => simp [members] at h
  | succ fuel =>
      rw [members] at h
      split at h
      · exact ⟨_, ‹_›⟩
      · cases h

theorem members_skipSpace (fuel depth : Nat) (cs : List Char) :
    members fuel depth (skipSpace cs) = members fuel depth cs := by
  cases fuel with
  | zero => simp [members]
  | succ fuel => simp only [members, skipSpace_skipSpace]

theorem reads_of_members {depth : Nat} {text : List Char} {ms : List (List UInt16 × Json)}
    (h : ReadsMembers depth text ms) : Reads (depth + 1) ('\x7b' :: text) (.obj ms) := by
  intro more fuel _ hfuel
  obtain ⟨fuel, rfl⟩ : ∃ n, fuel = n + 1 := ⟨fuel - 1, by omega⟩
  have hall := h more fuel (by simpa using hfuel)
  have hopen : skipSpace ('\x7b' :: text ++ more) = '\x7b' :: (text ++ more) := rfl
  obtain ⟨cs', hquote⟩ := skipSpace_of_members hall
  simp only [value, hopen]
  split
  · rename_i rest hrest
    rw [hquote] at hrest
    cases hrest
  · rw [members_skipSpace, hall]
    rfl

theorem reads_object {depth : Nat} {texts : List (List Char × List Char)}
    {ms : List (List UInt16 × Json)} (h : List.Forall₂ (ReadsMember depth) texts ms) :
    Reads (depth + 1)
      ('\x7b' :: ((texts.map memberText).intersperse [',']).flatten ++ ['\x7d']) (.obj ms) := by
  by_cases hne : texts = []
  · subst hne
    cases h
    intro more fuel _ hfuel
    obtain ⟨fuel, rfl⟩ : ∃ n, fuel = n + 1 := ⟨fuel - 1, by omega⟩
    rfl
  · exact reads_of_members (readsMembers_of_forall h hne)

end Json
end Lib
end BidiWeb
