/-
  BidiWeb.ConnectProtocol.CompactJson

  A text that is valid JSON is still read as the same value when an encoder
  has compacted it and escaped its markup.
-/

import BidiWeb.ConnectProtocol.EndStream
import BidiWeb.Lib.JsonReread

namespace BidiWeb
namespace ConnectProtocol

open BidiWeb.Lib
open BidiWeb.Lib.Json

-- ============================================================================
-- One character
-- ============================================================================

/-- The characters that are escaped although JSON does not ask for it. -/
def IsMarkup (c : Char) : Prop :=
  c = '<' ∨ c = '>' ∨ c = '&' ∨ c = Char.ofNat 0x2028 ∨ c = Char.ofNat 0x2029

instance (c : Char) : Decidable (IsMarkup c) := by
  unfold IsMarkup
  infer_instance

@[simp] theorem compactJson_nil (inString : Bool) : compactJson inString [] = [] := by
  cases inString <;> rfl

theorem compactJson_escape (c : Char) (cs : List Char) :
    compactJson true ('\\' :: c :: cs) = '\\' :: c :: compactJson true cs := rfl

theorem compactJson_quote (inString : Bool) (cs : List Char) :
    compactJson inString ('"' :: cs) = '"' :: compactJson (!inString) cs := by
  cases inString <;> rfl

theorem compactJson_space {c : Char} (cs : List Char) (hc : isSpace c = true) :
    compactJson false (c :: cs) = compactJson false cs := by
  have hquote : c ≠ '"' := by
    rintro rfl
    cases hc
  rw [compactJson.eq_def]
  simp [hquote, hc]

theorem compactJson_outside {c : Char} (cs : List Char) (hquote : c ≠ '"')
    (hspace : isSpace c = false) (hmarkup : ¬ IsMarkup c) :
    compactJson false (c :: cs) = c :: compactJson false cs := by
  have hmarkup' : ¬ (c = '<' ∨ c = '>' ∨ c = '&' ∨ c = Char.ofNat 0x2028 ∨ c = Char.ofNat 0x2029) :=
    hmarkup
  rw [compactJson.eq_def]
  simp only [if_neg hquote, hspace, Bool.not_false, Bool.true_and, Bool.false_eq_true, if_false,
    if_neg hmarkup', List.singleton_append]

theorem compactJson_inside {c : Char} (cs : List Char) (hquote : c ≠ '"') (hslash : c ≠ '\\') :
    compactJson true (c :: cs) =
      (if IsMarkup c then escapeUnit c.toNat else [c]) ++ compactJson true cs := by
  rw [compactJson.eq_def]
  split
  · rename_i heq
    cases heq
  · rename_i heq
    exact absurd (List.cons.inj heq).1 hslash
  · rename_i heq _
    obtain ⟨rfl, rfl⟩ := List.cons.inj heq
    simp only [if_neg hquote, Bool.not_true, Bool.false_and, Bool.false_eq_true, if_false]
    rfl

theorem compactJson_skipSpace (cs : List Char) :
    compactJson false (skipSpace cs) = compactJson false cs := by
  induction cs with
  | nil => rfl
  | cons c cs ih =>
      cases hc : isSpace c with
      | true =>
          rw [compactJson_space cs hc, ← ih]
          simp [skipSpace, hc]
      | false => simp [skipSpace, hc]

/-- Text without quotes, white space or markup stays as it is. -/
theorem compactJson_append {text : List Char} (rest : List Char)
    (h : ∀ c ∈ text, c ≠ '"' ∧ isSpace c = false ∧ ¬ IsMarkup c) :
    compactJson false (text ++ rest) = text ++ compactJson false rest := by
  induction text with
  | nil => rfl
  | cons c text ih =>
      obtain ⟨hquote, hspace, hmarkup⟩ := h c List.mem_cons_self
      rw [List.cons_append, compactJson_outside _ hquote hspace hmarkup,
        ih fun d hd => h d (List.mem_cons_of_mem c hd)]
      rfl

-- ============================================================================
-- Strings
-- ============================================================================

theorem readsChar_markup {c : Char} (hspace : ¬ c < ' ') (hquote : c ≠ '"') (hslash : c ≠ '\\') :
    ReadsChar (if IsMarkup c then escapeUnit c.toNat else [c]) c := by
  by_cases hmarkup : IsMarkup c
  · rw [if_pos hmarkup]
    apply readsChar_escapeUnit
    rcases hmarkup with rfl | rfl | rfl | rfl | rfl <;> decide
  · rw [if_neg hmarkup]
    exact readsChar_self hspace hquote hslash

/-- A hexadecimal digit stays as it is. -/
theorem compactJson_hexDigit {c : Char} {n : Nat} (cs : List Char) (hc : hexDigit c = some n) :
    compactJson true (c :: cs) = c :: compactJson true cs := by
  have hmarkup : ¬ IsMarkup c := by
    rintro (rfl | rfl | rfl | rfl | rfl) <;> cases hc
  have hquote : c ≠ '"' := by
    rintro rfl
    cases hc
  have hslash : c ≠ '\\' := by
    rintro rfl
    cases hc
  rw [compactJson_inside cs hquote hslash, if_neg hmarkup, List.singleton_append]

theorem compactJson_string {cs : List Char} {units : List UInt16} {rest : List Char}
    (h : string cs = some (units, rest)) :
    ∃ out, compactJson true cs = out ++ compactJson false rest ∧ ReadsString out units := by
  induction cs using string.induct generalizing units with
  | case1 => cases h
  | case2 cs =>
      cases h
      exact ⟨['"'], compactJson_quote true rest, fun _ => rfl⟩
  | case3 a b c d cs ih =>
      simp only [string, Option.bind_eq_bind, Option.bind_eq_some_iff] at h
      obtain ⟨unit, hunit, ⟨units', rest'⟩, hcs, heq⟩ := h
      cases heq
      obtain ⟨out, hout, hreads⟩ := ih hcs
      have hunit' := hunit
      simp only [hexUnit, Option.bind_eq_bind, Option.bind_eq_some_iff] at hunit'
      obtain ⟨_, ha, _, hb, _, hc, _, hd, -⟩ := hunit'
      refine ⟨'\\' :: 'u' :: a :: b :: c :: d :: out, ?_, ?_⟩
      · rw [compactJson_escape, compactJson_hexDigit _ ha, compactJson_hexDigit _ hb,
          compactJson_hexDigit _ hc, compactJson_hexDigit _ hd, hout]
        rfl
      · intro more
        simp only [List.cons_append, string, hunit, hreads more, Option.bind_eq_bind,
          Option.bind_some]
  | case4 e cs hno ih =>
      rw [string.eq_4 e cs hno] at h
      simp only [Option.bind_eq_bind, Option.bind_eq_some_iff] at h
      obtain ⟨c, hc, ⟨units', rest'⟩, hcs, heq⟩ := h
      cases heq
      obtain ⟨out, hout, hreads⟩ := ih hcs
      refine ⟨['\\', e] ++ out, ?_, readsString_append (readsChar_escape hc) hreads⟩
      rw [compactJson_escape, hout]
      rfl
  | case5 c cs hquote hu hslash hspace =>
      rw [string.eq_5 c cs hquote hu hslash, if_pos hspace] at h
      cases h
  | case6 c cs hquote hu hslash hspace ih =>
      rw [string.eq_5 c cs hquote hu hslash, if_neg hspace] at h
      simp only [Option.bind_eq_bind, Option.bind_eq_some_iff] at h
      obtain ⟨⟨units', rest'⟩, hcs, heq⟩ := h
      cases heq
      obtain ⟨out, hout, hreads⟩ := ih hcs
      -- a backslash at the end of the text closes no string
      have hslash' : c ≠ '\\' := by
        intro hc
        cases cs with
        | nil => cases hcs
        | cons e cs => exact hslash e cs hc rfl
      refine ⟨_, ?_, readsString_append (readsChar_markup hspace hquote hslash') hreads⟩
      rw [compactJson_inside cs hquote hslash', hout, List.append_assoc]

-- ============================================================================
-- Values
-- ============================================================================

theorem literal_eq_some {word cs rest : List Char} (h : literal word cs = some rest) :
    cs = word ++ rest := by
  unfold literal at h
  split at h
  · rename_i hword
    obtain ⟨more, rfl⟩ := List.isPrefixOf_iff_prefix.mp hword
    rw [List.drop_left] at h
    rw [Option.some.inj h]
  · cases h

/-- The text before `rest` compacts to one that `P` holds of. -/
def CompactsTo (cs rest : List Char) (P : List Char → Prop) : Prop :=
  ∃ out, compactJson false cs = out ++ compactJson false rest ∧ P out

/-- What the three readers take off a text is read again once compacted. -/
structure Compacts (fuel : Nat) : Prop where
  value : ∀ {depth cs v rest}, value fuel depth cs = some (v, rest) →
    CompactsTo cs rest fun out => Reads depth out v
  elements : ∀ {depth cs vs rest}, elements fuel depth cs = some (vs, rest) →
    CompactsTo cs rest fun out => ReadsElements depth out vs
  members : ∀ {depth cs ms rest}, members fuel depth cs = some (ms, rest) →
    CompactsTo cs rest fun out => ReadsMembers depth out ms

/-- A literal, read by `reads`. -/
theorem compactsTo_append {text rest : List Char} {P : List Char → Prop} (hP : P text)
    (h : ∀ c ∈ text, c ≠ '"' ∧ isSpace c = false ∧ ¬ IsMarkup c) :
    CompactsTo (text ++ rest) rest P :=
  ⟨text, compactJson_append rest h, hP⟩

/-- A number is no markup. -/
theorem not_isMarkup_of_number {c : Char} (hc : isNumberChar c = true) :
    c ≠ '"' ∧ isSpace c = false ∧ ¬ IsMarkup c := by
  refine ⟨?_, ?_, ?_⟩
  · rintro rfl
    cases hc
  · cases hspace : isSpace c with
    | false => rfl
    | true =>
        simp only [isSpace, Bool.or_eq_true, decide_eq_true_eq] at hspace
        rcases hspace with ((rfl | rfl) | rfl) | rfl <;> cases hc
  · rintro (rfl | rfl | rfl | rfl | rfl) <;> cases hc

theorem Compacts.value_succ {fuel : Nat} (hfuel : Compacts fuel) {depth : Nat} {cs : List Char}
    {v : Json} {rest : List Char} (h : Json.value (fuel + 1) depth cs = some (v, rest)) :
    CompactsTo cs rest fun out => Reads depth out v := by
  have hskip : ∀ {P}, CompactsTo (skipSpace cs) rest P → CompactsTo cs rest P := by
    rintro P ⟨out, hout, hP⟩
    exact ⟨out, by rw [← hout, compactJson_skipSpace], hP⟩
  apply hskip
  simp only [Json.value] at h
  split at h
  · -- null
    rename_i heq
    obtain ⟨r, hr, hv⟩ := Option.map_eq_some_iff.mp h
    cases hv
    rw [heq, literal_eq_some hr]
    exact @compactsTo_append "null".toList _ _ (reads_null depth)
      (by simp [Json.isSpace, IsMarkup])
  · -- true
    rename_i heq
    obtain ⟨r, hr, hv⟩ := Option.map_eq_some_iff.mp h
    cases hv
    rw [heq, literal_eq_some hr]
    exact @compactsTo_append "true".toList _ _ (reads_true depth)
      (by simp [Json.isSpace, IsMarkup])
  · -- false
    rename_i heq
    obtain ⟨r, hr, hv⟩ := Option.map_eq_some_iff.mp h
    cases hv
    rw [heq, literal_eq_some hr]
    exact @compactsTo_append "false".toList _ _ (reads_false depth)
      (by simp [Json.isSpace, IsMarkup])
  · -- a string
    rename_i heq
    obtain ⟨⟨units, r⟩, hr, hv⟩ := Option.map_eq_some_iff.mp h
    cases hv
    obtain ⟨out, hout, hreads⟩ := compactJson_string hr
    refine ⟨'"' :: out, ?_, reads_string depth hreads⟩
    rw [heq, compactJson_quote, Bool.not_false, hout]
    rfl
  · -- an array
    rename_i rest₁ heq
    cases depth with
    | zero => cases h
    | succ depth =>
        have hopen :
            compactJson false ('[' :: rest₁) = '[' :: compactJson false (skipSpace rest₁) := by
          rw [compactJson_outside _ (by decide) (by decide) (by decide), compactJson_skipSpace]
        simp only at h
        split at h
        · rename_i rest₂ hclose
          cases h
          refine ⟨['[', ']'], ?_, reads_array List.Forall₂.nil⟩
          rw [heq, hopen, hclose, compactJson_outside _ (by decide) (by decide) (by decide)]
          rfl
        · obtain ⟨⟨vs, r⟩, hr, hv⟩ := Option.map_eq_some_iff.mp h
          cases hv
          obtain ⟨out, hout, hreads⟩ := hfuel.elements hr
          refine ⟨'[' :: out, ?_, reads_of_elements hreads⟩
          rw [heq, hopen, hout]
          rfl
  · -- an object
    rename_i rest₁ heq
    cases depth with
    | zero => cases h
    | succ depth =>
        have hopen : compactJson false ('\x7b' :: rest₁) =
            '\x7b' :: compactJson false (skipSpace rest₁) := by
          rw [compactJson_outside _ (by decide) (by decide) (by decide), compactJson_skipSpace]
        simp only at h
        split at h
        · rename_i rest₂ hclose
          cases h
          refine ⟨['\x7b', '\x7d'], ?_, reads_object List.Forall₂.nil⟩
          rw [heq, hopen, hclose, compactJson_outside _ (by decide) (by decide) (by decide)]
          rfl
        · obtain ⟨⟨ms, r⟩, hr, hv⟩ := Option.map_eq_some_iff.mp h
          cases hv
          obtain ⟨out, hout, hreads⟩ := hfuel.members hr
          refine ⟨'\x7b' :: out, ?_, reads_of_members hreads⟩
          rw [heq, hopen, hout]
          rfl
  · -- a number
    obtain ⟨⟨n, r⟩, hr, hv⟩ := Option.map_eq_some_iff.mp h
    cases hv
    obtain ⟨⟨hsplit, hchars, -⟩, -⟩ := rereads_number hr
    rw [hsplit]
    exact compactsTo_append (reads_number depth hr) fun c hc => not_isMarkup_of_number (hchars c hc)

theorem Compacts.elements_succ {fuel : Nat} (hfuel : Compacts fuel) {depth : Nat}
    {cs : List Char} {vs : List Json} {rest : List Char}
    (h : Json.elements (fuel + 1) depth cs = some (vs, rest)) :
    CompactsTo cs rest fun out => ReadsElements depth out vs := by
  simp only [Json.elements] at h
  cases hv : Json.value fuel depth cs with
  | none =>
      rw [hv] at h
      cases h
  | some p =>
      obtain ⟨v, rest₁⟩ := p
      rw [hv] at h
      simp only at h
      obtain ⟨out, hout, hreads⟩ := hfuel.value hv
      rw [← compactJson_skipSpace rest₁] at hout
      split at h
      · rename_i rest₂ heq
        obtain ⟨⟨vs', r⟩, hr, hvs⟩ := Option.map_eq_some_iff.mp h
        cases hvs
        obtain ⟨out', hout', hreads'⟩ := hfuel.elements hr
        refine ⟨out ++ ',' :: out', ?_, readsElements_cons hreads hreads'⟩
        rw [hout, heq, compactJson_outside _ (by decide) (by decide) (by decide), hout',
          List.append_assoc]
        rfl
      · rename_i rest₂ heq
        cases h
        refine ⟨out ++ [']'], ?_, readsElements_singleton hreads⟩
        rw [hout, heq, compactJson_outside _ (by decide) (by decide) (by decide),
          List.append_assoc]
        rfl
      · cases h

theorem Compacts.members_succ {fuel : Nat} (hfuel : Compacts fuel) {depth : Nat}
    {cs : List Char} {ms : List (List UInt16 × Json)} {rest : List Char}
    (h : Json.members (fuel + 1) depth cs = some (ms, rest)) :
    CompactsTo cs rest fun out => ReadsMembers depth out ms := by
  simp only [Json.members] at h
  split at h
  · rename_i rest₁ hquote
    split at h
    · cases h
    · rename_i name rest₂ hname
      split at h
      · rename_i rest₃ hcolon
        cases hv : Json.value fuel depth rest₃ with
        | none =>
            rw [hv] at h
            cases h
        | some p =>
            obtain ⟨v, rest₄⟩ := p
            rw [hv] at h
            simp only at h
            obtain ⟨inner, hinner, hreadsName⟩ := compactJson_string hname
            obtain ⟨text, htext, hreads⟩ := hfuel.value hv
            have hmember : ReadsMember depth ('"' :: inner, text) (name, v) :=
              ⟨⟨inner, rfl, hreadsName⟩, hreads⟩
            have hout : compactJson false cs =
                memberText ('"' :: inner, text) ++ compactJson false (skipSpace rest₄) := by
              rw [← compactJson_skipSpace cs, hquote, compactJson_quote, Bool.not_false, hinner,
                ← compactJson_skipSpace rest₂, hcolon,
                compactJson_outside _ (by decide) (by decide) (by decide), htext,
                compactJson_skipSpace]
              simp [memberText]
            split at h
            · rename_i rest₅ hcomma
              obtain ⟨⟨ms', r⟩, hr, hms⟩ := Option.map_eq_some_iff.mp h
              cases hms
              obtain ⟨out', hout', hreads'⟩ := hfuel.members hr
              refine ⟨memberText ('"' :: inner, text) ++ ',' :: out', ?_,
                readsMembers_cons hmember hreads'⟩
              rw [hout, hcomma, compactJson_outside _ (by decide) (by decide) (by decide), hout',
                List.append_assoc]
              rfl
            · rename_i rest₅ hclose
              cases h
              refine ⟨memberText ('"' :: inner, text) ++ ['\x7d'], ?_,
                readsMembers_singleton hmember⟩
              rw [hout, hclose, compactJson_outside _ (by decide) (by decide) (by decide),
                List.append_assoc]
              rfl
            · cases h
      · cases h
  · cases h

theorem compacts (fuel : Nat) : Compacts fuel := by
  induction fuel with
  | zero =>
      constructor
      · simp [value]
      · simp [elements]
      · simp [members]
  | succ fuel ih => exact ⟨ih.value_succ, ih.elements_succ, ih.members_succ⟩

/-- Compacting a valid text does not change what it says. -/
theorem reads_compactJson {depth : Nat} {cs : List Char} {v : Json}
    (h : parse depth cs = some v) : Reads depth (compactJson false cs) v := by
  unfold parse at h
  cases hv : value (cs.length + 1) depth cs with
  | none =>
      rw [hv] at h
      cases h
  | some p =>
      obtain ⟨v', rest⟩ := p
      rw [hv] at h
      simp only at h
      split at h
      · rename_i hend
        cases h
        obtain ⟨out, hout, hreads⟩ := (compacts _).value hv
        rw [← compactJson_skipSpace rest, List.isEmpty_iff.mp hend, compactJson_nil,
          List.append_nil] at hout
        rwa [hout]
      · cases h

end ConnectProtocol
end BidiWeb
