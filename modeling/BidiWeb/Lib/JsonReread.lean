/-
  BidiWeb.Lib.JsonReread

  What has been read off the front of a text is read again in any other place
  where the same kind of token may stand: numbers, which end where no digit
  follows, and whole values, which may also be allowed to nest deeper.
-/

import BidiWeb.Lib.JsonText
import Mathlib.Data.List.TakeDrop

namespace BidiWeb
namespace Lib
namespace Json

-- ============================================================================
-- Digits
-- ============================================================================

/-- The text does not go on with a digit. -/
def Undigit (cs : List Char) : Prop := ∀ c, cs.head? = some c → isDigit c = false

theorem undigit_of_delimited {more : List Char} (h : Delimited more) : Undigit more := by
  intro c hc
  cases more with
  | nil => cases hc
  | cons d more =>
      obtain rfl : d = c := Option.some.inj hc
      rcases h with rfl | rfl | rfl <;> rfl

theorem undigit_cons {c : Char} (cs : List Char) (h : isDigit c = false) : Undigit (c :: cs) := by
  intro d hd
  obtain rfl : c = d := Option.some.inj hd
  exact h

theorem span_append {ds more : List Char} (hds : ∀ c ∈ ds, isDigit c = true)
    (hmore : Undigit more) : (ds ++ more).span isDigit = (ds, more) := by
  rw [List.span_eq_takeWhile_dropWhile]
  induction ds with
  | nil =>
      cases more with
      | nil => rfl
      | cons c more => simp [hmore c rfl]
  | cons d ds ih =>
      have hd : isDigit d = true := hds d List.mem_cons_self
      have ih' := ih fun c hc => hds c (List.mem_cons_of_mem d hc)
      rw [Prod.mk.injEq] at ih'
      simp [hd, ih'.1, ih'.2]

theorem digits_append {ds more : List Char} (hne : ds ≠ []) (hds : ∀ c ∈ ds, isDigit c = true)
    (hmore : Undigit more) : digits (ds ++ more) = some (ds, more) := by
  obtain ⟨d, ds', rfl⟩ := List.exists_cons_of_ne_nil hne
  rw [digits, span_append hds hmore]

theorem of_digits {cs ds rest : List Char} (h : digits cs = some (ds, rest)) :
    cs = ds ++ rest ∧ ds ≠ [] ∧ ∀ c ∈ ds, isDigit c = true := by
  unfold digits at h
  rw [List.span_eq_takeWhile_dropWhile] at h
  split at h
  · cases h
  · rename_i ds' rest' hne heq
    obtain ⟨hds, hrest⟩ := Prod.mk.injEq .. ▸ heq
    cases h
    refine ⟨?_, hne, ?_⟩
    · rw [← hds, ← hrest, List.takeWhile_append_dropWhile]
    · intro c hc
      rw [← hds] at hc
      exact List.mem_takeWhile_imp hc

-- ============================================================================
-- Numbers
-- ============================================================================

/-- The characters of a number. -/
def isNumberChar (c : Char) : Bool :=
  isDigit c || c = '-' || c = '+' || c = '.' || c = 'e' || c = 'E'

theorem isNumberChar_of_isDigit {c : Char} (h : isDigit c = true) : isNumberChar c = true := by
  simp [isNumberChar, h]

/-- `text` has been read off the front of `cs`, and would be off any other
    text that may follow it. -/
structure Rereads (read : List Char → Option (List Char × List Char))
    (cs text rest : List Char) : Prop where
  split : cs = text ++ rest
  chars : ∀ c ∈ text, isNumberChar c = true
  again : ∀ more, Delimited more → read (text ++ more) = some (text, more)

theorem rereads_exponent {cs text rest : List Char} (h : exponent cs = some (text, rest)) :
    Rereads exponent cs text rest ∧ ∀ more, Delimited more → Undigit (text ++ more) := by
  have hdone : ∀ more, Delimited more → exponent more = some ([], more) := by
    intro more hmore
    cases more with
    | nil => rfl
    | cons c more => rcases hmore with rfl | rfl | rfl <;> rfl
  unfold exponent at h
  split at h
  · rename_i e rest₁
    by_cases he : e = 'e' ∨ e = 'E'
    · have hdigit : isDigit e = false := by
        rcases he with rfl | rfl <;> rfl
      have hchar : isNumberChar e = true := by
        rcases he with rfl | rfl <;> rfl
      rw [if_pos he] at h
      split at h
      · rename_i s rest₂
        by_cases hs : s = '+' ∨ s = '-'
        · -- a sign and digits
          rw [if_pos hs] at h
          obtain ⟨⟨ds, r⟩, hds, heq⟩ := Option.map_eq_some_iff.mp h
          cases heq
          obtain ⟨rfl, hne, hall⟩ := of_digits hds
          have hsign : isNumberChar s = true := by
            rcases hs with rfl | rfl <;> rfl
          refine ⟨⟨rfl, ?_, ?_⟩, fun more _ => undigit_cons _ hdigit⟩
          · intro c hc
            rcases List.mem_cons.mp hc with rfl | hc
            · exact hchar
            · rcases List.mem_cons.mp hc with rfl | hc
              · exact hsign
              · exact isNumberChar_of_isDigit (hall c hc)
          · intro more hmore
            have hmore' := digits_append hne hall (undigit_of_delimited hmore)
            simp only [List.cons_append, exponent, if_pos he, if_pos hs, hmore', Option.map_some]
        · -- digits
          rw [if_neg hs] at h
          obtain ⟨⟨ds, r⟩, hds, heq⟩ := Option.map_eq_some_iff.mp h
          cases heq
          obtain ⟨hsplit, hne, hall⟩ := of_digits hds
          obtain ⟨d, ds, rfl⟩ := List.exists_cons_of_ne_nil hne
          have hd : d = s := (List.cons.inj hsplit).1.symm
          refine ⟨⟨?_, ?_, ?_⟩, fun more _ => undigit_cons _ hdigit⟩
          · rw [hsplit]
            rfl
          · intro c hc
            rcases List.mem_cons.mp hc with rfl | hc
            · exact hchar
            · exact isNumberChar_of_isDigit (hall c hc)
          · intro more hmore
            have hmore' := digits_append hne hall (undigit_of_delimited hmore)
            rw [List.cons_append] at hmore'
            have hs' : ¬ (d = '+' ∨ d = '-') := by rwa [hd]
            simp only [List.cons_append, exponent, if_pos he, if_neg hs', hmore', Option.map_some]
      · cases h
    · rw [if_neg he] at h
      cases h
      exact ⟨⟨rfl, by simp, fun more hmore => hdone more hmore⟩,
        fun more hmore => undigit_of_delimited hmore⟩
  · cases h
    exact ⟨⟨rfl, by simp, fun more hmore => hdone more hmore⟩,
      fun more hmore => undigit_of_delimited hmore⟩

/-- Whatever does not begin with a point is an exponent at most. -/
theorem fraction_eq_exponent {cs : List Char} (h : cs.head? ≠ some '.') :
    fraction cs = exponent cs := by
  unfold fraction
  split
  · exact absurd rfl h
  · rfl

theorem rereads_fraction {cs text rest : List Char} (h : fraction cs = some (text, rest)) :
    Rereads fraction cs text rest ∧ ∀ more, Delimited more → Undigit (text ++ more) := by
  by_cases hpoint : ∃ cs', cs = '.' :: cs'
  · obtain ⟨cs', rfl⟩ := hpoint
    simp only [fraction, Option.bind_eq_bind, Option.bind_eq_some_iff] at h
    obtain ⟨⟨ds, rest₁⟩, hds, ⟨e, rest₂⟩, he, heq⟩ := h
    cases heq
    obtain ⟨rfl, hne, hall⟩ := of_digits hds
    obtain ⟨⟨rfl, hchars, hagain⟩, hundigit⟩ := rereads_exponent he
    refine ⟨⟨?_, ?_, ?_⟩, fun more _ => undigit_cons _ rfl⟩
    · rw [List.cons_append, List.cons_append, List.append_assoc]
    · intro c hc
      rcases List.mem_cons.mp hc with rfl | hc
      · rfl
      · rcases List.mem_append.mp hc with hc | hc
        · exact isNumberChar_of_isDigit (hall c hc)
        · exact hchars c hc
    · intro more hmore
      have hdigits := digits_append hne hall (hundigit more hmore)
      have hexponent := hagain more hmore
      simp only [List.cons_append, List.append_assoc, fraction, hdigits, hexponent,
        Option.bind_eq_bind, Option.bind_some]
  · have hhead : cs.head? ≠ some '.' := by
      intro hcs
      cases cs with
      | nil => cases hcs
      | cons c cs =>
          obtain rfl : c = '.' := Option.some.inj hcs
          exact hpoint ⟨cs, rfl⟩
    rw [fraction_eq_exponent hhead] at h
    obtain ⟨⟨hsplit, hchars, hagain⟩, hundigit⟩ := rereads_exponent h
    refine ⟨⟨hsplit, hchars, ?_⟩, hundigit⟩
    intro more hmore
    rw [fraction_eq_exponent, hagain more hmore]
    -- neither what was read nor what may follow begins with a point
    cases text with
    | nil =>
        cases more with
        | nil => simp
        | cons c more => rcases hmore with rfl | rfl | rfl <;> simp
    | cons c text =>
        intro hpoint
        obtain rfl : c = '.' := Option.some.inj hpoint
        rw [hsplit] at hhead
        exact hhead rfl

theorem rereads_unsigned {cs text rest : List Char} (h : unsigned cs = some (text, rest)) :
    Rereads unsigned cs text rest ∧ ∃ c text', text = c :: text' ∧ isDigit c = true := by
  by_cases hzero : ∃ cs', cs = '0' :: cs'
  · obtain ⟨cs', rfl⟩ := hzero
    simp only [unsigned] at h
    obtain ⟨⟨f, r⟩, hf, heq⟩ := Option.map_eq_some_iff.mp h
    cases heq
    obtain ⟨⟨rfl, hchars, hagain⟩, -⟩ := rereads_fraction hf
    refine ⟨⟨rfl, ?_, ?_⟩, '0', f, rfl, rfl⟩
    · intro c hc
      rcases List.mem_cons.mp hc with rfl | hc
      · rfl
      · exact hchars c hc
    · intro more hmore
      simp only [List.cons_append, unsigned, hagain more hmore, Option.map_some]
  · have hunsigned : ∀ cs : List Char, cs.head? ≠ some '0' → unsigned cs =
        (digits cs).bind fun p => (fraction p.2).map fun q => (p.1 ++ q.1, q.2) := by
      intro cs hcs
      unfold unsigned
      split
      · exact absurd rfl hcs
      · cases digits cs with
        | none => rfl
        | some p => cases hp : fraction p.2 <;> simp [hp]
    have hhead : cs.head? ≠ some '0' := by
      intro hcs
      cases cs with
      | nil => cases hcs
      | cons c cs =>
          obtain rfl : c = '0' := Option.some.inj hcs
          exact hzero ⟨cs, rfl⟩
    rw [hunsigned cs hhead] at h
    obtain ⟨⟨ds, rest₁⟩, hds, hmap⟩ := Option.bind_eq_some_iff.mp h
    obtain ⟨⟨f, r⟩, hf, heq⟩ := Option.map_eq_some_iff.mp hmap
    cases heq
    obtain ⟨rfl, hne, hall⟩ := of_digits hds
    obtain ⟨⟨rfl, hchars, hagain⟩, hundigit⟩ := rereads_fraction hf
    obtain ⟨d, ds, rfl⟩ := List.exists_cons_of_ne_nil hne
    refine ⟨⟨?_, ?_, ?_⟩, d, ds ++ f, rfl, hall d List.mem_cons_self⟩
    · rw [List.append_assoc]
    · intro c hc
      rcases List.mem_append.mp hc with hc | hc
      · exact isNumberChar_of_isDigit (hall c hc)
      · exact hchars c hc
    · intro more hmore
      have hdigits := digits_append hne hall (hundigit more hmore)
      have hhead' : (d :: ds ++ (f ++ more)).head? ≠ some '0' := hhead
      rw [List.append_assoc, hunsigned _ hhead', hdigits]
      simp only [Option.bind_some, hagain more hmore, Option.map_some]

/-- A number begins with a sign or with a digit. -/
theorem rereads_number {cs text rest : List Char} (h : number cs = some (text, rest)) :
    Rereads number cs text rest ∧ ∃ c text', text = c :: text' ∧ (c = '-' ∨ isDigit c = true) := by
  by_cases hsign : ∃ cs', cs = '-' :: cs'
  · obtain ⟨cs', rfl⟩ := hsign
    simp only [number] at h
    obtain ⟨⟨n, r⟩, hn, heq⟩ := Option.map_eq_some_iff.mp h
    cases heq
    obtain ⟨⟨rfl, hchars, hagain⟩, -⟩ := rereads_unsigned hn
    refine ⟨⟨rfl, ?_, ?_⟩, '-', n, rfl, Or.inl rfl⟩
    · intro c hc
      rcases List.mem_cons.mp hc with rfl | hc
      · rfl
      · exact hchars c hc
    · intro more hmore
      simp only [List.cons_append, number, hagain more hmore, Option.map_some]
  · have hnumber : ∀ cs : List Char, (∀ cs', cs ≠ '-' :: cs') → number cs = unsigned cs := by
      intro cs hcs
      unfold number
      split
      · exact absurd rfl (hcs _)
      · rfl
    rw [hnumber cs fun cs' hcs => hsign ⟨cs', hcs⟩] at h
    obtain ⟨⟨hsplit, hchars, hagain⟩, c, text', rfl, hc⟩ := rereads_unsigned h
    refine ⟨⟨hsplit, hchars, ?_⟩, c, text', rfl, Or.inr hc⟩
    intro more hmore
    rw [hnumber, hagain more hmore]
    intro cs' hcs
    obtain rfl : c = '-' := (List.cons.inj hcs).1
    cases hc

theorem not_isSpace_of_number {c : Char} (hc : c = '-' ∨ isDigit c = true) :
    isSpace c = false := by
  cases hspace : isSpace c with
  | false => rfl
  | true =>
      simp only [isSpace, Bool.or_eq_true, decide_eq_true_eq] at hspace
      rcases hspace with ((rfl | rfl) | rfl) | rfl <;> revert hc <;> decide

/-- No other value begins like a number. -/
theorem value_number (fuel depth : Nat) {c : Char} {cs : List Char}
    (hc : c = '-' ∨ isDigit c = true) :
    value (fuel + 1) depth (c :: cs) = (number (c :: cs)).map fun p => (.num p.1, p.2) := by
  have hskip : skipSpace (c :: cs) = c :: cs := by
    simp [skipSpace, not_isSpace_of_number hc]
  have hother : ∀ {d : Char} {rest : List Char}, c :: cs = d :: rest →
      ¬ (d = '-' ∨ isDigit d = true) → False := by
    intro d rest heq hd
    obtain rfl : c = d := (List.cons.inj heq).1
    exact hd hc
  simp only [value, hskip]
  split
  · exact (hother ‹_› (by decide)).elim
  · exact (hother ‹_› (by decide)).elim
  · exact (hother ‹_› (by decide)).elim
  · exact (hother ‹_› (by decide)).elim
  · exact (hother ‹_› (by decide)).elim
  · exact (hother ‹_› (by decide)).elim
  · rfl

theorem reads_number (depth : Nat) {cs text rest : List Char}
    (h : number cs = some (text, rest)) : Reads depth text (.num text) := by
  obtain ⟨⟨-, -, hagain⟩, c, text', rfl, hc⟩ := rereads_number h
  intro more fuel hmore hfuel
  obtain ⟨fuel, rfl⟩ : ∃ n, fuel = n + 1 := ⟨fuel - 1, by omega⟩
  have hnumber := hagain more hmore
  rw [List.cons_append] at hnumber ⊢
  rw [value_number fuel depth hc, hnumber]
  rfl

-- ============================================================================
-- Deeper nesting
-- ============================================================================

/-- With more room to nest, a text is read as before. -/
structure Deepens (fuel : Nat) : Prop where
  value : ∀ {depth depth' cs r}, depth ≤ depth' →
    value fuel depth cs = some r → value fuel depth' cs = some r
  elements : ∀ {depth depth' cs r}, depth ≤ depth' →
    elements fuel depth cs = some r → elements fuel depth' cs = some r
  members : ∀ {depth depth' cs r}, depth ≤ depth' →
    members fuel depth cs = some r → members fuel depth' cs = some r

theorem Deepens.value_succ {fuel : Nat} (hfuel : Deepens fuel) {depth depth' : Nat}
    {cs : List Char} {r : Json × List Char} (hle : depth ≤ depth')
    (h : Json.value (fuel + 1) depth cs = some r) : Json.value (fuel + 1) depth' cs = some r := by
  simp only [Json.value] at h ⊢
  split at h
  · exact h
  · exact h
  · exact h
  · exact h
  · -- an array
    cases depth with
    | zero => cases h
    | succ depth =>
        obtain ⟨depth', rfl⟩ : ∃ n, depth' = n + 1 := ⟨depth' - 1, by omega⟩
        simp only at h ⊢
        split at h
        · exact h
        · obtain ⟨p, hp, heq⟩ := Option.map_eq_some_iff.mp h
          rw [hfuel.elements (by omega) hp]
          exact congrArg some heq
  · -- an object
    cases depth with
    | zero => cases h
    | succ depth =>
        obtain ⟨depth', rfl⟩ : ∃ n, depth' = n + 1 := ⟨depth' - 1, by omega⟩
        simp only at h ⊢
        split at h
        · exact h
        · obtain ⟨p, hp, heq⟩ := Option.map_eq_some_iff.mp h
          rw [hfuel.members (by omega) hp]
          exact congrArg some heq
  · exact h

theorem Deepens.elements_succ {fuel : Nat} (hfuel : Deepens fuel) {depth depth' : Nat}
    {cs : List Char} {r : List Json × List Char} (hle : depth ≤ depth')
    (h : Json.elements (fuel + 1) depth cs = some r) :
    Json.elements (fuel + 1) depth' cs = some r := by
  simp only [Json.elements] at h ⊢
  cases hv : Json.value fuel depth cs with
  | none =>
      rw [hv] at h
      cases h
  | some p =>
      rw [hv] at h
      rw [hfuel.value hle hv]
      simp only at h ⊢
      split at h
      · obtain ⟨q, hq, heq⟩ := Option.map_eq_some_iff.mp h
        rw [hfuel.elements hle hq]
        exact congrArg some heq
      · exact h
      · cases h

theorem Deepens.members_succ {fuel : Nat} (hfuel : Deepens fuel) {depth depth' : Nat}
    {cs : List Char} {r : List (List UInt16 × Json) × List Char} (hle : depth ≤ depth')
    (h : Json.members (fuel + 1) depth cs = some r) :
    Json.members (fuel + 1) depth' cs = some r := by
  simp only [Json.members] at h ⊢
  split at h
  · split at h
    · cases h
    · split at h
      · rename_i rest _
        cases hv : Json.value fuel depth rest with
        | none =>
            rw [hv] at h
            cases h
        | some p =>
            rw [hv] at h
            rw [hfuel.value hle hv]
            simp only at h ⊢
            split at h
            · obtain ⟨q, hq, heq⟩ := Option.map_eq_some_iff.mp h
              rw [hfuel.members hle hq]
              exact congrArg some heq
            · exact h
            · cases h
      · cases h
  · cases h

theorem deepens (fuel : Nat) : Deepens fuel := by
  induction fuel with
  | zero =>
      constructor
      · simp [value]
      · simp [elements]
      · simp [members]
  | succ fuel ih => exact ⟨ih.value_succ, ih.elements_succ, ih.members_succ⟩

theorem parse_deeper {depth depth' : Nat} {cs : List Char} {v : Json} (hle : depth ≤ depth')
    (h : parse depth cs = some v) : parse depth' cs = some v := by
  unfold parse at h ⊢
  cases hv : value (cs.length + 1) depth cs with
  | none =>
      rw [hv] at h
      cases h
  | some p =>
      rw [hv] at h
      rw [(deepens _).value hle hv]
      exact h

end Json
end Lib
end BidiWeb
