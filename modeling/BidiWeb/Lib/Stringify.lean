/-
  BidiWeb.Lib.Stringify

  What `JSON.stringify` writes of strings, and of arrays and objects of them,
  is read back.  A string need not be well formed: a surrogate without its
  pair is written as an escape.
-/

import BidiWeb.Lib.JsObject
import BidiWeb.Lib.JsonText

namespace BidiWeb
namespace Lib
namespace Json

open Unicode (encodeUtf16Char encodeUtf16Char_pair encodeUtf16Char_single isHighSurrogate
  isLowSurrogate)

-- ============================================================================
-- Strings
-- ============================================================================

/-- How a character stands in a quoted string. -/
def quoteChar (c : Char) : List Char :=
  match shortEscape c with
  | some escaped => escaped
  | none => if c < ' ' then escapeUnit c.toNat else [c]

theorem readsChar_quoteChar (c : Char) : ReadsChar (quoteChar c) c := by
  unfold quoteChar
  cases hshort : shortEscape c with
  | some text => exact readsChar_shortEscape hshort
  | none =>
      simp only
      split
      · rename_i hlow
        apply readsChar_escapeUnit
        have hlow' : c.toNat < ' '.toNat := hlow
        have hspace : ' '.toNat = 32 := rfl
        omega
      · rename_i hplain
        exact readsChar_of_shortEscape_eq_none hshort hplain

/-- A character beyond the basic plane stands for itself. -/
theorem quoteChar_of_le {c : Char} (hc : 0x10000 ≤ c.toNat) : quoteChar c = [c] := by
  have hne : ∀ d : Char, d.toNat < 0x10000 → c ≠ d := by
    rintro d hd rfl
    omega
  have hshort : shortEscape c = none := by
    simp [shortEscape, hne '"' (by decide), hne '\\' (by decide), hne (Char.ofNat 8) (by decide),
      hne (Char.ofNat 12) (by decide), hne '\n' (by decide), hne '\r' (by decide),
      hne '\t' (by decide)]
  have hspace : ¬ c < ' ' := by
    intro hlow
    have hlow' : c.toNat < ' '.toNat := hlow
    have hspace : ' '.toNat = 32 := rfl
    omega
  rw [quoteChar, hshort]
  exact if_neg hspace

/-- A surrogate without its pair. -/
theorem readsString_escapeUnit {text : List Char} (u : UInt16) {us : JsString}
    (h : ReadsString text us) : ReadsString (escapeUnit u.toNat ++ text) (u :: us) := by
  intro more
  rw [List.append_assoc, string_escapeUnit u.toNat_lt, h more, UInt16.ofNat_toNat]
  rfl

theorem readsString_go (us : JsString) : ReadsString (quote.go us) us := by
  fun_induction quote.go us with
  | case1 => exact fun _ => rfl
  | case2 u hhigh v vs hlow ih =>
      obtain ⟨c, hpair, hbig, hdecode⟩ := encodeUtf16Char_pair hhigh hlow
      have hread := readsString_append (readsChar_quoteChar c) ih
      rw [hpair, quoteChar_of_le hbig] at hread
      rw [hdecode]
      exact hread
  | case3 u hhigh v vs hlow ih => exact readsString_escapeUnit u ih
  | case4 u hhigh => exact readsString_escapeUnit u fun _ => rfl
  | case5 u us hhigh hlow ih => exact readsString_escapeUnit u ih
  | case6 u us hhigh hlow c ih =>
      obtain ⟨hunits, hnumber⟩ := encodeUtf16Char_single (Bool.eq_false_iff.mpr hhigh)
        (Bool.eq_false_iff.mpr hlow)
      have hread := readsString_append (readsChar_quoteChar c) ih
      rw [hunits, quoteChar, hnumber] at hread
      exact hread

theorem readsName_quote (us : JsString) : ReadsName (quote us) us := ⟨_, rfl, readsString_go us⟩

theorem reads_stringify_str (depth : Nat) (us : JsString) :
    Reads depth (stringify (.str us)) (.str us) := by
  rw [stringify]
  exact reads_string depth (readsString_go us)

-- ============================================================================
-- Arrays and objects
-- ============================================================================

theorem stringifyElements_eq (vs : List Json) : stringifyElements vs = vs.map stringify := by
  induction vs with
  | nil => rfl
  | cons v vs ih => rw [stringifyElements, ih, List.map_cons]

theorem stringifyMembers_eq (ms : List (JsString × Json)) :
    stringifyMembers ms = ms.map fun m => memberText (quote m.1, stringify m.2) := by
  induction ms with
  | nil => rfl
  | cons m ms ih =>
      obtain ⟨name, v⟩ := m
      rw [stringifyMembers, ih, List.map_cons]
      rfl

/-- A quotation mark, a colon and the braces. -/
theorem four_le_length_stringify (m : JsString × Json) (ms : List (JsString × Json)) :
    4 ≤ (stringify (.obj (m :: ms))).length := by
  rw [stringify, stringifyMembers_eq, List.map_cons]
  cases ms with
  | nil =>
      simp only [List.map_nil, List.intersperse_singleton, List.flatten_cons, List.length_append,
        List.length_cons, memberText, quote]
      omega
  | cons m' ms =>
      simp only [List.map_cons, List.intersperse_cons_cons, List.flatten_cons, List.length_append,
        List.length_cons, memberText, quote]
      omega

theorem reads_stringify_arr {depth : Nat} {vs : List Json}
    (h : ∀ v ∈ vs, Reads depth (stringify v) v) :
    Reads (depth + 1) (stringify (.arr vs)) (.arr vs) := by
  rw [stringify, stringifyElements_eq]
  apply reads_array
  rw [List.forall₂_map_left_iff, List.forall₂_same]
  exact h

theorem reads_stringify_obj {depth : Nat} {ms : List (JsString × Json)}
    (h : ∀ m ∈ ms, Reads depth (stringify m.2) m.2) :
    Reads (depth + 1) (stringify (.obj ms)) (.obj ms) := by
  have hmembers : List.Forall₂ (ReadsMember depth)
      (ms.map fun m => (quote m.1, stringify m.2)) ms := by
    rw [List.forall₂_map_left_iff, List.forall₂_same]
    exact fun m hm => ⟨readsName_quote m.1, h m hm⟩
  have hobject := reads_object hmembers
  rw [List.map_map] at hobject
  rw [stringify, stringifyMembers_eq]
  exact hobject

end Json
end Lib
end BidiWeb
