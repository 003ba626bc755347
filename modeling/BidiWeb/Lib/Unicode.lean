/-
  BidiWeb.Lib.Unicode

  UTF-8 and UTF-16 text.  Decoders never fail: what is malformed becomes
  U+FFFD.  How much one U+FFFD stands for is where decoders differ, so the
  UTF-8 decoder takes it as a parameter.
-/

import Mathlib.Data.List.Basic

namespace BidiWeb
namespace Lib
namespace Unicode

def replacement : Char := Char.ofNat 0xFFFD

/-- What holds of the first characters, number by number. -/
@[elab_as_elim] theorem forall_char_lt {motive : Char → Prop} {bound : Nat} (c : Char)
    (hc : c.toNat < bound) (h : ∀ n < bound, motive (Char.ofNat n)) : motive c := by
  have hnumber := h c.toNat hc
  rwa [Char.ofNat_toNat] at hnumber

-- ============================================================================
-- UTF-8
-- ============================================================================

/-- What a lead byte announces: the bits it carries, the number of bytes to
    come, and the range of the first of these. -/
structure Lead where
  bits : Nat
  more : Nat
  low : UInt8 := 0x80
  high : UInt8 := 0xBF

def lead (b : UInt8) : Option Lead :=
  if b ≤ 0x7F then some { bits := b.toNat, more := 0 }
  else if b < 0xC2 then none
  else if b ≤ 0xDF then some { bits := b.toNat % 0x20, more := 1 }
  else if b = 0xE0 then some { bits := 0, more := 2, low := 0xA0 }
  else if b = 0xED then some { bits := 0xD, more := 2, high := 0x9F }
  else if b ≤ 0xEF then some { bits := b.toNat % 0x10, more := 2 }
  else if b = 0xF0 then some { bits := 0, more := 3, low := 0x90 }
  else if b ≤ 0xF3 then some { bits := b.toNat % 8, more := 3 }
  else if b = 0xF4 then some { bits := 4, more := 3, high := 0x8F }
  else none

/-- The bytes after a lead byte: the character they complete, if they do, and
    how many of them belong to it. -/
def continuation (l : Lead) : List UInt8 → Option Char × Nat :=
  go l.more l.low l.high l.bits 0
where
  go : Nat → UInt8 → UInt8 → Nat → Nat → List UInt8 → Option Char × Nat
    | 0, _, _, bits, taken, _ => (some (Char.ofNat bits), taken)
    | _ + 1, _, _, _, taken, [] => (none, taken)
    | n + 1, low, high, bits, taken, b :: bs =>
        if low ≤ b ∧ b ≤ high then
          go n 0x80 0xBF (bits * 64 + b.toNat % 64) (taken + 1) bs
        else (none, taken)

/-- The first character, or none if it is malformed, and the bytes it takes. -/
def firstChar : List UInt8 → Option Char × Nat
  | [] => (none, 0)
  | b :: bs =>
      match lead b with
      | none => (none, 1)
      | some l =>
          let (c, taken) := continuation l bs
          (c, taken + 1)

/-- Decode at most `fuel` characters; `skip` says how much of a malformed
    sequence one U+FFFD replaces. -/
def decodeUtf8With (skip : Nat → Nat) : Nat → List UInt8 → List Char
  | 0, _ => []
  | _ + 1, [] => []
  | fuel + 1, bs =>
      match firstChar bs with
      | (some c, taken) => c :: decodeUtf8With skip fuel (bs.drop taken)
      | (none, taken) => replacement :: decodeUtf8With skip fuel (bs.drop (skip taken))

/-- One U+FFFD for each malformed byte. -/
def decodeUtf8Bytewise (bs : List UInt8) : List Char :=
  decodeUtf8With (fun _ => 1) bs.length bs

/-- One U+FFFD for each maximal start of a character. -/
def decodeUtf8 (bs : List UInt8) : List Char := decodeUtf8With id bs.length bs

def encodeUtf8 (cs : List Char) : List UInt8 := cs.flatMap String.utf8EncodeChar

-- ============================================================================
-- UTF-16
-- ============================================================================

def encodeUtf16Char (c : Char) : List UInt16 :=
  if c.toNat < 0x10000 then [UInt16.ofNat c.toNat]
  else
    let n := c.toNat - 0x10000
    [UInt16.ofNat (0xD800 + n / 0x400), UInt16.ofNat (0xDC00 + n % 0x400)]

def encodeUtf16 (cs : List Char) : List UInt16 := cs.flatMap encodeUtf16Char

def isHighSurrogate (u : UInt16) : Bool := 0xD800 ≤ u && u ≤ 0xDBFF
def isLowSurrogate (u : UInt16) : Bool := 0xDC00 ≤ u && u ≤ 0xDFFF

/-- Surrogates that are not a pair become U+FFFD. -/
def decodeUtf16 : List UInt16 → List Char
  | [] => []
  | u :: us =>
      if isHighSurrogate u then
        match us with
        | v :: vs =>
            if isLowSurrogate v then
              Char.ofNat (0x10000 + (u.toNat - 0xD800) * 0x400 + (v.toNat - 0xDC00)) ::
                decodeUtf16 vs
            else replacement :: decodeUtf16 (v :: vs)
        | [] => [replacement]
      else if isLowSurrogate u then replacement :: decodeUtf16 us
      else Char.ofNat u.toNat :: decodeUtf16 us

-- ============================================================================
-- What was encoded decodes
-- ============================================================================

/-- `lead` in numbers. -/
theorem lead_eq (b : UInt8) : lead b =
    let n := b.toNat
    if n ≤ 0x7F then some { bits := n, more := 0 }
    else if n < 0xC2 then none
    else if n ≤ 0xDF then some { bits := n % 0x20, more := 1 }
    else if n = 0xE0 then some { bits := 0, more := 2, low := 0xA0 }
    else if n = 0xED then some { bits := 0xD, more := 2, high := 0x9F }
    else if n ≤ 0xEF then some { bits := n % 0x10, more := 2 }
    else if n = 0xF0 then some { bits := 0, more := 3, low := 0x90 }
    else if n ≤ 0xF3 then some { bits := n % 8, more := 3 }
    else if n = 0xF4 then some { bits := 4, more := 3, high := 0x8F }
    else none := by
  simp only [lead, UInt8.le_iff_toNat_le, UInt8.lt_iff_toNat_lt, ← UInt8.toNat_inj]
  rfl

theorem go_cons {n bits taken : Nat} {low high b : UInt8} {bs : List UInt8}
    (hlow : low.toNat ≤ b.toNat) (hhigh : b.toNat ≤ high.toNat) :
    continuation.go (n + 1) low high bits taken (b :: bs) =
      continuation.go n 0x80 0xBF (bits * 64 + b.toNat % 64) (taken + 1) bs := by
  simp only [continuation.go, UInt8.le_iff_toNat_le, hlow, hhigh, and_self, if_true]

/-- A continuation byte carries six bits. -/
theorem go_ofNat {n bits taken m : Nat} {low high : UInt8} {bs : List UInt8}
    (hlow : low.toNat ≤ m % 64 + 0x80) (hhigh : m % 64 + 0x80 ≤ high.toNat) :
    continuation.go (n + 1) low high bits taken (UInt8.ofNat (m % 64 + 0x80) :: bs) =
      continuation.go n 0x80 0xBF (bits * 64 + m % 64) (taken + 1) bs := by
  have hb : (UInt8.ofNat (m % 64 + 0x80)).toNat = m % 64 + 0x80 := by
    rw [UInt8.toNat_ofNat']
    omega
  rw [go_cons (by rw [hb]; exact hlow) (by rw [hb]; exact hhigh), hb]
  congr 1
  omega

theorem firstChar_cons {b : UInt8} {bs : List UInt8} {l : Lead} (hl : lead b = some l) :
    firstChar (b :: bs) = ((continuation l bs).1, (continuation l bs).2 + 1) := by
  simp [firstChar, hl]

theorem toNat_of_lt {n : Nat} (h : n < 256) : (UInt8.ofNat n).toNat = n := by
  rw [UInt8.toNat_ofNat']
  omega

theorem firstChar_encode (c : Char) (rest : List UInt8) :
    firstChar (String.utf8EncodeChar c ++ rest) = (some c, (String.utf8EncodeChar c).length) := by
  have hvalid : c.val.toNat < 0xD800 ∨ 0xDFFF < c.val.toNat ∧ c.val.toNat < 0x110000 := c.valid
  have hc : Char.ofNat c.val.toNat = c := Char.ofNat_toNat c
  generalize hv : c.val.toNat = v at hvalid hc
  simp only [String.utf8EncodeChar, hv]
  by_cases h1 : v ≤ 0x7F
  · have hb : (UInt8.ofNat v).toNat = v := toNat_of_lt (by omega)
    have hl : lead (UInt8.ofNat v) = some { bits := v, more := 0 } := by
      simp [lead_eq, hb, h1]
    simp only [h1, if_true, List.cons_append, List.nil_append, firstChar_cons hl]
    simp [continuation, continuation.go, hc]
  · by_cases h2 : v ≤ 0x7FF
    · have hb : (UInt8.ofNat (v / 64 % 32 + 0xC0)).toNat = v / 64 + 0xC0 := by
        rw [toNat_of_lt (by omega)]
        omega
      have hl : lead (UInt8.ofNat (v / 64 % 32 + 0xC0)) = some { bits := v / 64, more := 1 } := by
        have e1 : ¬ v / 64 + 0xC0 ≤ 0x7F := by omega
        have e2 : ¬ v / 64 + 0xC0 < 0xC2 := by omega
        have e3 : v / 64 + 0xC0 ≤ 0xDF := by omega
        have e4 : (v / 64 + 0xC0) % 0x20 = v / 64 := by omega
        simp only [lead_eq, hb, e1, e2, e3, e4, if_true, if_false]
      simp only [h1, h2, if_true, if_false, List.cons_append, List.nil_append, firstChar_cons hl,
        continuation]
      rw [go_ofNat (by simp) (by simp; omega)]
      have hbits : v / 64 * 64 + v % 64 = v := by omega
      simp [continuation.go, hbits, hc]
    · by_cases h3 : v ≤ 0xFFFF
      · have hb : (UInt8.ofNat (v / 4096 % 16 + 0xE0)).toNat = v / 4096 + 0xE0 := by
          rw [toNat_of_lt (by omega)]
          omega
        have hbits : (v / 4096 * 64 + v / 64 % 64) * 64 + v % 64 = v := by omega
        obtain ⟨low, high, hl, hlow, hhigh⟩ : ∃ low high : UInt8,
            lead (UInt8.ofNat (v / 4096 % 16 + 0xE0)) =
              some { bits := v / 4096, more := 2, low, high } ∧
            low.toNat ≤ v / 64 % 64 + 0x80 ∧ v / 64 % 64 + 0x80 ≤ high.toNat := by
          have e1 : ¬ v / 4096 + 0xE0 ≤ 0x7F := by omega
          have e2 : ¬ v / 4096 + 0xE0 < 0xC2 := by omega
          have e3 : ¬ v / 4096 + 0xE0 ≤ 0xDF := by omega
          rw [lead_eq, hb]
          simp only [e1, e2, e3, if_false]
          -- the ranges without overlong forms and surrogates
          by_cases h0 : v / 4096 = 0
          · refine ⟨0xA0, 0xBF, by simp [h0], ?_, ?_⟩
            · show 160 ≤ v / 64 % 64 + 0x80
              omega
            · show v / 64 % 64 + 0x80 ≤ 191
              omega
          · by_cases hD : v / 4096 = 0xD
            · refine ⟨0x80, 0x9F, by simp [hD], ?_, ?_⟩
              · show 128 ≤ v / 64 % 64 + 0x80
                omega
              · show v / 64 % 64 + 0x80 ≤ 159
                omega
            · have e4 : v / 4096 + 0xE0 ≤ 0xEF := by omega
              have e5 : ¬ v / 4096 + 0xE0 = 0xE0 := by omega
              have e6 : ¬ v / 4096 + 0xE0 = 0xED := by omega
              have e7 : (v / 4096 + 0xE0) % 0x10 = v / 4096 := by omega
              refine ⟨0x80, 0xBF, by simp only [e4, e5, e6, e7, if_true, if_false], ?_, ?_⟩
              · show 128 ≤ v / 64 % 64 + 0x80
                omega
              · show v / 64 % 64 + 0x80 ≤ 191
                omega
        simp only [h1, h2, h3, if_true, if_false, List.cons_append, List.nil_append,
          firstChar_cons hl, continuation]
        rw [go_ofNat hlow hhigh, go_ofNat (by simp) (by simp; omega)]
        simp [continuation.go, hbits, hc]
      · have hb : (UInt8.ofNat (v / 262144 % 8 + 0xF0)).toNat = v / 262144 + 0xF0 := by
          rw [toNat_of_lt (by omega)]
          omega
        have hbits : ((v / 262144 * 64 + v / 4096 % 64) * 64 + v / 64 % 64) * 64 + v % 64 = v := by
          omega
        obtain ⟨low, high, hl, hlow, hhigh⟩ : ∃ low high : UInt8,
            lead (UInt8.ofNat (v / 262144 % 8 + 0xF0)) =
              some { bits := v / 262144, more := 3, low, high } ∧
            low.toNat ≤ v / 4096 % 64 + 0x80 ∧ v / 4096 % 64 + 0x80 ≤ high.toNat := by
          have e1 : ¬ v / 262144 + 0xF0 ≤ 0x7F := by omega
          have e2 : ¬ v / 262144 + 0xF0 < 0xC2 := by omega
          have e3 : ¬ v / 262144 + 0xF0 ≤ 0xDF := by omega
          have e4 : ¬ v / 262144 + 0xF0 = 0xE0 := by omega
          have e5 : ¬ v / 262144 + 0xF0 = 0xED := by omega
          have e6 : ¬ v / 262144 + 0xF0 ≤ 0xEF := by omega
          rw [lead_eq, hb]
          simp only [e1, e2, e3, e4, e5, e6, if_false]
          by_cases h0 : v / 262144 = 0
          · refine ⟨0x90, 0xBF, by simp [h0], ?_, ?_⟩
            · show 144 ≤ v / 4096 % 64 + 0x80
              omega
            · show v / 4096 % 64 + 0x80 ≤ 191
              omega
          · by_cases h4 : v / 262144 = 4
            · refine ⟨0x80, 0x8F, by simp [h4], ?_, ?_⟩
              · show 128 ≤ v / 4096 % 64 + 0x80
                omega
              · show v / 4096 % 64 + 0x80 ≤ 143
                omega
            · have e7 : v / 262144 + 0xF0 ≤ 0xF3 := by omega
              have e8 : ¬ v / 262144 + 0xF0 = 0xF0 := by omega
              have e9 : (v / 262144 + 0xF0) % 8 = v / 262144 := by omega
              refine ⟨0x80, 0xBF, by simp only [e7, e8, e9, if_true, if_false], ?_, ?_⟩
              · show 128 ≤ v / 4096 % 64 + 0x80
                omega
              · show v / 4096 % 64 + 0x80 ≤ 191
                omega
        simp only [h1, h2, h3, if_false, List.cons_append, List.nil_append, firstChar_cons hl,
          continuation]
        rw [go_ofNat hlow hhigh, go_ofNat (by simp) (by simp; omega),
          go_ofNat (by simp) (by simp; omega)]
        simp [continuation.go, hbits, hc]

theorem decodeUtf8With_of_firstChar {skip : Nat → Nat} {fuel n : Nat} {bs : List UInt8} {c : Char}
    (hne : bs ≠ []) (hfirst : firstChar bs = (some c, n)) :
    decodeUtf8With skip (fuel + 1) bs = c :: decodeUtf8With skip fuel (bs.drop n) := by
  cases bs with
  | nil => exact absurd rfl hne
  | cons b bs => simp only [decodeUtf8With, hfirst]

theorem decodeUtf8With_encode (skip : Nat → Nat) (cs : List Char) {fuel : Nat}
    (hfuel : cs.length ≤ fuel) : decodeUtf8With skip fuel (encodeUtf8 cs) = cs := by
  induction cs generalizing fuel with
  | nil => cases fuel <;> rfl
  | cons c cs ih =>
      obtain ⟨fuel, rfl⟩ : ∃ n, fuel = n + 1 := ⟨fuel - 1, by simp at hfuel; omega⟩
      have hne : String.utf8EncodeChar c ≠ [] := String.utf8EncodeChar_ne_nil
      obtain ⟨b, bs, hbs⟩ := List.exists_cons_of_ne_nil hne
      have hfirst := firstChar_encode c (encodeUtf8 cs)
      have hcons : encodeUtf8 (c :: cs) = String.utf8EncodeChar c ++ encodeUtf8 cs := rfl
      rw [hcons, decodeUtf8With_of_firstChar (by simp [hbs]) hfirst, List.drop_left,
        ih (by simp at hfuel; omega)]

theorem length_le_encodeUtf8 (cs : List Char) : cs.length ≤ (encodeUtf8 cs).length := by
  induction cs with
  | nil => simp
  | cons c cs ih =>
      have hcons : encodeUtf8 (c :: cs) = String.utf8EncodeChar c ++ encodeUtf8 cs := rfl
      have hpos : 0 < (String.utf8EncodeChar c).length :=
        List.length_pos_of_ne_nil String.utf8EncodeChar_ne_nil
      rw [hcons, List.length_append, List.length_cons]
      omega

theorem decodeUtf8Bytewise_encode (cs : List Char) : decodeUtf8Bytewise (encodeUtf8 cs) = cs :=
  decodeUtf8With_encode _ cs (length_le_encodeUtf8 cs)

theorem decodeUtf8_encode (cs : List Char) : decodeUtf8 (encodeUtf8 cs) = cs :=
  decodeUtf8With_encode _ cs (length_le_encodeUtf8 cs)

/-- A character is one unit that is no surrogate, or a pair of surrogates. -/
theorem encodeUtf16Char_cases (c : Char) :
    (∃ u, encodeUtf16Char c = [u] ∧ isHighSurrogate u = false ∧ isLowSurrogate u = false ∧
      u.toNat = c.toNat) ∨
    ∃ u v, encodeUtf16Char c = [u, v] ∧ isHighSurrogate u = true ∧ isLowSurrogate v = true ∧
      Char.ofNat (0x10000 + (u.toNat - 0xD800) * 0x400 + (v.toNat - 0xDC00)) = c := by
  have hvalid : c.val.toNat < 0xD800 ∨ 0xDFFF < c.val.toNat ∧ c.val.toNat < 0x110000 := c.valid
  have hc : Char.ofNat c.toNat = c := Char.ofNat_toNat c
  have htoNat : c.toNat = c.val.toNat := rfl
  generalize hv : c.toNat = v at hc htoNat
  rw [← htoNat] at hvalid
  unfold encodeUtf16Char
  rw [hv]
  by_cases h1 : v < 0x10000
  · have hu : (UInt16.ofNat v).toNat = v := by
      rw [UInt16.toNat_ofNat']
      omega
    have hhigh : isHighSurrogate (UInt16.ofNat v) = false := by
      simp only [isHighSurrogate, UInt16.le_iff_toNat_le, hu, Bool.and_eq_false_iff,
        decide_eq_false_iff_not]
      show ¬ 55296 ≤ v ∨ ¬ v ≤ 56319
      omega
    have hlow : isLowSurrogate (UInt16.ofNat v) = false := by
      simp only [isLowSurrogate, UInt16.le_iff_toNat_le, hu, Bool.and_eq_false_iff,
        decide_eq_false_iff_not]
      show ¬ 56320 ≤ v ∨ ¬ v ≤ 57343
      omega
    exact Or.inl ⟨_, if_pos h1, hhigh, hlow, hu⟩
  · have hu : (UInt16.ofNat (0xD800 + (v - 0x10000) / 0x400)).toNat =
        0xD800 + (v - 0x10000) / 0x400 := by
      rw [UInt16.toNat_ofNat']
      omega
    have hw : (UInt16.ofNat (0xDC00 + (v - 0x10000) % 0x400)).toNat =
        0xDC00 + (v - 0x10000) % 0x400 := by
      rw [UInt16.toNat_ofNat']
      omega
    have hhigh : isHighSurrogate (UInt16.ofNat (0xD800 + (v - 0x10000) / 0x400)) = true := by
      simp only [isHighSurrogate, UInt16.le_iff_toNat_le, hu, Bool.and_eq_true, decide_eq_true_eq]
      show 55296 ≤ 0xD800 + (v - 0x10000) / 0x400 ∧ 0xD800 + (v - 0x10000) / 0x400 ≤ 56319
      omega
    have hlow : isLowSurrogate (UInt16.ofNat (0xDC00 + (v - 0x10000) % 0x400)) = true := by
      simp only [isLowSurrogate, UInt16.le_iff_toNat_le, hw, Bool.and_eq_true, decide_eq_true_eq]
      show 56320 ≤ 0xDC00 + (v - 0x10000) % 0x400 ∧ 0xDC00 + (v - 0x10000) % 0x400 ≤ 57343
      omega
    have hsum : 0x10000 + (0xD800 + (v - 0x10000) / 0x400 - 0xD800) * 0x400 +
        (0xDC00 + (v - 0x10000) % 0x400 - 0xDC00) = v := by
      omega
    exact Or.inr ⟨_, _, if_neg h1, hhigh, hlow, by rw [hu, hw, hsum, hc]⟩

/-- A unit that is no surrogate is a character. -/
theorem encodeUtf16Char_single {u : UInt16} (hhigh : isHighSurrogate u = false)
    (hlow : isLowSurrogate u = false) :
    encodeUtf16Char (Char.ofNat u.toNat) = [u] ∧ (Char.ofNat u.toNat).toNat = u.toNat := by
  have hlt := u.toNat_lt
  have hvalid : u.toNat.isValidChar := by
    simp only [isHighSurrogate, isLowSurrogate, UInt16.le_iff_toNat_le, Bool.and_eq_false_iff,
      decide_eq_false_iff_not] at hhigh hlow
    simp at hhigh hlow
    unfold Nat.isValidChar
    omega
  have hnumber : (Char.ofNat u.toNat).toNat = u.toNat := by
    rw [Char.ofNat, dif_pos hvalid]
    rfl
  refine ⟨?_, hnumber⟩
  rw [encodeUtf16Char, hnumber, if_pos hlt, UInt16.ofNat_toNat]

/-- A pair of surrogates is a character beyond the basic plane. -/
theorem encodeUtf16Char_pair {u v : UInt16} (hhigh : isHighSurrogate u = true)
    (hlow : isLowSurrogate v = true) :
    ∃ c, encodeUtf16Char c = [u, v] ∧ 0x10000 ≤ c.toNat ∧ decodeUtf16 [u, v] = [c] := by
  let n := 0x10000 + (u.toNat - 0xD800) * 0x400 + (v.toNat - 0xDC00)
  have hu : 0xD800 ≤ u.toNat ∧ u.toNat ≤ 0xDBFF := by
    simpa [isHighSurrogate, UInt16.le_iff_toNat_le] using hhigh
  have hv : 0xDC00 ≤ v.toNat ∧ v.toNat ≤ 0xDFFF := by
    simpa [isLowSurrogate, UInt16.le_iff_toNat_le] using hlow
  have hvalid : n.isValidChar := by
    unfold Nat.isValidChar
    omega
  have hnumber : (Char.ofNat n).toNat = n := by
    rw [Char.ofNat, dif_pos hvalid]
    rfl
  refine ⟨Char.ofNat n, ?_, ?_, ?_⟩
  · have hfirst : 0xD800 + (n - 0x10000) / 0x400 = u.toNat := by omega
    have hsecond : 0xDC00 + (n - 0x10000) % 0x400 = v.toNat := by omega
    rw [encodeUtf16Char, hnumber, if_neg (by omega)]
    simp only [hfirst, hsecond, UInt16.ofNat_toNat]
  · omega
  · simp only [decodeUtf16, hhigh, hlow, if_true]
    rfl

/-- A character, or the pair of surrogates it becomes, is read back. -/
theorem decodeUtf16_encode_append (c : Char) (us : List UInt16) :
    decodeUtf16 (encodeUtf16Char c ++ us) = c :: decodeUtf16 us := by
  rcases encodeUtf16Char_cases c with ⟨u, hunits, hhigh, hlow, hc⟩ | ⟨u, v, hunits, hhigh, hlow, hc⟩
  · rw [hunits, List.singleton_append, decodeUtf16.eq_def]
    simp only [hhigh, hlow, Bool.false_eq_true, if_false, hc, Char.ofNat_toNat]
  · rw [hunits]
    simp only [List.cons_append, List.nil_append, decodeUtf16, hhigh, hlow, if_true, hc]

theorem decodeUtf16_encode (cs : List Char) : decodeUtf16 (encodeUtf16 cs) = cs := by
  induction cs with
  | nil => rfl
  | cons c cs ih =>
      have hcons : encodeUtf16 (c :: cs) = encodeUtf16Char c ++ encodeUtf16 cs := rfl
      rw [hcons, decodeUtf16_encode_append, ih]

example : decodeUtf8 [0x61, 0xE2, 0x82, 0xC3, 0xA9] = ['a', replacement, 'é'] := by decide
example : decodeUtf8Bytewise [0x61, 0xE2, 0x82, 0xC3, 0xA9] =
    ['a', replacement, replacement, 'é'] := by decide
example : decodeUtf16 (encodeUtf16 ['a', '😀']) = ['a', '😀'] := by decide

end Unicode
end Lib
end BidiWeb
