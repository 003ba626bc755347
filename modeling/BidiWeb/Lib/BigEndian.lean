/-
  BidiWeb.Lib.BigEndian

  Four-byte big-endian integers: `binary.BigEndian.PutUint32`/`Uint32` and
  `DataView.setUint32`/`getUint32` write and read the same bytes.
-/

namespace BidiWeb
namespace Lib

/-- The four bytes of `n`, most significant first. -/
def putUint32 (n : UInt32) : List UInt8 :=
  [(n >>> 24).toUInt8, (n >>> 16).toUInt8, (n >>> 8).toUInt8, n.toUInt8]

/-- The integer whose bytes, most significant first, are `a b c d`. -/
def getUint32 (a b c d : UInt8) : UInt32 :=
  (a.toUInt32 <<< 24) ||| (b.toUInt32 <<< 16) ||| (c.toUInt32 <<< 8) ||| d.toUInt32

theorem getUint32_toNat (a b c d : UInt8) :
    (getUint32 a b c d).toNat =
      a.toNat * 0x1000000 + (b.toNat * 0x10000 + (c.toNat * 0x100 + d.toNat)) := by
  have ha := a.toNat_lt
  have hb := b.toNat_lt
  have hc := c.toNat_lt
  have hd := d.toNat_lt
  have h₂₄ : a.toNat <<< 24 % 2 ^ 32 = a.toNat <<< 24 := by omega
  have h₁₆ : b.toNat <<< 16 % 2 ^ 32 = b.toNat <<< 16 := by omega
  have h₈ : c.toNat <<< 8 % 2 ^ 32 = c.toNat <<< 8 := by omega
  -- the bytes from the right, each above what is there already
  have hcd : c.toNat <<< 8 ||| d.toNat = c.toNat * 0x100 + d.toNat :=
    (Nat.shiftLeft_add_eq_or_of_lt (by omega) _).symm.trans (by omega)
  have hbcd : b.toNat <<< 16 ||| (c.toNat * 0x100 + d.toNat) =
      b.toNat * 0x10000 + (c.toNat * 0x100 + d.toNat) :=
    (Nat.shiftLeft_add_eq_or_of_lt (by omega) _).symm.trans (by omega)
  have habcd : a.toNat <<< 24 ||| (b.toNat * 0x10000 + (c.toNat * 0x100 + d.toNat)) =
      a.toNat * 0x1000000 + (b.toNat * 0x10000 + (c.toNat * 0x100 + d.toNat)) :=
    (Nat.shiftLeft_add_eq_or_of_lt (by omega) _).symm.trans (by omega)
  unfold getUint32
  rw [UInt32.or_assoc, UInt32.or_assoc]
  simp only [UInt32.toNat_or, UInt32.toNat_shiftLeft, UInt8.toNat_toUInt32, UInt32.reduceToNat,
    Nat.reduceMod]
  rw [h₂₄, h₁₆, h₈, hcd, hbcd, habcd]

/-- What was put is got back. -/
theorem getUint32_of_put {n : UInt32} {a b c d : UInt8} (h : putUint32 n = [a, b, c, d]) :
    getUint32 a b c d = n := by
  have hn := n.toNat_lt
  simp only [putUint32, List.cons.injEq, and_true] at h
  obtain ⟨rfl, rfl, rfl, rfl⟩ := h
  apply UInt32.toNat_inj.mp
  rw [getUint32_toNat]
  simp [Nat.shiftRight_eq_div_pow]
  omega

/-- Only one integer has these bytes. -/
theorem putUint32_getUint32 (a b c d : UInt8) : putUint32 (getUint32 a b c d) = [a, b, c, d] := by
  have ha := a.toNat_lt
  have hb := b.toNat_lt
  have hc := c.toNat_lt
  have hd := d.toNat_lt
  simp only [putUint32, List.cons.injEq, and_true, ← UInt8.toNat_inj, UInt32.toNat_toUInt8,
    UInt32.toNat_shiftRight, getUint32_toNat]
  simp [Nat.shiftRight_eq_div_pow]
  omega

end Lib
end BidiWeb
