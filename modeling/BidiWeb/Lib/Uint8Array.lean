/-
  BidiWeb.Lib.Uint8Array

  Byte buffers with integers written into them at offsets: Go slices, and
  the typed arrays of JavaScript.  A `Uint8Array` is a window of a buffer it
  may share with others, and a `DataView` reads and writes the buffer from
  where its window starts.

  What the platform refuses with a panic or a `RangeError` is not an access
  here: each one takes the proof that it lies inside.
-/

import BidiWeb.Lib.BigEndian

namespace BidiWeb
namespace Lib

-- ============================================================================
-- Buffers
-- ============================================================================

/-- `bytes` copied into `buffer`, from `offset` on. -/
def overwrite (buffer : List UInt8) (offset : Nat) (bytes : List UInt8) : List UInt8 :=
  buffer.take offset ++ bytes ++ buffer.drop (offset + bytes.length)

/-- The big-endian integer in the four bytes at `i`. -/
def uint32At (data : List UInt8) (i : Nat) (h : i + 4 ≤ data.length) : UInt32 :=
  getUint32 data[i] data[i + 1] data[i + 2] data[i + 3]

@[simp]
theorem length_putUint32 (n : UInt32) : (putUint32 n).length = 4 := rfl

theorem length_overwrite {buffer bytes : List UInt8} {offset : Nat}
    (h : offset + bytes.length ≤ buffer.length) :
    (overwrite buffer offset bytes).length = buffer.length := by
  simp only [overwrite, List.length_append, List.length_take, List.length_drop]
  omega

theorem putUint32_injective {n m : UInt32} (h : putUint32 n = putUint32 m) : n = m := by
  have hn : getUint32 _ _ _ _ = n := getUint32_of_put rfl
  exact hn.symm.trans (getUint32_of_put h.symm)

/-- The four bytes at `i` are those of the integer there. -/
theorem take_drop_uint32At {data : List UInt8} {i : Nat} (h : i + 4 ≤ data.length) :
    (data.drop i).take 4 = putUint32 (uint32At data i h) := by
  rw [uint32At, putUint32_getUint32]
  apply List.ext_getElem
  · simp only [List.length_take, List.length_drop, List.length_cons, List.length_nil]
    omega
  · intro j hj hj'
    have hlt : j < 4 := hj'
    rw [List.getElem_take, List.getElem_drop]
    match j, hlt with
    | 0, _ => rfl
    | 1, _ => rfl
    | 2, _ => rfl
    | 3, _ => rfl

theorem uint32At_eq_iff {data : List UInt8} {i : Nat} {n : UInt32} (h : i + 4 ≤ data.length) :
    uint32At data i h = n ↔ (data.drop i).take 4 = putUint32 n := by
  rw [take_drop_uint32At h]
  constructor
  · intro heq
    rw [heq]
  · exact putUint32_injective

-- ============================================================================
-- Typed arrays
-- ============================================================================

/-- A window of a buffer. -/
structure Uint8Array where
  buffer : List UInt8
  byteOffset : Nat
  byteLength : Nat
  fits : byteOffset + byteLength ≤ buffer.length

namespace Uint8Array

/-- What the window shows. -/
def bytes (a : Uint8Array) : List UInt8 := (a.buffer.drop a.byteOffset).take a.byteLength

@[simp]
theorem length_bytes (a : Uint8Array) : a.bytes.length = a.byteLength := by
  have hfits := a.fits
  simp only [bytes, List.length_take, List.length_drop]
  omega

/-- `new Uint8Array(length)` -/
def new (length : Nat) : Uint8Array where
  buffer := List.replicate length 0
  byteOffset := 0
  byteLength := length
  fits := by simp

/-- `new Uint8Array(buffer)` -/
def ofBuffer (buffer : List UInt8) : Uint8Array where
  buffer := buffer
  byteOffset := 0
  byteLength := buffer.length
  fits := by omega

@[simp]
theorem bytes_ofBuffer (buffer : List UInt8) : (ofBuffer buffer).bytes = buffer := by
  simp [ofBuffer, bytes]

/-- `a.subarray(start)`: the same buffer, seen from further in. -/
def subarray (a : Uint8Array) (start : Nat) : Uint8Array where
  buffer := a.buffer
  byteOffset := a.byteOffset + min start a.byteLength
  byteLength := a.byteLength - start
  fits := by
    have hfits := a.fits
    omega

@[simp]
theorem bytes_subarray (a : Uint8Array) (start : Nat) :
    (a.subarray start).bytes = a.bytes.drop start := by
  show (a.buffer.drop (a.byteOffset + min start a.byteLength)).take (a.byteLength - start) = _
  rw [bytes, List.drop_take, List.drop_drop]
  by_cases hle : start ≤ a.byteLength
  · rw [Nat.min_eq_left hle]
  · have hzero : a.byteLength - start = 0 := by omega
    rw [hzero, List.take_zero, List.take_zero]

/-- `a.set(source, offset)` -/
def set (a source : Uint8Array) (offset : Nat) (h : offset + source.byteLength ≤ a.byteLength) :
    Uint8Array where
  buffer := overwrite a.buffer (a.byteOffset + offset) source.bytes
  byteOffset := a.byteOffset
  byteLength := a.byteLength
  fits := by
    have hfits := a.fits
    rw [length_overwrite (by rw [length_bytes]; omega)]
    exact hfits

end Uint8Array

-- ============================================================================
-- Views
-- ============================================================================

/-- `new DataView(a.buffer, a.byteOffset, a.byteLength)`: the same window. -/
abbrev DataView := Uint8Array

namespace DataView

/-- `view.getUint8(i)` -/
def getUint8 (view : DataView) (i : Nat) (h : i < view.byteLength) : UInt8 :=
  view.buffer.get ⟨view.byteOffset + i, by have hfits := view.fits; omega⟩

/-- `view.getUint32(i)` -/
def getUint32 (view : DataView) (i : Nat) (h : i + 4 ≤ view.byteLength) : UInt32 :=
  uint32At view.buffer (view.byteOffset + i) (by have hfits := view.fits; omega)

/-- The window after `view.setUint32(i, n)`. -/
def setUint32 (view : DataView) (i : Nat) (n : UInt32) (h : i + 4 ≤ view.byteLength) :
    DataView where
  buffer := overwrite view.buffer (view.byteOffset + i) (putUint32 n)
  byteOffset := view.byteOffset
  byteLength := view.byteLength
  fits := by
    have hfits := view.fits
    rw [length_overwrite (by rw [length_putUint32]; omega)]
    exact hfits

theorem getUint8_eq (view : DataView) {i : Nat} (h : i < view.byteLength) :
    view.getUint8 i h = view.bytes.get ⟨i, by simpa using h⟩ := by
  simp [getUint8, Uint8Array.bytes]

theorem getUint32_eq (view : DataView) {i : Nat} (h : i + 4 ≤ view.byteLength) :
    view.getUint32 i h = uint32At view.bytes i (by simpa using h) := by
  simp [getUint32, uint32At, Uint8Array.bytes, Nat.add_assoc]

end DataView

end Lib
end BidiWeb
