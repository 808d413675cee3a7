import Mathlib.Data.UInt

/-!
# Byte order

The conversions of `platform/arch/Endian.h` that the frame headers use, on a little-endian host,
and the arithmetic of words that are put together from fields with shifts and `|`: fields that do
not overlap are added, and can be told apart again (`add_mul_inj`).
-/

namespace Endian

/-- `kIsBigEndian`; the host is little-endian. -/
def kIsBigEndian : Bool := false

/-- `SwapEndian16`. -/
def swapEndian16 (value : UInt16) : UInt16 := (value >>> 8) ||| (value <<< 8)

/-- `btoh16`. -/
def btoh16 (value : UInt16) : UInt16 := if kIsBigEndian then value else swapEndian16 value

/-- `ntoh16`. -/
def ntoh16 (value : UInt16) : UInt16 := btoh16 value

/-- A `uint16_t` that is read from two bytes in memory. -/
def load16 (first second : UInt8) : UInt16 := first.toUInt16 ||| (second.toUInt16 <<< 8)

/-! ### Fields of a word -/

section Fields

variable {low low' high high' k m : ℕ}

/-- Fields that do not overlap are added. -/
theorem or_mul_two_pow (h : low < 2 ^ k) : low ||| high * 2 ^ k = low + high * 2 ^ k := by
  rw [← Nat.shiftLeft_eq, Nat.or_comm, ← Nat.shiftLeft_add_eq_or_of_lt h, Nat.add_comm]

/-- Fields that have been added can be told apart. -/
theorem add_mul_inj (h : low < m) (h' : low' < m) :
    low + high * m = low' + high' * m ↔ low = low' ∧ high = high' := by
  constructor
  · intro heq
    have hlow : low = low' := by
      rw [← Nat.mod_eq_of_lt h, ← Nat.mod_eq_of_lt h', ← Nat.add_mul_mod_self_right low high m,
        heq, Nat.add_mul_mod_self_right]
    subst hlow
    exact ⟨rfl, Nat.eq_of_mul_eq_mul_right (by omega) (Nat.add_left_cancel heq)⟩
  · rintro ⟨rfl, rfl⟩
    rfl

/-- A field is put above what a word holds already. -/
theorem toNat_or_shiftLeft {word field width : UInt64} {w n : ℕ} (hwidth : width.toNat = w)
    (hword : word.toNat = n) (hn : n < 2 ^ w) (hfield : field.toNat * 2 ^ w < 2 ^ 64)
    (hw : w < 64) : (word ||| field <<< width).toNat = n + field.toNat * 2 ^ w := by
  rw [UInt64.toNat_or, UInt64.toNat_shiftLeft, hwidth, hword, Nat.mod_eq_of_lt hw,
    Nat.shiftLeft_eq, Nat.mod_eq_of_lt hfield, or_mul_two_pow hn]

/-- A byte is put above what a word holds already. -/
theorem toNat_or_byte {word : UInt64} {w n : ℕ} (width : UInt64) (byte : UInt8)
    (hwidth : width.toNat = w) (hword : word.toNat = n) (hn : n < 2 ^ w) (hw : w ≤ 56) :
    (word ||| byte.toUInt64 <<< width).toNat = n + byte.toNat * 2 ^ w := by
  have hfield : byte.toNat * 2 ^ w < 2 ^ 64 :=
    calc byte.toNat * 2 ^ w < 2 ^ 8 * 2 ^ w :=
          Nat.mul_lt_mul_of_pos_right byte.toNat_lt (Nat.two_pow_pos w)
      _ = 2 ^ (8 + w) := (Nat.pow_add 2 8 w).symm
      _ ≤ 2 ^ 64 := Nat.pow_le_pow_right (by decide) (by omega)
  exact toNat_or_shiftLeft hwidth hword hn hfield (by omega)

end Fields

/-! ### Two bytes -/

section Bytes

variable {first second first' second' : UInt8}

theorem toNat_load16 : (load16 first second).toNat = first.toNat + second.toNat * 2 ^ 8 := by
  have hfirst := first.toNat_lt
  have hsecond := second.toNat_lt
  rw [load16, UInt16.toNat_or, UInt16.toNat_shiftLeft, UInt8.toNat_toUInt16, UInt8.toNat_toUInt16]
  show first.toNat ||| second.toNat <<< 8 % 2 ^ 16 = _
  rw [Nat.shiftLeft_eq, Nat.mod_eq_of_lt (by omega), or_mul_two_pow hfirst]

/-- The first byte in memory is the more significant one of a number in network byte order. -/
theorem toNat_ntoh16_load16 :
    (ntoh16 (load16 first second)).toNat = second.toNat + first.toNat * 2 ^ 8 := by
  have hfirst := first.toNat_lt
  have hsecond := second.toNat_lt
  show (swapEndian16 (load16 first second)).toNat = _
  rw [swapEndian16, UInt16.toNat_or, UInt16.toNat_shiftLeft, UInt16.toNat_shiftRight, toNat_load16]
  show (first.toNat + second.toNat * 2 ^ 8) >>> 8 |||
    (first.toNat + second.toNat * 2 ^ 8) <<< 8 % 2 ^ 16 = _
  have hlow : (first.toNat + second.toNat * 2 ^ 8) / 2 ^ 8 = second.toNat := by omega
  have hhigh : (first.toNat + second.toNat * 2 ^ 8) * 2 ^ 8 % 2 ^ 16 = first.toNat * 2 ^ 8 := by
    omega
  rw [Nat.shiftRight_eq_div_pow, Nat.shiftLeft_eq, hlow, hhigh, or_mul_two_pow hsecond]

theorem load16_inj :
    load16 first second = load16 first' second' ↔ first = first' ∧ second = second' := by
  rw [← UInt16.toNat_inj, toNat_load16, toNat_load16,
    add_mul_inj first.toNat_lt first'.toNat_lt, UInt8.toNat_inj, UInt8.toNat_inj]

end Bytes

end Endian
