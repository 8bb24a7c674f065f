import Mathlib

/-!
# The 32-bit operators of JavaScript

Each operator reads its operands as 32-bit integers, and all but `>>>` read the result as signed. A shift
count is taken modulo 32.
-/
namespace CodexHost.Foundation.EcmaInt32
open Nat BitVec

/-- `ToInt32` and `ToUint32` read the same 32 bits. -/
def int32 (number : Int) : BitVec 32 := BitVec.ofInt 32 number

/-- `number << count` -/
def shiftLeft (number : Int) (count : Nat) : Int := (int32 number <<< (count % 32)).toInt

/-- `number >>> count` -/
def shiftRight (number : Int) (count : Nat) : Nat := (int32 number >>> (count % 32)).toNat

/-- `left | right` -/
def bitOr (left right : Int) : Int := (int32 left ||| int32 right).toInt

/-- `left & right` -/
def bitAnd (left right : Int) : Int := (int32 left &&& int32 right).toInt

@[simp] theorem int32_shiftLeft (number : Int) (count : Nat) :
    int32 (shiftLeft number count) = int32 number <<< (count % 32) :=
  ofInt_toInt

@[simp] theorem int32_bitOr (left right : Int) : int32 (bitOr left right) = int32 left ||| int32 right :=
  ofInt_toInt

/-- A mask of low bits gives the remainder, whatever the sign of the number. -/
theorem bitAnd_mask (number : Int) {width : Nat} (narrow : width < 32) :
    bitAnd number (2 ^ width - 1 : Nat) = ((int32 number).toNat % 2 ^ width : Nat) := by
  have small : 2 ^ width ≤ 2 ^ 31 := Nat.pow_le_pow_right (by decide) (by omega)
  have mask : (int32 ((2 ^ width - 1 : Nat) : Int)).toNat = 2 ^ width - 1 := by
    rw [int32, BitVec.ofInt_natCast, BitVec.toNat_ofNat, Nat.mod_eq_of_lt (by omega)]
  have bits : (int32 number &&& int32 ((2 ^ width - 1 : Nat) : Int)).toNat =
      (int32 number).toNat % 2 ^ width := by
    rw [BitVec.toNat_and, mask, Nat.and_two_pow_sub_one_eq_mod]
  rw [bitAnd, BitVec.toInt_eq_toNat_of_lt (by rw [bits]; omega), bits]

@[simp] theorem int32_natCast (number : Nat) : (int32 (number : Int)).toNat = number % 2 ^ 32 := by
  rw [int32, ofInt_natCast, toNat_ofNat]

theorem shiftRight_eq (number : Int) {count : Nat} (small : count < 32) :
    shiftRight number count = (int32 number).toNat / 2 ^ count := by
  rw [shiftRight, toNat_ushiftRight, mod_eq_of_lt small, shiftRight_eq_div_pow]

/-- Shifted to the left, the low bits that stay inside 32 are those of the number, with zeros. -/
theorem shiftLeft_low (number : Int) {count width : Nat} (inside : width + count ≤ 32) (small : count < 32) :
    (int32 (shiftLeft number count)).toNat % 2 ^ (width + count) =
      (int32 number).toNat % 2 ^ width * 2 ^ count := by
  have divides : 2 ^ (width + count) ∣ 2 ^ 32 := Nat.pow_dvd_pow 2 inside
  rw [int32_shiftLeft, BitVec.toNat_shiftLeft, Nat.mod_eq_of_lt small, Nat.mod_mod_of_dvd _ divides,
    Nat.shiftLeft_eq, Nat.pow_add, Nat.mul_mod_mul_right]

/-- The lowest bits of `number << count | byte` are those of the number, then the byte. -/
theorem bitOr_low (number : Int) {count width byte : Nat} (inside : width + count ≤ 32)
    (small : count < 32) (fits : byte < 2 ^ count) :
    (int32 (bitOr (shiftLeft number count) byte)).toNat % 2 ^ (width + count) =
      (int32 number).toNat % 2 ^ width * 2 ^ count + byte := by
  have whole : byte < 2 ^ 32 := Nat.lt_of_lt_of_le fits (Nat.pow_le_pow_right (by decide) (Nat.le_of_lt small))
  have within : byte < 2 ^ (width + count) :=
    Nat.lt_of_lt_of_le fits (Nat.pow_le_pow_right (by decide) (by omega))
  rw [int32_bitOr, BitVec.toNat_or, Nat.or_mod_two_pow, shiftLeft_low number inside small,
    int32_natCast, Nat.mod_eq_of_lt whole, Nat.mod_eq_of_lt within,
    Nat.mul_comm, ← Nat.two_pow_add_eq_or_of_lt fits]

end CodexHost.Foundation.EcmaInt32
