import Mathlib.Algebra.Ring.Int.Defs
import Mathlib.Algebra.Ring.Nat
import Mathlib.Tactic.Common

/-!
# C integer conversions

The conversions between `int`, `uint32_t` and `size_t` on a machine with
32-bit two's-complement `int` and 64-bit `size_t`.
-/

namespace CInt

/-- Conversion to `int`. -/
def toInt (n : Int) : Int := (n + 2 ^ 31) % 2 ^ 32 - 2 ^ 31

/-- Conversion to `uint32_t`. -/
def toUInt32 (n : Int) : Nat := (n % 2 ^ 32).toNat

/-- Conversion to `size_t`. -/
def toSizeT (n : Int) : Nat := (n % 2 ^ 64).toNat

theorem toInt_eq {n : Int} (h₁ : -2 ^ 31 ≤ n) (h₂ : n < 2 ^ 31) : toInt n = n := by
  unfold toInt
  omega

theorem le_toInt (n : Int) : -2 ^ 31 ≤ toInt n := by
  unfold toInt
  omega

theorem toInt_lt (n : Int) : toInt n < 2 ^ 31 := by
  unfold toInt
  omega

theorem toInt_toInt (n : Int) : toInt (toInt n) = toInt n := by
  unfold toInt
  omega

theorem toInt_toInt_add (n m : Int) : toInt (toInt n + m) = toInt (n + m) := by
  unfold toInt
  omega

theorem toUInt32_natCast (n : Nat) : toUInt32 n = n % 2 ^ 32 := by
  unfold toUInt32
  omega

theorem toUInt32_lt (n : Int) : toUInt32 n < 2 ^ 32 := by
  unfold toUInt32
  omega

theorem toInt_toUInt32 (n : Int) : toInt (toUInt32 n) = toInt n := by
  unfold toUInt32 toInt
  omega

/-- The machine type's own reading of an integer as `int`. -/
theorem toInt_ofInt (n : Int) : (Int32.ofInt n).toInt = toInt n := by
  rw [Int32.toInt_ofInt, Int.bmod_def]
  unfold toInt
  simp only [Int32.size]
  omega

theorem toSizeT_natCast {n : Nat} (h : n < 2 ^ 64) : toSizeT n = n := by
  unfold toSizeT
  omega

/-- The 32 bits of an `int` that is not negative are its value. -/
theorem toNat_toUInt32 {x : Int32} (h : 0 ≤ x.toInt) : (x.toUInt32.toNat : Int) = x.toInt := by
  change ((x.toBitVec.toNat : Nat) : Int) = x.toBitVec.toInt
  have hx : 0 ≤ x.toBitVec.toInt := h
  rw [BitVec.toInt_eq_toNat_cond] at hx ⊢
  split at hx
  · rw [if_pos ‹_›]
  · have := x.toBitVec.isLt
    omega

/-- A negative `int` becomes a `size_t` beyond every allocatable size. -/
theorem le_toSizeT_of_neg {n : Int} (h₁ : -2 ^ 63 ≤ n) (h₂ : n < 0) :
    2 ^ 63 ≤ toSizeT n := by
  unfold toSizeT
  omega

end CInt
