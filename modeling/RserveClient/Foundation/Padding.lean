import Mathlib.Tactic.Common

/-!
# Rounding a length up

The least multiple of a block size that holds a given length.
-/

namespace Padding

def roundUp (k n : Nat) : Nat := (n + (k - 1)) / k * k

theorem dvd_roundUp (k n : Nat) : k ∣ roundUp k n := Nat.dvd_mul_left k _

variable {k : Nat}

theorem le_roundUp (hk : 0 < k) (n : Nat) : n ≤ roundUp k n := by
  have hdiv := Nat.div_add_mod (n + (k - 1)) k
  have hmod := Nat.mod_lt (n + (k - 1)) hk
  rw [roundUp, Nat.mul_comm]
  omega

theorem roundUp_lt (hk : 0 < k) (n : Nat) : roundUp k n < n + k := by
  have hle := Nat.div_mul_le_self (n + (k - 1)) k
  rw [roundUp]
  omega

/-- No smaller multiple holds the length. -/
theorem roundUp_le {n m : Nat} (hk : 0 < k) (hm : k ∣ m) (hn : n ≤ m) : roundUp k n ≤ m := by
  obtain ⟨q, rfl⟩ := hm
  have hlt : (n + (k - 1)) / k < q + 1 := by
    apply (Nat.div_lt_iff_lt_mul hk).mpr
    rw [Nat.add_mul, Nat.one_mul, Nat.mul_comm q k]
    omega
  calc
    roundUp k n ≤ q * k := Nat.mul_le_mul_right k (Nat.le_of_lt_succ hlt)
    _ = k * q := Nat.mul_comm q k

theorem roundUp_eq_self {n : Nat} (hk : 0 < k) (h : k ∣ n) : roundUp k n = n :=
  Nat.le_antisymm (roundUp_le hk h (Nat.le_refl n)) (le_roundUp hk n)

end Padding
