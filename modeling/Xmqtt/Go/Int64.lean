import Mathlib

/-!
# Non-negative `int64` values

An `int64` stands for a number as long as its sign bit is clear.  On such values the bitwise
operators and the arithmetic shift are those of the numbers; sums and differences are as
long as they stay in the range.
-/

namespace Xmqtt.Go

def Stands (x : Int64) (n : ℕ) : Prop := x.toInt = n

variable {x y : Int64} {n m : ℕ}

theorem stands_iff_toNat : Stands x n ↔ x.toBitVec.toNat = n ∧ n < 2 ^ 63 := by
  rw [Stands, ← Int64.toInt_toBitVec, BitVec.toInt_eq_toNat_cond]
  have hword := x.toBitVec.isLt
  split_ifs <;> omega

theorem stands_toNat (hx : 0 ≤ x.toInt) : Stands x x.toInt.toNat := (Int.toNat_of_nonneg hx).symm

namespace Stands

theorem lt (hx : Stands x n) : n < 2 ^ 63 := (stands_iff_toNat.mp hx).2

theorem eq_iff (hx : Stands x n) (hy : Stands y m) : x = y ↔ n = m := by
  rw [← Int64.toInt_inj, hx, hy, Nat.cast_inj]

theorem or (hx : Stands x n) (hy : Stands y m) : Stands (x ||| y) (n ||| m) := by
  rw [stands_iff_toNat] at hx hy ⊢
  rw [Int64.toBitVec_or, BitVec.toNat_or, hx.1, hy.1]
  exact ⟨rfl, Nat.or_lt_two_pow hx.2 hy.2⟩

theorem and (hx : Stands x n) (hy : Stands y m) : Stands (x &&& y) (n &&& m) := by
  rw [stands_iff_toNat] at hx hy ⊢
  rw [Int64.toBitVec_and, BitVec.toNat_and, hx.1, hy.1]
  exact ⟨rfl, lt_of_le_of_lt Nat.and_le_left hx.2⟩

/-- The arithmetic shift by a constant. -/
theorem shiftRight (hx : Stands x n) {count : ℕ}
    (hshift : y.toBitVec = x.toBitVec.sshiftRight count) : Stands y (n >>> count) := by
  rw [stands_iff_toNat] at hx ⊢
  have hsign : x.toBitVec.msb = false :=
    BitVec.msb_eq_false_iff_two_mul_lt.mpr (by rw [hx.1]; omega)
  rw [hshift, BitVec.sshiftRight_eq_of_msb_false hsign, BitVec.toNat_ushiftRight, hx.1]
  exact ⟨rfl, lt_of_le_of_lt (Nat.shiftRight_le n count) hx.2⟩

theorem sub_one (hx : Stands x n) (hpos : 0 < n) : Stands (x - 1) (n - 1) := by
  have hlt := hx.lt
  rw [Stands] at hx ⊢
  rw [Int64.toInt_sub, hx, show (1 : Int64).toInt = 1 from rfl,
    Int.bmod_eq_of_le (by omega) (by omega)]
  omega

theorem add_one (hx : Stands x n) (hlt : n + 1 < 2 ^ 63) : Stands (x + 1) (n + 1) := by
  rw [Stands] at hx ⊢
  rw [Int64.toInt_add, hx, show (1 : Int64).toInt = 1 from rfl,
    Int.bmod_eq_of_le (by omega) (by omega)]
  omega

/-- The sum wraps around behind the largest value. -/
theorem add_one_of_eq (hx : Stands x n) (heq : n + 1 = 2 ^ 63) :
    (x + 1).toInt = -2 ^ 63 := by
  rw [Stands] at hx
  rw [Int64.toInt_add, hx, show (1 : Int64).toInt = 1 from rfl,
    show (n : ℤ) = 2 ^ 63 - 1 by omega]
  decide

end Stands

end Xmqtt.Go
