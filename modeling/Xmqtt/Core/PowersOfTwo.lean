import Mathlib

/-!
# Powers of two by their bits

A number that is or-ed with itself, shifted to the right, has its bits spread downwards.
Once every bit has spread over the length of the number, all bits from the highest one
down are set, and the number is one less than a power of two.
-/

namespace Xmqtt.Core

variable {n m width i : ℕ}

/-- The bits of `n`, each one spread over `width` places from its own place down. -/
def Spread (n width m : ℕ) : Prop :=
  ∀ i, m.testBit i = true ↔ ∃ d < width, n.testBit (i + d) = true

namespace Spread

theorem self (n : ℕ) : Spread n 1 n := by
  intro i
  constructor
  · intro hbit
    exact ⟨0, Nat.one_pos, hbit⟩
  · intro ⟨d, hd, hbit⟩
    rwa [Nat.lt_one_iff.mp hd] at hbit

/-- What is spread over `width` places and shifted by as many covers the next ones. -/
theorem double (hspread : Spread n width m) : Spread n (2 * width) (m ||| m >>> width) := by
  intro i
  rw [Nat.testBit_or, Nat.testBit_shiftRight, Bool.or_eq_true, hspread i, hspread (width + i)]
  constructor
  · intro hbit
    cases hbit with
    | inl hnear =>
        obtain ⟨d, hd, hbit⟩ := hnear
        exact ⟨d, by omega, hbit⟩
    | inr hfar =>
        obtain ⟨d, hd, hbit⟩ := hfar
        exact ⟨width + d, by omega, by rwa [← add_assoc, add_comm i]⟩
  · intro ⟨d, hd, hbit⟩
    by_cases hnear : d < width
    · exact Or.inl ⟨d, hnear, hbit⟩
    · refine Or.inr ⟨d - width, by omega, ?_⟩
      rwa [show width + i + (d - width) = i + d by omega]

end Spread

/-- A number has a bit at or above a place exactly if it is long enough. -/
theorem exists_testBit_iff_lt_size : (∃ d, n.testBit (i + d) = true) ↔ i < n.size := by
  constructor
  · intro ⟨d, hbit⟩
    exact lt_of_le_of_lt (Nat.le_add_right i d) (Nat.lt_size.mpr (Nat.ge_two_pow_of_testBit hbit))
  · intro hlt
    obtain ⟨j, hj, hbit⟩ := Nat.exists_ge_and_testBit_of_ge_two_pow (Nat.lt_size.mp hlt)
    exact ⟨j - i, by rwa [Nat.add_sub_cancel' hj]⟩

theorem Spread.eq_two_pow_sub_one (hspread : Spread n width m) (hlt : n < 2 ^ width) :
    m = 2 ^ n.size - 1 := by
  apply Nat.eq_of_testBit_eq
  intro i
  rw [Bool.eq_iff_iff, hspread i, Nat.testBit_two_pow_sub_one, decide_eq_true_eq,
    ← exists_testBit_iff_lt_size]
  constructor
  · intro ⟨d, _, hbit⟩
    exact ⟨d, hbit⟩
  · intro ⟨d, hbit⟩
    refine ⟨d, ?_, hbit⟩
    -- A bit further up would make the number too long.
    have hlength : i + d < width :=
      (Nat.pow_lt_pow_iff_right Nat.one_lt_two).mp
        (lt_of_le_of_lt (Nat.ge_two_pow_of_testBit hbit) hlt)
    omega

/-- The power of two behind the bits of `n - 1` is the least one that is not below `n`. -/
theorem isLeast_two_pow_size (hpos : 0 < n) :
    IsLeast {p : ℕ | p.isPowerOfTwo ∧ n ≤ p} (2 ^ (n - 1).size) := by
  constructor
  · have hlt := Nat.lt_size_self (n - 1)
    exact ⟨⟨_, rfl⟩, by omega⟩
  · rintro p ⟨⟨k, rfl⟩, hle⟩
    exact Nat.pow_le_pow_right Nat.two_pos (Nat.size_le.mpr (by omega))

/-- A power of two is the least one that is not below it. -/
theorem isPowerOfTwo_iff_two_pow_size (hpos : 0 < n) :
    n.isPowerOfTwo ↔ 2 ^ (n - 1).size = n := by
  have hleast := isLeast_two_pow_size hpos
  constructor
  · intro hpower
    exact le_antisymm (hleast.2 ⟨hpower, le_rfl⟩) hleast.1.2
  · intro heq
    exact ⟨_, heq.symm⟩

theorem size_sub_one_le (hle : n ≤ 2 ^ width) : (n - 1).size ≤ width :=
  Nat.size_le.mpr (by have := Nat.two_pow_pos width; omega)

end Xmqtt.Core
