import Mathlib.Algebra.Group.Nat.Defs
import Mathlib.Data.Nat.Size
import Mathlib.Order.Bounds.Defs
import Mathlib.Tactic.Common

/-!
# Rounding up to a power of two

A number that is or'ed with itself, shifted right by 1, 2, 4 and so on, ends up with all the bits below its
highest one set. One more is a power of two.
-/

namespace Lib

/-- Each bit tells whether one of the next `n` bits of `x` is set. -/
def Smeared (x n y : Nat) : Prop := ∀ i, y.testBit i = true ↔ ∃ j, i ≤ j ∧ j < i + n ∧ x.testBit j = true

theorem Smeared.start (x : Nat) : Smeared x 1 x := by
  intro i
  constructor
  · exact fun hi => ⟨i, Nat.le_refl _, Nat.lt_succ_self _, hi⟩
  · rintro ⟨j, h1, h2, hj⟩
    obtain rfl : i = j := by omega
    exact hj

theorem Smeared.step {x n m y : Nat} (h : Smeared x n y) (hm : m = n + n) :
    Smeared x m (y ||| y >>> n) := by
  intro i
  rw [Nat.testBit_or, Nat.testBit_shiftRight, Bool.or_eq_true, h i, h (n + i)]
  constructor
  · rintro (⟨j, h1, h2, hj⟩ | ⟨j, h1, h2, hj⟩)
    · exact ⟨j, h1, by omega, hj⟩
    · exact ⟨j, by omega, by omega, hj⟩
  · rintro ⟨j, h1, h2, hj⟩
    by_cases hlow : j < i + n
    · exact .inl ⟨j, h1, hlow, hj⟩
    · exact .inr ⟨j, by omega, by omega, hj⟩

theorem Smeared.eq {x n y : Nat} (h : Smeared x n y) (hx : x < 2 ^ n) : y = 2 ^ x.size - 1 := by
  refine Nat.eq_of_testBit_eq fun i => ?_
  rw [Nat.testBit_two_pow_sub_one, Bool.eq_iff_iff, h i, decide_eq_true_iff, Nat.lt_size]
  constructor
  · rintro ⟨j, hij, -, hj⟩
    exact Nat.le_trans (Nat.pow_le_pow_right (by decide) hij) (Nat.ge_two_pow_of_testBit hj)
  · intro hle
    obtain ⟨j, hij, hj⟩ := Nat.exists_ge_and_testBit_of_ge_two_pow hle
    have hjn : j < n := by
      by_contra hnot
      have := Nat.ge_two_pow_of_testBit hj
      have := Nat.pow_le_pow_right (show 0 < 2 by decide) (Nat.le_of_not_lt hnot)
      omega
    exact ⟨j, hij, by omega, hj⟩

/-- The powers of two that are as large as `n`. -/
def PowersFrom (n : Nat) : Set Nat := {p | n ≤ p ∧ ∃ k, p = 2 ^ k}

/-- The least of them has as many bits below it as the number before `n` has. -/
theorem isLeast_powersFrom {n : Nat} (h : 1 ≤ n) : IsLeast (PowersFrom n) (2 ^ (n - 1).size) := by
  refine ⟨⟨?_, _, rfl⟩, ?_⟩
  · have := Nat.lt_size_self (n - 1)
    omega
  · rintro p ⟨hp, k, rfl⟩
    exact Nat.pow_le_pow_right (by decide) (Nat.size_le.2 (by omega))

end Lib
