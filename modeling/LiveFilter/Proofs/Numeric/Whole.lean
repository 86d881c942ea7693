import LiveFilter.Entity.Value
import LiveFilter.Proofs.Numeric.Exact

/-! # Whole numbers

Numbers are ordered as the rationals they stand for. A whole number is equal to its integer part,
and the integer of 64 bits nearest to it is read as the same number again unless the number is
beyond `2 ^ 63` in size: the greatest of these integers is rounded to `2 ^ 63` itself.
-/

namespace LiveFilter.Binary64

attribute [local instance (high)] instPowNat

variable {a : Binary64} {q : ℚ} {x y : Finite} {n : Int}

namespace Finite

theorem compare_eq_eq : x.compare y = .eq ↔ x.value = y.value := by
  have hpos : (0 : ℚ) < 2 ^ min x.exponent y.exponent := zpow_pos two_pos _
  rw [compare, Int.compare_eq_eq, ← units_mul (min_le_left x.exponent y.exponent),
    ← units_mul (min_le_right x.exponent y.exponent), mul_left_inj' hpos.ne', Int.cast_inj]

theorem value_eq_truncate (h : x.isWhole = true) : x.value = x.truncate := by
  have hrest : x.ratio.1 % x.ratio.2 = 0 := beq_iff_eq.1 h
  have hmagnitude : x.magnitude = (x.ratio.1 / x.ratio.2 : Nat) := by
    rw [← ratio_eq, div_eq_quotient_add x.ratio_pos, hrest, Nat.cast_zero, zero_div, add_zero]
  unfold value truncate
  split
  · rw [hmagnitude]
    push_cast
    rfl
  · rw [hmagnitude]
    push_cast
    rfl

end Finite

theorem HasValue.compare_finite (ha : a.HasValue q) (x : Finite) :
    ∃ o, a.compare (finite x) = some o ∧ (o = .eq ↔ q = x.value) := by
  obtain ⟨y, rfl, rfl⟩ := ha
  exact ⟨y.compare x, rfl, Finite.compare_eq_eq⟩

/-- The greatest integer of 64 bits has more bits than a mantissa, and is rounded up. -/
theorem ofInt_greatest : (ofInt (2 ^ (63 : Nat) - 1)).HasValue (2 ^ 63 : Int) := by
  refine ⟨⟨false, 2 ^ (52 : Nat), 11, by decide⟩, by decide +kernel, ?_⟩
  norm_num [Finite.value, Finite.magnitude]

theorem ofInt_least : (ofInt (-2 ^ (63 : Nat))).HasValue (-2 ^ 63 : Int) := by
  refine ⟨⟨true, 2 ^ (52 : Nat), 11, by decide⟩, by decide +kernel, ?_⟩
  norm_num [Finite.value, Finite.magnitude]

/-- To be cut off at 64 bits and then read as a real is to be cut off at `2 ^ 63` on either side. -/
theorem ofInt_saturate (hn : IsValue n) :
    (ofInt (saturate n).toInt).HasValue (max (-2 ^ 63) (min n (2 ^ 63)) : Int) := by
  rw [toInt_saturate]
  by_cases hupper : 2 ^ 63 ≤ n
  · rw [show max (-2 ^ 63) (min n (2 ^ 63 - 1)) = 2 ^ 63 - 1 by omega,
      show max (-2 ^ 63) (min n (2 ^ 63)) = 2 ^ 63 by omega]
    exact ofInt_greatest
  by_cases hlower : n < -2 ^ 63
  · rw [show max (-2 ^ 63) (min n (2 ^ 63 - 1)) = -2 ^ 63 by omega,
      show max (-2 ^ 63) (min n (2 ^ 63)) = -2 ^ 63 by omega]
    exact ofInt_least
  · rw [show max (-2 ^ 63) (min n (2 ^ 63 - 1)) = n by omega,
      show max (-2 ^ 63) (min n (2 ^ 63)) = n by omega]
    exact ofInt_hasValue_of_isValue (by omega) hn

end LiveFilter.Binary64
