import LiveFilter.Proofs.Numeric.Nearest
import Mathlib.Data.Rat.Floor

/-! # Exact results

An exact value that is a number of the format is the result itself. Integers with few enough bits
are such values, and those of any size are found again from a number that is near to them.
-/

namespace LiveFilter.Binary64

attribute [local instance (high)] instPowNat

variable {num den : Nat} {exponent : Int} {q : ℚ}

def IsValue (q : ℚ) : Prop := ∃ x : Finite, x.value = q

def HasValue (a : Binary64) (q : ℚ) : Prop := ∃ x, a = finite x ∧ x.value = q

section Exact

variable {a b : Binary64} {m n : Nat}

theorem Rounds.exact (h : a.Rounds q) (hq : IsValue q) : a.HasValue q := by
  obtain ⟨x, rfl, hx⟩ := h
  exact ⟨x, rfl, hx.eq hq⟩

theorem natCast_lt_two_pow {n : Nat} (h : n < 2 ^ 64) : |(n : ℚ)| < 2 ^ 1023 := by
  have hn : (n : ℚ) < 2 ^ 64 := by exact_mod_cast h
  rw [abs_of_nonneg (Nat.cast_nonneg n)]
  exact hn.trans (pow_lt_pow_right₀ one_lt_two (by decide))

theorem HasValue.add (ha : a.HasValue m) (hb : b.HasValue n) (hsum : IsValue ((m + n : Nat) : ℚ))
    (h : m + n < 2 ^ 64) : (a.add b).HasValue ((m + n : Nat) : ℚ) := by
  obtain ⟨x, rfl, hx⟩ := ha
  obtain ⟨y, rfl, hy⟩ := hb
  have hvalue : x.value + y.value = ((m + n : Nat) : ℚ) := by rw [hx, hy, Nat.cast_add]
  have hrounds := add_rounds (hvalue ▸ natCast_lt_two_pow h)
  exact (hvalue ▸ hrounds).exact hsum

theorem HasValue.mul (ha : a.HasValue m) (hb : b.HasValue n)
    (hproduct : IsValue ((m * n : Nat) : ℚ)) (h : m * n < 2 ^ 64) :
    (a.mul b).HasValue ((m * n : Nat) : ℚ) := by
  obtain ⟨x, rfl, hx⟩ := ha
  obtain ⟨y, rfl, hy⟩ := hb
  have hvalue : x.value * y.value = ((m * n : Nat) : ℚ) := by rw [hx, hy, Nat.cast_mul]
  have hrounds := mul_rounds (hvalue ▸ natCast_lt_two_pow h)
  exact (hvalue ▸ hrounds).exact hproduct

theorem zero_hasValue (negative : Bool) : (zero negative).HasValue (0 : Nat) :=
  ⟨.zero negative, rfl, (Finite.value_zero negative).trans Nat.cast_zero.symm⟩

theorem IsValue.neg (h : IsValue q) : IsValue (-q) := by
  obtain ⟨x, rfl⟩ := h
  refine ⟨x.neg, ?_⟩
  unfold Finite.value Finite.neg Finite.magnitude
  cases x.negative <;> simp

end Exact

/-- Mantissas that are shorter than those of the format stand for longer ones. -/
theorem isValue_of_mantissa {mantissa : Nat} (hmantissa : mantissa < 2 ^ 53)
    (hleast : -1074 ≤ exponent) (hgreatest : exponent ≤ 971) :
    IsValue (mantissa * 2 ^ exponent) := by
  obtain ⟨steps, hsteps⟩ := Int.eq_ofNat_of_zero_le (show 0 ≤ exponent + 1074 by omega)
  induction steps generalizing mantissa exponent with
  | zero =>
      have hexponent : exponent = -1074 := by omega
      exact ⟨⟨false, mantissa, exponent, hmantissa, hleast, hgreatest, .inr hexponent⟩, rfl⟩
  | succ steps ih =>
      by_cases hlong : 2 ^ 52 ≤ mantissa
      · exact ⟨⟨false, mantissa, exponent, hmantissa, hleast, hgreatest, .inl hlong⟩, rfl⟩
      · have hdouble :
            ((2 * mantissa : Nat) : ℚ) * 2 ^ (exponent - 1) = mantissa * 2 ^ exponent := by
          rw [zpow_sub_one₀ two_ne_zero]
          push_cast
          ring
        rw [← hdouble]
        exact ih (by omega) (by omega) (by omega) (by push_cast at hsteps; omega)

theorem isValue_natCast {n : Nat} (h : n ≤ 2 ^ 53) : IsValue n := by
  obtain hlt | rfl := Nat.lt_or_eq_of_le h
  · have hvalue : IsValue (n * 2 ^ (0 : Int)) := isValue_of_mantissa hlt (by decide) (by decide)
    rwa [zpow_zero, mul_one] at hvalue
  · have hvalue : IsValue ((1 : Nat) * 2 ^ (53 : Int)) :=
      isValue_of_mantissa (by decide) (by decide) (by decide)
    exact_mod_cast hvalue

theorem isValue_mul_two_pow {n : Nat} (shift : Nat) (hn : n < 2 ^ 53) (hshift : shift ≤ 971) :
    IsValue ((n * 2 ^ shift : Nat) : ℚ) := by
  have hvalue : IsValue (n * 2 ^ (shift : Int)) := isValue_of_mantissa hn (by omega) (by omega)
  rw [zpow_natCast] at hvalue
  exact_mod_cast hvalue

theorem ofInt_hasValue_of_isValue {n : Int} (h : n.natAbs < 2 ^ 64) (hn : IsValue n) :
    (ofInt n).HasValue n := by
  have hsmall := natCast_lt_two_pow h
  rw [Nat.cast_natAbs, Int.cast_abs, abs_abs] at hsmall
  exact (ofInt_rounds hsmall).exact hn

theorem ofInt_hasValue {n : Nat} (h : n ≤ 2 ^ 53) : (ofInt n).HasValue n := by
  have hsmall : (n : Int).natAbs < 2 ^ 64 := by omega
  exact_mod_cast ofInt_hasValue_of_isValue hsmall (by exact_mod_cast isValue_natCast h)

/-- Below `2 ^ (53 + exponent)` the numbers lie no farther apart than `2 ^ exponent`. -/
theorem Finite.IsNearest.error_le {x : Finite} (h : x.IsNearest q) (hq : 0 ≤ q)
    (hleast : -1074 ≤ exponent) (hgreatest : exponent ≤ 971) (hupper : q < 2 ^ 53 * 2 ^ exponent) :
    |x.value - q| ≤ 2 ^ exponent := by
  have hpos : (0 : ℚ) < 2 ^ exponent := zpow_pos two_pos exponent
  have hnonneg : 0 ≤ q / 2 ^ exponent := div_nonneg hq hpos.le
  have hfloor := Nat.floor_le hnonneg
  have hnext := Nat.lt_floor_add_one (q / 2 ^ exponent)
  have hmantissa : ⌊q / 2 ^ exponent⌋₊ < 2 ^ 53 := by
    rw [Nat.floor_lt hnonneg, div_lt_iff₀ hpos]
    exact_mod_cast hupper
  obtain ⟨y, hy⟩ := isValue_of_mantissa hmantissa hleast hgreatest
  rw [le_div_iff₀ hpos] at hfloor
  rw [div_lt_iff₀ hpos, add_one_mul] at hnext
  refine (h y).trans ?_
  rw [hy, abs_le]
  constructor <;> linarith

theorem roundHalfUp_error (num : Nat) (hden : 0 < den) :
    |(roundHalfUp num den : ℚ) - num / den| ≤ 1 / 2 := by
  have hden' : (0 : ℚ) < den := Nat.cast_pos.2 hden
  have hlower : (roundHalfUp num den : ℚ) * (2 * den) ≤ 2 * num + den := by
    exact_mod_cast Nat.div_mul_le_self (2 * num + den) (2 * den)
  have hupper : 2 * (num : ℚ) + den < (roundHalfUp num den + 1) * (2 * den) := by
    exact_mod_cast Nat.lt_mul_of_div_lt (Nat.lt_succ_self _) (by omega : 0 < 2 * den)
  have hnum : (num / den : ℚ) * den = num := div_mul_cancel₀ _ hden'.ne'
  rw [abs_le]
  constructor
  · refine le_of_mul_le_mul_right ?_ hden'
    rw [sub_mul, hnum]
    linarith
  · refine le_of_mul_le_mul_right ?_ hden'
    rw [sub_mul, hnum]
    linarith

namespace Finite

variable {x : Finite} {n : Int}

theorem round_error (x : Finite) : |(x.round : ℚ) - x.value| ≤ 1 / 2 := by
  have herror := roundHalfUp_error x.ratio.1 x.ratio_pos
  rw [ratio_eq] at herror
  unfold round value
  split
  · push_cast
    rwa [← neg_sub', abs_neg]
  · exact_mod_cast herror

theorem round_eq_of_lt (h : |x.value - n| < 1 / 2) : x.round = n := by
  have htriangle := abs_sub_le (x.round : ℚ) x.value n
  have hone : |((x.round - n : Int) : ℚ)| < 1 := by
    push_cast
    linarith [x.round_error]
  exact sub_eq_zero.1 (Int.abs_lt_one_iff.1 (by exact_mod_cast hone))

/-- Numbers that large have no fractional part. -/
theorem value_eq_round (h : 2 ^ 53 ≤ x.round.natAbs) : x.value = x.round := by
  obtain ⟨hmantissa, -, -, -⟩ := x.canonical
  have hround : (2 : ℚ) ^ 53 ≤ |(x.round : ℚ)| := by
    have hcast : (2 : ℚ) ^ 53 ≤ (x.round.natAbs : ℚ) := by exact_mod_cast h
    rwa [Nat.cast_natAbs, Int.cast_abs] at hcast
  -- with a negative exponent the magnitude would stay below `2 ^ 52`
  have hexponent : 0 ≤ x.exponent := by
    by_contra hneg
    have hmagnitude : x.magnitude ≤ 2 ^ 53 * 2 ^ (-1 : Int) :=
      mul_le_mul (by exact_mod_cast hmantissa.le) (zpow_le_zpow_right₀ one_le_two (by omega))
        (zpow_nonneg zero_le_two _) (by positivity)
    have htriangle := abs_sub_abs_le_abs_sub (x.round : ℚ) x.value
    rw [abs_value] at htriangle
    have herror := x.round_error
    norm_num at hmagnitude hround
    linarith
  obtain ⟨k, hk⟩ := Int.eq_ofNat_of_zero_le hexponent
  have hwhole : ∃ m : Int, x.value = m := by
    have hmagnitude : x.magnitude = ((x.mantissa * 2 ^ k : Nat) : ℚ) := by
      rw [magnitude, hk, zpow_natCast]
      push_cast
      rfl
    unfold value
    split
    · exact ⟨-(x.mantissa * 2 ^ k : Nat), by rw [hmagnitude]; push_cast; rfl⟩
    · exact ⟨(x.mantissa * 2 ^ k : Nat), by rw [hmagnitude]; push_cast; rfl⟩
  obtain ⟨m, hm⟩ := hwhole
  rw [hm, round_eq_of_lt (n := m) (by rw [hm, sub_self, abs_zero]; norm_num)]

end Finite

end LiveFilter.Binary64
