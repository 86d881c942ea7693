import LiveFilter.Numeric.Decimal
import Mathlib.Algebra.Order.Field.Power
import Mathlib.Data.Rat.Cast.Order
import Mathlib.Tactic.FieldSimp
import Mathlib.Tactic.Linarith
import Mathlib.Tactic.Positivity
import Mathlib.Tactic.Ring

/-! # Results are the nearest numbers

The sum and the product of two numbers are rounded from their exact values, and so is a decimal: no
number of the format is nearer to the exact value than the result. Overflow is left out.
-/

namespace LiveFilter.Binary64

attribute [local instance (high)] instPowNat

variable {num den : Nat} {exponent : Int} {negative : Bool} {q : ℚ}

theorem div_eq_quotient_add (hden : 0 < den) :
    (num / den : ℚ) = (num / den : Nat) + (num % den : Nat) / (den : ℚ) := by
  have hden' : (den : ℚ) ≠ 0 := Nat.cast_ne_zero.2 hden.ne'
  have hnum : ((den * (num / den) + num % den : Nat) : ℚ) = num := by rw [Nat.div_add_mod]
  push_cast at hnum
  rw [← hnum]
  field_simp

theorem roundHalfEven_error (num : Nat) (hden : 0 < den) :
    |(roundHalfEven num den : ℚ) - num / den| ≤ 1 / 2 := by
  have hden' : (0 : ℚ) < den := Nat.cast_pos.2 hden
  have hrest : (num % den : Nat) / (den : ℚ) < 1 := by
    rw [div_lt_one hden']
    exact Nat.cast_lt.2 (Nat.mod_lt num hden)
  have hnonneg : 0 ≤ (num % den : Nat) / (den : ℚ) := by positivity
  rw [div_eq_quotient_add hden, abs_le]
  unfold roundHalfEven
  dsimp only
  split
  · rename_i hbelow
    have hhalf : (num % den : Nat) / (den : ℚ) < 1 / 2 := by
      rw [div_lt_div_iff₀ hden' two_pos]
      exact_mod_cast (by omega : num % den * 2 < 1 * den)
    constructor <;> linarith
  split
  · rename_i habove
    have hhalf : 1 / 2 < (num % den : Nat) / (den : ℚ) := by
      rw [div_lt_div_iff₀ two_pos hden']
      exact_mod_cast (by omega : 1 * den < num % den * 2)
    push_cast
    constructor <;> linarith
  · have hhalf : (num % den : Nat) / (den : ℚ) = 1 / 2 := by
      rw [div_eq_div_iff hden'.ne' two_ne_zero]
      exact_mod_cast (by omega : num % den * 2 = 1 * den)
    have hparity : ((num / den % 2 : Nat) : ℚ) ≤ 1 := by
      exact_mod_cast Nat.le_of_lt_succ (Nat.mod_lt (num / den) two_pos)
    have hparity' : (0 : ℚ) ≤ (num / den % 2 : Nat) := Nat.cast_nonneg _
    rw [Nat.cast_add]
    constructor <;> linarith

theorem abs_sub_le_of_le_half {m : Int} (h : |(m : ℚ) - q| ≤ 1 / 2) (k : Int) :
    |(m : ℚ) - q| ≤ |(k : ℚ) - q| := by
  by_cases hk : k = m
  · rw [hk]
  · have hone : (1 : ℚ) ≤ |(k : ℚ) - m| := by
      exact_mod_cast Int.one_le_abs (sub_ne_zero.2 hk)
    have htriangle : |(k : ℚ) - m| ≤ |(k : ℚ) - q| + |(m : ℚ) - q| := by
      rw [abs_sub_comm (m : ℚ) q]
      exact abs_sub_le _ _ _
    linarith

theorem zpow_eq_div {base : ℚ} (hbase : base ≠ 0) (exponent : Int) :
    base ^ exponent = base ^ exponent.toNat / base ^ (-exponent).toNat := by
  have hexponent : (exponent.toNat : Int) - ((-exponent).toNat : Int) = exponent :=
    Int.toNat_sub_toNat_neg exponent
  conv_lhs => rw [← hexponent]
  rw [zpow_sub₀ hbase, zpow_natCast, zpow_natCast]

theorem unscale_eq :
    ((unscale num den exponent).1 : ℚ) / (unscale num den exponent).2 =
      num / den / 2 ^ exponent := by
  rw [zpow_eq_div two_ne_zero, unscale]
  push_cast
  field_simp

theorem unscale_pos (num : Nat) (exponent : Int) (hden : 0 < den) :
    0 < (unscale num den exponent).2 :=
  Nat.mul_pos hden (Nat.two_pow_pos _)

theorem two_pow_mul_zpow (n : Nat) (exponent : Int) :
    (2 : ℚ) ^ n * 2 ^ exponent = 2 ^ ((n : Int) + exponent) := by
  rw [zpow_add₀ two_ne_zero, zpow_natCast]

theorem le_unscale_iff (hden : 0 < den) (n : Nat) :
    n * (unscale num den exponent).2 ≤ (unscale num den exponent).1 ↔
      (n : ℚ) * 2 ^ exponent ≤ num / den := by
  have hpos : (0 : ℚ) < (unscale num den exponent).2 :=
    Nat.cast_pos.2 (unscale_pos num exponent hden)
  rw [← le_div_iff₀ (zpow_pos two_pos exponent), ← unscale_eq, le_div_iff₀ hpos]
  exact_mod_cast Iff.rfl

theorem log2_bounds (hnum : num ≠ 0) (hden : den ≠ 0) :
    (2 : ℚ) ^ ((num.log2 : Int) - den.log2 - 1) ≤ num / den ∧
      (num / den : ℚ) < 2 ^ ((num.log2 : Int) - den.log2 + 1) := by
  have hden' : (0 : ℚ) < den := Nat.cast_pos.2 (Nat.pos_of_ne_zero hden)
  have hnumLower : (2 : ℚ) ^ num.log2 ≤ num := by exact_mod_cast Nat.log2_self_le hnum
  have hnumUpper : (num : ℚ) < 2 ^ (num.log2 + 1) := by exact_mod_cast Nat.lt_log2_self
  have hdenLower : (2 : ℚ) ^ den.log2 ≤ den := by exact_mod_cast Nat.log2_self_le hden
  have hdenUpper : (den : ℚ) < 2 ^ (den.log2 + 1) := by exact_mod_cast Nat.lt_log2_self
  constructor
  · have hexponent : (num.log2 : Int) - den.log2 - 1 = num.log2 - ((den.log2 + 1 : Nat) : Int) := by
      push_cast
      ring
    rw [hexponent, zpow_sub₀ two_ne_zero, zpow_natCast, zpow_natCast]
    exact div_le_div₀ (Nat.cast_nonneg _) hnumLower hden' hdenUpper.le
  · have hexponent : (num.log2 : Int) - den.log2 + 1 = ((num.log2 + 1 : Nat) : Int) - den.log2 := by
      push_cast
      ring
    rw [hexponent, zpow_sub₀ two_ne_zero, zpow_natCast, zpow_natCast]
    exact div_lt_div₀ hnumUpper hdenLower (by positivity) (by positivity)

/-- The exponent leaves 53 bits before the point, or fewer if it is the least one. -/
theorem exponentFor_spec (hnum : num ≠ 0) (hden : den ≠ 0) :
    -1074 ≤ exponentFor num den ∧ (num / den : ℚ) < 2 ^ 53 * 2 ^ exponentFor num den ∧
      (2 ^ 52 * 2 ^ exponentFor num den ≤ (num / den : ℚ) ∨ exponentFor num den = -1074) := by
  obtain ⟨hlower, hupper⟩ := log2_bounds hnum hden
  set estimate : Int := max ((num.log2 : Int) - den.log2 - 53) (-1074) with hestimate
  have hcarry : 2 ^ (53 : Nat) * (unscale num den estimate).2 ≤ (unscale num den estimate).1 ↔
      (2 : ℚ) ^ 53 * 2 ^ estimate ≤ num / den := by
    rw [le_unscale_iff (Nat.pos_of_ne_zero hden)]
    norm_cast
  have heq : exponentFor num den =
      if (2 : ℚ) ^ 53 * 2 ^ estimate ≤ num / den then estimate + 1 else estimate := by
    unfold exponentFor
    simp only [← hestimate, hcarry]
  rw [heq]
  -- the logarithms leave the exponent open by one, and a carry means that the estimate was exact
  split
  · rename_i hle
    have hlt : (2 : ℚ) ^ (53 + estimate) < 2 ^ ((num.log2 : Int) - den.log2 + 1) := by
      refine lt_of_le_of_lt (le_of_eq_of_le ?_ hle) hupper
      exact (two_pow_mul_zpow 53 estimate).symm
    have hlog := (zpow_lt_zpow_iff_right₀ (one_lt_two (α := ℚ))).1 hlt
    have htop : (num.log2 : Int) - den.log2 + 1 = (53 : Nat) + (estimate + 1) := by omega
    have hbottom : (2 : ℚ) ^ 52 * 2 ^ (estimate + 1) = 2 ^ 53 * 2 ^ estimate := by
      rw [zpow_add_one₀ two_ne_zero]
      ring
    refine ⟨by omega, ?_, .inl (hbottom.trans_le hle)⟩
    rwa [two_pow_mul_zpow, ← htop]
  · rename_i hlt
    refine ⟨by omega, not_le.1 hlt, ?_⟩
    by_cases hleast : estimate = -1074
    · exact .inr hleast
    · have hbottom : (num.log2 : Int) - den.log2 - 1 = (52 : Nat) + estimate := by omega
      rw [two_pow_mul_zpow, ← hbottom]
      exact .inl hlower

namespace Finite

def magnitude (x : Finite) : ℚ := x.mantissa * 2 ^ x.exponent

def value (x : Finite) : ℚ := if x.negative then -x.magnitude else x.magnitude

def IsNearest (x : Finite) (q : ℚ) : Prop := ∀ y : Finite, |x.value - q| ≤ |y.value - q|

variable {x y : Finite}

theorem magnitude_nonneg (x : Finite) : 0 ≤ x.magnitude :=
  mul_nonneg (Nat.cast_nonneg _) (zpow_nonneg zero_le_two _)

theorem abs_value (x : Finite) : |x.value| = x.magnitude := by
  unfold value
  split
  · rw [abs_neg, abs_of_nonneg x.magnitude_nonneg]
  · rw [abs_of_nonneg x.magnitude_nonneg]

theorem value_zero (negative : Bool) : (zero negative).value = 0 := by
  cases negative <;> simp [value, magnitude, zero]

theorem ratio_eq (x : Finite) : (x.ratio.1 : ℚ) / x.ratio.2 = x.magnitude := by
  rw [magnitude, zpow_eq_div two_ne_zero, ratio]
  push_cast
  rw [mul_div_assoc]

theorem ratio_pos (x : Finite) : 0 < x.ratio.2 := Nat.two_pow_pos _

theorem units_mul (h : exponent ≤ x.exponent) :
    (x.units exponent : ℚ) * 2 ^ exponent = x.value := by
  have hshift : ((x.exponent - exponent).toNat : Int) + exponent = x.exponent := by omega
  have hmagnitude : ((x.mantissa * 2 ^ (x.exponent - exponent).toNat : Nat) : ℚ) * 2 ^ exponent =
      x.magnitude := by
    push_cast
    rw [mul_assoc, two_pow_mul_zpow, hshift, magnitude]
  unfold units value
  split
  · rw [← hmagnitude]
    push_cast
    ring
  · rw [← hmagnitude]
    push_cast
    ring

theorem IsNearest.eq (h : x.IsNearest q) (hq : ∃ y : Finite, y.value = q) : x.value = q := by
  obtain ⟨y, rfl⟩ := hq
  have hle := h y
  rw [sub_self, abs_zero] at hle
  exact sub_eq_zero.1 (abs_eq_zero.1 (le_antisymm hle (abs_nonneg _)))

/-- A number near to `q` bounds the distance from the nearest one. -/
theorem IsNearest.dist_le (h : x.IsNearest q) (y : Finite) :
    |x.value - y.value| ≤ 2 * |y.value - q| := by
  have htriangle := abs_sub_le x.value q y.value
  rw [abs_sub_comm q y.value] at htriangle
  have hnearest := h y
  linarith

theorem isNearest_of_magnitude (hq : 0 ≤ q)
    (h : ∀ y : Finite, |x.magnitude - q| ≤ |y.magnitude - q|) :
    x.IsNearest (if x.negative then -q else q) := by
  intro y
  have hx : |x.value - (if x.negative then -q else q)| = |x.magnitude - q| := by
    unfold value
    split
    · rw [← neg_sub', abs_neg]
    · rfl
  have hy : |y.magnitude - q| ≤ |y.value - (if x.negative then -q else q)| := by
    have habs : |if x.negative then -q else q| = q := by
      split
      · rw [abs_neg, abs_of_nonneg hq]
      · exact abs_of_nonneg hq
    have hle := abs_abs_sub_abs_le y.value (if x.negative then -q else q)
    rwa [abs_value, habs] at hle
  exact hx.trans_le ((h y).trans hy)

end Finite

section Grid

variable {m : Nat} (hm : |(m : ℚ) - q / 2 ^ exponent| ≤ 1 / 2)
include hm

theorem dist_multiple_le (k : Nat) : |m * 2 ^ exponent - q| ≤ |k * 2 ^ exponent - q| := by
  have hpos : (0 : ℚ) < 2 ^ exponent := zpow_pos two_pos exponent
  have hscale : ∀ n : Nat,
      |n * 2 ^ exponent - q| = |(n : ℚ) - q / 2 ^ exponent| * 2 ^ exponent := by
    intro n
    rw [← abs_of_pos hpos, ← abs_mul, abs_of_pos hpos, sub_mul, div_mul_cancel₀ _ hpos.ne']
  rw [hscale, hscale]
  refine mul_le_mul_of_nonneg_right ?_ hpos.le
  exact_mod_cast abs_sub_le_of_le_half (m := m) (by exact_mod_cast hm) k

/-- A finer power of two is that of smaller numbers only, which the least mantissa of the coarser
one is nearer than. -/
theorem dist_magnitude_le (h : 2 ^ 52 * 2 ^ exponent ≤ q ∨ exponent = -1074) (y : Finite) :
    |m * 2 ^ exponent - q| ≤ |y.magnitude - q| := by
  obtain ⟨hmantissa, hleast, -, -⟩ := y.canonical
  by_cases hcoarse : exponent ≤ y.exponent
  · have hshift : ((y.exponent - exponent).toNat : Int) + exponent = y.exponent := by omega
    have hy : y.magnitude =
        (y.mantissa * 2 ^ (y.exponent - exponent).toNat : Nat) * 2 ^ exponent := by
      push_cast
      rw [mul_assoc, two_pow_mul_zpow, hshift, Finite.magnitude]
    rw [hy]
    exact dist_multiple_le hm _
  · have hq : 2 ^ 52 * 2 ^ exponent ≤ q := h.resolve_right (by omega)
    have hy : y.magnitude ≤ 2 ^ 52 * 2 ^ exponent := by
      calc y.magnitude ≤ 2 ^ 53 * 2 ^ y.exponent :=
            mul_le_mul_of_nonneg_right (by exact_mod_cast hmantissa.le)
              (zpow_nonneg zero_le_two _)
        _ = 2 ^ ((53 : Nat) + y.exponent) := two_pow_mul_zpow 53 _
        _ ≤ 2 ^ ((52 : Nat) + exponent) := zpow_le_zpow_right₀ one_le_two (by omega)
        _ = 2 ^ 52 * 2 ^ exponent := (two_pow_mul_zpow 52 _).symm
    have hbottom : |m * 2 ^ exponent - q| ≤ |(2 : ℚ) ^ 52 * 2 ^ exponent - q| := by
      exact_mod_cast dist_multiple_le hm (2 ^ 52)
    rw [abs_of_nonpos (sub_nonpos.2 hq)] at hbottom
    rw [abs_of_nonpos (sub_nonpos.2 (hy.trans hq))]
    linarith

theorem mantissa_le (h : q < 2 ^ 53 * 2 ^ exponent) : m ≤ 2 ^ 53 := by
  have hq := (div_lt_iff₀ (zpow_pos two_pos exponent)).2 h
  obtain ⟨-, habove⟩ := abs_le.1 hm
  have hsucc : (m : ℚ) < ((2 ^ 53 + 1 : Nat) : ℚ) := by
    push_cast
    linarith
  exact Nat.le_of_lt_succ (Nat.cast_lt.1 hsucc)

theorem le_mantissa (h : 2 ^ 52 * 2 ^ exponent ≤ q) : 2 ^ 52 ≤ m := by
  have hq := (le_div_iff₀ (zpow_pos two_pos exponent)).2 h
  obtain ⟨hbelow, -⟩ := abs_le.1 hm
  have hsucc : ((2 ^ 52 : Nat) : ℚ) < ((m + 1 : Nat) : ℚ) := by
    push_cast
    linarith
  exact Nat.le_of_lt_succ (Nat.cast_lt.1 hsucc)

end Grid

/-- A finite result than which no number is nearer to `q`. -/
def Rounds (a : Binary64) (q : ℚ) : Prop := ∃ x, a = finite x ∧ x.IsNearest q

theorem pack_eq {mantissa : Nat} (h : Canonical mantissa exponent) :
    pack negative mantissa exponent = finite ⟨negative, mantissa, exponent, h⟩ := dif_pos h

theorem zero_rounds (negative : Bool) : (zero negative).Rounds 0 := by
  refine ⟨.zero negative, rfl, fun y => ?_⟩
  rw [Finite.value_zero, sub_zero, abs_zero]
  exact abs_nonneg _

theorem finite_rounds {x : Finite} {mantissa : Nat} (hq : 0 ≤ q)
    (hx : x.magnitude = mantissa * 2 ^ exponent)
    (hmantissa : |(mantissa : ℚ) - q / 2 ^ exponent| ≤ 1 / 2)
    (hlower : 2 ^ 52 * 2 ^ exponent ≤ q ∨ exponent = -1074) :
    (finite x).Rounds (if x.negative then -q else q) :=
  ⟨x, rfl, Finite.isNearest_of_magnitude hq fun y => hx ▸ dist_magnitude_le hmantissa hlower y⟩

/-- The number nearest to a ratio, below the range in which it may overflow. -/
theorem ofRatio_rounds (negative : Bool) (hden : den ≠ 0) (hq : (num / den : ℚ) < 2 ^ 1023) :
    (ofRatio negative num den).Rounds (if negative then -(num / den : ℚ) else num / den) := by
  by_cases hnum : num = 0
  · rw [ofRatio, if_pos hnum, hnum, Nat.cast_zero, zero_div, neg_zero, ite_self]
    exact zero_rounds negative
  obtain ⟨hleast, hupper, hlower⟩ := exponentFor_spec hnum hden
  rw [ofRatio, if_neg hnum]
  dsimp only
  generalize exponentFor num den = exponent at *
  have hmantissa := roundHalfEven_error (unscale num den exponent).1
    (unscale_pos num exponent (Nat.pos_of_ne_zero hden))
  rw [unscale_eq] at hmantissa
  generalize roundHalfEven (unscale num den exponent).1 (unscale num den exponent).2 = mantissa at *
  have hnonneg : (0 : ℚ) ≤ num / den := by positivity
  have hlarge : mantissa ≤ 2 ^ 53 := mantissa_le hmantissa hupper
  have hsmall : 2 ^ 52 ≤ mantissa ∨ exponent = -1074 := hlower.imp_left (le_mantissa hmantissa)
  have hexponent : exponent ≤ 970 := by
    obtain hle | hmin := hlower
    · rw [two_pow_mul_zpow] at hle
      have hlt : (2 : ℚ) ^ (((52 : Nat) : Int) + exponent) < 2 ^ (1023 : Int) :=
        lt_of_le_of_lt hle (by exact_mod_cast hq)
      have hlog := (zpow_lt_zpow_iff_right₀ (one_lt_two (α := ℚ))).1 hlt
      omega
    · omega
  -- a mantissa that was rounded up to a power of two moves into the next exponent
  split
  · rename_i hcarry
    have hcanonical : Canonical (2 ^ (52 : Nat)) (exponent + 1) :=
      ⟨by decide, by omega, by omega, .inl le_rfl⟩
    rw [pack_eq hcanonical]
    refine finite_rounds hnonneg ?_ hmantissa hlower
    rw [Finite.magnitude, hcarry, zpow_add_one₀ two_ne_zero]
    push_cast
    ring
  · rename_i hcarry
    have hcanonical : Canonical mantissa exponent :=
      ⟨lt_of_le_of_ne hlarge hcarry, hleast, by omega, hsmall⟩
    rw [pack_eq hcanonical]
    exact finite_rounds hnonneg rfl hmantissa hlower

theorem ofScaled_rounds (negative : Bool) {magnitude : Nat}
    (h : (magnitude * 2 ^ exponent : ℚ) < 2 ^ 1023) :
    (ofScaled negative magnitude exponent).Rounds
      (if negative then -(magnitude * 2 ^ exponent : ℚ) else magnitude * 2 ^ exponent) := by
  have hratio : ((magnitude * 2 ^ exponent.toNat : Nat) : ℚ) / ((2 ^ (-exponent).toNat : Nat) : ℚ) =
      magnitude * 2 ^ exponent := by
    rw [zpow_eq_div two_ne_zero]
    push_cast
    rw [mul_div_assoc]
  have hrounds := ofRatio_rounds negative (Nat.two_pow_pos (-exponent).toNat).ne'
    (hratio.trans_lt h)
  rwa [hratio] at hrounds

theorem ofScaled_int_rounds {n : Int} (h : |(n * 2 ^ exponent : ℚ)| < 2 ^ 1023) :
    (ofScaled (decide (n < 0)) n.natAbs exponent).Rounds (n * 2 ^ exponent) := by
  have habs : ((n.natAbs : ℚ) * 2 ^ exponent) = |(n * 2 ^ exponent : ℚ)| := by
    have hpos : (0 : ℚ) < 2 ^ exponent := zpow_pos two_pos exponent
    rw [abs_mul, abs_of_pos hpos, Nat.cast_natAbs, Int.cast_abs]
  have hrounds := ofScaled_rounds (decide (n < 0)) (habs.trans_lt h)
  by_cases hn : n < 0
  · have hvalue : -((n.natAbs : ℚ) * 2 ^ exponent) = n * 2 ^ exponent := by
      have hneg : (n * 2 ^ exponent : ℚ) ≤ 0 :=
        mul_nonpos_of_nonpos_of_nonneg (by exact_mod_cast hn.le) (zpow_nonneg zero_le_two _)
      rw [habs, abs_of_nonpos hneg, neg_neg]
    simpa only [hn, decide_true, if_true, hvalue] using hrounds
  · have hvalue : (n.natAbs : ℚ) * 2 ^ exponent = n * 2 ^ exponent := by
      have hnonneg : (0 : ℚ) ≤ n * 2 ^ exponent :=
        mul_nonneg (by exact_mod_cast not_lt.1 hn) (zpow_nonneg zero_le_two _)
      rw [habs, abs_of_nonneg hnonneg]
    simpa only [hn, decide_false, Bool.false_eq_true, if_false, hvalue] using hrounds

theorem ofInt_rounds {n : Int} (h : |(n : ℚ)| < 2 ^ 1023) : (ofInt n).Rounds n := by
  have hsmall : |(n * 2 ^ (0 : Int) : ℚ)| < 2 ^ 1023 := by rwa [zpow_zero, mul_one]
  have hrounds := ofScaled_int_rounds hsmall
  rw [zpow_zero, mul_one] at hrounds
  rwa [ofScaled, Int.toNat_zero, Int.neg_zero, Int.toNat_zero, Nat.pow_zero, Nat.mul_one] at hrounds

theorem add_rounds {x y : Finite} (h : |x.value + y.value| < 2 ^ 1023) :
    ((finite x).add (finite y)).Rounds (x.value + y.value) := by
  have hsum : ((x.units (min x.exponent y.exponent) + y.units (min x.exponent y.exponent) :
      Int) : ℚ) * 2 ^ min x.exponent y.exponent = x.value + y.value := by
    rw [Int.cast_add, add_mul, Finite.units_mul (min_le_left _ _),
      Finite.units_mul (min_le_right _ _)]
  rw [add]
  generalize x.units (min x.exponent y.exponent) + y.units (min x.exponent y.exponent) = sum at *
  split
  · rename_i hzero
    rw [← hsum, hzero, Int.cast_zero, zero_mul]
    exact zero_rounds _
  · rw [← hsum] at h ⊢
    exact ofScaled_int_rounds h

theorem mul_rounds {x y : Finite} (h : |x.value * y.value| < 2 ^ 1023) :
    ((finite x).mul (finite y)).Rounds (x.value * y.value) := by
  have hmagnitude : ((x.mantissa * y.mantissa : Nat) : ℚ) * 2 ^ (x.exponent + y.exponent) =
      x.magnitude * y.magnitude := by
    rw [Nat.cast_mul, zpow_add₀ two_ne_zero, Finite.magnitude, Finite.magnitude]
    ring
  have hvalue : x.value * y.value = if x.negative != y.negative then
      -(x.magnitude * y.magnitude) else x.magnitude * y.magnitude := by
    unfold Finite.value
    cases x.negative <;> cases y.negative <;> simp
  rw [abs_mul, Finite.abs_value, Finite.abs_value, ← hmagnitude] at h
  rw [hvalue, ← hmagnitude]
  exact ofScaled_rounds _ h

theorem toBinary64_rounds {d : Decimal} (hpositive : d.negative = false)
    (hexponent : -400 ≤ d.exponent ∧ d.exponent ≤ 400)
    (h : (d.digits * 10 ^ d.exponent : ℚ) < 2 ^ 1023) :
    d.toBinary64.Rounds (d.digits * 10 ^ d.exponent) := by
  have hratio : ((d.digits * 10 ^ d.exponent.toNat : Nat) : ℚ) /
      ((10 ^ (-d.exponent).toNat : Nat) : ℚ) = d.digits * 10 ^ d.exponent := by
    rw [zpow_eq_div (by norm_num) d.exponent]
    push_cast
    rw [mul_div_assoc]
  rw [Decimal.toBinary64]
  split
  · rename_i hzero
    rw [hzero, Nat.cast_zero, zero_mul]
    exact zero_rounds _
  rw [if_neg (by omega), if_neg (by omega), hpositive]
  have hden : 0 < 10 ^ (-d.exponent).toNat := Nat.pow_pos (by decide)
  have hrounds := ofRatio_rounds false hden.ne' (hratio.trans_lt h)
  rwa [hratio] at hrounds

end LiveFilter.Binary64
