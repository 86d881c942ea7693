/-! # Binary64 numbers

The finite numbers of the format are held exactly, as a sign, a mantissa and a power of two.
Every operation forms its exact result as a ratio of integers and rounds it once, to the nearest
number of the format and, from halfway, to the even mantissa.
-/

namespace LiveFilter

-- powers of numbers are meant here, also where powers in a monoid are known
attribute [local instance (high)] instPowNat

/-- The bounds under which a magnitude has one representation only. -/
def Binary64.Canonical (mantissa : Nat) (exponent : Int) : Prop :=
  mantissa < 2 ^ (53 : Nat) ∧ -1074 ≤ exponent ∧ exponent ≤ 971 ∧
    (2 ^ (52 : Nat) ≤ mantissa ∨ exponent = -1074)

instance (mantissa : Nat) (exponent : Int) :
    Decidable (Binary64.Canonical mantissa exponent) :=
  inferInstanceAs (Decidable (_ ∧ _ ∧ _ ∧ _))

/-- A finite number: `mantissa * 2 ^ exponent` with a sign, which zero has too. -/
structure Binary64.Finite where
  negative : Bool
  mantissa : Nat
  exponent : Int
  canonical : Binary64.Canonical mantissa exponent
deriving DecidableEq

/-- A number of the binary64 format; payloads of `nan` are not told apart. -/
inductive Binary64 where
  | nan
  | infinite (negative : Bool)
  | finite (value : Binary64.Finite)
deriving DecidableEq

namespace Binary64

/-- `num / den` rounded to an integer, from halfway to the even one. -/
def roundHalfEven (num den : Nat) : Nat :=
  let quotient := num / den
  let rest := 2 * (num % den)
  if rest < den then quotient
  else if den < rest then quotient + 1
  else quotient + quotient % 2

def roundHalfUp (num den : Nat) : Nat :=
  (2 * num + den) / (2 * den)

/-- The ratio `num / den` divided by `2 ^ exponent`, as a ratio again. -/
def unscale (num den : Nat) (exponent : Int) : Nat × Nat :=
  (num * 2 ^ (-exponent).toNat, den * 2 ^ exponent.toNat)

/-- The exponent that gives `num / den` a mantissa of 53 bits, or the least one of the format. -/
def exponentFor (num den : Nat) : Int :=
  let estimate := max ((num.log2 : Int) - den.log2 - 53) (-1074)
  let (n, d) := unscale num den estimate
  if 2 ^ (53 : Nat) * d ≤ n then estimate + 1 else estimate

namespace Finite

def zero (negative : Bool) : Finite :=
  ⟨negative, 0, -1074, by decide⟩

def IsZero (x : Finite) : Prop := x.mantissa = 0

instance (x : Finite) : Decidable x.IsZero := inferInstanceAs (Decidable (_ = _))

def ratio (x : Finite) : Nat × Nat :=
  (x.mantissa * 2 ^ x.exponent.toNat, 2 ^ (-x.exponent).toNat)

/-- The number as a signed count of units `2 ^ exponent`, exact for every exponent not above
its own. -/
def units (x : Finite) (exponent : Int) : Int :=
  let magnitude : Int := (x.mantissa * 2 ^ (x.exponent - exponent).toNat : Nat)
  if x.negative then -magnitude else magnitude

def neg (x : Finite) : Finite := { x with negative := !x.negative }

/-- The numerical order, in which both zeros are equal. -/
def compare (x y : Finite) : Ordering :=
  let exponent := min x.exponent y.exponent
  Ord.compare (x.units exponent) (y.units exponent)

def isWhole (x : Finite) : Bool :=
  x.ratio.1 % x.ratio.2 == 0

def truncate (x : Finite) : Int :=
  let magnitude : Int := (x.ratio.1 / x.ratio.2 : Nat)
  if x.negative then -magnitude else magnitude

/-- The nearest integer, from halfway away from zero. -/
def round (x : Finite) : Int :=
  let magnitude : Int := (roundHalfUp x.ratio.1 x.ratio.2 : Nat)
  if x.negative then -magnitude else magnitude

end Finite

/-- A magnitude whose exponent is above the format's is an infinity. -/
def pack (negative : Bool) (mantissa : Nat) (exponent : Int) : Binary64 :=
  if h : Canonical mantissa exponent then .finite ⟨negative, mantissa, exponent, h⟩
  else .infinite negative

def zero (negative : Bool) : Binary64 := .finite (.zero negative)

/-- The number nearest to `num / den`, where `den` is positive. -/
def ofRatio (negative : Bool) (num den : Nat) : Binary64 :=
  if num = 0 then zero negative
  else
    let exponent := exponentFor num den
    let (n, d) := unscale num den exponent
    let mantissa := roundHalfEven n d
    if mantissa = 2 ^ (53 : Nat) then pack negative (2 ^ (52 : Nat)) (exponent + 1)
    else pack negative mantissa exponent

def ofScaled (negative : Bool) (magnitude : Nat) (exponent : Int) : Binary64 :=
  ofRatio negative (magnitude * 2 ^ exponent.toNat) (2 ^ (-exponent).toNat)

def ofInt (n : Int) : Binary64 :=
  ofRatio (decide (n < 0)) n.natAbs 1

def neg : Binary64 → Binary64
  | nan => nan
  | infinite negative => infinite (!negative)
  | finite x => finite x.neg

/-- The sum; an exact zero is positive unless both terms are negative. -/
def add : Binary64 → Binary64 → Binary64
  | nan, _ | _, nan => nan
  | infinite a, infinite b => if a = b then infinite a else nan
  | infinite a, finite _ => infinite a
  | finite _, infinite b => infinite b
  | finite x, finite y =>
      let exponent := min x.exponent y.exponent
      let sum := x.units exponent + y.units exponent
      if sum = 0 then zero (x.negative && y.negative)
      else ofScaled (decide (sum < 0)) sum.natAbs exponent

def sub (a b : Binary64) : Binary64 := add a (neg b)

def mul : Binary64 → Binary64 → Binary64
  | nan, _ | _, nan => nan
  | infinite a, infinite b => infinite (a != b)
  | infinite a, finite y => if y.IsZero then nan else infinite (a != y.negative)
  | finite x, infinite b => if x.IsZero then nan else infinite (x.negative != b)
  | finite x, finite y =>
      ofScaled (x.negative != y.negative) (x.mantissa * y.mantissa) (x.exponent + y.exponent)

def div : Binary64 → Binary64 → Binary64
  | nan, _ | _, nan => nan
  | infinite _, infinite _ => nan
  | infinite a, finite y => infinite (a != y.negative)
  | finite x, infinite b => zero (x.negative != b)
  | finite x, finite y =>
      if y.IsZero then if x.IsZero then nan else infinite (x.negative != y.negative)
      else
        ofRatio (x.negative != y.negative) (x.ratio.1 * y.ratio.2) (x.ratio.2 * y.ratio.1)

/-- The remainder of the division whose quotient is truncated; it has the sign of the dividend. -/
def rem : Binary64 → Binary64 → Binary64
  | nan, _ | _, nan => nan
  | infinite _, _ => nan
  | finite x, infinite _ => finite x
  | finite x, finite y =>
      if y.IsZero then nan
      else
        let exponent := min x.exponent y.exponent
        ofScaled x.negative ((x.units exponent).natAbs % (y.units exponent).natAbs) exponent

def compare : Binary64 → Binary64 → Option Ordering
  | nan, _ | _, nan => none
  | infinite a, infinite b => some (Ord.compare b a)
  | infinite a, finite _ => some (if a then .lt else .gt)
  | finite _, infinite b => some (if b then .gt else .lt)
  | finite x, finite y => some (x.compare y)

/-- Numerical equality: `nan` differs from itself, and both zeros are equal. -/
def numEq (a b : Binary64) : Bool := compare a b == some .eq

def IsZero : Binary64 → Prop
  | finite x => x.IsZero
  | _ => False

instance : (a : Binary64) → Decidable a.IsZero
  | finite x => inferInstanceAs (Decidable x.IsZero)
  | nan => inferInstanceAs (Decidable False)
  | infinite _ => inferInstanceAs (Decidable False)

def isWhole : Binary64 → Bool
  | finite x => x.isWhole
  | _ => false

end Binary64

end LiveFilter
