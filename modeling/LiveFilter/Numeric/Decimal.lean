import LiveFilter.Numeric.Binary64

/-! # Decimal texts of binary64 numbers

Reading is correctly rounded. Writing takes the fewest digits that read back as the same number
and, among those, the nearest; only the choice between two equally near ones is left open.
-/

namespace LiveFilter

attribute [local instance (high)] instPowNat

/-- The number `digits * 10 ^ exponent`, with a sign. -/
structure Decimal where
  negative : Bool
  digits : Nat
  exponent : Int
deriving DecidableEq

namespace Decimal

/-- Decimals beyond every binary64 number are told from their exponent alone, so that no power of
ten is formed that the text does not account for. -/
def toBinary64 (d : Decimal) : Binary64 :=
  if d.digits = 0 then .zero d.negative
  else if 400 < d.exponent then .infinite d.negative
  else if d.exponent + d.digits.log2 < -400 then .zero d.negative
  else .ofRatio d.negative (d.digits * 10 ^ d.exponent.toNat) (10 ^ (-d.exponent).toNat)

def splitSign : List Char → Bool × List Char
  | '-' :: rest => (true, rest)
  | '+' :: rest => (false, rest)
  | cs => (false, cs)

def splitDigits (cs : List Char) : List Char × List Char :=
  (cs.takeWhile Char.isDigit, cs.dropWhile Char.isDigit)

/-- A power of ten such as `e-5`, or nothing; the whole text must be used up. -/
def readExponent? : List Char → Option Int
  | [] => some 0
  | c :: cs =>
      if c = 'e' ∨ c = 'E' then
        let (negative, cs) := splitSign cs
        let (digits, rest) := splitDigits cs
        if digits = [] ∨ rest ≠ [] then none
        else
          let power : Int := Nat.ofDigitChars 10 digits 0
          some (if negative then -power else power)
      else none

/-- Digits with at most one point among or beside them, then perhaps a power of ten. At least one
digit is needed. -/
def readUnsigned? (negative : Bool) (cs : List Char) : Option Decimal :=
  let (whole, rest) := splitDigits cs
  let (fraction, rest) :=
    match rest with
    | '.' :: rest => splitDigits rest
    | _ => ([], rest)
  if whole = [] ∧ fraction = [] then none
  else
    (readExponent? rest).map fun power =>
      ⟨negative, Nat.ofDigitChars 10 (whole ++ fraction) 0, power - fraction.length⟩

def read? (cs : List Char) : Option Decimal :=
  let (negative, cs) := splitSign cs
  readUnsigned? negative cs

/-- The choice between two decimals that are equally near. -/
inductive Tie where
  | up
  | even
deriving DecidableEq

/-- The numbers that read as `x` are those between these two multiples of `2 ^ exponent`, and the
two themselves exactly when the mantissa is even. -/
structure Reach where
  lower : Nat
  upper : Nat
  exponent : Int
  closed : Bool

/-- Half the distance to either neighbour; the lower neighbour of a power of two is closer. -/
def reach (x : Binary64.Finite) : Reach where
  lower := 4 * x.mantissa - (if x.mantissa = 2 ^ (52 : Nat) ∧ -1074 < x.exponent then 1 else 2)
  upper := 4 * x.mantissa + 2
  exponent := x.exponent - 2
  closed := x.mantissa % 2 == 0

def Reach.covers (r : Reach) (n : Nat) (power : Int) : Bool :=
  let candidate := n * 10 ^ power.toNat * 2 ^ (-r.exponent).toNat
  let unit := 10 ^ (-power).toNat * 2 ^ r.exponent.toNat
  if r.closed then r.lower * unit ≤ candidate && candidate ≤ r.upper * unit
  else r.lower * unit < candidate && candidate < r.upper * unit

/-- The one of the two multiples of `10 ^ power` around `x` that reads as `x`, if there is one. -/
def candidate? (tie : Tie) (x : Binary64.Finite) (power : Int) : Option Nat :=
  let num := x.ratio.1 * 10 ^ (-power).toNat
  let den := x.ratio.2 * 10 ^ power.toNat
  let below := num / den
  let above := below + 1
  match (reach x).covers below power, (reach x).covers above power with
  | false, false => none
  | true, false => some below
  | false, true => some above
  | true, true =>
      let rest := 2 * (num % den)
      if rest < den then some below
      else if den < rest then some above
      else
        match tie with
        | .up => some above
        | .even => some (below + below % 2)

def search (tie : Tie) (x : Binary64.Finite) : Nat → Int → Decimal
  | 0, power => ⟨x.negative, 0, power⟩
  | steps + 1, power =>
      match candidate? tie x power with
      | some n => ⟨x.negative, n, power⟩
      | none => search tie x steps (power - 1)

/-- The shortest decimal that reads as `x`. The search starts above the leading digit of `x`
(`30103 / 100000` is just above the logarithm of two) and seventeen digits always suffice. -/
def shortest (tie : Tie) (x : Binary64.Finite) : Decimal :=
  if x.IsZero then ⟨x.negative, 0, 0⟩
  else
    let top := (x.exponent + x.mantissa.log2 + 1) * 30103 / 100000 + 2
    search tie x 24 top

def digitChars (d : Decimal) : List Char := Nat.toDigits 10 d.digits

/-- The number of digits before the point, negative when zeros follow the point. -/
def point (d : Decimal) : Int := d.digitChars.length + d.exponent

def positional (d : Decimal) : List Char :=
  let cs := d.digitChars
  if d.point ≤ 0 then '0' :: '.' :: (List.replicate (-d.point).toNat '0' ++ cs)
  else if (cs.length : Int) ≤ d.point then cs ++ List.replicate (d.point - cs.length).toNat '0'
  else cs.take d.point.toNat ++ '.' :: cs.drop d.point.toNat

def signChars (d : Decimal) : List Char := if d.negative then ['-'] else []

end Decimal

namespace Binary64

/-- Reads a decimal, `inf`, `infinity` or `nan`; letter case does not count. -/
def read? (cs : List Char) : Option Binary64 :=
  let (negative, rest) := Decimal.splitSign cs
  let name := rest.map Char.toLower
  if name = "nan".toList then some nan
  else if name = "inf".toList ∨ name = "infinity".toList then some (infinite negative)
  else (Decimal.readUnsigned? negative rest).map Decimal.toBinary64

def ofText? (text : String) : Option Binary64 := read? text.toList

def toText : Binary64 → String
  | nan => "NaN"
  | infinite negative => if negative then "-inf" else "inf"
  | finite x =>
      let d := Decimal.shortest .up x
      String.ofList (d.signChars ++ d.positional)

end Binary64

end LiveFilter
