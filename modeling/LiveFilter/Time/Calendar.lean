/-! # Calendar

Dates of the Gregorian calendar, extended to all years, and their numbers: 1970-01-01 is day zero.
Years are counted from March, so that the leap day is the last day of its year.
-/

namespace LiveFilter

structure Date where
  year : Int
  month : Nat
  day : Nat
deriving DecidableEq

namespace Date

def IsLeap (year : Int) : Prop := year % 4 = 0 ∧ (year % 100 ≠ 0 ∨ year % 400 = 0)

instance (year : Int) : Decidable (IsLeap year) := inferInstanceAs (Decidable (_ ∧ _))

def monthLength (year : Int) (month : Nat) : Nat :=
  if month = 2 then if IsLeap year then 29 else 28
  else if month = 4 ∨ month = 6 ∨ month = 9 ∨ month = 11 then 30
  else 31

def Valid (d : Date) : Prop :=
  1 ≤ d.month ∧ d.month ≤ 12 ∧ 1 ≤ d.day ∧ d.day ≤ monthLength d.year d.month

instance (d : Date) : Decidable d.Valid := inferInstanceAs (Decidable (_ ∧ _ ∧ _ ∧ _))

/-- Days from the first of March to the first of the month that is so many months later. -/
def daysBefore (months : Nat) : Nat := (153 * months + 2) / 5

def toDayNumber (d : Date) : Int :=
  let year := if d.month ≤ 2 then d.year - 1 else d.year
  let months := (d.month + 9) % 12
  365 * year + year / 4 - year / 100 + year / 400 + daysBefore months + d.day - 1 - 719468

/-- The date of a day number. A day is placed in its 400 years, then in its century, its four
years and its year; the last of each kind takes in the extra day. -/
def ofDayNumber (n : Int) : Date :=
  let era := (n + 719468) / 146097
  let inEra := ((n + 719468) % 146097).toNat
  let century := min 3 (inEra / 36524)
  let inCentury := inEra - century * 36524
  let quadrennium := inCentury / 1461
  let inQuadrennium := inCentury % 1461
  let year := min 3 (inQuadrennium / 365)
  let inYear := inQuadrennium - year * 365
  let months := (5 * inYear + 2) / 153
  let month := if months < 10 then months + 3 else months - 9
  let marchYear := era * 400 + (century * 100 + quadrennium * 4 + year : Nat)
  { year := if month ≤ 2 then marchYear + 1 else marchYear
    month
    day := inYear - daysBefore months + 1 }

end Date

end LiveFilter
