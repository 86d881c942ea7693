import LiveFilter.Time.Calendar
import Mathlib.Tactic.IntervalCases

/-! # Days and dates

A day has a place in the cycle of 400 years: its century, the four years in it, the year among these
and the day of that year. Both a day number and a date are read off the place, so that a date and
its day number give each other back.
-/

namespace LiveFilter.Date

/-- The month that is so many months after March. -/
def monthAfter (months : Nat) : Nat := if months < 10 then months + 3 else months - 9

theorem monthAfter_mem {months : Nat} (h : months ≤ 11) :
    1 ≤ monthAfter months ∧ monthAfter months ≤ 12 := by
  unfold monthAfter
  split <;> omega

def monthsBefore (month : Nat) : Nat := (month + 9) % 12

theorem monthsBefore_monthAfter {months : Nat} (h : months ≤ 11) :
    monthsBefore (monthAfter months) = months := by
  unfold monthsBefore monthAfter
  split <;> omega

theorem monthAfter_monthsBefore {month : Nat} (hlow : 1 ≤ month) (hhigh : month ≤ 12) :
    monthAfter (monthsBefore month) = month := by
  unfold monthsBefore monthAfter
  split <;> omega

theorem daysBefore_succ {months : Nat} (h : months ≤ 10) (year : Int) :
    daysBefore (months + 1) = daysBefore months + monthLength year (monthAfter months) := by
  interval_cases months <;> rfl

theorem monthLength_february (year : Int) :
    (monthLength year 2 = 28 ∧ ¬IsLeap year) ∨ (monthLength year 2 = 29 ∧ IsLeap year) := by
  by_cases h : IsLeap year <;> simp [monthLength, h]

theorem monthLength_le (year : Int) (month : Nat) : monthLength year month ≤ 31 := by
  unfold monthLength
  split
  · split <;> decide
  · split <;> decide

variable {d : Date}

def marchYear (d : Date) : Int := if d.month ≤ 2 then d.year - 1 else d.year

def dayOfYear (d : Date) : Nat := daysBefore (monthsBefore d.month) + d.day - 1

theorem toDayNumber_eq (h : 1 ≤ d.day) :
    d.toDayNumber = 365 * d.marchYear + d.marchYear / 4 - d.marchYear / 100 + d.marchYear / 400 +
      d.dayOfYear - 719468 := by
  simp only [toDayNumber, marchYear, dayOfYear, monthsBefore]
  omega

theorem Valid.dayOfYear_lt (h : d.Valid) :
    d.dayOfYear < daysBefore (monthsBefore d.month + 1) ∧ d.dayOfYear ≤ 365 ∧
      (d.dayOfYear = 365 → IsLeap (d.marchYear + 1)) := by
  obtain ⟨hlow, hhigh, hfirst, hlast⟩ := h
  by_cases hmonths : monthsBefore d.month ≤ 10
  · have hlength := daysBefore_succ hmonths d.year
    rw [monthAfter_monthsBefore hlow hhigh] at hlength
    have hbefore : daysBefore (monthsBefore d.month + 1) ≤ 337 := by
      unfold daysBefore
      omega
    unfold dayOfYear
    omega
  · -- February runs on to the end of the year.
    have hfebruary : d.month = 2 := by unfold monthsBefore at hmonths; omega
    have hday : d.dayOfYear = 336 + d.day := by
      have hbefore : daysBefore (monthsBefore 2) = 337 := rfl
      rw [dayOfYear, hfebruary, hbefore]
      omega
    have hyear : d.marchYear + 1 = d.year := by simp [marchYear, hfebruary]
    have hbefore : daysBefore (monthsBefore 2 + 1) = 367 := rfl
    rw [hfebruary] at hlast ⊢
    rw [hday, hbefore, hyear]
    rcases monthLength_february d.year with ⟨hlength, -⟩ | ⟨hlength, hleap⟩
    · omega
    · exact ⟨by omega, by omega, fun _ => hleap⟩

/-- A place in the cycle of 400 years. Years begin in March. -/
structure Place where
  era : Int
  century : Nat
  quadrennium : Nat
  year : Nat
  day : Nat
  century_le : century ≤ 3
  quadrennium_le : quadrennium ≤ 24
  year_le : year ≤ 3
  day_le : day ≤ 365
  /-- The leap day is in the last of four years, but not in the last year of the first three
  centuries. -/
  of_leapDay : day = 365 → year = 3 ∧ (quadrennium = 24 → century = 3)

namespace Place

variable (p : Place)

def number : Int :=
  p.era * 146097 + (p.century * 36524 + p.quadrennium * 1461 + p.year * 365 + p.day : Nat) - 719468

def marchYear : Int := p.era * 400 + (p.century * 100 + p.quadrennium * 4 + p.year : Nat)

def months : Nat := (5 * p.day + 2) / 153

def date : Date :=
  { year := if monthAfter p.months ≤ 2 then p.marchYear + 1 else p.marchYear
    month := monthAfter p.months
    day := p.day - daysBefore p.months + 1 }

def ofNumber (n : Int) : Place where
  era := (n + 719468) / 146097
  century := min 3 (((n + 719468) % 146097).toNat / 36524)
  quadrennium :=
    let inEra := ((n + 719468) % 146097).toNat
    (inEra - min 3 (inEra / 36524) * 36524) / 1461
  year :=
    let inEra := ((n + 719468) % 146097).toNat
    min 3 ((inEra - min 3 (inEra / 36524) * 36524) % 1461 / 365)
  day :=
    let inEra := ((n + 719468) % 146097).toNat
    let inQuadrennium := (inEra - min 3 (inEra / 36524) * 36524) % 1461
    inQuadrennium - min 3 (inQuadrennium / 365) * 365
  century_le := by omega
  quadrennium_le := by dsimp only; omega
  year_le := by dsimp only; omega
  day_le := by dsimp only; omega
  of_leapDay := by dsimp only; omega

theorem date_ofNumber (n : Int) : (ofNumber n).date = ofDayNumber n := rfl

theorem number_ofNumber (n : Int) : (ofNumber n).number = n := by
  simp only [number, ofNumber]
  omega

theorem ofNumber_number : ofNumber p.number = p := by
  obtain ⟨era, century, quadrennium, year, day, hcentury, hquadrennium, hyear, hday, hleap⟩ := p
  -- from the innermost remainder outwards, so that each step is about two numbers
  obtain ⟨inQuadrennium, hinQuadrennium⟩ : ∃ n, n = year * 365 + day := ⟨_, rfl⟩
  have hyear' : min 3 (inQuadrennium / 365) = year := by omega
  have hday' : inQuadrennium - year * 365 = day := by omega
  obtain ⟨inCentury, hinCentury⟩ : ∃ n, n = quadrennium * 1461 + inQuadrennium := ⟨_, rfl⟩
  have hquadrennium' : inCentury / 1461 = quadrennium := by omega
  have hinQuadrennium' : inCentury % 1461 = inQuadrennium := by omega
  obtain ⟨inEra, hinEra⟩ : ∃ n, n = century * 36524 + inCentury := ⟨_, rfl⟩
  have hcentury' : min 3 (inEra / 36524) = century := by omega
  have hinCentury' : inEra - century * 36524 = inCentury := by omega
  have hnumber : number ⟨era, century, quadrennium, year, day, hcentury, hquadrennium, hyear, hday,
      hleap⟩ + 719468 = era * 146097 + (inEra : Nat) := by
    simp only [number]
    omega
  have hera : (era * 146097 + (inEra : Nat)) / 146097 = era := by omega
  have hinEra' : ((era * 146097 + (inEra : Nat)) % 146097).toNat = inEra := by omega
  simp only [ofNumber, hnumber, hera, hinEra', hcentury', hinCentury', hquadrennium',
    hinQuadrennium', hyear', hday']

theorem months_le : p.months ≤ 11 := by
  have hday := p.day_le
  unfold months
  omega

theorem daysBefore_months : daysBefore p.months ≤ p.day ∧ p.day < daysBefore (p.months + 1) := by
  unfold daysBefore months
  omega

theorem marchYear_date : p.date.marchYear = p.marchYear := by
  simp only [Date.marchYear, date]
  split <;> omega

theorem dayOfYear_date : p.date.dayOfYear = p.day := by
  obtain ⟨hfirst, _⟩ := p.daysBefore_months
  simp only [dayOfYear, date, monthsBefore_monthAfter p.months_le]
  omega

theorem toDayNumber_date : p.date.toDayNumber = p.number := by
  have hcentury := p.century_le
  have hquadrennium := p.quadrennium_le
  have hyear := p.year_le
  rw [toDayNumber_eq (Nat.le_add_left 1 _), marchYear_date, dayOfYear_date]
  unfold number marchYear
  omega

theorem isLeap_of_leapDay (h : p.day = 365) : IsLeap (p.marchYear + 1) := by
  obtain ⟨hyear, hlast⟩ := p.of_leapDay h
  have hcentury := p.century_le
  have hquadrennium := p.quadrennium_le
  unfold IsLeap marchYear
  omega

theorem valid_date : p.date.Valid := by
  obtain ⟨hlow, hhigh⟩ := monthAfter_mem p.months_le
  obtain ⟨hfirst, hlast⟩ := p.daysBefore_months
  refine ⟨hlow, hhigh, Nat.le_add_left 1 _, ?_⟩
  change p.day - daysBefore p.months + 1 ≤ monthLength p.date.year (monthAfter p.months)
  by_cases hmonths : p.months ≤ 10
  · have hlength := daysBefore_succ hmonths p.date.year
    omega
  · have hfebruary : p.months = 11 := by have := p.months_le; omega
    have hyear : p.date.year = p.marchYear + 1 := by simp [date, hfebruary, monthAfter]
    have hbefore : daysBefore 11 = 337 := rfl
    have hday := p.day_le
    rw [hyear, hfebruary]
    change p.day - daysBefore 11 + 1 ≤ monthLength (p.marchYear + 1) 2
    rcases monthLength_february (p.marchYear + 1) with ⟨hlength, hordinary⟩ | ⟨hlength, -⟩
    · have hday' : p.day ≠ 365 := fun h365 => hordinary (p.isLeap_of_leapDay h365)
      omega
    · omega

def ofDate (h : d.Valid) : Place where
  era := d.marchYear / 400
  century := (d.marchYear % 400 / 100).toNat
  quadrennium := (d.marchYear % 100 / 4).toNat
  year := (d.marchYear % 4).toNat
  day := d.dayOfYear
  century_le := by omega
  quadrennium_le := by omega
  year_le := by omega
  day_le := h.dayOfYear_lt.2.1
  of_leapDay h365 := by
    have hleap := h.dayOfYear_lt.2.2 h365
    unfold IsLeap at hleap
    omega

theorem date_ofDate (h : d.Valid) : (ofDate h).date = d := by
  have hyear : (ofDate h).marchYear = d.marchYear := by
    simp only [marchYear, ofDate]
    omega
  have hmonths : (ofDate h).months = monthsBefore d.month := by
    obtain ⟨hlast, _⟩ := h.dayOfYear_lt
    have hfirst : daysBefore (monthsBefore d.month) ≤ d.dayOfYear := by
      have hday := h.2.2.1
      unfold dayOfYear
      omega
    change (5 * d.dayOfYear + 2) / 153 = monthsBefore d.month
    unfold daysBefore at hfirst hlast
    omega
  have hday : d.dayOfYear - daysBefore (monthsBefore d.month) + 1 = d.day := by
    have hday := h.2.2.1
    unfold dayOfYear
    omega
  have hmonth : monthAfter (monthsBefore d.month) = d.month := monthAfter_monthsBefore h.1 h.2.1
  obtain ⟨year, month, day⟩ := d
  simp only [date, hyear, hmonths, hmonth, Date.mk.injEq, true_and]
  refine ⟨?_, hday⟩
  simp only [Date.marchYear]
  split <;> omega

end Place

theorem valid_ofDayNumber (n : Int) : (ofDayNumber n).Valid := by
  rw [← Place.date_ofNumber]
  exact (Place.ofNumber n).valid_date

theorem toDayNumber_ofDayNumber (n : Int) : (ofDayNumber n).toDayNumber = n := by
  rw [← Place.date_ofNumber, Place.toDayNumber_date, Place.number_ofNumber]

theorem ofDayNumber_toDayNumber (h : d.Valid) : ofDayNumber d.toDayNumber = d := by
  calc ofDayNumber d.toDayNumber
      = ofDayNumber (Place.ofDate h).number := by
        rw [← Place.toDayNumber_date, Place.date_ofDate]
    _ = (Place.ofDate h).date := by rw [← Place.date_ofNumber, Place.ofNumber_number]
    _ = d := Place.date_ofDate h

end LiveFilter.Date
