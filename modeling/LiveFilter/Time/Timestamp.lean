import LiveFilter.Time.Calendar
import LiveFilter.Time.Duration

/-! # Points of time in UTC

A point of time is a day, a second of that day and nanoseconds. A leap second is the last second
of a minute with a thousand million nanoseconds or more: it comes after all of that second and
before the next minute.
-/

namespace LiveFilter

namespace Timestamp

/-- The first of January of the year -262143. -/
def firstDay : Int := -96465292

/-- The last of December of the year 262142. -/
def lastDay : Int := 95026236

def second : Nat := 1000000000

/-- What makes a day, a second of the day and nanoseconds a point of time. -/
def Valid (day : Int) (seconds nanos : Nat) : Prop :=
  firstDay ≤ day ∧ day ≤ lastDay ∧ seconds < 86400 ∧ nanos < 2 * second ∧
    (second ≤ nanos → seconds % 60 = 59)

instance (day : Int) (seconds nanos : Nat) : Decidable (Valid day seconds nanos) :=
  inferInstanceAs (Decidable (_ ∧ _ ∧ _ ∧ _ ∧ _))

example : firstDay = Date.toDayNumber ⟨-262143, 1, 1⟩ := by decide

example : lastDay = Date.toDayNumber ⟨262142, 12, 31⟩ := by decide

end Timestamp

structure Timestamp where
  day : Int
  seconds : Nat
  nanos : Nat
  valid : Timestamp.Valid day seconds nanos
deriving DecidableEq

namespace Timestamp

def ofParts? (day : Int) (seconds nanos : Nat) : Option Timestamp :=
  if h : Valid day seconds nanos then some ⟨day, seconds, nanos, h⟩ else none

theorem ofParts?_eq_some {day : Int} {seconds nanos : Nat} {t : Timestamp} :
    ofParts? day seconds nanos = some t ↔
      t.day = day ∧ t.seconds = seconds ∧ t.nanos = nanos := by
  unfold ofParts?
  split
  · constructor
    · intro h; cases h; exact ⟨rfl, rfl, rfl⟩
    · rintro ⟨rfl, rfl, rfl⟩; rfl
  · rename_i h
    constructor
    · intro h'; cases h'
    · rintro ⟨rfl, rfl, rfl⟩; exact absurd t.valid h

def InLeapSecond (t : Timestamp) : Prop := second ≤ t.nanos

instance (t : Timestamp) : Decidable t.InLeapSecond := inferInstanceAs (Decidable (_ ≤ _))

/-- The place in the order of time. It counts two seconds' worth of places for every second, so
that a leap second has places of its own. -/
def position (t : Timestamp) : Int := (t.day * 86400 + t.seconds) * 2000000000 + t.nanos

def compare (a b : Timestamp) : Ordering := Ord.compare a.position b.position

theorem position_inj {a b : Timestamp} (h : a.position = b.position) : a = b := by
  have ha := a.valid
  have hb := b.valid
  simp only [position, Valid, second] at h ha hb
  obtain ⟨hd, hs, hn⟩ : a.day = b.day ∧ a.seconds = b.seconds ∧ a.nanos = b.nanos := by omega
  cases a; cases b; simp_all

/-- The Unix seconds, and on top of them the nanoseconds, of which a leap second has more than a
second's worth. -/
def unixNanos (t : Timestamp) : Int :=
  (t.day * 86400 + t.seconds) * 1000000000 + t.nanos

def ofUnixSeconds? (seconds : Int) : Option Timestamp :=
  ofParts? (seconds / 86400) (seconds % 86400).toNat 0

/-- A point of time from seconds of a day and nanoseconds beyond their range. -/
def normalize? (day seconds nanos : Int) : Option Timestamp :=
  let total := seconds + nanos / 1000000000
  ofParts? (day + total / 86400) (total % 86400).toNat (nanos % 1000000000).toNat

/-- Moves by a duration. A leap second is one second long while the move stays within it; a move
that leaves it forwards starts from the ordinary second before, and one that leaves it backwards
starts from the ordinary second after. -/
def add? (t : Timestamp) (d : Duration) : Option Timestamp :=
  let whole := d.nanos.tdiv 1000000000
  let part := d.nanos.tmod 1000000000
  if t.InLeapSecond then
    if 0 < whole ∨ (0 < part ∧ 2000000000 ≤ t.nanos + part) then
      normalize? t.day (t.seconds + whole) (t.nanos - 1000000000 + part)
    else if whole < 0 then
      normalize? t.day (t.seconds + 1 + whole) (t.nanos - 1000000000 + part)
    else ofParts? t.day t.seconds (t.nanos + part).toNat
  else normalize? t.day (t.seconds + whole) (t.nanos + part)

/-- The second to add to a difference of times of day when the later one is past a leap second
that the earlier one is in. -/
def leapCorrection (a b : Timestamp) : Int :=
  if b.seconds < a.seconds ∧ b.InLeapSecond then 1
  else if a.seconds < b.seconds ∧ a.InLeapSecond then -1
  else 0

/-- Nanoseconds from `b` to `a`. -/
def nanosSince (a b : Timestamp) : Int :=
  ((a.day - b.day) * 86400 + ((a.seconds : Int) - b.seconds + leapCorrection a b)) * 1000000000 +
    ((a.nanos : Int) - b.nanos)

theorem abs_leapCorrection_le (a b : Timestamp) :
    -1 ≤ leapCorrection a b ∧ leapCorrection a b ≤ 1 := by
  unfold leapCorrection
  split
  · decide
  · split <;> decide

theorem natAbs_nanosSince_le (a b : Timestamp) : (nanosSince a b).natAbs ≤ Duration.limit := by
  have ha := a.valid
  have hb := b.valid
  have hc := abs_leapCorrection_le a b
  simp only [nanosSince, Valid, second, firstDay, lastDay, Duration.limit] at *
  omega

def since (a b : Timestamp) : Duration := ⟨nanosSince a b, natAbs_nanosSince_le a b⟩

end Timestamp

end LiveFilter
