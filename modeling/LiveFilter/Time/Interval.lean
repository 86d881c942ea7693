import LiveFilter.Time.Instant

/-! # Closed intervals of time

An interval is made from two instants in order. Moving it moves both bounds.
-/

namespace LiveFilter

structure Interval where
  start : Instant
  stop : Instant

namespace Interval

def Ordered (i : Interval) : Prop := i.start.compare i.stop ≠ .gt

instance (i : Interval) : Decidable i.Ordered := inferInstanceAs (Decidable (_ ≠ _))

def ofBounds (start stop : Instant) : Except ParseError Interval :=
  if start.compare stop = .gt then .error (.invertedInterval start.format stop.format)
  else .ok ⟨start, stop⟩

theorem ofBounds_eq_ok_iff {start stop : Instant} {i : Interval} :
    ofBounds start stop = .ok i ↔ i = ⟨start, stop⟩ ∧ i.Ordered := by
  unfold ofBounds Ordered
  split
  · rename_i h
    constructor
    · intro h'; cases h'
    · rintro ⟨rfl, h'⟩; exact absurd h h'
  · rename_i h
    constructor
    · intro h'; cases h'; exact ⟨rfl, h⟩
    · rintro ⟨rfl, _⟩; rfl

def length (i : Interval) : Duration := i.stop.since i.start

def shift? (i : Interval) (d : Duration) : Option Interval :=
  match i.start.add? d, i.stop.add? d with
  | some start, some stop => some ⟨start, stop⟩
  | _, _ => none

def sameTime (a b : Interval) : Bool := a.start.sameTime b.start && a.stop.sameTime b.stop

def format (i : Interval) : String := i.start.format ++ "/" ++ i.stop.format

def parse (text : String) : Except ParseError Interval :=
  let cs := text.toList
  match cs.dropWhile (· != '/') with
  | [] => .error (.invalidInterval text)
  | _ :: rest => do
      let start ← Instant.parse (String.ofList (cs.takeWhile (· != '/')))
      let stop ← Instant.parse (String.ofList rest)
      ofBounds start stop

end Interval

inductive TemporalValue where
  | instant (value : Instant)
  | duration (value : Duration)
  | interval (value : Interval)

namespace TemporalValue

def kind : TemporalValue → ValueKind
  | instant _ => .instant
  | duration _ => .duration
  | interval _ => .interval

def format : TemporalValue → String
  | instant i => i.format
  | duration d => d.format
  | interval i => i.format

/-- Whether a text starts as a duration does, with any number of signs before the `P`. -/
def startsAsDuration (cs : List Char) : Bool :=
  match cs.dropWhile (· == '-') with
  | c :: _ => c == 'P' || c == 'p'
  | [] => false

/-- A slash makes an interval, a `P` after any signs a duration; the rest are instants. -/
def parse (text : String) : Except ParseError TemporalValue :=
  if '/' ∈ text.toList then (Interval.parse text).map interval
  else if startsAsDuration text.toList then (Duration.parse text).map duration
  else (Instant.parse text).map instant

end TemporalValue

end LiveFilter
