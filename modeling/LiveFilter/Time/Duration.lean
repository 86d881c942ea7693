import LiveFilter.Error
import LiveFilter.Numeric.Decimal

/-! # Durations

Signed spans of time without a calendar. They are counted in nanoseconds, and their range is that
of a signed 64-bit count of milliseconds, the least one left out to make the range symmetric.
Literals have the form `PnWnDTnHnMnS` and are written in whole milliseconds.
-/

namespace LiveFilter

attribute [local instance (high)] instPowNat

/-- The longest duration, in nanoseconds. -/
def Duration.limit : Nat := (2 ^ (63 : Nat) - 1) * 1000000

structure Duration where
  nanos : Int
  bounded : nanos.natAbs ≤ Duration.limit
deriving DecidableEq

namespace Duration

theorem eq_iff {a b : Duration} : a = b ↔ a.nanos = b.nanos := by
  cases a; cases b; simp

def ofNanos? (nanos : Int) : Option Duration :=
  if h : nanos.natAbs ≤ limit then some ⟨nanos, h⟩ else none

theorem ofNanos?_eq_some {n : Int} {d : Duration} : ofNanos? n = some d ↔ d.nanos = n := by
  unfold ofNanos?
  split
  · simp [eq_iff, eq_comm]
  · rename_i h
    simp only [reduceCtorEq, false_iff]
    intro hd
    exact h (hd ▸ d.bounded)

def ofMillis? (millis : Int) : Option Duration := ofNanos? (millis * 1000000)

def zero : Duration := ⟨0, by decide⟩

/-- A count of units of so many seconds each. -/
def ofUnits (unit : String) (seconds count : Int) : Except Misuse Duration :=
  match ofNanos? (count * seconds * 1000000000) with
  | some d => .ok d
  | none => .error (.durationOutOfBounds unit)

def ofSeconds (count : Int) : Except Misuse Duration := ofUnits "seconds" 1 count
def ofHours (count : Int) : Except Misuse Duration := ofUnits "hours" 3600 count
def ofDays (count : Int) : Except Misuse Duration := ofUnits "days" 86400 count

def ofMillis (count : Int) : Except Misuse Duration :=
  match ofMillis? count with
  | some d => .ok d
  | none => .error (.durationOutOfBounds "milliseconds")

def isNegative (d : Duration) : Bool := d.nanos < 0

def neg (d : Duration) : Duration :=
  ⟨-d.nanos, by rw [Int.natAbs_neg]; exact d.bounded⟩

@[simp] theorem nanos_neg (d : Duration) : d.neg.nanos = -d.nanos := rfl

def add? (a b : Duration) : Option Duration := ofNanos? (a.nanos + b.nanos)
def sub? (a b : Duration) : Option Duration := ofNanos? (a.nanos - b.nanos)

def compare (a b : Duration) : Ordering := Ord.compare a.nanos b.nanos

/-- The whole milliseconds, without what is left over. -/
def millis (d : Duration) : Int := d.nanos.tdiv 1000000

/-- Rounds a real count of milliseconds, which must not be beyond 64 bits. The bound itself
rounds to the longest duration. -/
def ofRealMillis? (millis : Binary64) : Option Duration :=
  match millis with
  | .finite x => if x.round.natAbs ≤ 2 ^ (63 : Nat) then
      ofMillis? (max (-2 ^ (63 : Nat)) (min x.round (2 ^ (63 : Nat) - 1))) else none
  | _ => none

def scale? (d : Duration) (factor : Binary64) : Option Duration :=
  ofRealMillis? ((Binary64.ofInt d.millis).mul factor)

/-- Numbers and the letters after them, as in `1D2H`; `number` holds the digits before `cs`. -/
def components? (number : List Char) : List Char → Option (List (Binary64 × Char))
  | [] => if number = [] then some [] else none
  | c :: cs =>
      if c.isDigit ∨ c = '.' ∨ c = ',' then
        components? (number ++ [if c = ',' then '.' else c]) cs
      else
        match Decimal.readUnsigned? false number, components? [] cs with
        | some value, some rest => some ((value.toBinary64, c.toUpper) :: rest)
        | _, _ => none

def dateUnit? : Char → Option Int
  | 'W' => some 604800
  | 'D' => some 86400
  | _ => none

def timeUnit? : Char → Option Int
  | 'H' => some 3600
  | 'M' => some 60
  | 'S' => some 1
  | _ => none

/-- Adds components to a sum of milliseconds, in the order they are written. -/
def accumulate? (unit? : Char → Option Int) (sum : Binary64) :
    List (Binary64 × Char) → Option Binary64
  | [] => some sum
  | (value, letter) :: rest =>
      match unit? letter with
      | some seconds =>
          accumulate? unit?
            (sum.add ((value.mul (Binary64.ofInt seconds)).mul (Binary64.ofInt 1000))) rest
      | none => none

def isTimeMark (c : Char) : Bool := c == 'T' || c == 't'

/-- The milliseconds of the part after the `P`. A `T` needs a component after it. -/
def readBody? (cs : List Char) : Option Binary64 :=
  let datePart := cs.takeWhile (!isTimeMark ·)
  match components? [] datePart with
  | none => none
  | some dateComponents =>
      match accumulate? dateUnit? (.zero false) dateComponents with
      | none => none
      | some sum =>
          match cs.dropWhile (!isTimeMark ·) with
          | [] => if dateComponents = [] then none else some sum
          | _ :: timePart =>
              match components? [] timePart with
              | none => none
              | some timeComponents =>
                  if timeComponents = [] then none
                  else accumulate? timeUnit? sum timeComponents

def read? (cs : List Char) : Option Duration :=
  let (negative, cs) :=
    match cs with
    | '-' :: rest => (true, rest)
    | _ => (false, cs)
  match cs with
  | [] => none
  | c :: body =>
      if c = 'P' ∨ c = 'p' then
        match (readBody? body).bind ofRealMillis? with
        | some d => some (if negative then d.neg else d)
        | none => none
      else none

def parse (text : String) : Except ParseError Duration :=
  match read? text.toList with
  | some d => .ok d
  | none => .error (.invalidDuration text)

/-- A count and its letter, left out for a count of zero. -/
def component (count : Nat) (letter : Char) : List Char :=
  if count = 0 then [] else Nat.toDigits 10 count ++ [letter]

/-- Three digits without the zeros at the end. -/
def fractionChars (millis : Nat) : List Char :=
  let digits := [Nat.digitChar (millis / 100), Nat.digitChar (millis / 10 % 10),
    Nat.digitChar (millis % 10)]
  (digits.reverse.dropWhile (· == '0')).reverse

def secondsChars (millis : Nat) : List Char :=
  if millis % 1000 = 0 then component (millis / 1000) 'S'
  else Nat.toDigits 10 (millis / 1000) ++ '.' :: (fractionChars (millis % 1000) ++ ['S'])

def timeChars (millis : Nat) : List Char :=
  if millis = 0 then []
  else
    'T' :: (component (millis / 3600000) 'H' ++ component (millis / 60000 % 60) 'M' ++
      secondsChars (millis % 60000))

def formatMillis (millis : Int) : List Char :=
  if millis = 0 then ['P', 'T', '0', 'S']
  else
    let body := 'P' :: (component (millis.natAbs / 86400000) 'D' ++
      timeChars (millis.natAbs % 86400000))
    if millis < 0 then '-' :: body else body

def format (d : Duration) : String := String.ofList (formatMillis d.millis)

end Duration

end LiveFilter
