import LiveFilter.Time.Timestamp

/-! # Instants

A point of time together with the offset from UTC it was written with. The offset is kept for
writing alone: order and equality are those of the points of time. Literals follow RFC 3339 and
are read byte by byte.
-/

namespace LiveFilter

attribute [local instance (high)] instPowNat

/-- An offset from UTC, in seconds, of less than a day. -/
structure ZoneOffset where
  seconds : Int
  bounded : seconds.natAbs < 86400
deriving DecidableEq

/-- An instant without an offset was written in UTC, with a `Z`. -/
structure Instant where
  time : Timestamp
  offset : Option ZoneOffset

namespace Instant

def utc (t : Timestamp) : Instant := ⟨t, none⟩

def isUtc (i : Instant) : Bool := i.offset.isNone

def compare (a b : Instant) : Ordering := a.time.compare b.time

def sameTime (a b : Instant) : Bool := decide (a.time = b.time)

def add? (i : Instant) (d : Duration) : Option Instant :=
  (i.time.add? d).map fun t => ⟨t, i.offset⟩

theorem add?_eq_some {i j : Instant} {d : Duration} :
    i.add? d = some j ↔ i.time.add? d = some j.time ∧ j.offset = i.offset := by
  rw [add?, Option.map_eq_some_iff]
  constructor
  · rintro ⟨t, ht, rfl⟩
    exact ⟨ht, rfl⟩
  · rintro ⟨ht, hoffset⟩
    exact ⟨j.time, ht, by rw [← hoffset]⟩

def sub? (i : Instant) (d : Duration) : Option Instant := i.add? d.neg

def since (a b : Instant) : Duration := a.time.since b.time

def padded (width n : Nat) : List Char :=
  let digits := Nat.toDigits 10 n
  List.replicate (width - digits.length) '0' ++ digits

/-- Four digits for the years that have them; other years carry a sign as well. -/
def yearChars (year : Int) : List Char :=
  if 0 ≤ year ∧ year ≤ 9999 then padded 4 year.toNat
  else (if year < 0 then '-' else '+') :: padded 4 year.natAbs

/-- A fraction of a second with as many digits as it takes, three at a time. -/
def fractionChars (nanos : Nat) : List Char :=
  if nanos = 0 then []
  else if nanos % 1000000 = 0 then '.' :: padded 3 (nanos / 1000000)
  else if nanos % 1000 = 0 then '.' :: padded 6 (nanos / 1000)
  else '.' :: padded 9 nanos

def dateChars (d : Date) : List Char :=
  yearChars d.year ++ '-' :: (padded 2 d.month ++ '-' :: padded 2 d.day)

/-- A leap second is written as second 60. -/
def timeChars (seconds nanos : Nat) : List Char :=
  let leap := nanos / Timestamp.second
  padded 2 (seconds / 3600) ++ ':' :: (padded 2 (seconds / 60 % 60) ++
    ':' :: (padded 2 (seconds % 60 + leap) ++ fractionChars (nanos % Timestamp.second)))

/-- Date and time on a clock that is so many seconds ahead of UTC. -/
def localChars (t : Timestamp) (ahead : Int) : List Char :=
  let seconds := t.seconds + ahead
  dateChars (Date.ofDayNumber (t.day + seconds / 86400)) ++
    'T' :: timeChars (seconds % 86400).toNat t.nanos

/-- An offset is rounded to the nearest minute, and half a minute away from zero. -/
def offsetChars (ahead : Int) : List Char :=
  let minutes := (ahead.natAbs + 30) / 60
  (if ahead < 0 then '-' else '+') :: (padded 2 (minutes / 60) ++ ':' :: padded 2 (minutes % 60))

def formatChars (i : Instant) : List Char :=
  match i.offset with
  | none => localChars i.time 0 ++ ['Z']
  | some offset => localChars i.time offset.seconds ++ offsetChars offset.seconds

def format (i : Instant) : String := String.ofList i.formatChars

def formatNaive (i : Instant) : String := String.ofList (localChars i.time 0)

def bytes (cs : List Char) : List Nat :=
  cs.flatMap fun c => (String.utf8EncodeChar c).map UInt8.toNat

def IsDigit (byte : Nat) : Prop := 48 ≤ byte ∧ byte ≤ 57

instance (byte : Nat) : Decidable (IsDigit byte) := inferInstanceAs (Decidable (_ ∧ _))

/-- A number of exactly `count` digits, appended to the digits of `acc`. -/
def readDigits (acc : Nat) : Nat → List Nat → Except InstantFault (Nat × List Nat)
  | 0, bs => .ok (acc, bs)
  | _ + 1, [] => .error .short
  | count + 1, b :: bs =>
      if IsDigit b then readDigits (acc * 10 + (b - 48)) count bs else .error .invalid

def readMark (marks : List Char) : List Nat → Except InstantFault (List Nat)
  | [] => .error .short
  | b :: bs => if b ∈ marks.map Char.toNat then .ok bs else .error .invalid

def readDate (bs : List Nat) : Except InstantFault (Date × List Nat) := do
  let (year, bs) ← readDigits 0 4 bs
  let bs ← readMark ['-'] bs
  let (month, bs) ← readDigits 0 2 bs
  let bs ← readMark ['-'] bs
  let (day, bs) ← readDigits 0 2 bs
  let date : Date := ⟨year, month, day⟩
  if date.Valid then .ok (date, bs) else .error .range

/-- Up to nine digits count as a fraction of a second; further digits are passed over. -/
def readFraction (bs : List Nat) : Except InstantFault (Nat × List Nat) :=
  match bs with
  | 46 :: rest =>
      let digits := rest.takeWhile (decide <| IsDigit ·)
      if rest = [] then .error .short
      else if digits = [] then .error .invalid
      else
        let counted := digits.take 9
        let value := counted.foldl (fun acc b => acc * 10 + (b - 48)) 0
        .ok (value * 10 ^ (9 - counted.length), rest.drop digits.length)
  | _ => .ok (0, bs)

/-- Seconds of the day and nanoseconds. Second 60 is the leap second after second 59. -/
def readTime (bs : List Nat) : Except InstantFault ((Nat × Nat) × List Nat) := do
  let (hour, bs) ← readDigits 0 2 bs
  let bs ← readMark [':'] bs
  let (minute, bs) ← readDigits 0 2 bs
  let bs ← readMark [':'] bs
  let (second, bs) ← readDigits 0 2 bs
  let (nanos, bs) ← readFraction bs
  let (second, nanos) := if second = 60 then (59, nanos + Timestamp.second) else (second, nanos)
  if hour < 24 ∧ minute < 60 ∧ second < 60 then
    .ok ((hour * 3600 + minute * 60 + second, nanos), bs)
  else .error .range

/-- The sign of an offset: plus, hyphen or the minus sign U+2212. True for a negative one. -/
def readOffsetSign : List Nat → Except InstantFault (Bool × List Nat)
  | [] => .error .short
  | 43 :: bs => .ok (false, bs)
  | 45 :: bs => .ok (true, bs)
  | 0xE2 :: 0x88 :: 0x92 :: bs => .ok (true, bs)
  | _ => .error .invalid

/-- Two digits, of which a single byte left over is too short whatever it is. -/
def readPair (bs : List Nat) : Except InstantFault (Nat × List Nat) :=
  if bs.length < 2 then .error .short else readDigits 0 2 bs

def readOffset (bs : List Nat) : Except InstantFault (Option Int × List Nat) :=
  match bs with
  | 90 :: rest | 122 :: rest => .ok (none, rest)
  | _ => do
      let (negative, bs) ← readOffsetSign bs
      let (hours, bs) ← readPair bs
      let bs ← readMark [':'] bs
      let (minutes, bs) ← readPair bs
      if 60 ≤ minutes then .error .range
      else
        let total : Int := ((hours * 60 + minutes) * 60 : Nat)
        .ok (some (if negative then -total else total), bs)

/-- The instant at which a clock with that offset shows that date and time. -/
def ofLocal (date : Date) (seconds nanos : Nat) (ahead : Option Int) :
    Except InstantFault Instant :=
  let shift := ahead.getD 0
  if h : shift.natAbs < 86400 then
    let total := (seconds : Int) - shift
    match Timestamp.ofParts? (date.toDayNumber + total / 86400) (total % 86400).toNat nanos with
    | some t => .ok ⟨t, ahead.map fun _ => ⟨shift, h⟩⟩
    | none => .error .range
  else .error .range

def readBytes (bs : List Nat) : Except InstantFault Instant :=
  if bs.length < 19 then .error .short
  else do
    let (date, bs) ← readDate bs
    let bs ← readMark ['T', 't', ' '] bs
    let ((seconds, nanos), bs) ← readTime bs
    let (ahead, bs) ← readOffset bs
    if bs = [] then ofLocal date seconds nanos ahead else .error .trailing

def parse (text : String) : Except ParseError Instant :=
  match readBytes (bytes text.toList) with
  | .ok i => .ok i
  | .error fault => .error (.invalidInstant text fault)

end Instant

end LiveFilter
