import LiveFilter.Live.Evaluator
import LiveFilter.Proofs.Sql.Numbering
import LiveFilter.Proofs.Text.Digits
import LiveFilter.Proofs.Time.DurationRounding
import LiveFilter.Proofs.Time.Literals

/-! # What bound texts stand for

Times and durations are bound as texts. An instant is read back from its text as the same point of
time, down to the nanosecond, if the text shows a year of four digits and an offset that has no
seconds, and otherwise it is not. The text for a duration counts milliseconds, and what a duration
has beyond its last whole millisecond is not in it.
-/

namespace LiveFilter

namespace Instant

def toUtc (i : Instant) : Instant := utc i.time

theorem format_toUtc (i : Instant) : i.toUtc.format = i.formatNaive ++ "Z" := by
  rw [format, formatNaive, ← String.toList_inj, String.toList_append, String.toList_ofList,
    String.toList_ofList]
  rfl

end Instant

namespace Sql

/-- The instant in the zone that its text is written in. -/
def shown : TimestampType → Instant → Instant
  | .withTimeZone, i => i
  | .withoutTimeZone, i => i.toUtc

/-- Reads a bound instant. A text without a zone is in UTC. -/
def readInstant : TimestampType → String → Except ParseError Instant
  | .withTimeZone, text => Instant.parse text
  | .withoutTimeZone, text => Instant.parse (text ++ "Z")

theorem readInstant_instantText (type : TimestampType) (i : Instant) :
    readInstant type (instantText type i) = Instant.parse (shown type i).format := by
  cases type with
  | withTimeZone => rfl
  | withoutTimeZone =>
      change Instant.parse (i.formatNaive ++ "Z") = Instant.parse i.toUtc.format
      rw [Instant.format_toUtc]

theorem exists_readInstant_iff {type : TimestampType} {i : Instant} :
    (∃ j, readInstant type (instantText type i) = .ok j ∧ j.sameTime i = true) ↔
      (shown type i).Readable := by
  have htime : i.time = (shown type i).time := by cases type <;> rfl
  rw [readInstant_instantText, ← Instant.exists_parse_format_iff]
  unfold Instant.sameTime
  rw [htime]

def readCount? (cs : List Char) : Option Nat :=
  let digits := cs.takeWhile Char.isDigit
  if digits ≠ [] ∧ cs.dropWhile Char.isDigit = " milliseconds".toList then
    some (Nat.ofDigitChars 10 digits 0)
  else none

def readSigned? : List Char → Option Int
  | '-' :: cs => (readCount? cs).map fun n : Nat => -(n : Int)
  | cs => (readCount? cs).map fun n : Nat => (n : Int)

def readMillis? (text : String) : Option Int := readSigned? text.toList

def readDuration? (text : String) : Option Duration := (readMillis? text).bind Duration.ofMillis?

theorem readCount?_toDigits (n : Nat) :
    readCount? (Nat.toDigits 10 n ++ " milliseconds".toList) = some n := by
  have hunit : EndsDigits " milliseconds".toList := .cons _ rfl
  have hdigits := takeWhile_isDigit (isDigit_of_mem_toDigits (n := n)) hunit
  have hrest := dropWhile_isDigit (isDigit_of_mem_toDigits (n := n)) hunit
  simp only [readCount?, hdigits, hrest, ne_eq, Nat.toDigits_ne_nil, not_false_eq_true, and_self,
    if_true, Nat.ofDigitChars_ten_toDigits]

theorem readSigned?_toDigits (n : Nat) :
    readSigned? (Nat.toDigits 10 n ++ " milliseconds".toList) = some (n : Int) := by
  have hcount := readCount?_toDigits n
  unfold readSigned?
  split
  · rename_i cs hcs
    exact absurd hcs (toDigits_append_ne rfl)
  · rw [hcount, Option.map_some]

theorem readMillis?_durationText (d : Duration) : readMillis? (durationText d) = some d.millis := by
  rw [readMillis?, durationText, Json.intText, String.toList_append]
  split
  · have hcount := readCount?_toDigits d.millis.natAbs
    rw [String.toList_append, Nat.toList_repr, List.append_assoc]
    refine (congrArg (Option.map fun n : Nat => -(n : Int)) hcount).trans ?_
    rw [Option.map_some]
    exact congrArg some (by omega)
  · rw [Nat.toList_repr, readSigned?_toDigits]
    exact congrArg some (by omega)

theorem readDuration?_durationText (d : Duration) : ∃ e, readDuration? (durationText d) = some e ∧
    e.nanos + d.nanos.tmod 1000000 = d.nanos ∧ (e = d ↔ 1000000 ∣ d.nanos) := by
  have hsplit : d.millis * 1000000 + d.nanos.tmod 1000000 = d.nanos :=
    Int.tdiv_mul_add_tmod d.nanos 1000000
  have hbound : (d.millis * 1000000).natAbs ≤ Duration.limit := by
    rw [Int.natAbs_mul, Duration.millis, Int.natAbs_tdiv]
    exact (Nat.div_mul_le_self _ _).trans d.bounded
  refine ⟨⟨d.millis * 1000000, hbound⟩, ?_, hsplit, ?_⟩
  · rw [readDuration?, readMillis?_durationText, Option.bind_some]
    exact Duration.ofNanos?_eq_some.2 rfl
  · rw [Duration.eq_iff, Int.dvd_iff_tmod_eq_zero]
    change d.millis * 1000000 = d.nanos ↔ _
    omega

theorem readable_shown {text : String} {i : Instant} (h : Instant.parse text = .ok i)
    (hutc : i.toUtc.Readable) (type : TimestampType) : (shown type i).Readable := by
  cases type with
  | withTimeZone => exact Instant.readable_of_parse h
  | withoutTimeZone => exact hutc

/-- Nothing is lost of what a literal stands for, if its years have four digits in UTC as well. -/
theorem literal_reads_back (type : TimestampType) (text : String) :
    (∀ i, Instant.parse text = .ok i → i.toUtc.Readable →
      ∃ j, readInstant type (instantText type i) = .ok j ∧ j.sameTime i = true) ∧
    (∀ v, Interval.parse text = .ok v → v.start.toUtc.Readable → v.stop.toUtc.Readable →
      (∃ j, readInstant type (instantText type v.start) = .ok j ∧ j.sameTime v.start = true) ∧
      ∃ j, readInstant type (instantText type v.stop) = .ok j ∧ j.sameTime v.stop = true) ∧
    ∀ d, Duration.parse text = .ok d → readDuration? (durationText d) = some d := by
  refine ⟨fun i h hutc => ?_, fun v h hfirst hlast => ?_, fun d h => ?_⟩
  · apply exists_readInstant_iff.2
    exact readable_shown h hutc type
  · obtain ⟨⟨first, hstart⟩, ⟨last, hstop⟩, -⟩ := Interval.bounds_of_parse h
    exact ⟨exists_readInstant_iff.2 (readable_shown hstart hfirst type),
      exists_readInstant_iff.2 (readable_shown hstop hlast type)⟩
  · obtain ⟨e, hread, -, hexact⟩ := readDuration?_durationText d
    have hwhole := Duration.dvd_nanos_of_read? (Duration.parse_eq_ok_iff.1 h)
    rw [hread, hexact.2 hwhole]

end Sql

end LiveFilter
