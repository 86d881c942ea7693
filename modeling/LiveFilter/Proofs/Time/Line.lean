import LiveFilter.Proofs.Time.Differences
import LiveFilter.Proofs.Time.Moves

/-! # Instants on a line

Outside of leap seconds a point of time is the count of nanoseconds since the epoch, a move adds to
this count and a difference subtracts two of them, whatever days, seconds and signs are carried over
on the way. A move never ends in a leap second, so that this also holds of moves one after the
other.
-/

namespace LiveFilter

namespace Timestamp

variable {t u : Timestamp} {d : Duration}

theorem normalize?_eq_some_iff {day seconds nanos : Int} : normalize? day seconds nanos = some u ↔
    ¬u.InLeapSecond ∧ u.unixNanos = (day * 86400 + seconds) * 1000000000 + nanos := by
  refine ⟨unixNanos_of_normalize?, fun ⟨hu, h⟩ => ?_⟩
  have hvalid := u.valid
  simp only [InLeapSecond, Valid, second, unixNanos] at hu h hvalid
  refine ofParts?_eq_some.2 ⟨?_, ?_, ?_⟩ <;> omega

theorem add?_eq_some_iff (ht : ¬t.InLeapSecond) :
    t.add? d = some u ↔ ¬u.InLeapSecond ∧ u.unixNanos = t.unixNanos + d.nanos := by
  obtain ⟨hparts, _⟩ := whole_and_part d.nanos
  have hadd : t.add? d = normalize? t.day (t.seconds + d.nanos.tdiv 1000000000)
      (t.nanos + d.nanos.tmod 1000000000) := if_neg ht
  have hsum : (t.day * 86400 + (t.seconds + d.nanos.tdiv 1000000000)) * 1000000000 +
      (t.nanos + d.nanos.tmod 1000000000) = t.unixNanos + d.nanos := by
    rw [unixNanos]
    omega
  rw [hadd, normalize?_eq_some_iff, hsum]

theorem nanosSince_eq_sub (ht : ¬t.InLeapSecond) (hu : ¬u.InLeapSecond) :
    nanosSince t u = t.unixNanos - u.unixNanos := by
  have hcorrection : leapCorrection t u = 0 := by simp [leapCorrection, ht, hu]
  rw [nanosSince, hcorrection, unixNanos, unixNanos]
  omega

theorem since_of_add? (ht : ¬t.InLeapSecond) (h : t.add? d = some u) : u.since t = d := by
  obtain ⟨hu, hunix⟩ := (add?_eq_some_iff ht).1 h
  have hnanos : (u.since t).nanos = u.unixNanos - t.unixNanos := nanosSince_eq_sub hu ht
  rw [Duration.eq_iff, hnanos, hunix]
  omega

theorem add?_neg_of_add? (ht : ¬t.InLeapSecond) (h : t.add? d = some u) : u.add? d.neg = some t := by
  obtain ⟨hu, hunix⟩ := (add?_eq_some_iff ht).1 h
  refine (add?_eq_some_iff hu).2 ⟨ht, ?_⟩
  rw [hunix, Duration.nanos_neg]
  omega

theorem add?_of_add? {e f : Duration} (ht : ¬t.InLeapSecond) (h : t.add? d = some u)
    (hf : d.add? e = some f) : u.add? e = t.add? f := by
  obtain ⟨hu, hunix⟩ := (add?_eq_some_iff ht).1 h
  have hsum : f.nanos = d.nanos + e.nanos := Duration.ofNanos?_eq_some.1 hf
  refine Option.ext fun v => ?_
  rw [add?_eq_some_iff hu, add?_eq_some_iff ht, hunix, hsum, Int.add_assoc]

theorem since_add?_since {v : Timestamp} (ht : ¬t.InLeapSecond) (hu : ¬u.InLeapSecond)
    (hv : ¬v.InLeapSecond) : (t.since u).add? (u.since v) = some (t.since v) := by
  refine Duration.ofNanos?_eq_some.2 ?_
  change nanosSince t v = nanosSince t u + nanosSince u v
  rw [nanosSince_eq_sub ht hu, nanosSince_eq_sub hu hv, nanosSince_eq_sub ht hv]
  omega

end Timestamp

namespace Instant

variable {a b c x : Instant} {d : Duration}

/-- Two moves one after the other are the move by the sum of the durations. -/
theorem add?_of_add? {e f : Duration} (ha : ¬a.time.InLeapSecond) (hx : a.add? d = some x)
    (hf : d.add? e = some f) : x.add? e = a.add? f := by
  obtain ⟨htime, hoffset⟩ := add?_eq_some.1 hx
  rw [add?, add?, Timestamp.add?_of_add? ha htime hf, hoffset]

theorem exists_add?_of_add? {y : Instant} {e : Duration} (ha : ¬a.time.InLeapSecond)
    (hx : a.add? d = some x) (hy : x.add? e = some y) :
    ∃ f, d.add? e = some f ∧ a.add? f = some y := by
  obtain ⟨hxtime, _⟩ := add?_eq_some.1 hx
  obtain ⟨hytime, _⟩ := add?_eq_some.1 hy
  obtain ⟨hordinary, _⟩ := (Timestamp.add?_eq_some_iff ha).1 hxtime
  obtain ⟨hlast, _⟩ := (Timestamp.add?_eq_some_iff hordinary).1 hytime
  -- the differences on the way are the durations, and they have a sum
  have hsum : d.add? e = some (y.time.since a.time) := by
    have h := Timestamp.since_add?_since hlast hordinary ha
    rw [Timestamp.since_of_add? ha hxtime, Timestamp.since_of_add? hordinary hytime] at h
    rw [← h, Duration.add?, Duration.add?, Int.add_comm]
  exact ⟨_, hsum, (add?_of_add? ha hx hsum).symm.trans hy⟩

/-- Outside of leap seconds durations act on instants as on a line: a difference undoes a move, a
move back gives the instant with the offset it had, moves one after the other are a move by the
sum, which exists if they can be made, and differences add up. -/
theorem durations_act (ha : ¬a.time.InLeapSecond) (hb : ¬b.time.InLeapSecond)
    (hc : ¬c.time.InLeapSecond) :
    (∀ d x, a.add? d = some x → x.since a = d ∧ x.sub? d = some a ∧
      (∀ e f, d.add? e = some f → x.add? e = a.add? f) ∧
      ∀ e y, x.add? e = some y → ∃ f, d.add? e = some f ∧ a.add? f = some y) ∧
    (a.since b).add? (b.since c) = some (a.since c) := by
  refine ⟨fun d x hx => ?_, Timestamp.since_add?_since ha hb hc⟩
  obtain ⟨htime, hoffset⟩ := add?_eq_some.1 hx
  refine ⟨Timestamp.since_of_add? ha htime, ?_, ?_, ?_⟩
  · exact add?_eq_some.2 ⟨Timestamp.add?_neg_of_add? ha htime, hoffset.symm⟩
  · exact fun e f hf => add?_of_add? ha hx hf
  · exact fun e y hy => exists_add?_of_add? ha hx hy

/-- A move back by a second and a half into the day before, over the leap second at its end, and on
by a nanosecond more than a second. -/
theorem durations_act_newYear :
    let zone : ZoneOffset := ⟨3600, by decide⟩
    let a : Instant := ⟨⟨17167, 1, 250000000, by decide⟩, some zone⟩
    let b : Instant := .utc ⟨0, 0, 0, by decide⟩
    let c : Instant := .utc ⟨17168, 86399, 999999999, by decide⟩
    let d : Duration := ⟨-1500000000, by decide⟩
    let e : Duration := ⟨1000000001, by decide⟩
    let x : Instant := ⟨⟨17166, 86399, 750000000, by decide⟩, some zone⟩
    let y : Instant := ⟨⟨17167, 0, 750000001, by decide⟩, some zone⟩
    (¬a.time.InLeapSecond ∧ ¬b.time.InLeapSecond ∧ ¬c.time.InLeapSecond) ∧
      a.add? d = some x ∧ x.add? e = some y ∧ x.since a = d ∧ x.sub? d = some a ∧
      (∃ f, d.add? e = some f ∧ a.add? f = some y) ∧
      (a.since b).add? (b.since c) = some (a.since c) := by
  intro zone a b c d e x y
  have hordinary : ¬a.time.InLeapSecond ∧ ¬b.time.InLeapSecond ∧ ¬c.time.InLeapSecond := by decide
  have hx : a.add? d = some x := rfl
  have hy : x.add? e = some y := by
    refine add?_eq_some.2 ⟨?_, rfl⟩
    dsimp only [x, e, y]
    decide
  obtain ⟨ha, hb, hc⟩ := hordinary
  obtain ⟨hmove, hdifferences⟩ := durations_act ha hb hc
  obtain ⟨hsince, hback, _, htwice⟩ := hmove d x hx
  exact ⟨⟨ha, hb, hc⟩, hx, hy, hsince, hback, htwice e y hy, hdifferences⟩

end Instant

end LiveFilter
