import LiveFilter.Live.Evaluator
import LiveFilter.Proofs.Outcome
import LiveFilter.Proofs.Time.IntervalOrder

/-! # The sign of a difference

A difference counts whole days and then compares times of day. The leap second at the end of a day
is past all times of that day, and so reaches into the first second of the next one: two points on
both sides of such a midnight are the only ones whose difference has not the sign of their order.
-/

namespace LiveFilter

namespace Timestamp

variable {t u : Timestamp}

/-- The leap second at the end of a day, counted on from midnight, is as far as `u` in the first
second of the next day. -/
def ReachesInto (t u : Timestamp) : Prop :=
  t.seconds = 86399 ∧ u.day = t.day + 1 ∧ u.seconds = 0 ∧ u.nanos + second ≤ t.nanos

instance (t u : Timestamp) : Decidable (t.ReachesInto u) :=
  inferInstanceAs (Decidable (_ ∧ _ ∧ _ ∧ _))

theorem ReachesInto.position_lt (h : t.ReachesInto u) : t.position < u.position := by
  obtain ⟨hseconds, hday, hfirst, _⟩ := h
  have hnanos := t.nanos_lt
  rw [position, position, hseconds, hday, hfirst]
  omega

/-- A correction is made for a leap second of the point that has the earlier time of day. -/
theorem leapCorrection_cases (t u : Timestamp) :
    (u.seconds < t.seconds ∧ second ≤ u.nanos ∧ leapCorrection t u = 1) ∨
    (t.seconds < u.seconds ∧ second ≤ t.nanos ∧ leapCorrection t u = -1) ∨
    ((u.seconds < t.seconds → u.nanos < second) ∧ (t.seconds < u.seconds → t.nanos < second) ∧
      leapCorrection t u = 0) := by
  unfold leapCorrection InLeapSecond
  split
  · rename_i h
    exact .inl ⟨h.1, h.2, rfl⟩
  · rename_i hu
    split
    · rename_i h
      exact .inr (.inl ⟨h.1, h.2, rfl⟩)
    · rename_i ht
      exact .inr (.inr ⟨fun h => Nat.not_le.1 fun hleap => hu ⟨h, hleap⟩,
        fun h => Nat.not_le.1 fun hleap => ht ⟨h, hleap⟩, rfl⟩)

theorem nanosSince_swap (t u : Timestamp) : nanosSince t u = -nanosSince u t := by
  have hcorrection : leapCorrection t u = -leapCorrection u t := by
    have htu := leapCorrection_cases t u
    have hut := leapCorrection_cases u t
    omega
  rw [nanosSince, nanosSince, hcorrection]
  omega

theorem nanosSince_self (t : Timestamp) : nanosSince t t = 0 := by
  have h := nanosSince_swap t t
  omega

theorem nanosSince_of_reachesInto (h : t.ReachesInto u) :
    nanosSince t u = t.nanos - (u.nanos + second : Nat) := by
  obtain ⟨hseconds, hday, hfirst, _⟩ := h
  have hordinary : ¬u.InLeapSecond := by
    intro hleap
    have hlast := u.valid.2.2.2.2 hleap
    omega
  have hcorrection : leapCorrection t u = 0 := by
    simp [leapCorrection, hordinary, hseconds, hfirst]
  rw [nanosSince, hcorrection, hseconds, hday, hfirst, second]
  omega

theorem nanosSince_neg_of_position_lt (h : t.position < u.position) (hclear : ¬t.ReachesInto u) :
    nanosSince t u < 0 := by
  have ht := t.valid
  have hu := u.valid
  have hcorrection := leapCorrection_cases t u
  simp only [ReachesInto, nanosSince, position, Valid, second] at *
  omega

theorem nanosSince_neg_iff (h : t.position < u.position) :
    nanosSince t u < 0 ↔ ¬t.ReachesInto u := by
  refine ⟨fun hneg hreach => ?_, nanosSince_neg_of_position_lt h⟩
  rw [nanosSince_of_reachesInto hreach] at hneg
  have hfar := hreach.2.2.2
  omega

theorem compare_since_zero_iff (t u : Timestamp) :
    Duration.compare (t.since u) .zero = t.compare u ↔ ¬t.ReachesInto u ∧ ¬u.ReachesInto t := by
  change Ord.compare (nanosSince t u) 0 = Ord.compare t.position u.position ↔ _
  rcases Int.lt_trichotomy t.position u.position with h | h | h
  · have hback : ¬u.ReachesInto t := fun hreach => Int.lt_asymm h hreach.position_lt
    rw [Int.compare_eq_lt.2 h, Int.compare_eq_lt, nanosSince_neg_iff h, and_iff_left hback]
  · obtain rfl := position_inj h
    have hclear : ¬t.ReachesInto t := fun hreach => Int.lt_irrefl _ hreach.position_lt
    rw [nanosSince_self, Int.compare_eq_eq.2 rfl, Int.compare_eq_eq.2 rfl]
    exact iff_of_true rfl ⟨hclear, hclear⟩
  · have hclear : ¬t.ReachesInto u := fun hreach => Int.lt_asymm h hreach.position_lt
    rw [Int.compare_eq_gt.2 h, Int.compare_eq_gt, nanosSince_swap, Int.neg_pos,
      nanosSince_neg_iff h, and_iff_right hclear]

end Timestamp

namespace Interval

variable {i : Interval}

/-- An interval is empty, or its length is positive, or its length falls short of zero by what the
leap second that it starts in goes beyond its end. -/
theorem length_cases (hi : i.Ordered) :
    (i.start.time = i.stop.time ∧ ¬i.start.time.ReachesInto i.stop.time ∧ i.length.nanos = 0) ∨
    (i.start.time ≠ i.stop.time ∧ ¬i.start.time.ReachesInto i.stop.time ∧ 0 < i.length.nanos) ∨
    (i.start.time ≠ i.stop.time ∧ i.start.time.ReachesInto i.stop.time ∧
      i.length.nanos = (i.stop.time.nanos + Timestamp.second : Nat) - i.start.time.nanos) := by
  have hlength : i.length.nanos = -Timestamp.nanosSince i.start.time i.stop.time :=
    Timestamp.nanosSince_swap _ _
  by_cases hsame : i.start.time = i.stop.time
  · refine .inl ⟨hsame, ?_, ?_⟩
    · rw [hsame]
      exact fun hreach => Int.lt_irrefl _ hreach.position_lt
    · rw [hlength, hsame, Timestamp.nanosSince_self, Int.neg_zero]
  · have hlt : i.start.time.position < i.stop.time.position :=
      Int.lt_iff_le_and_ne.2 ⟨ordered_iff.1 hi, fun h => hsame (Timestamp.position_inj h)⟩
    by_cases hreach : i.start.time.ReachesInto i.stop.time
    · refine .inr (.inr ⟨hsame, hreach, ?_⟩)
      rw [hlength, Timestamp.nanosSince_of_reachesInto hreach]
      omega
    · refine .inr (.inl ⟨hsame, hreach, ?_⟩)
      rw [hlength, Int.neg_pos]
      exact Timestamp.nanosSince_neg_of_position_lt hlt hreach

end Interval

/-- The difference of two instants has the sign of their order unless one of them is the leap second
at the end of a day and reaches as far into the next day as the other one. This is also all that can
make the length of an interval negative, or zero with bounds that differ. -/
theorem Instant.since_follows_order (a b : Instant) (i : Interval) (hi : i.Ordered) :
    (Duration.compare (a.since b) .zero = a.compare b ↔
      ¬a.time.ReachesInto b.time ∧ ¬b.time.ReachesInto a.time) ∧
    (i.length.isNegative = true ↔ i.start.time.ReachesInto i.stop.time ∧
      i.stop.time.nanos + Timestamp.second < i.start.time.nanos) ∧
    (i.length = .zero ↔ i.start.sameTime i.stop = true ∨
      i.start.time.ReachesInto i.stop.time ∧
        i.stop.time.nanos + Timestamp.second = i.start.time.nanos) := by
  refine ⟨Timestamp.compare_since_zero_iff a.time b.time, ?_⟩
  rw [Duration.isNegative, decide_eq_true_eq, Duration.eq_iff, sameTime, decide_eq_true_eq]
  change (_ ↔ _) ∧ (i.length.nanos = 0 ↔ _)
  rcases Interval.length_cases hi with ⟨hsame, hreach, hlength⟩ | ⟨hsame, hreach, hlength⟩ |
    ⟨hsame, hreach, hlength⟩
  · exact ⟨iff_of_false (by omega) fun h => hreach h.1, iff_of_true hlength (.inl hsame)⟩
  · refine ⟨iff_of_false (by omega) fun h => hreach h.1, iff_of_false (by omega) ?_⟩
    exact fun h => h.elim hsame fun h => hreach h.1
  · rw [and_iff_right hreach, and_iff_right hreach, or_iff_right hsame]
    omega

/-- Half a second into the leap second at the end of 2016, and a nanosecond more than that into the
new year. -/
theorem Instant.since_follows_order_newYear :
    let a : Instant := .utc ⟨17166, 86399, 1500000000, by decide⟩
    let b : Instant := .utc ⟨17167, 0, 500000001, by decide⟩
    let i : Interval := ⟨a, b⟩
    i.Ordered ∧ Duration.compare (a.since b) .zero = a.compare b ∧ i.length.isNegative = false ∧
      i.length ≠ .zero := by
  intro a b i
  have hi : i.Ordered := by decide
  obtain ⟨hsign, hnegative, hzero⟩ := since_follows_order a b i hi
  have hclear : ¬a.time.ReachesInto b.time := by decide
  refine ⟨hi, hsign.2 ⟨hclear, by decide⟩, ?_, ?_⟩
  · rw [Bool.eq_false_iff, ne_eq, hnegative]
    exact fun h => hclear h.1
  · rw [ne_eq, hzero]
    rintro (hsame | h)
    · exact absurd hsame (by decide)
    · exact hclear h.1

/-- Half a second into the leap second at the end of 2016 is before the new year, and yet half a
second after it, so that the span between them has a negative length. -/
theorem Instant.since_pos_of_leapSecond :
    let a : Instant := .utc ⟨17166, 86399, 1500000000, by decide⟩
    let b : Instant := .utc ⟨17167, 0, 0, by decide⟩
    let first : Expression := .constant (.instant a)
    let second : Expression := .constant (.instant b)
    a.format = "2016-12-31T23:59:60.500Z" ∧ b.format = "2017-01-01T00:00:00Z" ∧
    a.compare b = .lt ∧ Duration.compare (a.since b) .zero = .gt ∧
    (∃ i, Interval.ofBounds a b = .ok i ∧ i.length.isNegative = true) ∧
    Live.evaluate (Entity.empty .observation)
      ((Expression.compare .lessThan first second).and
        (.compare .greaterThan (.arithmetic .sub first second) (.constant (.duration .zero)))) =
          .ok .true := by
  intro a b first second
  refine ⟨by decide +kernel, by decide +kernel, by decide, by decide,
    ⟨⟨a, b⟩, Interval.ofBounds_eq_ok_iff.2 ⟨rfl, by decide⟩, by decide⟩, ?_⟩
  dsimp only [first, second, a, b]
  rfl

end LiveFilter
