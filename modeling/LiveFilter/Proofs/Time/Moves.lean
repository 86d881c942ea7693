import LiveFilter.Time.Timestamp

/-! # Moves of points of time

A move by a duration keeps the order of two points of time, except at a leap second. That second is
left from the ordinary second beside it, at the same fraction, so that a point that is further into
the ordinary second gets to the other side of one that was in the leap second.
-/

namespace LiveFilter.Timestamp

variable {t u t' u' : Timestamp} {d : Duration}

/-- The number of the second, with a leap second under the number of the second before. -/
def clock (t : Timestamp) : Int := t.day * 86400 + t.seconds

theorem position_eq (t : Timestamp) : t.position = t.clock * 2000000000 + t.nanos := rfl

theorem unixNanos_eq (t : Timestamp) : t.unixNanos = t.clock * 1000000000 + t.nanos := rfl

theorem nanos_lt (t : Timestamp) : t.nanos < 2000000000 := t.valid.2.2.2.1

theorem clock_of_inLeapSecond (h : t.InLeapSecond) : t.clock % 60 = 59 := by
  obtain ⟨_, _, _, _, hmod⟩ := t.valid
  have hsecond := hmod h
  unfold clock
  omega

theorem unixNanos_of_normalize? {day seconds nanos : Int} (h : normalize? day seconds nanos = some u) :
    ¬u.InLeapSecond ∧ u.unixNanos = (day * 86400 + seconds) * 1000000000 + nanos := by
  obtain ⟨hday, hseconds, hnanos⟩ := ofParts?_eq_some.1 h
  rw [unixNanos, InLeapSecond, hday, hseconds, hnanos, second]
  omega

theorem whole_and_part (n : Int) :
    n = n.tdiv 1000000000 * 1000000000 + n.tmod 1000000000 ∧
      (0 ≤ n → 0 ≤ n.tdiv 1000000000 ∧ 0 ≤ n.tmod 1000000000) ∧
      (n ≤ 0 → n.tdiv 1000000000 ≤ 0 ∧ n.tmod 1000000000 ≤ 0) ∧
      n.tmod 1000000000 < 1000000000 ∧ -1000000000 < n.tmod 1000000000 := by
  obtain ⟨k, rfl | rfl⟩ := n.eq_nat_or_neg
  · rw [Int.tdiv_eq_ediv_of_nonneg (Int.natCast_nonneg k),
      Int.tmod_eq_emod_of_nonneg (Int.natCast_nonneg k)]
    omega
  · rw [Int.neg_tdiv, Int.neg_tmod, Int.tdiv_eq_ediv_of_nonneg (Int.natCast_nonneg k),
      Int.tmod_eq_emod_of_nonneg (Int.natCast_nonneg k)]
    omega

/-- All that a move can be. -/
inductive Moved (t : Timestamp) (n : Int) (u : Timestamp) : Prop
  | ordinary (ht : ¬t.InLeapSecond) (hu : ¬u.InLeapSecond) (h : u.unixNanos = t.unixNanos + n)
  | within (ht : t.InLeapSecond) (hlow : -1000000000 < n) (hhigh : t.nanos + n < 2000000000)
      (hclock : u.clock = t.clock) (hnanos : u.nanos = t.nanos + n)
  | forwards (ht : t.InLeapSecond) (hu : ¬u.InLeapSecond) (hn : 2000000000 ≤ t.nanos + n)
      (h : u.unixNanos + 1000000000 = t.unixNanos + n)
  | backwards (ht : t.InLeapSecond) (hu : ¬u.InLeapSecond) (hn : n ≤ -1000000000)
      (h : u.unixNanos = t.unixNanos + n)

theorem moved_of_add? (h : t.add? d = some u) : t.Moved d.nanos u := by
  have hparts := whole_and_part d.nanos
  have hnanos := t.nanos_lt
  unfold add? at h
  dsimp only at h
  generalize d.nanos.tdiv 1000000000 = whole at h hparts
  generalize d.nanos.tmod 1000000000 = part at h hparts
  split at h
  · rename_i ht
    have hlow : 1000000000 ≤ t.nanos := ht
    split at h
    · obtain ⟨hu, hunix⟩ := unixNanos_of_normalize? h
      refine .forwards ht hu (by omega) ?_
      rw [hunix, unixNanos]
      omega
    · split at h
      · obtain ⟨hu, hunix⟩ := unixNanos_of_normalize? h
        refine .backwards ht hu (by omega) ?_
        rw [hunix, unixNanos]
        omega
      · obtain ⟨hday, hseconds, hu⟩ := ofParts?_eq_some.1 h
        refine .within ht (by omega) (by omega) ?_ (by omega)
        rw [clock, hday, hseconds, clock]
  · rename_i ht
    obtain ⟨hu, hunix⟩ := unixNanos_of_normalize? h
    refine .ordinary ht hu ?_
    rw [hunix, unixNanos]
    omega

/-- A move takes the one of two points past the end of the second, or back past its start, beyond
which the other one is at a leap second, though less far. -/
def Overtakes (t u : Timestamp) (d : Duration) : Prop :=
  (u.InLeapSecond ∧ ¬t.InLeapSecond ∧ u.clock = t.clock ∧ u.nanos < t.nanos + 1000000000 ∧
      1000000000 ≤ t.nanos + d.nanos) ∨
    (t.InLeapSecond ∧ u.clock = t.clock + 1 ∧ u.nanos + 1000000000 < t.nanos ∧
      u.nanos + d.nanos < 0)

instance (t u : Timestamp) (d : Duration) : Decidable (Overtakes t u d) :=
  inferInstanceAs (Decidable (_ ∨ _))

/-- Two points of time change places in a move exactly if it makes one of them overtake the other.
-/
theorem position_lt_of_moved (h : t.position ≤ u.position) (ht : t.Moved d.nanos t')
    (hu : u.Moved d.nanos u') : u'.position < t'.position ↔ t.Overtakes u d := by
  have hnanos := And.intro t.nanos_lt u.nanos_lt
  -- two leap seconds are a minute apart or the same
  have hminute := And.intro (clock_of_inLeapSecond (t := t)) (clock_of_inLeapSecond (t := u))
  simp only [position_eq, Overtakes, InLeapSecond, second] at h hminute ⊢
  cases ht <;> cases hu
  all_goals
    simp only [unixNanos_eq, InLeapSecond, second] at *
    omega

end LiveFilter.Timestamp
