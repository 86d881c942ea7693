import LiveFilter.Proofs.Numeric.Exact
import LiveFilter.Proofs.Time.DurationText

/-! # Durations that survive their literals

A literal is exact, but it is read as a sum of real numbers with 53 bits. It is read as the duration
it was written for if the milliseconds of its whole hours, of its whole minutes and of all of it are
such numbers, and never if its milliseconds are not one.
-/

namespace LiveFilter.Duration

open Binary64

attribute [local instance (high)] instPowNat

variable {n s : Nat} {sum : Binary64}

theorem toBinary64_hasValue (h : n ≤ 2 ^ 53) : (Decimal.toBinary64 ⟨false, n, 0⟩).HasValue n := by
  have hvalue : ((n : ℚ) * 10 ^ (0 : Int)) = n := by rw [zpow_zero, mul_one]
  have hsmall : (n : ℚ) < 2 ^ 1023 :=
    (le_abs_self _).trans_lt (natCast_lt_two_pow (h.trans_lt (by decide)))
  have hrounds := toBinary64_rounds (d := ⟨false, n, 0⟩) rfl
    (by decide : (-400 : Int) ≤ 0 ∧ (0 : Int) ≤ 400) (hvalue.trans_lt hsmall)
  exact (hvalue ▸ hrounds).exact (isValue_natCast h)

/-- A count of units is added without an error if nothing on the way needs more than 53 bits. -/
theorem addCount_hasValue {seconds total : Nat} (hsum : sum.HasValue s)
    (htotal : s + n * seconds * 1000 = total) (hbound : total < 2 ^ 64) (hseconds : seconds ≤ 86400)
    (hn : n ≤ 2 ^ 53) (hunits : IsValue ((n * seconds : Nat) : ℚ))
    (hmillis : IsValue ((n * seconds * 1000 : Nat) : ℚ)) (hvalue : IsValue (total : ℚ)) :
    (addCount sum seconds n).HasValue total := by
  subst htotal
  unfold addCount
  split
  · rename_i hzero
    rwa [hzero, Nat.zero_mul, Nat.zero_mul, Nat.add_zero]
  · have hunit : (ofInt seconds).HasValue seconds := ofInt_hasValue (by omega)
    have hthousand : (ofInt (1000 : Nat)).HasValue (1000 : Nat) := ofInt_hasValue (by decide)
    have hcount := (toBinary64_hasValue hn).mul hunit hunits (by omega)
    exact hsum.add (hcount.mul hthousand hmillis (by omega)) hvalue hbound

theorem minutesSum_hasValue (h : n < 2 ^ 63)
    (hhours : IsValue ((n / 3600000 * 3600000 : Nat) : ℚ))
    (hminutes : IsValue ((n / 60000 * 60000 : Nat) : ℚ)) :
    (minutesSum n).HasValue (n / 60000 * 60000 : Nat) := by
  have hdays : ∀ k shift, n / 86400000 * k < 2 ^ 53 → shift ≤ 971 →
      IsValue ((n / 86400000 * k * 2 ^ shift : Nat) : ℚ) := fun _ => isValue_mul_two_pow
  have hdayUnits : IsValue ((n / 86400000 * 86400 : Nat) : ℚ) := by
    have hvalue := hdays 675 7 (by omega) (by decide)
    rwa [Nat.mul_assoc] at hvalue
  have hdayMillis : IsValue ((n / 86400000 * 86400 * 1000 : Nat) : ℚ) := by
    have hvalue := hdays 84375 10 (by omega) (by decide)
    rwa [Nat.mul_assoc] at hvalue ⊢
  have hday : (addCount (.zero false) (86400 : Nat) (n / 86400000)).HasValue
      (n / 86400000 * 86400 * 1000 : Nat) :=
    addCount_hasValue (zero_hasValue false) (Nat.zero_add _) (by omega) (by decide) (by omega)
      hdayUnits hdayMillis hdayMillis
  have hhour : (addCount _ (3600 : Nat) (n % 86400000 / 3600000)).HasValue
      (n / 3600000 * 3600000 : Nat) :=
    addCount_hasValue hday (by omega) (by omega) (by decide) (by omega)
      (isValue_natCast (by omega)) (isValue_natCast (by omega)) hhours
  have hminute : (addCount _ (60 : Nat) (n % 86400000 / 60000 % 60)).HasValue
      (n / 60000 * 60000 : Nat) :=
    addCount_hasValue hhour (by omega) (by omega) (by decide) (by omega)
      (isValue_natCast (by omega)) (isValue_natCast (by omega)) hminutes
  exact hminute

theorem IsThousandth.value_eq {value : Decimal} (h : IsThousandth value n) :
    (value.digits * 10 ^ value.exponent : ℚ) = n / 1000 := by
  have hzero : value.exponent.toNat = 0 := Int.toNat_of_nonpos h.places.2
  have hdigits : (value.digits * 1000 : ℚ) = n * 10 ^ (-value.exponent).toNat := by
    exact_mod_cast h.digits
  rw [zpow_eq_div (by norm_num) value.exponent, hzero, pow_zero, mul_one_div,
    div_eq_div_iff (by positivity) (by norm_num)]
  exact hdigits

theorem abs_lt_of_lt {q : ℚ} (h : |q| < 2 ^ 64) : |q| < 2 ^ 1023 :=
  h.trans (pow_lt_pow_right₀ one_lt_two (by decide))

/-- The error of seconds is far below one millisecond. -/
theorem IsThousandth.error {value : Decimal} (hvalue : IsThousandth value n) (h : n < 60000) :
    ∃ x, value.toBinary64 = .finite x ∧ |x.value * 1000 - n| ≤ 1 / 16 := by
  have hn : (n : ℚ) < 60000 := by exact_mod_cast h
  have hnonneg : (0 : ℚ) ≤ n := Nat.cast_nonneg n
  have hlarge : |(n / 1000 : ℚ)| < 2 ^ 64 := by
    rw [abs_of_nonneg (by positivity)]
    norm_num
    linarith
  have hsmall : (n / 1000 : ℚ) < 2 ^ 53 * 2 ^ (-47 : Int) := by
    norm_num
    linarith
  obtain ⟨hleast, hgreatest⟩ := hvalue.places
  have hrounds := toBinary64_rounds hvalue.positive ⟨by omega, by omega⟩
    (hvalue.value_eq.trans_lt ((le_abs_self _).trans_lt (abs_lt_of_lt hlarge)))
  rw [hvalue.value_eq] at hrounds
  obtain ⟨x, hx, hnearest⟩ := hrounds
  have herror := hnearest.error_le (by positivity) (by decide) (by decide) hsmall
  have hscale : x.value * 1000 - n = (x.value - n / 1000) * 1000 := by ring
  refine ⟨x, hx, ?_⟩
  rw [hscale, abs_mul]
  norm_num at herror ⊢
  linarith

theorem IsThousandth.millis {value : Decimal} (hvalue : IsThousandth value n) (h : n < 60000) :
    ∃ x, (value.toBinary64.mul (ofInt 1)).mul (ofInt 1000) = .finite x ∧
      |x.value - n| ≤ 1 / 8 := by
  obtain ⟨x, hx, herror⟩ := hvalue.error h
  obtain ⟨one, hone, hone'⟩ := ofInt_hasValue (n := 1) (by decide)
  obtain ⟨thousand, hthousand, hthousand'⟩ := ofInt_hasValue (n := 1000) (by decide)
  have hn : (n : ℚ) < 60000 := by exact_mod_cast h
  have hnonneg : (0 : ℚ) ≤ n := Nat.cast_nonneg n
  obtain ⟨hlower, hupper⟩ := abs_le.1 herror
  have hunit : x.value * one.value = x.value := by rw [hone', Nat.cast_one, mul_one]
  -- the factor one is exact: only the factor 1000 rounds, and the count itself is a near competitor
  obtain ⟨y, hy, hy'⟩ := (mul_rounds (x := x) (y := one) (abs_lt_of_lt (by
    rw [hunit, abs_lt]
    constructor <;> linarith))).exact ⟨x, hunit.symm⟩
  rw [hunit] at hy'
  have hscale : y.value * thousand.value = x.value * 1000 := by rw [hy', hthousand']; rfl
  obtain ⟨z, hz, hnearest⟩ := mul_rounds (x := y) (y := thousand) (abs_lt_of_lt (by
    rw [hscale, abs_lt]
    constructor <;> linarith))
  obtain ⟨w, hw⟩ := isValue_natCast (n := n) (by omega)
  have hdist := hnearest.dist_le w
  rw [hscale, hw, abs_sub_comm (n : ℚ) (x.value * 1000)] at hdist
  refine ⟨z, ?_, by linarith⟩
  rw [hx, show ofInt 1 = finite one from hone, hy,
    show ofInt 1000 = finite thousand from hthousand, hz]

/-- The milliseconds of a sum with its seconds are found again by rounding it to an integer. -/
theorem round_addUnits {value : Decimal} (hsum : sum.HasValue s) (hvalue : IsThousandth value n)
    (hn : n < 60000) (htotal : IsValue ((s + n : Nat) : ℚ)) (hbound : s + n < 2 ^ 63) :
    ∃ x, addUnits sum 1 value.toBinary64 = .finite x ∧ x.round = (s + n : Nat) := by
  obtain ⟨x, rfl, hx⟩ := hsum
  obtain ⟨y, hy, herror⟩ := hvalue.millis hn
  have hs : (s : ℚ) + n < 2 ^ 63 := by exact_mod_cast hbound
  have hnonneg : (0 : ℚ) ≤ s := Nat.cast_nonneg s
  have hnonneg' : (0 : ℚ) ≤ n := Nat.cast_nonneg n
  obtain ⟨hlower, hupper⟩ := abs_le.1 herror
  obtain ⟨z, hz, hnearest⟩ := add_rounds (x := x) (y := y) (abs_lt_of_lt (by
    rw [hx, abs_lt]
    constructor <;> linarith))
  obtain ⟨w, hw⟩ := htotal
  have hdist := hnearest.dist_le w
  have hrest : w.value - (x.value + y.value) = n - y.value := by
    rw [hw, hx, Nat.cast_add]
    ring
  rw [hrest, abs_sub_comm (n : ℚ) y.value, hw] at hdist
  refine ⟨z, ?_, Finite.round_eq_of_lt ?_⟩
  · rw [addUnits, hy, hz]
  · rw [Int.cast_natCast]
    linarith

variable {d : Duration} {x : Binary64.Finite} {cs : List Char}

theorem natAbs_millis_lt (d : Duration) : d.millis.natAbs < 2 ^ 63 := by
  have hbounded := d.bounded
  unfold limit at hbounded
  rw [millis, Int.natAbs_tdiv]
  change d.nanos.natAbs / 1000000 < 2 ^ 63
  omega

theorem nanos_eq_of_dvd (h : 1000000 ∣ d.nanos) : d.nanos = d.millis * 1000000 :=
  (Int.tdiv_mul_cancel h).symm

theorem ofMillis?_eq_some {millis : Int} :
    ofMillis? millis = some d ↔ d.nanos = millis * 1000000 := ofNanos?_eq_some

theorem ofRealMillis?_of_round (hround : x.round = n) (hn : n < 2 ^ 63) :
    ofRealMillis? (.finite x) = ofMillis? n := by
  have hclamp : max (-2 ^ (63 : Nat)) (min (n : Int) (2 ^ (63 : Nat) - 1)) = n := by omega
  simp only [ofRealMillis?, hround, Int.natAbs_natCast, hn.le, if_true, hclamp]

theorem exists_round_of_read? (h : read? cs = some d) : ∃ x : Binary64.Finite,
    d.nanos.natAbs =
      (max (-2 ^ (63 : Nat)) (min x.round (2 ^ (63 : Nat) - 1))).natAbs * 1000000 := by
  have hsign : ∀ (negative : Bool) (t : Duration),
      (if negative then t.neg else t).nanos.natAbs = t.nanos.natAbs := by
    rintro (_ | _) t
    · rfl
    · exact Int.natAbs_neg t.nanos
  have hreal : ∃ a t, ofRealMillis? a = some t ∧ d.nanos.natAbs = t.nanos.natAbs := by
    unfold read? at h
    dsimp only at h
    split at h
    · cases h
    split at h
    · split at h
      · rename_i t ht
        obtain ⟨a, -, ha⟩ := Option.bind_eq_some_iff.1 ht
        cases h
        exact ⟨a, t, ha, hsign _ t⟩
      · cases h
    · cases h
  obtain ⟨a, t, ht, hd⟩ := hreal
  unfold ofRealMillis? at ht
  split at ht
  · rename_i x
    split at ht
    · refine ⟨x, ?_⟩
      rw [hd, ofMillis?_eq_some.1 ht, Int.natAbs_mul]
      rfl
    · cases ht
  · cases ht

theorem dvd_nanos_of_read? (h : read? cs = some d) : 1000000 ∣ d.nanos := by
  obtain ⟨x, hx⟩ := exists_round_of_read? h
  exact Int.natAbs_dvd_natAbs.1 ⟨_, hx.trans (Nat.mul_comm _ _)⟩

theorem read?_eq_of_parse (h : parse d.format = .ok d) :
    read? (formatMillis d.millis) = some d := by
  rwa [parse_eq_ok_iff, format, String.toList_ofList] at h

theorem parse_eq_of_read? (h : read? (formatMillis d.millis) = some d) :
    parse d.format = .ok d := by
  rwa [parse_eq_ok_iff, format, String.toList_ofList]

theorem isValue_natAbs_iff {m : Int} : IsValue (m.natAbs : ℚ) ↔ IsValue (m : ℚ) := by
  have hcast : ((m.natAbs : Int) : ℚ) = m.natAbs := Int.cast_natCast _
  obtain hm | hm := Int.natAbs_eq m
  · rw [← hcast, ← hm]
  · have hneg : (m : ℚ) = -(m.natAbs : ℚ) := by rw [← hcast, ← Int.cast_neg, ← hm]
    rw [hneg]
    exact ⟨IsValue.neg, fun h => neg_neg (m.natAbs : ℚ) ▸ h.neg⟩

theorem read?_longest (h : d.millis.natAbs = 2 ^ (63 : Nat) - 1) :
    read? (formatMillis d.millis) ≠ some d := by
  have hpositive : (read? (formatMillis 9223372036854775807)).map nanos =
      some 9223372036854774784000000 := by decide +kernel
  have hnegative : (read? (formatMillis (-9223372036854775807))).map nanos =
      some (-9223372036854774784000000) := by decide +kernel
  intro hread
  have hnanos : (read? (formatMillis d.millis)).map nanos = some d.nanos := by rw [hread]; rfl
  have hmillis : d.nanos.tdiv 1000000 = d.millis := rfl
  have hcases : d.millis = 9223372036854775807 ∨ d.millis = -9223372036854775807 := by omega
  obtain hd | hd := hcases
  · rw [hd, hpositive] at hnanos
    rw [← Option.some.inj hnanos, hd] at hmillis
    revert hmillis
    decide
  · rw [hd, hnegative] at hnanos
    rw [← Option.some.inj hnanos, hd] at hmillis
    revert hmillis
    decide

/-- Only whole milliseconds whose count is a number of the format survive. -/
theorem isValue_of_read? (h : read? (formatMillis d.millis) = some d) :
    1000000 ∣ d.nanos ∧ IsValue (d.millis : ℚ) := by
  obtain ⟨x, hx⟩ := exists_round_of_read? h
  have hwhole := dvd_nanos_of_read? h
  have hmillis : d.nanos.natAbs = d.millis.natAbs * 1000000 := by
    rw [nanos_eq_of_dvd hwhole, Int.natAbs_mul]
    rfl
  refine ⟨hwhole, isValue_natAbs_iff.1 ?_⟩
  by_cases hsmall : d.millis.natAbs ≤ 2 ^ 53
  · exact isValue_natCast hsmall
  -- a number that large is whole, unless it was cut off, which only the longest duration could be
  have hlongest : d.millis.natAbs ≠ 2 ^ (63 : Nat) - 1 := fun hd => read?_longest hd h
  have hlt := natAbs_millis_lt d
  have hround : x.round.natAbs = d.millis.natAbs := by omega
  rw [← hround]
  exact isValue_natAbs_iff.2 ⟨x, Finite.value_eq_round (by omega)⟩

/-- The real sum of a literal rounds to its milliseconds. -/
theorem exists_readBody? (hn : n ≠ 0) (hlt : n < 2 ^ 63)
    (hhours : IsValue ((n / 3600000 * 3600000 : Nat) : ℚ))
    (hminutes : IsValue ((n / 60000 * 60000 : Nat) : ℚ)) (htotal : IsValue (n : ℚ)) :
    ∃ x, readBody? (component (n / 86400000) 'D' ++ timeChars (n % 86400000)) = some (.finite x) ∧
      x.round = n := by
  have hsum := minutesSum_hasValue hlt hhours hminutes
  have hsplit : n / 60000 * 60000 + n % 60000 = n := by omega
  obtain ⟨hseconds, hread⟩ | ⟨value, hvalue, hread⟩ := readBody?_formatted hn
  · obtain ⟨x, hx, hx'⟩ := hsum
    rw [hx] at hread
    refine ⟨x, hread, Finite.round_eq_of_lt ?_⟩
    rw [hseconds, Nat.add_zero] at hsplit
    rw [hx', hsplit, Int.cast_natCast, sub_self, abs_zero]
    norm_num
  · obtain ⟨x, hx, hx'⟩ := round_addUnits hsum hvalue (Nat.mod_lt n (by decide))
      (by rwa [hsplit]) (by rwa [hsplit])
    rw [hx] at hread
    rw [hsplit] at hx'
    exact ⟨x, hread, hx'⟩

theorem read?_of_isValue (hwhole : 1000000 ∣ d.nanos)
    (hhours : IsValue ((d.millis.natAbs / 3600000 * 3600000 : Nat) : ℚ))
    (hminutes : IsValue ((d.millis.natAbs / 60000 * 60000 : Nat) : ℚ))
    (htotal : IsValue (d.millis : ℚ)) : read? (formatMillis d.millis) = some d := by
  have hnanos := nanos_eq_of_dvd hwhole
  have hlt := natAbs_millis_lt d
  by_cases hzero : d.millis = 0
  · have hd : d = zero := eq_iff.2 (by rw [hnanos, hzero]; rfl)
    rw [hd]
    decide +kernel
  obtain ⟨x, hread, hround⟩ := exists_readBody? (Int.natAbs_ne_zero.2 hzero) hlt hhours hminutes
    (isValue_natAbs_iff.2 htotal)
  rw [formatMillis, if_neg hzero]
  dsimp only
  split
  · rename_i hneg
    have hmillis : ofMillis? (d.millis.natAbs : Int) = some d.neg := by
      rw [ofMillis?_eq_some, nanos_neg, hnanos]
      omega
    rw [read?_negative (.inl rfl), hread, Option.bind_some, ofRealMillis?_of_round hround hlt,
      hmillis]
    exact congrArg some (eq_iff.2 (neg_neg d.nanos))
  · rename_i hneg
    have hmillis : ofMillis? (d.millis.natAbs : Int) = some d := by
      rw [ofMillis?_eq_some, hnanos]
      omega
    rw [read?_positive (.inl rfl), hread, Option.bind_some, ofRealMillis?_of_round hround hlt,
      hmillis]

/-- Below `2 ^ 58` milliseconds all whole minutes are numbers of the format. -/
theorem isValue_minutes (h : n < 2 ^ 58) : IsValue ((n / 60000 * 60000 : Nat) : ℚ) := by
  have hvalue := isValue_mul_two_pow (n := n / 60000 * 1875) 5 (by omega) (by decide)
  rwa [Nat.mul_assoc] at hvalue

theorem isValue_hours (h : n < 2 ^ 58) : IsValue ((n / 3600000 * 3600000 : Nat) : ℚ) := by
  have hvalue := isValue_mul_two_pow (n := n / 3600000 * 28125) 7 (by omega) (by decide)
  rwa [Nat.mul_assoc] at hvalue

theorem isValue_days (h : n < 2 ^ 63) (hdays : 86400000 ∣ n) : IsValue (n : ℚ) := by
  obtain ⟨days, rfl⟩ := hdays
  have hvalue := isValue_mul_two_pow (n := 84375 * days) 10 (by omega) (by decide)
  rwa [Nat.mul_comm, ← Nat.mul_assoc] at hvalue

theorem read?_of_days (h : 86400000000000 ∣ d.nanos) : read? (formatMillis d.millis) = some d := by
  have hwhole : 1000000 ∣ d.nanos := Int.dvd_trans (by decide) h
  have hnanos := nanos_eq_of_dvd hwhole
  have hdays : 86400000 ∣ d.millis.natAbs := by omega
  have hvalue := isValue_days (natAbs_millis_lt d) hdays
  refine read?_of_isValue hwhole ?_ ?_ (isValue_natAbs_iff.1 hvalue)
  · rwa [Nat.div_mul_cancel (Nat.dvd_trans (by decide) hdays)]
  · rwa [Nat.div_mul_cancel (Nat.dvd_trans (by decide) hdays)]

/-- A literal is read as its own duration only if that has whole milliseconds whose count is a
number of the format. Up to `2 ^ 53` milliseconds every count is one, and up to `2 ^ 58` this is
enough. Beyond, it is enough if the counts for the whole hours and for the whole minutes are numbers
of the format too, so that no sum on the way is rounded, as it is for whole days. -/
theorem parse_format_eq_ok_iff (d : Duration) :
    (parse d.format = .ok d → 1000000 ∣ d.nanos ∧ IsValue (d.millis : ℚ)) ∧
    (d.millis.natAbs ≤ 2 ^ 53 → (parse d.format = .ok d ↔ 1000000 ∣ d.nanos)) ∧
    (d.millis.natAbs < 2 ^ 58 →
      (parse d.format = .ok d ↔ 1000000 ∣ d.nanos ∧ IsValue (d.millis : ℚ))) ∧
    (1000000 ∣ d.nanos → IsValue (d.millis : ℚ) →
      IsValue ((d.millis.natAbs / 3600000 * 3600000 : Nat) : ℚ) →
      IsValue ((d.millis.natAbs / 60000 * 60000 : Nat) : ℚ) → parse d.format = .ok d) ∧
    (86400000000000 ∣ d.nanos → parse d.format = .ok d) := by
  have honly : parse d.format = .ok d → 1000000 ∣ d.nanos ∧ IsValue (d.millis : ℚ) :=
    fun h => isValue_of_read? (read?_eq_of_parse h)
  have hshort : d.millis.natAbs < 2 ^ 58 → 1000000 ∣ d.nanos → IsValue (d.millis : ℚ) →
      parse d.format = .ok d := fun h hwhole hvalue =>
    parse_eq_of_read? (read?_of_isValue hwhole (isValue_hours h) (isValue_minutes h) hvalue)
  refine ⟨honly, fun h => ?_, fun h => ?_, fun hwhole hvalue hhours hminutes => ?_, fun h => ?_⟩
  · have hvalue : IsValue (d.millis : ℚ) := isValue_natAbs_iff.1 (isValue_natCast h)
    exact ⟨fun hparse => (honly hparse).1, fun hwhole => hshort (by omega) hwhole hvalue⟩
  · exact ⟨honly, fun ⟨hwhole, hvalue⟩ => hshort h hwhole hvalue⟩
  · exact parse_eq_of_read? (read?_of_isValue hwhole hhours hminutes hvalue)
  · exact parse_eq_of_read? (read?_of_days h)

/-- Seconds that are no number of the format, and the longest duration in whole days. -/
theorem parse_format_eq_ok_iff_days :
    let seconds : Duration := ⟨-61001000000, by decide⟩
    let days : Duration := ⟨9223372036828800000000000, by decide⟩
    (seconds.millis.natAbs ≤ 2 ^ 53 ∧ 1000000 ∣ seconds.nanos ∧ seconds.format = "-PT1M1.001S" ∧
      parse seconds.format = .ok seconds) ∧
    86400000000000 ∣ days.nanos ∧ days.format = "P106751991167D" ∧
      parse days.format = .ok days := by
  intro seconds days
  have hseconds : seconds.millis.natAbs ≤ 2 ^ 53 := by decide
  have hsecondsWhole : 1000000 ∣ seconds.nanos := by decide
  have hdays : 86400000000000 ∣ days.nanos := by decide
  obtain ⟨-, hexact, -, -, -⟩ := parse_format_eq_ok_iff seconds
  obtain ⟨-, -, -, -, hwholeDays⟩ := parse_format_eq_ok_iff days
  exact ⟨⟨hseconds, hsecondsWhole, by decide +kernel, (hexact hseconds).2 hsecondsWhole⟩,
    hdays, by decide +kernel, hwholeDays hdays⟩

/-- One millisecond more than `2 ^ 53` of them is lost. -/
theorem parse_format_loses_millisecond :
    let d : Duration := ⟨9007199254740993000000, by decide⟩
    1000000 ∣ d.nanos ∧ d.format = "P104249991DT8H59M0.993S" ∧
      parse d.format = .ok ⟨9007199254740992000000, by decide⟩ ∧ parse d.format ≠ .ok d := by
  decide +kernel

end LiveFilter.Duration
