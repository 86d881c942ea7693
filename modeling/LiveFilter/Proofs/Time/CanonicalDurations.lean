import LiveFilter.Proofs.Time.DurationText
import Mathlib.Data.List.Basic

/-! # Canonical durations

A literal is in canonical form if its units come from days down to seconds, none of them zero and
each below the next larger one, and the fraction of its seconds ends with a digit other than zero.
It stands for the exact sum of what is written. Durations are written in no other form, so that the
text of a duration tells its whole milliseconds.
-/

namespace LiveFilter.Duration

attribute [local instance (high)] instPowNat

/-- A count before the letter of its unit. A count of zero is not written. -/
inductive CountText (letter : Char) : Nat → List Char → Prop
  | zero : CountText letter 0 []
  | pos {n : Nat} (hn : 0 < n) : CountText letter n (Nat.toDigits 10 n ++ [letter])

/-- One to three digits after a point, the last of which is not zero. -/
structure IsFraction (digits : List Char) : Prop where
  isDigit : ∀ c ∈ digits, c.isDigit
  nonempty : digits ≠ []
  length_le : digits.length ≤ 3
  last : digits.getLast? ≠ some '0'

/-- Seconds below a minute, in milliseconds. With a fraction there may be none that are whole. -/
inductive SecondsText : Nat → List Char → Prop
  | zero : SecondsText 0 []
  | whole {n : Nat} (hn : 0 < n) (hlt : n < 60) :
      SecondsText (1000 * n) (Nat.toDigits 10 n ++ ['S'])
  | fraction {n : Nat} {digits : List Char} (hlt : n < 60) (hdigits : IsFraction digits) :
      SecondsText (1000 * n + 10 ^ (3 - digits.length) * Nat.ofDigitChars 10 digits 0)
        (Nat.toDigits 10 n ++ '.' :: (digits ++ ['S']))

/-- The part after the days, in milliseconds. The mark stands before one unit at least. -/
inductive TimeText : Nat → List Char → Prop
  | zero : TimeText 0 []
  | units {h m s : Nat} {hours minutes seconds : List Char} (hh : CountText 'H' h hours)
      (hhlt : h < 24) (hm : CountText 'M' m minutes) (hmlt : m < 60) (hs : SecondsText s seconds)
      (hne : hours ++ minutes ++ seconds ≠ []) :
      TimeText (3600000 * h + 60000 * m + s) ('T' :: (hours ++ minutes ++ seconds))

inductive SpanText : Nat → List Char → Prop
  | units {d t : Nat} {days time : List Char} (hd : CountText 'D' d days) (ht : TimeText t time)
      (hne : days ++ time ≠ []) : SpanText (86400000 * d + t) (days ++ time)

/-- A literal in canonical form, and the milliseconds that it stands for. -/
inductive Canonical : Int → List Char → Prop
  | zero : Canonical 0 ['P', 'T', '0', 'S']
  | positive {n : Nat} {span : List Char} (hspan : SpanText n span) : Canonical n ('P' :: span)
  | negative {n : Nat} {span : List Char} (hspan : SpanText n span) :
      Canonical (-n) ('-' :: 'P' :: span)

variable {letter c : Char} {k m n : Nat} {cs digits r s : List Char}

theorem dropZeros {zeros : Nat} (h : cs.getLast? ≠ some '0') :
    ((cs ++ List.replicate zeros '0').reverse.dropWhile (· == '0')).reverse = cs := by
  have hzeros : ∀ c ∈ List.replicate zeros '0', (c == '0') = true := by
    intro c hc
    rw [List.eq_of_mem_replicate hc]
    rfl
  rw [List.reverse_append, List.reverse_replicate, List.dropWhile_append_of_pos hzeros]
  rw [← List.head?_reverse] at h
  cases hcs : cs.reverse with
  | nil => exact (List.reverse_eq_nil_iff.1 hcs).symm
  | cons c rest =>
      have hc : ¬(c == '0') = true := by
        intro heq
        rw [hcs, eq_of_beq heq] at h
        exact h rfl
      rw [List.dropWhile_cons, if_neg hc, ← hcs, List.reverse_reverse]

theorem getLast?_fractionChars (n : Nat) : (fractionChars n).getLast? ≠ some '0' := by
  intro h
  rw [fractionChars, List.getLast?_reverse] at h
  have hnot := List.head?_dropWhile_not (· == '0')
    [Nat.digitChar (n / 100), Nat.digitChar (n / 10 % 10), Nat.digitChar (n % 10)].reverse
  rw [h] at hnot
  cases hnot

theorem exists_digitChar (h : c.isDigit) : ∃ d < 10, Nat.digitChar d = c := by
  have hbounds : 48 ≤ c.toNat ∧ c.toNat ≤ 57 := Char.isDigit_iff_toNat.1 h
  have hdigit : ∀ d < 10, (Nat.digitChar d).toNat = d + 48 := by decide
  refine ⟨c.toNat - 48, by omega, ?_⟩
  apply Char.toNat_inj.1
  rw [hdigit _ (by omega)]
  omega

theorem exists_three_digits (h : ∀ c ∈ cs, c.isDigit) (hlength : cs.length = 3) : ∃ n < 1000,
    [Nat.digitChar (n / 100), Nat.digitChar (n / 10 % 10), Nat.digitChar (n % 10)] = cs := by
  obtain ⟨a, b, c, rfl⟩ := List.length_eq_three.1 hlength
  obtain ⟨x, hx, rfl⟩ := exists_digitChar (h a (by simp))
  obtain ⟨y, hy, rfl⟩ := exists_digitChar (h b (by simp))
  obtain ⟨z, hz, rfl⟩ := exists_digitChar (h c (by simp))
  have hfirst : (100 * x + 10 * y + z) / 100 = x := by omega
  have hsecond : (100 * x + 10 * y + z) / 10 % 10 = y := by omega
  have hthird : (100 * x + 10 * y + z) % 10 = z := by omega
  refine ⟨100 * x + 10 * y + z, by omega, ?_⟩
  rw [hfirst, hsecond, hthird]

theorem scaled_fractionChars (h : n < 1000) :
    10 ^ (3 - (fractionChars n).length) * Nat.ofDigitChars 10 (fractionChars n) 0 = n := by
  obtain ⟨-, zeros, hlength, hvalue⟩ := fractionChars_spec h
  have hzeros : 3 - (fractionChars n).length = zeros := by omega
  rw [hzeros, hvalue]

theorem fractionChars_inj (hm : m < 1000) (hn : n < 1000)
    (h : fractionChars m = fractionChars n) : m = n := by
  rw [← scaled_fractionChars hm, h, scaled_fractionChars hn]

theorem isFraction_iff : IsFraction digits ↔ ∃ n, 0 < n ∧ n < 1000 ∧ digits = fractionChars n := by
  constructor
  · rintro ⟨hdigits, hne, hlength, hlast⟩
    -- zeros at the end fill the digits up to the three that the fraction is cut from
    have hall : ∀ c ∈ digits ++ List.replicate (3 - digits.length) '0', c.isDigit := by
      intro c hc
      obtain hc | hc := List.mem_append.1 hc
      · exact hdigits c hc
      · rw [List.eq_of_mem_replicate hc]
        rfl
    obtain ⟨n, hlt, hthree⟩ := exists_three_digits hall (by simp; omega)
    have hchars : digits = fractionChars n := by
      rw [fractionChars, hthree, dropZeros hlast]
    refine ⟨n, Nat.pos_of_ne_zero ?_, hlt, hchars⟩
    rintro rfl
    exact hne hchars
  · rintro ⟨n, hpos, hlt, rfl⟩
    obtain ⟨hdigits, zeros, hlength, hvalue⟩ := fractionChars_spec hlt
    refine ⟨hdigits, ?_, by omega, getLast?_fractionChars n⟩
    intro hnil
    rw [hnil, Nat.ofDigitChars_nil] at hvalue
    omega

theorem countText_iff : CountText letter n cs ↔ cs = component n letter := by
  constructor
  · rintro (_ | hn)
    · rfl
    · exact (if_neg hn.ne').symm
  · rintro rfl
    obtain rfl | hn := n.eq_zero_or_pos
    · exact .zero
    · rw [component, if_neg hn.ne']
      exact .pos hn

theorem secondsText_iff : SecondsText n cs ↔ n < 60000 ∧ cs = secondsChars n := by
  constructor
  · rintro (_ | ⟨hn, hlt⟩ | ⟨hlt, hdigits⟩)
    · exact ⟨by decide, rfl⟩
    · rename_i k
      refine ⟨by omega, ?_⟩
      rw [secondsChars, if_pos (Nat.mul_mod_right 1000 k), Nat.mul_div_cancel_left k (by decide),
        component, if_neg hn.ne']
    · rename_i k digits
      obtain ⟨f, hpos, hf, rfl⟩ := isFraction_iff.1 hdigits
      rw [scaled_fractionChars hf]
      have hsecond : (1000 * k + f) % 1000 = f := by omega
      have hwhole : (1000 * k + f) / 1000 = k := by omega
      refine ⟨by omega, ?_⟩
      rw [secondsChars, hsecond, hwhole, if_neg hpos.ne']
  · rintro ⟨hlt, rfl⟩
    have hsplit := Nat.div_add_mod n 1000
    unfold secondsChars
    split
    · rename_i hwhole
      rw [hwhole, Nat.add_zero] at hsplit
      obtain hzero | hpos := (n / 1000).eq_zero_or_pos
      · rw [hzero] at hsplit ⊢
        exact hsplit ▸ .zero
      · rw [component, if_neg hpos.ne', ← hsplit, Nat.mul_div_cancel_left _ (by decide)]
        exact .whole hpos (by omega)
    · rename_i hfraction
      have hf : n % 1000 < 1000 := Nat.mod_lt n (by decide)
      have hdigits : IsFraction (fractionChars (n % 1000)) :=
        isFraction_iff.2 ⟨_, Nat.pos_of_ne_zero hfraction, hf, rfl⟩
      have htext := SecondsText.fraction (n := n / 1000) (by omega) hdigits
      rwa [scaled_fractionChars hf, hsplit] at htext

theorem component_eq_nil_iff : component n letter = [] ↔ n = 0 := by
  unfold component
  split <;> simp [*]

theorem secondsChars_eq_nil_iff : secondsChars n = [] ↔ n = 0 := by
  unfold secondsChars
  split
  · rw [component_eq_nil_iff]
    omega
  · simp only [List.append_eq_nil_iff, List.cons_ne_nil, and_false, false_iff]
    omega

theorem timeChars_eq_nil_iff : timeChars n = [] ↔ n = 0 := by
  unfold timeChars
  split <;> simp [*]

theorem timeText_iff : TimeText n cs ↔ n < 86400000 ∧ cs = timeChars n := by
  constructor
  · rintro (_ | ⟨hh, hhlt, hm, hmlt, hs, hne⟩)
    · exact ⟨by decide, rfl⟩
    · rename_i h m s hours minutes seconds
      obtain ⟨hslt, rfl⟩ := secondsText_iff.1 hs
      obtain rfl := countText_iff.1 hh
      obtain rfl := countText_iff.1 hm
      have hhours : (3600000 * h + 60000 * m + s) / 3600000 = h := by omega
      have hminutes : (3600000 * h + 60000 * m + s) / 60000 % 60 = m := by omega
      have hseconds : (3600000 * h + 60000 * m + s) % 60000 = s := by omega
      refine ⟨by omega, ?_⟩
      have hpos : 3600000 * h + 60000 * m + s ≠ 0 := by
        simp only [ne_eq, List.append_eq_nil_iff, component_eq_nil_iff, secondsChars_eq_nil_iff]
          at hne
        omega
      rw [timeChars, if_neg hpos, hhours, hminutes, hseconds]
  · rintro ⟨hlt, rfl⟩
    unfold timeChars
    split
    · subst n
      exact .zero
    · rename_i hpos
      have hne : component (n / 3600000) 'H' ++ component (n / 60000 % 60) 'M' ++
          secondsChars (n % 60000) ≠ [] := by
        simp only [ne_eq, List.append_eq_nil_iff, component_eq_nil_iff, secondsChars_eq_nil_iff]
        omega
      have htext := TimeText.units (countText_iff.2 rfl) (by omega) (countText_iff.2 rfl)
        (Nat.mod_lt _ (by decide)) (secondsText_iff.2 ⟨Nat.mod_lt n (by decide), rfl⟩) hne
      have hsplit : 3600000 * (n / 3600000) + 60000 * (n / 60000 % 60) + n % 60000 = n := by omega
      rwa [hsplit] at htext

theorem spanText_iff : SpanText n cs ↔
    n ≠ 0 ∧ cs = component (n / 86400000) 'D' ++ timeChars (n % 86400000) := by
  constructor
  · rintro ⟨hd, ht, hne⟩
    rename_i d t days time
    obtain ⟨htlt, rfl⟩ := timeText_iff.1 ht
    obtain rfl := countText_iff.1 hd
    have hdays : (86400000 * d + t) / 86400000 = d := by omega
    have htime : (86400000 * d + t) % 86400000 = t := by omega
    rw [ne_eq, List.append_eq_nil_iff, component_eq_nil_iff, timeChars_eq_nil_iff] at hne
    refine ⟨by omega, ?_⟩
    rw [hdays, htime]
  · rintro ⟨hn, rfl⟩
    have hne : component (n / 86400000) 'D' ++ timeChars (n % 86400000) ≠ [] := by
      rw [ne_eq, List.append_eq_nil_iff, component_eq_nil_iff, timeChars_eq_nil_iff]
      omega
    have htext := SpanText.units (countText_iff.2 rfl)
      (timeText_iff.2 ⟨Nat.mod_lt n (by decide), rfl⟩) hne
    rwa [Nat.div_add_mod] at htext

theorem canonical_iff {m : Int} : Canonical m cs ↔ cs = formatMillis m := by
  constructor
  · rintro (_ | hspan | hspan)
    · rfl
    · obtain ⟨hn, rfl⟩ := spanText_iff.1 hspan
      rw [formatMillis, if_neg (by omega), if_neg (by omega), Int.natAbs_natCast]
    · obtain ⟨hn, rfl⟩ := spanText_iff.1 hspan
      rw [formatMillis, if_neg (by omega), if_pos (by omega), Int.natAbs_neg, Int.natAbs_natCast]
  · rintro rfl
    unfold formatMillis
    split
    · subst m
      exact .zero
    rename_i hm
    have hspan : SpanText m.natAbs _ := spanText_iff.2 ⟨Int.natAbs_ne_zero.2 hm, rfl⟩
    dsimp only
    split
    · have hneg : m = -(m.natAbs : Int) := by omega
      nth_rewrite 1 [hneg]
      exact .negative hspan
    · have hpos : m = (m.natAbs : Int) := by omega
      nth_rewrite 1 [hpos]
      exact .positive hspan

/-- The rest does not go on with a count in the unit of the letter. -/
def Lacks (letter : Char) (rest : List Char) : Prop :=
  ∀ n s, rest ≠ Nat.toDigits 10 n ++ letter :: s

theorem Lacks.nil : Lacks letter [] := by
  intro n s h
  exact List.cons_ne_nil _ _ (List.append_eq_nil_iff.1 h.symm).2

theorem Lacks.numeral (hletter : letter.isDigit = false) (hc : c.isDigit = false)
    (hne : c ≠ letter) : Lacks letter (Nat.toDigits 10 n ++ c :: r) := by
  intro k s h
  have hrest := (toDigits_append_inj (.cons r hc) (.cons s hletter) h).2
  exact hne (List.cons.inj hrest).1

theorem Lacks.component (hletter : letter.isDigit = false) (hc : c.isDigit = false)
    (hne : c ≠ letter) (h : Lacks letter r) : Lacks letter (component n c ++ r) := by
  unfold Duration.component
  split
  · exact h
  · rw [List.append_assoc]
    exact .numeral hletter hc hne

theorem Lacks.secondsChars (hletter : letter.isDigit = false) (hne : letter ∉ ['S', '.']) :
    Lacks letter (secondsChars n) := by
  rw [List.mem_cons, List.mem_singleton, not_or] at hne
  unfold Duration.secondsChars
  split
  · rw [← List.append_nil (Duration.component _ _)]
    exact .component hletter rfl (Ne.symm hne.1) .nil
  · exact .numeral hletter rfl (Ne.symm hne.2)

theorem Lacks.timeChars : Lacks letter (timeChars n) := by
  unfold Duration.timeChars
  split
  · exact .nil
  · intro k s h
    exact toDigits_append_ne rfl h.symm

theorem component_append_inj (hletter : letter.isDigit = false) (hr : Lacks letter r)
    (hs : Lacks letter s) (h : component m letter ++ r = component n letter ++ s) :
    m = n ∧ r = s := by
  unfold component at h
  split at h
  · subst m
    split at h
    · subst n
      exact ⟨rfl, h⟩
    · rw [List.nil_append, List.append_assoc] at h
      exact absurd h (hr _ _)
  · split at h
    · rw [List.nil_append, List.append_assoc] at h
      exact absurd h.symm (hs _ _)
    · rw [List.append_assoc, List.append_assoc] at h
      obtain ⟨hcount, hrest⟩ := toDigits_append_inj (.cons r hletter) (.cons s hletter) h
      exact ⟨hcount, (List.cons.inj hrest).2⟩

theorem secondsChars_inj (h : secondsChars m = secondsChars n) : m = n := by
  have hwhole : ∀ k, Lacks '.' (component k 'S' ++ []) := fun k =>
    .component rfl rfl (by decide) .nil
  simp only [List.append_nil] at hwhole
  unfold secondsChars at h
  split at h <;> split at h
  · rw [← List.append_nil (component (m / 1000) 'S'),
      ← List.append_nil (component (n / 1000) 'S')] at h
    have hcount := (component_append_inj rfl .nil .nil h).1
    omega
  · exact absurd h (hwhole _ _ _)
  · exact absurd h.symm (hwhole _ _ _)
  · obtain ⟨hcount, hrest⟩ := toDigits_append_inj (.cons _ rfl) (.cons _ rfl) h
    have hdigits := List.append_cancel_right (List.cons.inj hrest).2
    have hfraction :=
      fractionChars_inj (Nat.mod_lt m (by decide)) (Nat.mod_lt n (by decide)) hdigits
    omega

theorem lacks_secondsChars : Lacks 'H' (secondsChars n) ∧ Lacks 'M' (secondsChars n) :=
  ⟨.secondsChars rfl (by decide), .secondsChars rfl (by decide)⟩

theorem units_inj {h i j k : Nat} (hr : Lacks 'H' r ∧ Lacks 'M' r)
    (hs : Lacks 'H' s ∧ Lacks 'M' s)
    (heq : component h 'H' ++ component i 'M' ++ r = component j 'H' ++ component k 'M' ++ s) :
    h = j ∧ i = k ∧ r = s := by
  rw [List.append_assoc, List.append_assoc] at heq
  have hminutes : ∀ {n rest}, Lacks 'H' rest → Lacks 'H' (component n 'M' ++ rest) :=
    .component rfl rfl (by decide)
  obtain ⟨hhour, hrest⟩ := component_append_inj rfl (hminutes hr.1) (hminutes hs.1) heq
  obtain ⟨hminute, hseconds⟩ := component_append_inj rfl hr.2 hs.2 hrest
  exact ⟨hhour, hminute, hseconds⟩

theorem timeChars_inj (h : timeChars m = timeChars n) : m = n := by
  by_cases hm : m = 0
  · subst m
    exact (timeChars_eq_nil_iff.1 h.symm).symm
  by_cases hn : n = 0
  · subst n
    exact timeChars_eq_nil_iff.1 h
  rw [timeChars, timeChars, if_neg hm, if_neg hn] at h
  obtain ⟨hhour, hminute, hrest⟩ :=
    units_inj lacks_secondsChars lacks_secondsChars (List.cons.inj h).2
  have hsecond := secondsChars_inj hrest
  omega

theorem SpanText.unique (hm : SpanText m cs) (hn : SpanText n cs) : m = n := by
  obtain ⟨-, rfl⟩ := spanText_iff.1 hm
  obtain ⟨-, h⟩ := spanText_iff.1 hn
  obtain ⟨hdays, htime⟩ := component_append_inj rfl .timeChars .timeChars h
  have hrest := timeChars_inj htime
  omega

theorem secondsChars_ne_zero : secondsChars n ≠ Nat.toDigits 10 0 ++ ['S'] := by
  unfold secondsChars component
  intro h
  split at h
  · split at h
    · cases h
    · rename_i hcount
      exact hcount (toDigits_append_inj (.cons [] rfl) (.cons [] rfl) h).1
  · have hrest := (toDigits_append_inj (.cons _ rfl) (.cons [] rfl) h).2
    exact absurd (List.cons.inj hrest).1 (by decide)

theorem not_spanText_zero : ¬SpanText n ['T', '0', 'S'] := by
  intro hspan
  have h : component (n / 86400000) 'D' ++ timeChars (n % 86400000) =
      component 0 'D' ++ 'T' :: (Nat.toDigits 10 0 ++ ['S']) := (spanText_iff.1 hspan).2.symm
  have hmark : ∀ {rest}, Lacks 'D' ('T' :: rest) := fun _ _ heq => toDigits_append_ne rfl heq.symm
  have htime := (component_append_inj rfl .timeChars hmark h).2
  unfold timeChars at htime
  split at htime
  · cases htime
  · have hzero : ∀ c, c.isDigit = false → 'S' ≠ c → Lacks c (Nat.toDigits 10 0 ++ ['S']) :=
      fun c hc hne => .numeral hc rfl hne
    have hrest := (units_inj (j := 0) (k := 0) lacks_secondsChars
      ⟨hzero 'H' rfl (by decide), hzero 'M' rfl (by decide)⟩ (List.cons.inj htime).2).2.2
    exact secondsChars_ne_zero hrest

theorem Canonical.unique {m n : Int} (hm : Canonical m cs) (hn : Canonical n cs) : m = n := by
  cases hm with
  | zero =>
      cases hn with
      | zero => rfl
      | positive hspan => exact absurd hspan not_spanText_zero
  | positive hspan =>
      cases hn with
      | zero => exact absurd hspan not_spanText_zero
      | positive hspan' => rw [hspan.unique hspan']
  | negative hspan =>
      cases hn with
      | negative hspan' => rw [hspan.unique hspan']

theorem head?_formatMillis (m : Int) : (formatMillis m).head? = some '-' ↔ m < 0 := by
  unfold formatMillis
  split
  · simp [*]
  · dsimp only
    split <;> simp [*]

theorem canonical_format (d : Duration) : Canonical d.millis d.format.toList := by
  rw [format, String.toList_ofList]
  exact canonical_iff.2 rfl

/-- A duration is written in canonical form and in no other way: the text stands for its whole
milliseconds alone, it is that of zero only for zero, and its sign is theirs. -/
theorem format_canonical (d : Duration) :
    (∀ cs, Canonical d.millis cs ↔ cs = d.format.toList) ∧
      (∀ m, Canonical m d.format.toList ↔ m = d.millis) ∧
      (d.format = "PT0S" ↔ d.millis = 0) ∧
      (d.format.toList.head? = some '-' ↔ d.millis < 0) ∧
      ∀ e : Duration, d.format = e.format ↔ d.millis = e.millis := by
  have hself := canonical_format d
  refine ⟨?_, ?_, ?_, ?_, ?_⟩
  · intro cs
    rw [canonical_iff, format, String.toList_ofList]
  · intro m
    constructor
    · intro h
      exact h.unique hself
    · rintro rfl
      exact hself
  · constructor
    · intro h
      exact (h ▸ hself).unique .zero
    · intro h
      rw [format, h]
      rfl
  · rw [format, String.toList_ofList, head?_formatMillis]
  · intro e
    constructor
    · intro h
      exact hself.unique (h ▸ canonical_format e)
    · intro h
      rw [format, format, h]

example : Canonical (-90061500) "-P1DT1H1M1.5S".toList := canonical_iff.2 (by decide +kernel)

end LiveFilter.Duration
