import LiveFilter.Proofs.Time.Components
import Mathlib.Tactic.Ring

/-! # Durations read from their literals

The components of a literal are read back as the counts they were written from, those of zero left
out. What a literal reads as is then a sum in real milliseconds, formed in the order of its units.
-/

namespace LiveFilter.Duration

attribute [local instance (high)] instPowNat

variable {n : Nat}

theorem numeral_toDigits (n : Nat) : Numeral ⟨false, n, 0⟩ (Nat.toDigits 10 n) := by
  have hnumeral := Numeral.whole (isDigit_of_mem_toDigits (n := n)) Nat.toDigits_ne_nil
  rwa [Nat.ofDigitChars_ten_toDigits] at hnumeral

theorem numeral_fraction (n : Nat) {fraction : List Char} (h : ∀ c ∈ fraction, c.isDigit) :
    Numeral ⟨false, 10 ^ fraction.length * n + Nat.ofDigitChars 10 fraction 0, -fraction.length⟩
      (Nat.toDigits 10 n ++ '.' :: fraction) := by
  have hne : Nat.toDigits 10 n ++ fraction ≠ [] := fun hnil =>
    Nat.toDigits_ne_nil (List.append_eq_nil_iff.1 hnil).1
  have hnumeral := Numeral.pointed isDigit_of_mem_toDigits (.inl rfl) h hne
  rwa [Nat.ofDigitChars_append, Nat.ofDigitChars_ten_toDigits,
    Nat.ofDigitChars_eq_ofDigitChars_zero] at hnumeral

theorem digitChar_spec : ∀ d < 10,
    (Nat.digitChar d).isDigit ∧ (Nat.digitChar d).toNat - '0'.toNat = d := by decide

theorem exists_fractionChars (n : Nat) : ∃ zeros,
    [Nat.digitChar (n / 100), Nat.digitChar (n / 10 % 10), Nat.digitChar (n % 10)] =
      fractionChars n ++ List.replicate zeros '0' := by
  unfold fractionChars
  dsimp only
  generalize [Nat.digitChar (n / 100), Nat.digitChar (n / 10 % 10), Nat.digitChar (n % 10)] = digits
  have hzeros : digits.reverse.takeWhile (· == '0') =
      List.replicate (digits.reverse.takeWhile (· == '0')).length '0' :=
    List.eq_replicate_iff.2 ⟨rfl, fun c hc =>
      eq_of_beq (List.mem_takeWhile_imp (p := (· == '0')) hc)⟩
  have hsplit := congrArg List.reverse
    (List.takeWhile_append_dropWhile (p := (· == '0')) (l := digits.reverse))
  rw [List.reverse_append, List.reverse_reverse, hzeros, List.reverse_replicate] at hsplit
  exact ⟨_, hsplit.symm⟩

theorem fractionChars_spec (h : n < 1000) :
    (∀ c ∈ fractionChars n, c.isDigit) ∧ ∃ zeros, (fractionChars n).length + zeros = 3 ∧
      10 ^ zeros * Nat.ofDigitChars 10 (fractionChars n) 0 = n := by
  obtain ⟨zeros, hdigits⟩ := exists_fractionChars n
  obtain ⟨hfirst, hfirst'⟩ := digitChar_spec (n / 100) (by omega)
  obtain ⟨hsecond, hsecond'⟩ := digitChar_spec (n / 10 % 10) (by omega)
  obtain ⟨hthird, hthird'⟩ := digitChar_spec (n % 10) (by omega)
  refine ⟨fun c hc => ?_, zeros, ?_, ?_⟩
  · have hmem := List.mem_append_left (List.replicate zeros '0') hc
    rw [← hdigits] at hmem
    simp only [List.mem_cons, List.not_mem_nil, or_false] at hmem
    obtain rfl | rfl | rfl := hmem
    · exact hfirst
    · exact hsecond
    · exact hthird
  · have hlength := congrArg List.length hdigits
    rw [List.length_append, List.length_replicate] at hlength
    exact hlength.symm
  · have hvalue := congrArg (Nat.ofDigitChars 10 · 0) hdigits
    simp only [Nat.ofDigitChars_append, Nat.ofDigitChars_replicate_zero, Nat.ofDigitChars_cons,
      Nat.ofDigitChars_nil, hfirst', hsecond', hthird'] at hvalue
    omega

variable {letter : Char} {unit? : Char → Option Int} {sum : Binary64}
  {cs ds : List (Binary64 × Char)}

def counted (n : Nat) (letter : Char) : List (Binary64 × Char) :=
  if n = 0 then [] else [(Decimal.toBinary64 ⟨false, n, 0⟩, letter)]

theorem unit_letter (h : letter ∈ ['D', 'H', 'M', 'S']) :
    ¬IsNumeric letter ∧ letter.toUpper = letter := by
  simp only [List.mem_cons, List.not_mem_nil, or_false] at h
  obtain rfl | rfl | rfl | rfl := h <;> decide

theorem components?_component (n : Nat) (rest : List Char) (h : letter ∈ ['D', 'H', 'M', 'S']) :
    components? [] (component n letter ++ rest) =
      (components? [] rest).map (counted n letter ++ ·) := by
  obtain ⟨hmark, hupper⟩ := unit_letter h
  unfold component counted
  split
  · rw [List.nil_append]
    cases components? [] rest <;> rfl
  · rw [List.append_assoc, List.singleton_append, components?_cons _ _ (numeral_toDigits n) hmark,
      hupper]
    rfl

theorem components?_last (n : Nat) (h : letter ∈ ['D', 'H', 'M', 'S']) :
    components? [] (component n letter) = some (counted n letter) := by
  have hcomponents := components?_component n [] h
  rw [List.append_nil] at hcomponents
  rw [hcomponents, components?, if_pos rfl]
  exact congrArg some (List.append_nil _)

/-- A decimal for a thousandth of a count, with three places at most. -/
structure IsThousandth (value : Decimal) (n : Nat) : Prop where
  positive : value.negative = false
  places : -3 ≤ value.exponent ∧ value.exponent ≤ 0
  digits : value.digits * 1000 = n * 10 ^ (-value.exponent).toNat

theorem components?_secondsChars (n : Nat) :
    n = 0 ∧ components? [] (secondsChars n) = some [] ∨
      ∃ value, IsThousandth value n ∧
        components? [] (secondsChars n) = some [(value.toBinary64, 'S')] := by
  unfold secondsChars
  split
  · rename_i hwhole
    have hread : components? [] (component (n / 1000) 'S') =
        some (counted (n / 1000) 'S') := components?_last (n / 1000) (by decide)
    by_cases hn : n / 1000 = 0
    · refine .inl ⟨by omega, ?_⟩
      rw [hread, counted, if_pos hn]
    · refine .inr ⟨⟨false, n / 1000, 0⟩, ⟨rfl, ⟨(by decide : (-3 : Int) ≤ 0), le_rfl⟩, ?_⟩, ?_⟩
      · change n / 1000 * 1000 = n * 1
        omega
      · rw [hread, counted, if_neg hn]
  · obtain ⟨hdigits, zeros, hlength, hvalue⟩ :=
      fractionChars_spec (n := n % 1000) (Nat.mod_lt n (by decide))
    have hread := components?_cons 'S' [] (numeral_fraction (n / 1000) hdigits) (by decide)
    rw [List.append_assoc, List.cons_append] at hread
    refine .inr ⟨_, ⟨rfl, ⟨by dsimp only; omega, by dsimp only; omega⟩, ?_⟩, hread⟩
    -- the digits count places of their own, which the zeros left out make up to three
    generalize (fractionChars (n % 1000)).length = places at *
    generalize Nat.ofDigitChars 10 (fractionChars (n % 1000)) 0 = fraction at *
    have hthousand : 10 ^ places * 10 ^ zeros = 1000 := by
      rw [← Nat.pow_add, hlength]
    have hplaces : (-(-(places : Int))).toNat = places := by omega
    calc (10 ^ places * (n / 1000) + fraction) * 1000
        = 10 ^ places * (1000 * (n / 1000)) + 10 ^ places * (10 ^ zeros * fraction) := by
          rw [← Nat.mul_assoc _ (10 ^ zeros), hthousand]
          ring
      _ = n * 10 ^ (-(-(places : Int))).toNat := by
          rw [hvalue, ← Nat.mul_add, Nat.div_add_mod, hplaces, Nat.mul_comm]

def addCount (sum : Binary64) (seconds : Int) (n : Nat) : Binary64 :=
  if n = 0 then sum else addUnits sum seconds (Decimal.toBinary64 ⟨false, n, 0⟩)

/-- The sum for the whole minutes of a count of milliseconds. -/
def minutesSum (n : Nat) : Binary64 :=
  addCount (addCount (addCount (.zero false) 86400 (n / 86400000)) 3600 (n % 86400000 / 3600000))
    60 (n % 86400000 / 60000 % 60)

theorem addCount_zero (sum : Binary64) (seconds : Int) : addCount sum seconds 0 = sum := if_pos rfl

theorem accumulate?_append : accumulate? unit? sum (cs ++ ds) =
    (accumulate? unit? sum cs).bind (accumulate? unit? · ds) := by
  induction cs generalizing sum with
  | nil => rfl
  | cons c cs ih =>
      rw [List.cons_append, accumulate?, accumulate?]
      cases unit? c.2 with
      | none => rfl
      | some seconds => exact ih

theorem accumulate?_counted {seconds : Int} (h : unit? letter = some seconds) :
    accumulate? unit? sum (counted n letter) = some (addCount sum seconds n) := by
  unfold counted addCount
  split
  · rfl
  · rw [accumulate?, h]
    rfl

theorem mem_component {c : Char} (h : c ∈ component n letter) : c.isDigit ∨ c = letter := by
  unfold component at h
  split at h
  · cases h
  · obtain h | h := List.mem_append.1 h
    · exact .inl (isDigit_of_mem_toDigits c h)
    · exact .inr (List.mem_singleton.1 h)

theorem isTimeMark_of_mem_days {c : Char} (h : c ∈ component n 'D') : isTimeMark c = false := by
  have hc := mem_component h
  rw [Bool.eq_false_iff, ne_eq, isTimeMark_iff]
  rintro (rfl | rfl)
  · exact absurd hc (by decide)
  · exact absurd hc (by decide)

theorem counted_eq_nil_iff : counted n letter = [] ↔ n = 0 := by
  unfold counted
  split <;> simp [*]

theorem accumulate?_days (n : Nat) : accumulate? dateUnit? (.zero false) (counted n 'D') =
    some (addCount (.zero false) 86400 n) := accumulate?_counted rfl

theorem readBody?_days (h : n ≠ 0) :
    readBody? (component n 'D') = some (addCount (.zero false) 86400 n) := by
  rw [readBody?_date fun _ => isTimeMark_of_mem_days, components?_last n (by decide),
    Option.bind_some, accumulate?_days, Option.bind_some, if_neg (mt counted_eq_nil_iff.1 h)]

theorem readBody?_time {time : List Char} {components : List (Binary64 × Char)}
    (h : components? [] time = some components) (hne : components ≠ []) :
    readBody? (component n 'D' ++ 'T' :: time) =
      accumulate? timeUnit? (addCount (.zero false) 86400 n) components := by
  rw [readBody?_marked (fun _ => isTimeMark_of_mem_days) rfl, components?_last n (by decide),
    Option.bind_some, accumulate?_days, Option.bind_some, h, Option.bind_some, if_neg hne]

/-- The body of a literal reads as the sum for its whole minutes, with the seconds added unless
there are none. -/
theorem readBody?_formatted (h : n ≠ 0) :
    (n % 60000 = 0 ∧ readBody? (component (n / 86400000) 'D' ++ timeChars (n % 86400000)) =
      some (minutesSum n)) ∨
    ∃ value, IsThousandth value (n % 60000) ∧
      readBody? (component (n / 86400000) 'D' ++ timeChars (n % 86400000)) =
        some (addUnits (minutesSum n) 1 value.toBinary64) := by
  unfold timeChars
  split
  · rename_i hday
    have hsum : minutesSum n = addCount (.zero false) 86400 (n / 86400000) := by
      simp only [minutesSum, hday, Nat.zero_div, Nat.zero_mod, addCount_zero]
    rw [List.append_nil, hsum]
    exact .inl ⟨by omega, readBody?_days (by omega)⟩
  rename_i hday
  -- the seconds come last: whatever they read as is added to the sum for the minutes
  have hseconds : n % 86400000 % 60000 = n % 60000 := by omega
  have hcounts : ∀ {components}, components? [] (secondsChars (n % 60000)) = some components →
      components? [] (component (n % 86400000 / 3600000) 'H' ++
        component (n % 86400000 / 60000 % 60) 'M' ++ secondsChars (n % 60000)) =
      some (counted (n % 86400000 / 3600000) 'H' ++
        (counted (n % 86400000 / 60000 % 60) 'M' ++ components)) := by
    intro components hcomponents
    rw [List.append_assoc, components?_component _ _ (by decide),
      components?_component _ _ (by decide), hcomponents]
    rfl
  have hsum : ∀ components, accumulate? timeUnit?
      (addCount (.zero false) 86400 (n / 86400000)) (counted (n % 86400000 / 3600000) 'H' ++
        (counted (n % 86400000 / 60000 % 60) 'M' ++ components)) =
      accumulate? timeUnit? (minutesSum n) components := by
    intro components
    rw [accumulate?_append, accumulate?_counted rfl, Option.bind_some, accumulate?_append,
      accumulate?_counted rfl, Option.bind_some]
    rfl
  rw [hseconds]
  obtain ⟨hzero, hcomponents⟩ | ⟨value, hvalue, hcomponents⟩ := components?_secondsChars (n % 60000)
  · have hne : counted (n % 86400000 / 3600000) 'H' ++
        (counted (n % 86400000 / 60000 % 60) 'M' ++ []) ≠ [] := by
      simp only [ne_eq, List.append_eq_nil_iff, counted_eq_nil_iff, and_true]
      omega
    refine .inl ⟨hzero, ?_⟩
    rw [readBody?_time (hcounts hcomponents) hne, hsum]
    rfl
  · refine .inr ⟨value, hvalue, ?_⟩
    rw [readBody?_time (hcounts hcomponents) (by simp), hsum]
    rfl

end LiveFilter.Duration
