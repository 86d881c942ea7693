import LiveFilter.Proofs.Text.Digits
import LiveFilter.Time.Duration
import Mathlib.Data.List.TakeWhile

/-! # Components of a duration literal

A component is a numeral and the letter of its unit. A numeral has a point or a comma among or
beside its digits, or neither. What reads as components is exactly what is spelled as such.
-/

namespace LiveFilter.Duration

inductive Numeral : Decimal → List Char → Prop
  | whole {digits : List Char} (hdigits : ∀ c ∈ digits, c.isDigit) (hne : digits ≠ []) :
      Numeral ⟨false, Nat.ofDigitChars 10 digits 0, 0⟩ digits
  | pointed {whole fraction : List Char} {mark : Char} (hwhole : ∀ c ∈ whole, c.isDigit)
      (hmark : mark = '.' ∨ mark = ',') (hfraction : ∀ c ∈ fraction, c.isDigit)
      (hne : whole ++ fraction ≠ []) :
      Numeral ⟨false, Nat.ofDigitChars 10 (whole ++ fraction) 0, -fraction.length⟩
        (whole ++ mark :: fraction)

def IsNumeric (c : Char) : Prop := c.isDigit ∨ c = '.' ∨ c = ','

instance : DecidablePred IsNumeric := fun _ => inferInstanceAs (Decidable (_ ∨ _))

def toPoint (c : Char) : Char := if c = ',' then '.' else c

variable {c letter : Char} {value : Decimal} {cs ds number rest whole fraction : List Char}
  {entries : List (Binary64 × Char)}

theorem toPoint_of_isDigit (h : c.isDigit) : toPoint c = c := by
  apply if_neg
  rintro rfl
  cases h

theorem map_toPoint_of_isDigit (h : ∀ c ∈ cs, c.isDigit) : cs.map toPoint = cs := by
  induction cs with
  | nil => rfl
  | cons c cs ih =>
      rw [List.map_cons, toPoint_of_isDigit (h c List.mem_cons_self),
        ih fun c hc => h c (List.mem_cons_of_mem _ hc)]

theorem readUnsigned?_digits (h : ∀ c ∈ cs, c.isDigit) (hne : cs ≠ []) :
    Decimal.readUnsigned? false cs = some ⟨false, Nat.ofDigitChars 10 cs 0, 0⟩ := by
  have hdigits := takeWhile_isDigit h EndsDigits.nil
  have hrest := dropWhile_isDigit h EndsDigits.nil
  rw [List.append_nil] at hdigits hrest
  simp only [Decimal.readUnsigned?, Decimal.splitDigits, hdigits, hrest, hne, false_and, if_false,
    Decimal.readExponent?, List.append_nil, Option.map_some, List.length_nil, Int.natCast_zero,
    Int.sub_zero]

theorem readUnsigned?_pointed (hwhole : ∀ c ∈ whole, c.isDigit)
    (hfraction : ∀ c ∈ fraction, c.isDigit) (hrest : EndsDigits rest) :
    Decimal.readUnsigned? false (whole ++ '.' :: (fraction ++ rest)) =
      if whole = [] ∧ fraction = [] then none
      else (Decimal.readExponent? rest).map fun power =>
        ⟨false, Nat.ofDigitChars 10 (whole ++ fraction) 0, power - fraction.length⟩ := by
  have hpoint : EndsDigits ('.' :: (fraction ++ rest)) := .cons _ rfl
  simp only [Decimal.readUnsigned?, Decimal.splitDigits, takeWhile_isDigit hwhole hpoint,
    dropWhile_isDigit hwhole hpoint, takeWhile_isDigit hfraction hrest,
    dropWhile_isDigit hfraction hrest]

theorem eq_nil_of_readExponent? {power : Int} (h : Decimal.readExponent? cs = some power)
    (hcs : ∀ c ∈ cs, c.isDigit ∨ c = '.') : cs = [] ∧ power = 0 := by
  cases cs with
  | nil =>
      cases h
      exact ⟨rfl, rfl⟩
  | cons c cs =>
      have hc : ¬(c = 'e' ∨ c = 'E') := by
        rintro (rfl | rfl) <;> exact absurd (hcs _ List.mem_cons_self) (by decide)
      rw [Decimal.readExponent?, if_neg hc] at h
      cases h

theorem of_readUnsigned? (h : Decimal.readUnsigned? false cs = some value)
    (hcs : ∀ c ∈ cs, c.isDigit ∨ c = '.') :
    (∀ c ∈ cs, c.isDigit) ∧ cs ≠ [] ∧ value = ⟨false, Nat.ofDigitChars 10 cs 0, 0⟩ ∨
      ∃ whole fraction, cs = whole ++ '.' :: fraction ∧ (∀ c ∈ whole, c.isDigit) ∧
        (∀ c ∈ fraction, c.isDigit) ∧ whole ++ fraction ≠ [] ∧
        value = ⟨false, Nat.ofDigitChars 10 (whole ++ fraction) 0, -fraction.length⟩ := by
  obtain ⟨whole, rest, rfl, hwhole, hends⟩ := exists_digits_append cs
  cases rest with
  | nil =>
      left
      rw [List.append_nil] at h ⊢
      by_cases hne : whole = []
      · subst whole
        cases h
      · rw [readUnsigned?_digits hwhole hne] at h
        exact ⟨hwhole, hne, (Option.some.inj h).symm⟩
  | cons c tail =>
      right
      obtain hc | rfl := hcs c (List.mem_append_right _ List.mem_cons_self)
      · rw [hends c rfl] at hc
        cases hc
      obtain ⟨fraction, rest, rfl, hfraction, hends'⟩ := exists_digits_append tail
      rw [readUnsigned?_pointed hwhole hfraction hends'] at h
      split at h
      · cases h
      · rename_i hne
        obtain ⟨power, hpower, rfl⟩ := Option.map_eq_some_iff.1 h
        obtain ⟨rfl, rfl⟩ := eq_nil_of_readExponent? hpower fun c hc =>
          hcs c (List.mem_append_right _ (List.mem_cons_of_mem _ (List.mem_append_right _ hc)))
        rw [List.append_nil, Int.zero_sub]
        rw [← List.append_eq_nil_iff] at hne
        exact ⟨whole, fraction, rfl, hwhole, hfraction, hne, rfl⟩

theorem Numeral.isNumeric (h : Numeral value cs) : ∀ c ∈ cs, IsNumeric c := by
  intro c hc
  cases h with
  | whole hdigits => exact .inl (hdigits c hc)
  | pointed hwhole hmark hfraction =>
      obtain hc | hc := List.mem_append.1 hc
      · exact .inl (hwhole c hc)
      · obtain rfl | hc := List.mem_cons.1 hc
        · exact .inr hmark
        · exact .inl (hfraction c hc)

theorem isDigit_or_point (h : IsNumeric c) : (toPoint c).isDigit ∨ toPoint c = '.' := by
  obtain h | rfl | rfl := h
  · left
    rwa [toPoint_of_isDigit h]
  · exact .inr rfl
  · exact .inr rfl

theorem of_map_toPoint (h : ∀ c ∈ cs.map toPoint, c.isDigit) : ∀ c ∈ cs, c.isDigit := by
  intro c hc
  have hdigit := h _ (List.mem_map_of_mem hc)
  unfold toPoint at hdigit
  split at hdigit
  · cases hdigit
  · exact hdigit

theorem numeral_iff : Numeral value cs ↔
    (∀ c ∈ cs, IsNumeric c) ∧ Decimal.readUnsigned? false (cs.map toPoint) = some value := by
  constructor
  · intro h
    refine ⟨h.isNumeric, ?_⟩
    cases h with
    | whole hdigits hne => rw [map_toPoint_of_isDigit hdigits, readUnsigned?_digits hdigits hne]
    | pointed hwhole hmark hfraction hne =>
        rename_i whole fraction mark
        have hpoint : toPoint mark = '.' := by
          obtain rfl | rfl := hmark <;> rfl
        have hread := readUnsigned?_pointed hwhole hfraction EndsDigits.nil
        rw [ne_eq, List.append_eq_nil_iff] at hne
        rw [List.append_nil, if_neg hne] at hread
        rw [List.map_append, List.map_cons, hpoint, map_toPoint_of_isDigit hwhole,
          map_toPoint_of_isDigit hfraction, hread, Decimal.readExponent?, Option.map_some,
          Int.zero_sub]
  · rintro ⟨hcs, hread⟩
    have hmap : ∀ c ∈ cs.map toPoint, c.isDigit ∨ c = '.' := by
      intro c hc
      obtain ⟨c, hmem, rfl⟩ := List.mem_map.1 hc
      exact isDigit_or_point (hcs c hmem)
    obtain ⟨hdigits, hne, rfl⟩ | ⟨whole, fraction, hsplit, hwhole, hfraction, hne, rfl⟩ :=
      of_readUnsigned? hread hmap
    · have hdigits' := of_map_toPoint hdigits
      rw [map_toPoint_of_isDigit hdigits'] at hne ⊢
      exact .whole hdigits' hne
    · obtain ⟨whole, rest, rfl, rfl, hrest⟩ := List.map_eq_append_iff.1 hsplit
      obtain ⟨mark, fraction, rfl, hmark, rfl⟩ := List.map_eq_cons_iff.1 hrest
      have hwhole' := of_map_toPoint hwhole
      have hfraction' := of_map_toPoint hfraction
      rw [map_toPoint_of_isDigit hwhole', map_toPoint_of_isDigit hfraction'] at hne ⊢
      refine .pointed hwhole' ?_ hfraction' hne
      unfold toPoint at hmark
      split at hmark
      · exact .inr ‹_›
      · exact .inl hmark

theorem components?_of_isNumeric (h : IsNumeric c) :
    components? number (c :: cs) = components? (number ++ [toPoint c]) cs := by
  rw [components?]
  exact if_pos h

theorem components?_of_letter (h : ¬IsNumeric c) :
    components? number (c :: cs) =
      (Decimal.readUnsigned? false number).bind fun value =>
        (components? [] cs).map ((value.toBinary64, c.toUpper) :: ·) := by
  rw [components?]
  refine (if_neg h).trans ?_
  cases Decimal.readUnsigned? false number
  · rfl
  · cases components? [] cs <;> rfl

theorem components?_numeric (h : ∀ c ∈ cs, IsNumeric c) :
    components? number (cs ++ rest) = components? (number ++ cs.map toPoint) rest := by
  induction cs generalizing number with
  | nil => rw [List.nil_append, List.map_nil, List.append_nil]
  | cons c cs ih =>
      rw [List.cons_append, components?_of_isNumeric (h c List.mem_cons_self),
        ih fun c hc => h c (List.mem_cons_of_mem _ hc), List.map_cons, List.append_assoc,
        List.singleton_append]

theorem components?_cons (letter : Char) (rest : List Char) (hnumber : Numeral value number)
    (hletter : ¬IsNumeric letter) :
    components? [] (number ++ letter :: rest) =
      (components? [] rest).map ((value.toBinary64, letter.toUpper) :: ·) := by
  obtain ⟨hnumeric, hread⟩ := numeral_iff.1 hnumber
  rw [components?_numeric hnumeric, List.nil_append, components?_of_letter hletter, hread,
    Option.bind_some]

theorem exists_of_components? (h : components? [] cs = some entries) :
    cs = [] ∧ entries = [] ∨ ∃ number value letter rest entries', Numeral value number ∧
      ¬IsNumeric letter ∧ cs = number ++ letter :: rest ∧
      components? [] rest = some entries' ∧
      entries = (value.toBinary64, letter.toUpper) :: entries' := by
  have hnumeric : ∀ c ∈ cs.takeWhile (decide <| IsNumeric ·), IsNumeric c := fun c hc =>
    of_decide_eq_true (List.mem_takeWhile_imp (p := (decide <| IsNumeric ·)) hc)
  have hsplit := List.takeWhile_append_dropWhile (p := (decide <| IsNumeric ·)) (l := cs)
  have hhead := List.head?_dropWhile_not (decide <| IsNumeric ·) cs
  generalize cs.takeWhile (decide <| IsNumeric ·) = number at *
  generalize cs.dropWhile (decide <| IsNumeric ·) = rest at *
  subst hsplit
  rw [components?_numeric hnumeric, List.nil_append] at h
  cases rest with
  | nil =>
      left
      rw [components?] at h
      split at h
      · rename_i hnil
        cases h
        rw [List.map_eq_nil_iff.1 hnil]
        exact ⟨rfl, rfl⟩
      · cases h
  | cons letter rest =>
      right
      have hletter : ¬IsNumeric letter := of_decide_eq_false hhead
      rw [components?_of_letter hletter] at h
      obtain ⟨value, hvalue, h⟩ := Option.bind_eq_some_iff.1 h
      obtain ⟨entries', hrest, rfl⟩ := Option.map_eq_some_iff.1 h
      exact ⟨number, value, letter, rest, entries', numeral_iff.2 ⟨hnumeric, hvalue⟩, hletter,
        rfl, hrest, rfl⟩

/-- Adds a value in units of so many seconds to a sum of milliseconds. -/
def addUnits (sum : Binary64) (seconds : Int) (value : Binary64) : Binary64 :=
  sum.add ((value.mul (Binary64.ofInt seconds)).mul (Binary64.ofInt 1000))

theorem isTimeMark_iff : isTimeMark c ↔ c = 'T' ∨ c = 't' := by
  simp [isTimeMark]

theorem takeWhile_unmarked (rest : List Char) (h : ∀ c ∈ cs, isTimeMark c = false)
    (hrest : ∀ c, rest.head? = some c → isTimeMark c) :
    (cs ++ rest).takeWhile (!isTimeMark ·) = cs ∧
      (cs ++ rest).dropWhile (!isTimeMark ·) = rest := by
  have hunmarked : ∀ c ∈ cs, (!isTimeMark c) = true := by
    intro c hc
    rw [h c hc]
    rfl
  rw [List.takeWhile_append_of_pos hunmarked, List.dropWhile_append_of_pos hunmarked]
  cases rest with
  | nil => exact ⟨List.append_nil cs, rfl⟩
  | cons c rest =>
      have hstop : ¬(!isTimeMark c) = true := by
        rw [hrest c rfl]
        decide
      rw [List.takeWhile_cons, if_neg hstop, List.dropWhile_cons, if_neg hstop, List.append_nil]
      exact ⟨rfl, rfl⟩

theorem readBody?_date (h : ∀ c ∈ cs, isTimeMark c = false) :
    readBody? cs = (components? [] cs).bind fun date =>
      (accumulate? dateUnit? (.zero false) date).bind fun sum =>
        if date = [] then none else some sum := by
  obtain ⟨hdate, htime⟩ := takeWhile_unmarked [] h nofun
  rw [List.append_nil] at hdate htime
  unfold readBody?
  dsimp only
  rw [hdate, htime]
  cases components? [] cs with
  | none => rfl
  | some date =>
      dsimp only [Option.bind_some]
      cases accumulate? dateUnit? (.zero false) date <;> rfl

theorem readBody?_marked {mark : Char} (h : ∀ c ∈ cs, isTimeMark c = false)
    (hmark : isTimeMark mark) :
    readBody? (cs ++ mark :: rest) = (components? [] cs).bind fun date =>
      (accumulate? dateUnit? (.zero false) date).bind fun sum =>
        (components? [] rest).bind fun time =>
          if time = [] then none else accumulate? timeUnit? sum time := by
  obtain ⟨hdate, htime⟩ := takeWhile_unmarked (mark :: rest) h <| by
    rintro _ ⟨rfl⟩
    exact hmark
  unfold readBody?
  dsimp only
  rw [hdate, htime]
  cases components? [] cs with
  | none => rfl
  | some date =>
      dsimp only [Option.bind_some]
      cases accumulate? dateUnit? (.zero false) date with
      | none => rfl
      | some sum =>
          dsimp only [Option.bind_some]
          cases components? [] rest <;> rfl

theorem unmarked_or_marked (cs : List Char) : (∀ c ∈ cs, isTimeMark c = false) ∨
    ∃ ds mark rest, cs = ds ++ mark :: rest ∧ (∀ c ∈ ds, isTimeMark c = false) ∧
      isTimeMark mark := by
  induction cs with
  | nil => exact .inl nofun
  | cons c cs ih =>
      cases hc : isTimeMark c with
      | true => exact .inr ⟨[], c, cs, rfl, nofun, hc⟩
      | false =>
          obtain hcs | ⟨ds, mark, rest, rfl, hds, hmark⟩ := ih
          · exact .inl (List.forall_mem_cons.2 ⟨hc, hcs⟩)
          · exact .inr ⟨c :: ds, mark, rest, rfl, List.forall_mem_cons.2 ⟨hc, hds⟩, hmark⟩

theorem read?_positive {body : List Char} (hmark : c = 'P' ∨ c = 'p') :
    read? (c :: body) = (readBody? body).bind ofRealMillis? := by
  unfold read?
  split
  rename_i negative cs h
  split at h
  · rename_i rest hsign
    obtain ⟨rfl, -⟩ := List.cons.inj hsign
    exact absurd hmark (by decide)
  · cases h
    dsimp only
    rw [if_pos hmark]
    cases (readBody? body).bind ofRealMillis? <;> rfl

theorem read?_negative {body : List Char} (hmark : c = 'P' ∨ c = 'p') :
    read? ('-' :: c :: body) = ((readBody? body).bind ofRealMillis?).map neg := by
  unfold read?
  refine (if_pos hmark).trans ?_
  cases (readBody? body).bind ofRealMillis? <;> rfl

theorem exists_of_read? {d : Duration} (h : read? cs = some d) : ∃ mark body,
    (mark = 'P' ∨ mark = 'p') ∧ (cs = mark :: body ∨ cs = '-' :: mark :: body) := by
  unfold read? at h
  split at h
  rename_i negative rest hsign
  split at h
  · cases h
  · rename_i mark body
    split at h
    · rename_i hmark
      refine ⟨mark, body, hmark, ?_⟩
      split at hsign
      · cases hsign
        exact .inr rfl
      · cases hsign
        exact .inl rfl
    · cases h

theorem parse_eq_ok_iff {text : String} {d : Duration} :
    parse text = .ok d ↔ read? text.toList = some d := by
  unfold parse
  cases read? text.toList <;> simp

end LiveFilter.Duration
