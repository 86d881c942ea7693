import LiveFilter.Proofs.Time.Components

/-! # Accepted durations

Which texts are read as durations. A literal may have any number of components on either side of
its mark, in any order, where the documented form has each unit once at most and from weeks down to
seconds. The two differ in the order of the letters alone.
-/

namespace LiveFilter.Duration

def dateUnits : List Char := ['W', 'D']
def timeUnits : List Char := ['H', 'M', 'S']

/-- Components in some of the units, whose letters may be in lower case. -/
inductive Components (units : List Char) : List (Decimal × Char) → List Char → Prop
  | nil : Components units [] []
  | cons {value : Decimal} {letter : Char} {number rest : List Char}
      {entries : List (Decimal × Char)} (hnumber : Numeral value number)
      (hletter : letter.toUpper ∈ units) (hrest : Components units entries rest) :
      Components units ((value, letter.toUpper) :: entries) (number ++ letter :: rest)

inductive Body : List (Decimal × Char) → List (Decimal × Char) → List Char → Prop
  | date {date : List (Decimal × Char)} {cs : List Char} (hdate : Components dateUnits date cs)
      (hne : date ≠ []) : Body date [] cs
  | time {date time : List (Decimal × Char)} {ds ts : List Char} {mark : Char}
      (hdate : Components dateUnits date ds) (hmark : mark = 'T' ∨ mark = 't')
      (htime : Components timeUnits time ts) (hne : time ≠ []) : Body date time (ds ++ mark :: ts)

inductive Literal : Bool → List (Decimal × Char) → List (Decimal × Char) → List Char → Prop
  | positive {date time : List (Decimal × Char)} {mark : Char} {cs : List Char}
      (hmark : mark = 'P' ∨ mark = 'p') (hbody : Body date time cs) :
      Literal false date time (mark :: cs)
  | negative {date time : List (Decimal × Char)} {mark : Char} {cs : List Char}
      (hmark : mark = 'P' ∨ mark = 'p') (hbody : Body date time cs) :
      Literal true date time ('-' :: mark :: cs)

/-- The documented form has its units in order, each of them once at most. -/
def Documented (cs : List Char) : Prop := ∃ negative date time, Literal negative date time cs ∧
  (date.map Prod.snd).Sublist dateUnits ∧ (time.map Prod.snd).Sublist timeUnits

def unitSeconds : Char → Int
  | 'W' => 604800
  | 'D' => 86400
  | 'H' => 3600
  | 'M' => 60
  | _ => 1

def readComponent (component : Decimal × Char) : Binary64 × Char :=
  (component.1.toBinary64, component.2)

def addComponent (sum : Binary64) (component : Binary64 × Char) : Binary64 :=
  addUnits sum (unitSeconds component.2) component.1

/-- The milliseconds that the components add up to, each operation rounded. -/
def total (entries : List (Decimal × Char)) : Binary64 :=
  (entries.map readComponent).foldl addComponent (.zero false)

def signed (negative : Bool) (d : Duration) : Duration := if negative then d.neg else d

variable {c : Char} {cs ds rest : List Char} {units : List Char} {negative : Bool}
  {date time entries : List (Decimal × Char)} {read : List (Binary64 × Char)}
  {sum result : Binary64} {unit? : Char → Option Int} {d : Duration}

theorem isAlpha_of_unit (h : c.toUpper ∈ dateUnits ++ timeUnits) : c.isAlpha := by
  have hunits : ∀ unit ∈ dateUnits ++ timeUnits, unit.isAlpha := List.all_eq_true.1 rfl
  unfold Char.toUpper at h
  split at h
  · rename_i hlower
    have hbounds := Bool.and_eq_true_iff.2 ⟨decide_eq_true hlower.1, decide_eq_true hlower.2⟩
    exact Bool.or_eq_true_iff.2 (.inr hbounds)
  · exact hunits c h

theorem le_toNat_of_isAlpha (h : c.isAlpha) : 65 ≤ c.toNat := by
  obtain hupper | hlower := Bool.or_eq_true_iff.1 h
  · exact UInt32.le_iff_toNat_le.1 (of_decide_eq_true hupper).1
  · have hbound := UInt32.le_iff_toNat_le.1 (of_decide_eq_true (Bool.and_eq_true_iff.1 hlower).1)
    exact Nat.le_trans (by decide) hbound

theorem not_isNumeric_of_isAlpha (h : c.isAlpha) : ¬IsNumeric c := by
  rintro (hdigit | rfl | rfl)
  · have hlower := le_toNat_of_isAlpha h
    have hupper : c.toNat ≤ 57 := (Char.isDigit_iff_toNat.1 hdigit).2
    omega
  · cases h
  · cases h

theorem isAlpha_eq_false_of_isNumeric (h : IsNumeric c) : c.isAlpha = false :=
  Bool.eq_false_iff.2 fun halpha => not_isNumeric_of_isAlpha halpha h

def letters (cs : List Char) : List Char := (cs.filter Char.isAlpha).map Char.toUpper

theorem letters_append : letters (cs ++ ds) = letters cs ++ letters ds := by
  rw [letters, List.filter_append, List.map_append]
  rfl

theorem letters_cons (h : c.isAlpha) : letters (c :: cs) = c.toUpper :: letters cs := by
  rw [letters, List.filter_cons_of_pos h, List.map_cons]
  rfl

theorem letters_number {value : Decimal} (h : Numeral value cs) : letters cs = [] := by
  have hnone : cs.filter Char.isAlpha = [] := List.filter_eq_nil_iff.2 fun c hc => by
    rw [isAlpha_eq_false_of_isNumeric (h.isNumeric c hc)]
    decide
  rw [letters, hnone, List.map_nil]

theorem Components.letters_eq (hunits : units ⊆ dateUnits ++ timeUnits)
    (h : Components units entries cs) : letters cs = entries.map Prod.snd := by
  induction h with
  | nil => rfl
  | cons hnumber hletter _ ih =>
      rw [letters_append, letters_number hnumber, List.nil_append,
        letters_cons (isAlpha_of_unit (hunits hletter)), ih, List.map_cons]

theorem Components.mem_units (h : Components units entries cs) :
    ∀ unit ∈ entries.map Prod.snd, unit ∈ units := by
  induction h with
  | nil => nofun
  | cons _ hletter _ ih => exact List.forall_mem_cons.2 ⟨hletter, ih⟩

theorem sublist_units (before after : List Char) (hds : ∀ c ∈ ds, c ∈ units)
    (hbefore : ∀ c ∈ before, c ∉ units) (hafter : ∀ c ∈ after, c ∉ units)
    (h : ds.Sublist (before ++ units ++ after)) : ds.Sublist units := by
  have hself : ∀ {l : List Char}, (∀ c ∈ l, c ∈ units) → l.filter (decide <| · ∈ units) = l :=
    fun hl => List.filter_eq_self.2 fun c hc => decide_eq_true (hl c hc)
  have hnone : ∀ {l : List Char}, (∀ c ∈ l, c ∉ units) → l.filter (decide <| · ∈ units) = [] :=
    fun hl => List.filter_eq_nil_iff.2 fun c hc => mt of_decide_eq_true (hl c hc)
  have hfilter := h.filter (decide <| · ∈ units)
  rwa [List.filter_append, List.filter_append, hself hds, hnone hbefore, hnone hafter,
    hself fun _ => id, List.append_nil, List.nil_append] at hfilter

theorem Body.letters_sublist_iff (h : Body date time cs) :
    (letters cs).Sublist (dateUnits ++ 'T' :: timeUnits) ↔
      (date.map Prod.snd).Sublist dateUnits ∧ (time.map Prod.snd).Sublist timeUnits := by
  have hdays : ∀ {l : List Char}, (∀ c ∈ l, c ∈ dateUnits) →
      l.Sublist (dateUnits ++ 'T' :: timeUnits) → l.Sublist dateUnits := fun hl =>
    sublist_units [] _ hl nofun (by simp [timeUnits])
  have hhours : ∀ {l : List Char}, (∀ c ∈ l, c ∈ timeUnits) →
      l.Sublist (dateUnits ++ 'T' :: timeUnits) → l.Sublist timeUnits := fun hl =>
    sublist_units ['W', 'D', 'T'] [] hl (by simp [timeUnits]) nofun
  cases h with
  | date hdate =>
      rw [hdate.letters_eq (by decide)]
      constructor
      · intro hletters
        exact ⟨hdays hdate.mem_units hletters, List.nil_sublist _⟩
      · rintro ⟨hletters, -⟩
        exact hletters.trans (List.sublist_append_left _ _)
  | time hdate hmark htime =>
      rename_i ds ts mark _
      have hletters : letters (ds ++ mark :: ts) =
          date.map Prod.snd ++ 'T' :: time.map Prod.snd := by
        rw [letters_append, hdate.letters_eq (by decide), ← htime.letters_eq (by decide)]
        obtain rfl | rfl := hmark <;> rfl
      rw [hletters]
      constructor
      · intro h
        have hbefore := (List.sublist_append_left _ _).trans h
        have hafter := ((List.sublist_cons_self _ _).trans (List.sublist_append_right _ _)).trans h
        exact ⟨hdays hdate.mem_units hbefore, hhours htime.mem_units hafter⟩
      · rintro ⟨hdate, htime⟩
        exact hdate.append (htime.cons_cons _)

theorem Literal.letters_sublist_iff (h : Literal negative date time cs) :
    (letters cs).Sublist "PWDTHMS".toList ↔
      (date.map Prod.snd).Sublist dateUnits ∧ (time.map Prod.snd).Sublist timeUnits := by
  have hletters : ∃ body, letters cs = 'P' :: letters body ∧ Body date time body := by
    cases h with
    | positive hmark hbody => exact ⟨_, by obtain rfl | rfl := hmark <;> rfl, hbody⟩
    | negative hmark hbody => exact ⟨_, by obtain rfl | rfl := hmark <;> rfl, hbody⟩
  obtain ⟨body, hcs, hbody⟩ := hletters
  rw [hcs, ← hbody.letters_sublist_iff]
  exact List.cons_sublist_cons

theorem documented_iff : Documented cs ↔
    (∃ negative date time, Literal negative date time cs) ∧
      (letters cs).Sublist "PWDTHMS".toList := by
  constructor
  · rintro ⟨negative, date, time, hliteral, horder⟩
    exact ⟨⟨negative, date, time, hliteral⟩, hliteral.letters_sublist_iff.2 horder⟩
  · rintro ⟨⟨negative, date, time, hliteral⟩, hletters⟩
    exact ⟨negative, date, time, hliteral, hliteral.letters_sublist_iff.1 hletters⟩

theorem Components.components?_eq (hunits : units ⊆ dateUnits ++ timeUnits)
    (h : Components units entries cs) :
    components? [] cs = some (entries.map readComponent) := by
  induction h with
  | nil => rfl
  | cons hnumber hletter _ ih =>
      have hnumeric := not_isNumeric_of_isAlpha (isAlpha_of_unit (hunits hletter))
      rw [components?_cons _ _ hnumber hnumeric, ih]
      rfl

theorem exists_components (h : components? [] cs = some read)
    (hunits : ∀ component ∈ read, component.2 ∈ units) :
    ∃ entries, Components units entries cs ∧ entries.map readComponent = read := by
  induction read generalizing cs with
  | nil =>
      obtain ⟨rfl, -⟩ | ⟨number, value, letter, rest, read, -, -, -, -, heq⟩ :=
        exists_of_components? h
      · exact ⟨[], .nil, rfl⟩
      · cases heq
  | cons component read ih =>
      obtain ⟨-, heq⟩ | ⟨number, value, letter, rest, read, hnumber, -, rfl, hrest, heq⟩ :=
        exists_of_components? h
      · cases heq
      · obtain ⟨rfl, rfl⟩ := List.cons.inj heq
        obtain ⟨hletter, hunits⟩ := List.forall_mem_cons.1 hunits
        obtain ⟨entries, hentries, rfl⟩ := ih hrest hunits
        exact ⟨_, .cons hnumber hletter hentries, rfl⟩

theorem accumulate?_eq_some_iff
    (hunit : ∀ letter, unit? letter = if letter ∈ units then some (unitSeconds letter) else none) :
    accumulate? unit? sum read = some result ↔
      (∀ component ∈ read, component.2 ∈ units) ∧ read.foldl addComponent sum = result := by
  induction read generalizing sum with
  | nil => simp [accumulate?]
  | cons component read ih =>
      rw [accumulate?, hunit, List.forall_mem_cons, List.foldl_cons]
      by_cases hc : component.2 ∈ units
      · rw [if_pos hc]
        dsimp only
        rw [and_iff_right hc]
        exact ih
      · simp [hc]

theorem exists_of_accumulate?
    (hunit : ∀ letter, unit? letter = if letter ∈ units then some (unitSeconds letter) else none)
    (hread : components? [] cs = some read) (hsum : accumulate? unit? sum read = some result) :
    ∃ entries, Components units entries cs ∧ entries.map readComponent = read ∧
      (entries.map readComponent).foldl addComponent sum = result := by
  obtain ⟨hunits, rfl⟩ := (accumulate?_eq_some_iff hunit).1 hsum
  obtain ⟨entries, hentries, rfl⟩ := exists_components hread hunits
  exact ⟨entries, hentries, rfl, rfl⟩

theorem Components.accumulate?_eq
    (hunit : ∀ letter, unit? letter = if letter ∈ units then some (unitSeconds letter) else none)
    (h : Components units entries cs) :
    accumulate? unit? sum (entries.map readComponent) =
      some ((entries.map readComponent).foldl addComponent sum) := by
  refine (accumulate?_eq_some_iff hunit).2 ⟨?_, rfl⟩
  intro component hc
  obtain ⟨entry, hentry, rfl⟩ := List.mem_map.1 hc
  exact h.mem_units _ (List.mem_map_of_mem hentry)

theorem dateUnit?_eq (letter : Char) :
    dateUnit? letter = if letter ∈ dateUnits then some (unitSeconds letter) else none := by
  unfold dateUnit?
  split
  · rfl
  · rfl
  · rename_i hweek hday
    simp only [dateUnits, List.mem_cons, List.not_mem_nil, or_false]
    exact (if_neg (not_or.2 ⟨hweek, hday⟩)).symm

theorem timeUnit?_eq (letter : Char) :
    timeUnit? letter = if letter ∈ timeUnits then some (unitSeconds letter) else none := by
  unfold timeUnit?
  split
  · rfl
  · rfl
  · rfl
  · rename_i hhour hminute hsecond
    simp only [timeUnits, List.mem_cons, List.not_mem_nil, or_false]
    exact (if_neg (not_or.2 ⟨hhour, not_or.2 ⟨hminute, hsecond⟩⟩)).symm

theorem Components.unmarked (h : Components dateUnits entries cs) :
    ∀ c ∈ cs, isTimeMark c = false := by
  have hmark : ∀ {c}, IsNumeric c ∨ c.toUpper ∈ dateUnits → isTimeMark c = false := by
    intro c hc
    rw [Bool.eq_false_iff, ne_eq, isTimeMark_iff]
    rintro (rfl | rfl)
    · exact absurd hc (by decide)
    · exact absurd hc (by decide)
  induction h with
  | nil => nofun
  | cons hnumber hletter _ ih =>
      intro c hc
      obtain hc | hc := List.mem_append.1 hc
      · exact hmark (.inl (hnumber.isNumeric c hc))
      · obtain rfl | hc := List.mem_cons.1 hc
        · exact hmark (.inr hletter)
        · exact ih c hc

theorem total_append : total (date ++ time) =
    (time.map readComponent).foldl addComponent (total date) := by
  rw [total, List.map_append, List.foldl_append]
  rfl

theorem readBody?_eq_some_iff : readBody? cs = some result ↔
    ∃ date time, Body date time cs ∧ total (date ++ time) = result := by
  constructor
  · intro h
    obtain hcs | ⟨ds, mark, ts, rfl, hds, hmark⟩ := unmarked_or_marked cs
    · rw [readBody?_date hcs] at h
      obtain ⟨read, hread, h⟩ := Option.bind_eq_some_iff.1 h
      obtain ⟨sum, hsum, h⟩ := Option.bind_eq_some_iff.1 h
      obtain ⟨date, hdate, rfl, rfl⟩ := exists_of_accumulate? dateUnit?_eq hread hsum
      split at h
      · cases h
      · rename_i hne
        cases h
        refine ⟨date, [], .date hdate (mt ?_ hne), ?_⟩
        · rintro rfl
          rfl
        · rw [List.append_nil]
          rfl
    · rw [readBody?_marked hds hmark] at h
      obtain ⟨read, hread, h⟩ := Option.bind_eq_some_iff.1 h
      obtain ⟨sum, hsum, h⟩ := Option.bind_eq_some_iff.1 h
      obtain ⟨date, hdate, rfl, rfl⟩ := exists_of_accumulate? dateUnit?_eq hread hsum
      obtain ⟨read, hread, h⟩ := Option.bind_eq_some_iff.1 h
      split at h
      · cases h
      · rename_i hne
        obtain ⟨time, htime, rfl, rfl⟩ := exists_of_accumulate? timeUnit?_eq hread h
        refine ⟨date, time, .time hdate (isTimeMark_iff.1 hmark) htime (mt ?_ hne), total_append⟩
        rintro rfl
        rfl
  · rintro ⟨date, time, hbody, rfl⟩
    cases hbody with
    | date hdate hne =>
        rw [readBody?_date hdate.unmarked, hdate.components?_eq (by decide), Option.bind_some,
          hdate.accumulate?_eq dateUnit?_eq, Option.bind_some,
          if_neg (mt List.map_eq_nil_iff.1 hne), List.append_nil]
        rfl
    | time hdate hmark htime hne =>
        rw [readBody?_marked hdate.unmarked (isTimeMark_iff.2 hmark),
          hdate.components?_eq (by decide), Option.bind_some, hdate.accumulate?_eq dateUnit?_eq,
          Option.bind_some, htime.components?_eq (by decide), Option.bind_some,
          if_neg (mt List.map_eq_nil_iff.1 hne), htime.accumulate?_eq timeUnit?_eq, total_append]
        rfl

theorem Literal.read?_eq (h : Literal negative date time cs) :
    read? cs = (ofRealMillis? (total (date ++ time))).map (signed negative) := by
  cases h with
  | positive hmark hbody =>
      rw [read?_positive hmark, readBody?_eq_some_iff.2 ⟨date, time, hbody, rfl⟩, Option.bind_some]
      exact Option.map_id'.symm
  | negative hmark hbody =>
      rw [read?_negative hmark, readBody?_eq_some_iff.2 ⟨date, time, hbody, rfl⟩, Option.bind_some]
      rfl

theorem exists_literal (h : read? cs = some d) :
    ∃ negative date time, Literal negative date time cs := by
  obtain ⟨mark, body, hmark, rfl | rfl⟩ := exists_of_read? h
  · rw [read?_positive hmark] at h
    obtain ⟨sum, hsum, -⟩ := Option.bind_eq_some_iff.1 h
    obtain ⟨date, time, hbody, -⟩ := readBody?_eq_some_iff.1 hsum
    exact ⟨false, date, time, .positive hmark hbody⟩
  · rw [read?_negative hmark] at h
    obtain ⟨d', hrange, -⟩ := Option.map_eq_some_iff.1 h
    obtain ⟨sum, hsum, -⟩ := Option.bind_eq_some_iff.1 hrange
    obtain ⟨date, time, hbody, -⟩ := readBody?_eq_some_iff.1 hsum
    exact ⟨true, date, time, .negative hmark hbody⟩

/-- The texts that are read are the literals whose sum is in range. Of those, the ones in the
documented form are told by their letters alone, which have to follow the order `PWDTHMS` without
any of them coming twice. -/
theorem parse_documented (text : String) :
    (∀ d, parse text = .ok d ↔ ∃ negative date time, Literal negative date time text.toList ∧
      (ofRealMillis? (total (date ++ time))).map (signed negative) = some d) ∧
    ∀ d, parse text = .ok d →
      (Documented text.toList ↔ (letters text.toList).Sublist "PWDTHMS".toList) := by
  constructor
  · intro d
    rw [parse_eq_ok_iff]
    constructor
    · intro h
      obtain ⟨negative, date, time, hliteral⟩ := exists_literal h
      exact ⟨negative, date, time, hliteral, hliteral.read?_eq ▸ h⟩
    · rintro ⟨negative, date, time, hliteral, h⟩
      rw [hliteral.read?_eq, h]
  · intro d h
    rw [documented_iff, and_iff_right (exists_literal (parse_eq_ok_iff.1 h))]

/-- A literal in the documented form, in both cases and with both marks. -/
theorem parse_documented_weeks :
    parse "-p1W.5dT1,25s" = .ok ⟨-648001250000000, by decide⟩ ∧
      Documented "-p1W.5dT1,25s".toList := by
  have hparse : parse "-p1W.5dT1,25s" = .ok ⟨-648001250000000, by decide⟩ := by decide +kernel
  exact ⟨hparse, ((parse_documented _).2 _ hparse).2 (by decide +kernel)⟩

/-- Weeks are read after days, and a unit is read again. -/
theorem parse_undocumented :
    (parse "P1D1W" = .ok ⟨691200000000000, by decide⟩ ∧ ¬Documented "P1D1W".toList) ∧
      parse "PT1M1M" = .ok ⟨120000000000, by decide⟩ ∧ ¬Documented "PT1M1M".toList := by
  refine ⟨⟨by decide +kernel, ?_⟩, by decide +kernel, ?_⟩
  · rw [documented_iff]
    exact fun h => absurd h.2 (by decide +kernel)
  · rw [documented_iff]
    exact fun h => absurd h.2 (by decide +kernel)

end LiveFilter.Duration
