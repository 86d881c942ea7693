import LiveFilter.Proofs.Time.Accepted

/-! # Literals there and back

An instant is read back from its literal exactly if its year, on the clock of its own zone, has four
digits and its offset no seconds, of which the literal has the nearest minute. Every instant that
has been read from a text is one of these.
-/

namespace LiveFilter

namespace Instant

/-- Seconds that the clock of the zone is ahead of UTC. -/
def ahead (i : Instant) : Int := i.offset.elim 0 ZoneOffset.seconds

def localSeconds (i : Instant) : Int := i.time.seconds + i.ahead

def localDate (i : Instant) : Date := Date.ofDayNumber (i.time.day + i.localSeconds / 86400)

def localSecond (i : Instant) : Nat := (i.localSeconds % 86400).toNat

def zoneChars : Option ZoneOffset → List Char
  | none => ['Z']
  | some offset => offsetChars offset.seconds

theorem formatChars_eq (i : Instant) :
    i.formatChars = dateChars i.localDate ++
      'T' :: (timeChars i.localSecond i.time.nanos ++ zoneChars i.offset) := by
  obtain ⟨time, _ | offset⟩ := i
  · simp [formatChars, localChars, localDate, localSecond, localSeconds, ahead, zoneChars]
  · simp [formatChars, localChars, localDate, localSecond, localSeconds, ahead, zoneChars]

theorem natAbs_ahead_lt (i : Instant) : i.ahead.natAbs < 86400 := by
  obtain ⟨time, _ | offset⟩ := i
  · exact (by decide : (0 : Int).natAbs < 86400)
  · exact offset.bounded

theorem localSecond_lt (i : Instant) : i.localSecond < 86400 := by
  unfold localSecond
  omega

theorem ofLocal_localDate (i : Instant) :
    ofLocal i.localDate i.localSecond i.time.nanos (i.offset.map ZoneOffset.seconds) = .ok i := by
  have hshift : (i.offset.map ZoneOffset.seconds).getD 0 = i.ahead := by
    obtain ⟨time, _ | offset⟩ := i <;> rfl
  have hoffset : ((i.offset.map ZoneOffset.seconds).map fun _ => (⟨i.ahead, i.natAbs_ahead_lt⟩ :
      ZoneOffset)) = i.offset := by
    obtain ⟨time, _ | offset⟩ := i <;> rfl
  have hday : i.localDate.toDayNumber = i.time.day + i.localSeconds / 86400 :=
    Date.toDayNumber_ofDayNumber _
  have htime : Timestamp.ofParts? (i.localDate.toDayNumber + (i.localSecond - i.ahead) / 86400)
      ((i.localSecond - i.ahead) % 86400).toNat i.time.nanos = some i.time := by
    have hseconds := i.time.valid.2.2.1
    rw [Timestamp.ofParts?_eq_some, hday]
    unfold localSecond localSeconds
    omega
  simp only [ofLocal, hshift, dif_pos i.natAbs_ahead_lt, htime, hoffset]

theorem of_ofLocal {date : Date} {seconds nanos : Nat} {shift : Option Int} {i : Instant}
    (h : ofLocal date seconds nanos shift = .ok i) :
    i.ahead = shift.getD 0 ∧ i.time.day = date.toDayNumber + (seconds - i.ahead) / 86400 ∧
      i.time.seconds = ((seconds - i.ahead) % 86400).toNat ∧ i.time.nanos = nanos := by
  unfold ofLocal at h
  dsimp only at h
  split at h
  · rename_i hshift
    split at h
    · rename_i t htime
      obtain ⟨hday, hseconds, hnanos⟩ := Timestamp.ofParts?_eq_some.1 htime
      cases h
      have hahead : ahead ⟨t, shift.map fun _ => ⟨shift.getD 0, hshift⟩⟩ = shift.getD 0 := by
        cases shift <;> rfl
      rw [hahead]
      exact ⟨rfl, hday, hseconds, hnanos⟩
    · cases h
  · cases h

theorem localDate_of_ofLocal {date : Date} {seconds nanos : Nat} {shift : Option Int} {i : Instant}
    (hdate : date.Valid) (hseconds : seconds < 86400)
    (h : ofLocal date seconds nanos shift = .ok i) : i.localDate = date := by
  obtain ⟨-, hday, hsecond, -⟩ := of_ofLocal h
  have hlocal : i.time.day + i.localSeconds / 86400 = date.toDayNumber := by
    unfold localSeconds
    omega
  rw [localDate, hlocal, Date.ofDayNumber_toDayNumber hdate]

/-- Whether the literal has a year of four digits, and the offset no seconds. -/
def Readable (i : Instant) : Prop := FourDigits i.localDate.year ∧ 60 ∣ i.ahead

instance (i : Instant) : Decidable i.Readable := inferInstanceAs (Decidable (_ ∧ _))

theorem endsTime_of_head {b : Nat} {rest : List Nat} (h : b ≠ 46 ∧ ¬IsDigit b) :
    EndsTime (b :: rest) := by
  rintro b' hb
  cases hb
  exact h

theorem endsTime_zoneChars (offset : Option ZoneOffset) : EndsTime (bytes (zoneChars offset)) := by
  cases offset with
  | none => exact endsTime_of_head (by decide)
  | some offset =>
      rw [zoneChars, offsetChars]
      split
      · rw [bytes_cons (by decide)]
        exact endsTime_of_head (by decide)
      · rw [bytes_cons (by decide)]
        exact endsTime_of_head (by decide)

theorem readOffset_zoneChars (offset : Option ZoneOffset) :
    readOffset (bytes (zoneChars offset)) =
      .ok (offset.map fun offset => writtenOffset offset.seconds, []) := by
  cases offset with
  | none => rfl
  | some offset =>
      have hread : readOffset (bytes (offsetChars offset.seconds) ++ []) =
          .ok (some (writtenOffset offset.seconds), []) := readOffset_offsetChars offset.bounded
      rwa [List.append_nil] at hread

theorem length_le_bytes (cs : List Char) : cs.length ≤ (bytes cs).length := by
  induction cs with
  | nil => exact Nat.le_refl 0
  | cons c cs ih =>
      have hc := c.utf8Size_pos
      simp only [bytes, List.flatMap_cons, List.length_cons, List.length_append, List.length_map,
        String.length_utf8EncodeChar] at ih ⊢
      omega

theorem le_length_yearChars (year : Int) : 4 ≤ (yearChars year).length := by
  unfold yearChars
  split
  · exact le_length_padded 4 _
  · exact Nat.le_succ_of_le (le_length_padded 4 _)

theorem le_length_dateChars (d : Date) : 10 ≤ (dateChars d).length := by
  have hyear := le_length_yearChars d.year
  have hmonth := le_length_padded 2 d.month
  have hday := le_length_padded 2 d.day
  simp only [dateChars, List.length_append, List.length_cons]
  omega

theorem le_length_timeChars (seconds nanos : Nat) : 8 ≤ (timeChars seconds nanos).length := by
  have hhour := le_length_padded 2 (seconds / 3600)
  have hminute := le_length_padded 2 (seconds / 60 % 60)
  have hsecond := le_length_padded 2 (seconds % 60 + nanos / Timestamp.second)
  simp only [timeChars, List.length_append, List.length_cons]
  omega

theorem le_length_formatChars (i : Instant) : 19 ≤ i.formatChars.length := by
  have hdate := le_length_dateChars i.localDate
  have htime := le_length_timeChars i.localSecond i.time.nanos
  rw [formatChars_eq, List.length_append, List.length_cons, List.length_append]
  omega

/-- The second of the day and the nanoseconds that are read from a literal. A leap second is found
again only at the end of a minute. -/
def writtenTime (i : Instant) : Nat × Nat :=
  if Timestamp.second ≤ i.time.nanos ∧ i.localSecond % 60 ≠ 59 then
    (i.localSecond + 1, i.time.nanos - Timestamp.second)
  else (i.localSecond, i.time.nanos)

theorem readTime_writtenTime {rest : List Nat} (i : Instant) (hrest : EndsTime rest) :
    readTime (bytes (timeChars i.localSecond i.time.nanos) ++ rest) = .ok (i.writtenTime, rest) := by
  have hseconds := i.localSecond_lt
  have hnanos : i.time.nanos < 2 * Timestamp.second := i.time.valid.2.2.2.1
  unfold writtenTime
  split
  · rename_i hleap
    rw [timeChars_of_leap hleap.1 hleap.2]
    have hless : i.time.nanos - Timestamp.second < Timestamp.second := by omega
    exact readTime_timeChars (by omega) (by omega) (fun h => absurd hless (Nat.not_lt.2 h)) hrest
  · rename_i hleap
    exact readTime_timeChars hseconds hnanos (fun h => not_not.1 fun hlast => hleap ⟨h, hlast⟩) hrest

theorem readBytes_formatChars {i : Instant} (h : FourDigits i.localDate.year) :
    readBytes (bytes i.formatChars) = ofLocal i.localDate i.writtenTime.1 i.writtenTime.2
      (i.offset.map fun offset => writtenOffset offset.seconds) := by
  have hvalid : i.localDate.Valid := Date.valid_ofDayNumber _
  let time := bytes (timeChars i.localSecond i.time.nanos) ++ bytes (zoneChars i.offset)
  have hbytes : bytes i.formatChars = bytes (dateChars i.localDate) ++ 'T'.toNat :: time := by
    rw [formatChars_eq, bytes_append, bytes_cons (by decide), bytes_append]
  have hdate : readDate (bytes i.formatChars) = .ok (i.localDate, 'T'.toNat :: time) := by
    rw [hbytes, readDate_dateChars hvalid h]
  have htime : readTime time = .ok (i.writtenTime, _) :=
    readTime_writtenTime i (endsTime_zoneChars i.offset)
  have hlength := i.le_length_formatChars.trans (length_le_bytes i.formatChars)
  simp only [readBytes, if_neg (Nat.not_lt.2 hlength), hdate, readMark_cons List.mem_cons_self, htime,
    readOffset_zoneChars, bind, Except.bind, if_true]

theorem parse_format {i : Instant} (h : i.Readable) : parse i.format = .ok i := by
  obtain ⟨hyear, hminutes⟩ := h
  have htime : i.writtenTime = (i.localSecond, i.time.nanos) := by
    refine if_neg fun hleap => hleap.2 ?_
    have hlast := i.time.valid.2.2.2.2 hleap.1
    unfold localSecond localSeconds
    omega
  have hoffset : (i.offset.map fun offset => writtenOffset offset.seconds) =
      i.offset.map ZoneOffset.seconds := by
    obtain ⟨time, _ | offset⟩ := i
    · rfl
    · exact congrArg some (writtenOffset_eq_iff.2 hminutes)
  rw [parse_eq_ok_iff, format, String.toList_ofList, readBytes_formatChars hyear, htime, hoffset]
  exact i.ofLocal_localDate

theorem readable_of_parse {text : String} {i : Instant} (h : parse text = .ok i) : i.Readable := by
  obtain ⟨date, seconds, nanos, ahead, hdate, hyear, hseconds, hminutes, hlocal⟩ :=
    exists_ofLocal_of_parse h
  obtain ⟨hahead, -⟩ := of_ofLocal hlocal
  rw [Readable, localDate_of_ofLocal hdate hseconds hlocal, hahead]
  exact ⟨hyear, hminutes⟩

theorem fourDigits_of_parse_format {i j : Instant} (h : parse i.format = .ok j) :
    FourDigits i.localDate.year := by
  by_contra hyear
  obtain ⟨-, date, bs₁, bs₂, seconds, nanos, bs₃, ahead, hdate, -⟩ :=
    readBytes_eq_ok_iff.1 (parse_eq_ok_iff.1 h)
  obtain ⟨-, -, ⟨b, hb, hdigit⟩, -⟩ := of_readDate hdate
  have hsign : yearChars i.localDate.year =
      (if i.localDate.year < 0 then '-' else '+') :: padded 4 i.localDate.year.natAbs := if_neg hyear
  rw [format, String.toList_ofList, formatChars_eq, dateChars, hsign] at hb
  split at hb
  · cases hb
    exact absurd hdigit (by decide)
  · cases hb
    exact absurd hdigit (by decide)

/-- What is read from a literal is off by as much as the offset has been rounded. -/
theorem dvd_ahead_of_parse_format {i j : Instant} (h : parse i.format = .ok j)
    (htime : j.time = i.time) : 60 ∣ i.ahead := by
  have hyear := fourDigits_of_parse_format h
  rw [parse_eq_ok_iff, format, String.toList_ofList, readBytes_formatChars hyear] at h
  obtain ⟨hahead, hday, hseconds, hnanos⟩ := of_ofLocal h
  rw [htime] at hday hseconds hnanos
  have hoffset : j.ahead = writtenOffset i.ahead := by
    rw [hahead]
    obtain ⟨time, _ | offset⟩ := i
    · exact (writtenOffset_eq_iff.2 (Int.dvd_zero 60)).symm
    · rfl
  have hwritten : i.writtenTime.1 = i.localSecond := by
    unfold writtenTime at hnanos ⊢
    split
    · rename_i hleap
      rw [if_pos hleap] at hnanos
      unfold Timestamp.second at hnanos hleap
      omega
    · rfl
  have hdate : i.localDate.toDayNumber = i.time.day + i.localSeconds / 86400 :=
    Date.toDayNumber_ofDayNumber _
  have hbound := i.time.valid.2.2.1
  apply writtenOffset_eq_iff.1
  rw [hdate, hoffset, hwritten] at hday
  rw [hoffset, hwritten] at hseconds
  unfold localSecond localSeconds at hday hseconds
  omega

theorem exists_parse_format_iff {i : Instant} :
    (∃ j, parse i.format = .ok j ∧ j.sameTime i = true) ↔ i.Readable := by
  constructor
  · rintro ⟨j, hread, hsame⟩
    exact ⟨fourDigits_of_parse_format hread,
      dvd_ahead_of_parse_format hread (of_decide_eq_true hsame)⟩
  · intro h
    exact ⟨i, parse_format h, decide_eq_true rfl⟩

end Instant

namespace Interval

variable {text : String} {v : Interval}

theorem slash_mem_of_parse (h : parse text = .ok v) : '/' ∈ text.toList := by
  by_contra hslash
  have hall : ∀ c ∈ text.toList, (c != '/') = true := by
    intro c hc
    exact bne_iff_ne.2 fun hc' => hslash (hc' ▸ hc)
  simp only [parse, List.dropWhile_eq_nil_iff.2 hall] at h
  cases h

theorem bounds_of_parse (h : parse text = .ok v) :
    (∃ first, Instant.parse first = .ok v.start) ∧ (∃ last, Instant.parse last = .ok v.stop) ∧
      v.Ordered := by
  unfold parse at h
  dsimp only at h
  split at h
  · cases h
  · obtain ⟨start, hstart, h⟩ := Outcome.bind_eq_ok.1 h
    obtain ⟨stop, hstop, h⟩ := Outcome.bind_eq_ok.1 h
    obtain ⟨rfl, hordered⟩ := ofBounds_eq_ok_iff.1 h
    exact ⟨⟨_, hstart⟩, ⟨_, hstop⟩, hordered⟩

theorem toList_format (v : Interval) :
    v.format.toList = v.start.formatChars ++ '/' :: v.stop.formatChars := by
  simp [format, Instant.format]

theorem parse_format (hstart : v.start.Readable) (hstop : v.stop.Readable) (h : v.Ordered) :
    parse v.format = .ok v := by
  have hstart' := Instant.parse_format hstart
  have hslash : ∀ c ∈ v.start.formatChars, (c != '/') = true := by
    intro c hc
    refine bne_iff_ne.2 fun hc' => Instant.slash_not_mem_of_parse hstart' ?_
    rw [Instant.format, String.toList_ofList]
    exact hc' ▸ hc
  have hbefore : v.format.toList.takeWhile (· != '/') = v.start.formatChars := by
    rw [toList_format, List.takeWhile_append_of_pos hslash, List.takeWhile_cons_of_neg (by decide),
      List.append_nil]
  have hafter : v.format.toList.dropWhile (· != '/') = '/' :: v.stop.formatChars := by
    rw [toList_format, List.dropWhile_append_of_pos hslash, List.dropWhile_cons_of_neg (by decide)]
  have hbounds : ofBounds v.start v.stop = .ok v := ofBounds_eq_ok_iff.2 ⟨rfl, h⟩
  simp only [parse, hafter, hbefore]
  change (do
    let start ← Instant.parse v.start.format
    let stop ← Instant.parse v.stop.format
    ofBounds start stop) = .ok v
  rw [hstart', Instant.parse_format hstop]
  exact hbounds

end Interval

namespace TemporalValue

theorem parse_of_instant {text : String} {i : Instant} (h : Instant.parse text = .ok i) :
    parse text = .ok (.instant i) := by
  rw [parse, if_neg (Instant.slash_not_mem_of_parse h), Instant.startsAsDuration_of_parse h,
    if_neg Bool.false_ne_true, h]
  rfl

theorem parse_of_interval {text : String} {v : Interval} (h : Interval.parse text = .ok v) :
    parse text = .ok (.interval v) := by
  rw [parse, if_pos (Interval.slash_mem_of_parse h), h]
  rfl

/-- A literal that has been read as an instant or as an interval is read as the same one again from
the text that is written for it, and this as a value of any kind too. -/
theorem parse_format_of_parse (text : String) :
    (∀ i, Instant.parse text = .ok i →
      Instant.parse i.format = .ok i ∧
        parse text = .ok (.instant i) ∧ parse (format (.instant i)) = .ok (.instant i)) ∧
    (∀ v, Interval.parse text = .ok v →
      Interval.parse v.format = .ok v ∧
        parse text = .ok (.interval v) ∧ parse (format (.interval v)) = .ok (.interval v)) := by
  constructor
  · intro i h
    have hread := Instant.parse_format (Instant.readable_of_parse h)
    exact ⟨hread, parse_of_instant h, parse_of_instant hread⟩
  · intro v h
    obtain ⟨⟨first, hstart⟩, ⟨last, hstop⟩, hordered⟩ := Interval.bounds_of_parse h
    have hread := Interval.parse_format (Instant.readable_of_parse hstart)
      (Instant.readable_of_parse hstop) hordered
    exact ⟨hread, parse_of_interval h, parse_of_interval hread⟩

/-- A leap second that is in the year before in UTC, and one that an interval starts with. -/
theorem parse_format_of_parse_leapSecond :
    (∃ i, Instant.parse "0000-01-01t00:59:60.50+01:00" = .ok i ∧
      i.format = "0000-01-01T00:59:60.500+01:00" ∧ Instant.parse i.format = .ok i ∧
        parse (format (.instant i)) = .ok (.instant i)) ∧
    ∃ v, Interval.parse "2016-12-31T23:59:60.1234567890z/2017-01-01 00:00:00-00:00" = .ok v ∧
      v.format = "2016-12-31T23:59:60.123456789Z/2017-01-01T00:00:00+00:00" ∧
        Interval.parse v.format = .ok v ∧ parse (format (.interval v)) = .ok (.interval v) := by
  have hinstant : (Instant.parse "0000-01-01t00:59:60.50+01:00").toOption.any
      (·.format == "0000-01-01T00:59:60.500+01:00") = true := by decide +kernel
  have hinterval :
      (Interval.parse "2016-12-31T23:59:60.1234567890z/2017-01-01 00:00:00-00:00").toOption.any
        (·.format == "2016-12-31T23:59:60.123456789Z/2017-01-01T00:00:00+00:00") = true := by
    decide +kernel
  obtain ⟨i, hi, htext⟩ := Outcome.exists_of_any hinstant
  obtain ⟨v, hv, htext'⟩ := Outcome.exists_of_any hinterval
  obtain ⟨hread, -, hvalue⟩ := (parse_format_of_parse _).1 i hi
  obtain ⟨hread', -, hvalue'⟩ := (parse_format_of_parse _).2 v hv
  exact ⟨⟨i, hi, beq_iff_eq.1 htext, hread, hvalue⟩, v, hv, beq_iff_eq.1 htext', hread', hvalue'⟩

end TemporalValue

end LiveFilter
