import LiveFilter.Proofs.Time.Calendar
import LiveFilter.Time.Instant

/-! # Fields of a literal

Each field of a literal is read back from the text it is written as, whatever text comes after it.
-/

namespace LiveFilter.Instant

variable {n count : Nat} {cs ds : List Char} {rest : List Nat}

theorem bytes_nil : bytes [] = [] := rfl

theorem bytes_append (cs ds : List Char) : bytes (cs ++ ds) = bytes cs ++ bytes ds :=
  List.flatMap_append

theorem bytes_cons {c : Char} (h : c.toNat < 128) : bytes (c :: cs) = c.toNat :: bytes cs := by
  have hc : c.val.toNat ≤ 0x7f := Nat.le_of_lt_succ h
  have hbyte : (UInt8.ofNat c.val.toNat).toNat = c.toNat := by
    rw [UInt8.toNat_ofNat']
    exact Nat.mod_eq_of_lt (Nat.lt_trans h (by decide))
  simp only [bytes, List.flatMap_cons, String.utf8EncodeChar, if_pos hc, List.map_cons, List.map_nil,
    hbyte, List.cons_append, List.nil_append]

theorem bytes_eq_map (h : ∀ c ∈ cs, c.isDigit) : bytes cs = cs.map Char.toNat := by
  induction cs with
  | nil => rfl
  | cons c cs ih =>
      obtain ⟨_, hc⟩ := Char.isDigit_iff_toNat.1 (h c List.mem_cons_self)
      have hascii : c.toNat < 128 := Nat.lt_of_le_of_lt hc (by decide)
      rw [bytes_cons hascii, ih fun c hc => h c (List.mem_cons_of_mem _ hc), List.map_cons]

theorem le_length_padded (count n : Nat) : count ≤ (padded count n).length := by
  simp only [padded, List.length_append, List.length_replicate]
  omega

theorem length_padded (hcount : 0 < count) (h : n < 10 ^ count) : (padded count n).length = count := by
  have hdigits := (Nat.length_toDigits_le_iff (by decide) hcount).2 h
  simp only [padded, List.length_append, List.length_replicate]
  omega

theorem isDigit_of_mem_padded {c : Char} (h : c ∈ padded count n) : c.isDigit := by
  rcases List.mem_append.1 h with hzero | hdigit
  · rw [(List.mem_replicate.1 hzero).2]
    rfl
  · exact Nat.isDigit_of_mem_toDigits (by decide) (by decide) hdigit

theorem ofDigitChars_padded : Nat.ofDigitChars 10 (padded count n) 0 = n := by
  rw [padded, Nat.ofDigitChars_append, Nat.ofDigitChars_replicate_zero, Nat.mul_zero,
    Nat.ofDigitChars_ten_toDigits]

theorem isDigit_toNat {c : Char} (h : c.isDigit) : IsDigit c.toNat := Char.isDigit_iff_toNat.1 h

theorem readDigits_digits {acc : Nat} (h : ∀ c ∈ cs, c.isDigit) :
    readDigits acc cs.length (bytes cs ++ rest) = .ok (Nat.ofDigitChars 10 cs acc, rest) := by
  rw [bytes_eq_map h]
  induction cs generalizing acc with
  | nil => rfl
  | cons c cs ih =>
      have hc := isDigit_toNat (h c List.mem_cons_self)
      rw [List.length_cons, List.map_cons, List.cons_append, readDigits, if_pos hc,
        ih fun c hc => h c (List.mem_cons_of_mem _ hc), Nat.ofDigitChars_cons, Nat.mul_comm 10 acc]
      rfl

theorem readDigits_padded (hcount : 0 < count) (h : n < 10 ^ count) :
    readDigits 0 count (bytes (padded count n) ++ rest) = .ok (n, rest) := by
  have hdigits : ∀ c ∈ padded count n, c.isDigit := fun _ => isDigit_of_mem_padded
  have hread : readDigits 0 (padded count n).length (bytes (padded count n) ++ rest) =
      .ok (Nat.ofDigitChars 10 (padded count n) 0, rest) := readDigits_digits hdigits
  rwa [length_padded hcount h, ofDigitChars_padded] at hread

theorem readMark_cons {marks : List Char} {c : Char} (h : c ∈ marks) :
    readMark marks (c.toNat :: rest) = .ok rest := by
  rw [readMark, if_pos (List.mem_map_of_mem h)]

theorem bytes_mark {c : Char} (h : c.toNat < 128) :
    bytes (cs ++ c :: ds) ++ rest = bytes cs ++ (c.toNat :: (bytes ds ++ rest)) := by
  rw [bytes_append, bytes_cons h, List.append_assoc, List.cons_append]

def FourDigits (year : Int) : Prop := 0 ≤ year ∧ year ≤ 9999

instance (year : Int) : Decidable (FourDigits year) := inferInstanceAs (Decidable (_ ∧ _))

theorem yearChars_eq {year : Int} (h : FourDigits year) : yearChars year = padded 4 year.toNat :=
  if_pos h

theorem readDate_dateChars {d : Date} (hd : d.Valid) (hyear : FourDigits d.year) :
    readDate (bytes (dateChars d) ++ rest) = .ok (d, rest) := by
  have hyear' : d.year.toNat < 10 ^ 4 := by
    have hlast := hyear.2
    omega
  have hmonth : d.month < 10 ^ 2 := Nat.lt_of_le_of_lt hd.2.1 (by decide)
  have hday : d.day < 10 ^ 2 := by
    have hlast := hd.2.2.2.trans (Date.monthLength_le d.year d.month)
    omega
  have hdate : (⟨(d.year.toNat : Int), d.month, d.day⟩ : Date) = d := by
    rw [Int.toNat_of_nonneg hyear.1]
  rw [dateChars, yearChars_eq hyear, bytes_mark (by decide), bytes_mark (by decide)]
  simp only [readDate, readDigits_padded (show 0 < 4 by decide) hyear',
    readDigits_padded (show 0 < 2 by decide) hmonth, readDigits_padded (show 0 < 2 by decide) hday,
    readMark_cons List.mem_cons_self, bind, Except.bind, hdate, if_pos hd]

/-- Bytes that do not go on with a number or a fraction. -/
def EndsTime (rest : List Nat) : Prop := ∀ b ∈ rest.head?, b ≠ 46 ∧ ¬IsDigit b

theorem takeWhile_digits (hcs : ∀ c ∈ cs, c.isDigit) (hrest : EndsTime rest) :
    (bytes cs ++ rest).takeWhile (decide <| IsDigit ·) = bytes cs := by
  have hdigits : ∀ b ∈ cs.map Char.toNat, decide (IsDigit b) = true := by
    intro b hb
    obtain ⟨c, hc, rfl⟩ := List.mem_map.1 hb
    exact decide_eq_true (isDigit_toNat (hcs c hc))
  rw [bytes_eq_map hcs, List.takeWhile_append_of_pos hdigits]
  cases rest with
  | nil => rw [List.takeWhile_nil, List.append_nil]
  | cons b rest =>
      have hb : ¬IsDigit b := (hrest b rfl).2
      rw [List.takeWhile_cons_of_neg (by simpa using hb), List.append_nil]

theorem readFraction_digits (hcs : ∀ c ∈ cs, c.isDigit) (hne : cs ≠ []) (hlength : cs.length ≤ 9)
    (hrest : EndsTime rest) :
    readFraction (46 :: (bytes cs ++ rest)) =
      .ok (Nat.ofDigitChars 10 cs 0 * 10 ^ (9 - cs.length), rest) := by
  have hvalue : (bytes cs).foldl (fun acc b => acc * 10 + (b - 48)) 0 = Nat.ofDigitChars 10 cs 0 := by
    rw [bytes_eq_map hcs, List.foldl_map, Nat.ofDigitChars_eq_foldl]
    simp only [Nat.mul_comm 10]
    rfl
  have hbytes : (bytes cs).length = cs.length := by rw [bytes_eq_map hcs, List.length_map]
  have hnonempty : bytes cs ≠ [] := by
    rw [← List.length_pos_iff, hbytes]
    exact List.length_pos_iff.2 hne
  simp only [readFraction, takeWhile_digits hcs hrest, List.append_eq_nil_iff, hnonempty, false_and,
    if_false, List.take_of_length_le (hbytes.trans_le hlength), hvalue, hbytes]
  rw [← hbytes, List.drop_left]

theorem readFraction_padded (hcount : 0 < count) (hle : count ≤ 9) (h : n < 10 ^ count)
    (hrest : EndsTime rest) :
    readFraction (bytes ('.' :: padded count n) ++ rest) = .ok (n * 10 ^ (9 - count), rest) := by
  have hlength := length_padded hcount h
  have hne : padded count n ≠ [] := by
    rw [← List.length_pos_iff, hlength]
    exact hcount
  have hdigits : ∀ c ∈ padded count n, c.isDigit := fun _ => isDigit_of_mem_padded
  have hread := readFraction_digits hdigits hne (hlength.trans_le hle) hrest
  rwa [hlength, ofDigitChars_padded] at hread

theorem readFraction_none (hrest : EndsTime rest) : readFraction rest = .ok (0, rest) := by
  unfold readFraction
  split
  · exact absurd rfl (hrest 46 rfl).1
  · rfl

theorem readFraction_fractionChars {nanos : Nat} (h : nanos < Timestamp.second)
    (hrest : EndsTime rest) :
    readFraction (bytes (fractionChars nanos) ++ rest) = .ok (nanos, rest) := by
  unfold Timestamp.second at h
  unfold fractionChars
  split
  · rename_i hzero
    rw [hzero, bytes_nil, List.nil_append, readFraction_none hrest]
  split
  · have hnanos : nanos / 1000000 * 10 ^ (9 - 3) = nanos := by omega
    rw [readFraction_padded (by decide) (by decide) (by omega) hrest, hnanos]
  split
  · have hnanos : nanos / 1000 * 10 ^ (9 - 6) = nanos := by omega
    rw [readFraction_padded (by decide) (by decide) (by omega) hrest, hnanos]
  · have hnanos : nanos * 10 ^ (9 - 9) = nanos := Nat.mul_one nanos
    rw [readFraction_padded (by decide) (by decide) (by omega) hrest, hnanos]

theorem secondAndNanos_eq {seconds nanos : Nat} (hnanos : nanos < 2 * Timestamp.second)
    (hleap : Timestamp.second ≤ nanos → seconds % 60 = 59) :
    (if seconds % 60 + nanos / Timestamp.second = 60 then
        (59, nanos % Timestamp.second + Timestamp.second)
      else (seconds % 60 + nanos / Timestamp.second, nanos % Timestamp.second)) =
      (seconds % 60, nanos) := by
  unfold Timestamp.second at *
  split
  · rw [Prod.mk.injEq]
    omega
  · rw [Prod.mk.injEq]
    omega

/-- Out of the last second of a minute a leap second is written like the ordinary second after it.
-/
theorem timeChars_of_leap {seconds nanos : Nat} (hin : Timestamp.second ≤ nanos)
    (hlast : seconds % 60 ≠ 59) :
    timeChars seconds nanos = timeChars (seconds + 1) (nanos - Timestamp.second) := by
  have hhour : (seconds + 1) / 3600 = seconds / 3600 := by omega
  have hminute : (seconds + 1) / 60 % 60 = seconds / 60 % 60 := by omega
  have hsecond : (seconds + 1) % 60 + (nanos - Timestamp.second) / Timestamp.second =
      seconds % 60 + nanos / Timestamp.second := by
    unfold Timestamp.second at hin ⊢
    omega
  have hfraction : (nanos - Timestamp.second) % Timestamp.second = nanos % Timestamp.second :=
    (Nat.mod_eq_sub_mod hin).symm
  simp only [timeChars, hhour, hminute, hsecond, hfraction]

theorem readTime_timeChars {seconds nanos : Nat} (hseconds : seconds < 86400)
    (hnanos : nanos < 2 * Timestamp.second) (hleap : Timestamp.second ≤ nanos → seconds % 60 = 59)
    (hrest : EndsTime rest) :
    readTime (bytes (timeChars seconds nanos) ++ rest) = .ok ((seconds, nanos), rest) := by
  have hhour : seconds / 3600 < 10 ^ 2 := by omega
  have hminute : seconds / 60 % 60 < 10 ^ 2 := by omega
  have hsecond : seconds % 60 + nanos / Timestamp.second < 10 ^ 2 := by
    unfold Timestamp.second at hnanos ⊢
    omega
  have hfraction : nanos % Timestamp.second < Timestamp.second := Nat.mod_lt _ (by decide)
  have hrange : seconds / 3600 < 24 ∧ seconds / 60 % 60 < 60 ∧ seconds % 60 < 60 := by omega
  have htotal : seconds / 3600 * 3600 + seconds / 60 % 60 * 60 + seconds % 60 = seconds := by omega
  rw [timeChars, bytes_mark (by decide), bytes_mark (by decide), bytes_append, List.append_assoc]
  simp only [readTime, readDigits_padded (show 0 < 2 by decide) hhour,
    readDigits_padded (show 0 < 2 by decide) hminute,
    readDigits_padded (show 0 < 2 by decide) hsecond,
    readMark_cons List.mem_cons_self, readFraction_fractionChars hfraction hrest, bind, Except.bind,
    secondAndNanos_eq hnanos hleap, if_pos hrange, htotal]

theorem readPair_padded (h : n < 10 ^ 2) : readPair (bytes (padded 2 n) ++ rest) = .ok (n, rest) := by
  have hlength : (bytes (padded 2 n) ++ rest).length = 2 + rest.length := by
    rw [List.length_append, bytes_eq_map fun _ => isDigit_of_mem_padded, List.length_map,
      length_padded (by decide) h]
  rw [readPair, if_neg (by omega), readDigits_padded (by decide) h]

theorem readOffset_of_sign {minutes byte : Nat} {bs : List Nat} {negative : Bool}
    (h : minutes / 60 < 10 ^ 2) (hutc : byte ≠ 90 ∧ byte ≠ 122)
    (hsign : readOffsetSign (byte :: bs) = .ok (negative,
      bytes (padded 2 (minutes / 60)) ++ ':'.toNat :: (bytes (padded 2 (minutes % 60)) ++ rest))) :
    readOffset (byte :: bs) =
      .ok (some (if negative then -((minutes * 60 : Nat) : Int) else (minutes * 60 : Nat)), rest) := by
  have hminutes : minutes % 60 < 10 ^ 2 := by omega
  have hrange : ¬60 ≤ minutes % 60 := by omega
  have htotal : minutes / 60 * 60 + minutes % 60 = minutes := by omega
  unfold readOffset
  split
  · rename_i hbyte
    exact absurd (List.cons.inj hbyte).1 hutc.1
  · rename_i hbyte
    exact absurd (List.cons.inj hbyte).1 hutc.2
  · simp only [hsign, readPair_padded h, readPair_padded hminutes,
      readMark_cons List.mem_cons_self, bind, Except.bind, if_neg hrange, htotal]

/-- The offset that is read from the text for an offset. -/
def writtenOffset (ahead : Int) : Int :=
  let rounded : Nat := (ahead.natAbs + 30) / 60 * 60
  if ahead < 0 then -rounded else rounded

theorem writtenOffset_eq_iff {ahead : Int} : writtenOffset ahead = ahead ↔ 60 ∣ ahead := by
  rw [writtenOffset]
  split <;> omega

theorem readOffset_offsetChars {ahead : Int} (h : ahead.natAbs < 86400) :
    readOffset (bytes (offsetChars ahead) ++ rest) = .ok (some (writtenOffset ahead), rest) := by
  have hhours : (ahead.natAbs + 30) / 60 / 60 < 10 ^ 2 := by omega
  unfold offsetChars writtenOffset
  split
  · rw [bytes_cons (by decide), List.cons_append, bytes_mark (by decide),
      readOffset_of_sign hhours (by decide) rfl, if_pos rfl]
  · rw [bytes_cons (by decide), List.cons_append, bytes_mark (by decide),
      readOffset_of_sign hhours (by decide) rfl, if_neg Bool.false_ne_true]

end LiveFilter.Instant
