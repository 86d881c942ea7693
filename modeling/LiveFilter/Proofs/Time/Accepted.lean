import LiveFilter.Proofs.Outcome
import LiveFilter.Proofs.Time.Fields
import LiveFilter.Time.Interval
import Mathlib.Data.List.TakeWhile

/-! # Accepted literals

What the text of an instant looks like once it has been read: it starts with a digit and holds no
slash. And what has been read from it: a date that exists, of a year of four digits, a second of a
day and an offset of whole minutes.
-/

namespace LiveFilter.Instant

open Outcome (bind_eq_ok)

variable {bs rest : List Nat}

/-- No field takes in a slash, so that it is left over with the rest. -/
theorem slash_of_readDigits {acc count value : Nat}
    (h : readDigits acc count bs = .ok (value, rest)) (hslash : 47 ∈ bs) : 47 ∈ rest := by
  induction count generalizing acc bs with
  | zero => cases h; exact hslash
  | succ count ih =>
      cases bs with
      | nil => cases h
      | cons b bs =>
          rw [readDigits] at h
          split at h
          · rename_i hdigit
            refine ih h ((List.mem_cons.1 hslash).resolve_left ?_)
            rintro rfl
            exact absurd hdigit (by decide)
          · cases h

theorem slash_of_readMark {marks : List Char} (hmarks : 47 ∉ marks.map Char.toNat)
    (h : readMark marks bs = .ok rest) (hslash : 47 ∈ bs) : 47 ∈ rest := by
  cases bs with
  | nil => cases h
  | cons b bs =>
      rw [readMark] at h
      split at h
      · rename_i hb
        cases h
        refine (List.mem_cons.1 hslash).resolve_left ?_
        rintro rfl
        exact hmarks hb
      · cases h

theorem slash_of_readFraction {nanos : Nat} (h : readFraction bs = .ok (nanos, rest))
    (hslash : 47 ∈ bs) : 47 ∈ rest := by
  unfold readFraction at h
  split at h
  · rename_i tail
    dsimp only at h
    split at h
    · cases h
    split at h
    · cases h
    · cases h
      obtain ⟨after, hafter⟩ := List.takeWhile_prefix (l := tail) (decide <| IsDigit ·)
      have hdigits : 47 ∉ tail.takeWhile (decide <| IsDigit ·) := by
        intro hmem
        exact absurd (List.mem_takeWhile_imp hmem) (by decide)
      have htail : 47 ∈ tail := (List.mem_cons.1 hslash).resolve_left (by decide)
      generalize tail.takeWhile (decide <| IsDigit ·) = digits at hafter hdigits ⊢
      rw [← hafter] at htail ⊢
      rw [List.drop_left]
      exact (List.mem_append.1 htail).resolve_left hdigits
  · cases h
    exact hslash

theorem slash_of_readOffsetSign {negative : Bool} (h : readOffsetSign bs = .ok (negative, rest))
    (hslash : 47 ∈ bs) : 47 ∈ rest := by
  unfold readOffsetSign at h
  split at h <;> cases h
  all_goals simpa using hslash

theorem slash_of_readPair {value : Nat} (h : readPair bs = .ok (value, rest)) (hslash : 47 ∈ bs) :
    47 ∈ rest := by
  unfold readPair at h
  split at h
  · cases h
  · exact slash_of_readDigits h hslash

theorem slash_of_readOffset {ahead : Option Int} (h : readOffset bs = .ok (ahead, rest))
    (hslash : 47 ∈ bs) : 47 ∈ rest := by
  unfold readOffset at h
  split at h
  · cases h
    exact (List.mem_cons.1 hslash).resolve_left (by decide)
  · cases h
    exact (List.mem_cons.1 hslash).resolve_left (by decide)
  · obtain ⟨⟨negative, bs₁⟩, hsign, h⟩ := bind_eq_ok.1 h
    obtain ⟨⟨hours, bs₂⟩, hhours, h⟩ := bind_eq_ok.1 h
    obtain ⟨bs₃, hmark, h⟩ := bind_eq_ok.1 h
    obtain ⟨⟨minutes, bs₄⟩, hminutes, h⟩ := bind_eq_ok.1 h
    dsimp only at hhours hmark hminutes h
    split at h
    · cases h
    · cases h
      have hslash₁ := slash_of_readOffsetSign hsign hslash
      have hslash₂ := slash_of_readPair hhours hslash₁
      have hslash₃ := slash_of_readMark (by decide) hmark hslash₂
      exact slash_of_readPair hminutes hslash₃

theorem lt_of_readDigits {acc count value : Nat} (h : readDigits acc count bs = .ok (value, rest)) :
    value < (acc + 1) * 10 ^ count := by
  induction count generalizing acc bs with
  | zero => cases h; omega
  | succ count ih =>
      cases bs with
      | nil => cases h
      | cons b bs =>
          rw [readDigits] at h
          split at h
          · rename_i hdigit
            have hb : b - 48 ≤ 9 := by have := hdigit.2; omega
            have hvalue := ih h
            calc value
                < (acc * 10 + (b - 48) + 1) * 10 ^ count := hvalue
              _ ≤ ((acc + 1) * 10) * 10 ^ count := Nat.mul_le_mul_right _ (by omega)
              _ = (acc + 1) * 10 ^ (count + 1) := by rw [Nat.pow_succ', Nat.mul_assoc]
          · cases h

theorem head_of_readDigits {acc count value : Nat}
    (h : readDigits acc (count + 1) bs = .ok (value, rest)) : ∃ b ∈ bs.head?, IsDigit b := by
  cases bs with
  | nil => cases h
  | cons b bs =>
      rw [readDigits] at h
      split at h
      · rename_i hdigit
        exact ⟨b, rfl, hdigit⟩
      · cases h

theorem of_readDate {date : Date} (h : readDate bs = .ok (date, rest)) :
    date.Valid ∧ FourDigits date.year ∧ (∃ b ∈ bs.head?, IsDigit b) ∧ (47 ∈ bs → 47 ∈ rest) := by
  obtain ⟨⟨year, bs₁⟩, hyear, h⟩ := bind_eq_ok.1 h
  obtain ⟨bs₂, hmark₁, h⟩ := bind_eq_ok.1 h
  obtain ⟨⟨month, bs₃⟩, hmonth, h⟩ := bind_eq_ok.1 h
  obtain ⟨bs₄, hmark₂, h⟩ := bind_eq_ok.1 h
  obtain ⟨⟨day, bs₅⟩, hday, h⟩ := bind_eq_ok.1 h
  dsimp only at hmark₁ hmonth hmark₂ hday h
  split at h
  · rename_i hvalid
    cases h
    have hlt : year < (0 + 1) * 10 ^ 4 := lt_of_readDigits hyear
    refine ⟨hvalid, ⟨?_, ?_⟩, head_of_readDigits hyear, fun hslash => ?_⟩
    · exact Int.natCast_nonneg year
    · change (year : Int) ≤ 9999
      omega
    · have hslash₁ := slash_of_readDigits hyear hslash
      have hslash₂ := slash_of_readMark (by decide) hmark₁ hslash₁
      have hslash₃ := slash_of_readDigits hmonth hslash₂
      have hslash₄ := slash_of_readMark (by decide) hmark₂ hslash₃
      exact slash_of_readDigits hday hslash₄
  · cases h

theorem of_readTime {seconds nanos : Nat} (h : readTime bs = .ok ((seconds, nanos), rest)) :
    seconds < 86400 ∧ (47 ∈ bs → 47 ∈ rest) := by
  obtain ⟨⟨hour, bs₁⟩, hhour, h⟩ := bind_eq_ok.1 h
  obtain ⟨bs₂, hmark₁, h⟩ := bind_eq_ok.1 h
  obtain ⟨⟨minute, bs₃⟩, hminute, h⟩ := bind_eq_ok.1 h
  obtain ⟨bs₄, hmark₂, h⟩ := bind_eq_ok.1 h
  obtain ⟨⟨second, bs₅⟩, hsecond, h⟩ := bind_eq_ok.1 h
  obtain ⟨⟨fraction, bs₆⟩, hfraction, h⟩ := bind_eq_ok.1 h
  dsimp only at hmark₁ hminute hmark₂ hsecond hfraction h
  generalize (if second = 60 then (59, fraction + Timestamp.second) else (second, fraction)) = p at h
  split at h
  · cases h
    refine ⟨by omega, fun hslash => ?_⟩
    have hslash₁ := slash_of_readDigits hhour hslash
    have hslash₂ := slash_of_readMark (by decide) hmark₁ hslash₁
    have hslash₃ := slash_of_readDigits hminute hslash₂
    have hslash₄ := slash_of_readMark (by decide) hmark₂ hslash₃
    have hslash₅ := slash_of_readDigits hsecond hslash₄
    exact slash_of_readFraction hfraction hslash₅
  · cases h

theorem dvd_of_readOffset {ahead : Option Int} (h : readOffset bs = .ok (ahead, rest)) :
    60 ∣ ahead.getD 0 := by
  unfold readOffset at h
  split at h
  · cases h
    exact Int.dvd_zero 60
  · cases h
    exact Int.dvd_zero 60
  · obtain ⟨⟨negative, bs₁⟩, _, h⟩ := bind_eq_ok.1 h
    obtain ⟨⟨hours, bs₂⟩, _, h⟩ := bind_eq_ok.1 h
    obtain ⟨bs₃, _, h⟩ := bind_eq_ok.1 h
    obtain ⟨⟨minutes, bs₄⟩, _, h⟩ := bind_eq_ok.1 h
    dsimp only at h
    split at h
    · cases h
    · cases h
      rw [Option.getD_some]
      split <;> omega

theorem readBytes_eq_ok_iff {i : Instant} :
    readBytes bs = .ok i ↔ 19 ≤ bs.length ∧
      ∃ date bs₁ bs₂ seconds nanos bs₃ ahead,
        readDate bs = .ok (date, bs₁) ∧ readMark ['T', 't', ' '] bs₁ = .ok bs₂ ∧
          readTime bs₂ = .ok ((seconds, nanos), bs₃) ∧ readOffset bs₃ = .ok (ahead, []) ∧
            ofLocal date seconds nanos ahead = .ok i := by
  unfold readBytes
  split
  · rename_i hshort
    constructor
    · intro h; cases h
    · rintro ⟨hlength, -⟩; omega
  · rename_i hlong
    constructor
    · intro h
      obtain ⟨⟨date, bs₁⟩, hdate, h⟩ := bind_eq_ok.1 h
      obtain ⟨bs₂, hmark, h⟩ := bind_eq_ok.1 h
      obtain ⟨⟨⟨seconds, nanos⟩, bs₃⟩, htime, h⟩ := bind_eq_ok.1 h
      obtain ⟨⟨ahead, bs₄⟩, hoffset, h⟩ := bind_eq_ok.1 h
      dsimp only at hmark htime hoffset h
      split at h
      · rename_i hend
        subst hend
        exact ⟨by omega, date, bs₁, bs₂, seconds, nanos, bs₃, ahead, hdate, hmark, htime, hoffset, h⟩
      · cases h
    · rintro ⟨-, date, bs₁, bs₂, seconds, nanos, bs₃, ahead, hdate, hmark, htime, hoffset, h⟩
      simp only [hdate, hmark, htime, hoffset, bind, Except.bind, if_true, h]

variable {text : String} {i : Instant}

theorem parse_eq_ok_iff : parse text = .ok i ↔ readBytes (bytes text.toList) = .ok i := by
  unfold parse
  split
  · rename_i j hread
    rw [hread, Except.ok.injEq, Except.ok.injEq]
  · rename_i fault hread
    rw [hread]
    constructor <;> intro h <;> cases h

theorem exists_ofLocal_of_parse (h : parse text = .ok i) :
    ∃ date seconds nanos ahead, date.Valid ∧ FourDigits date.year ∧ seconds < 86400 ∧
      60 ∣ ahead.getD 0 ∧ ofLocal date seconds nanos ahead = .ok i := by
  obtain ⟨-, date, bs₁, bs₂, seconds, nanos, bs₃, ahead, hdate, -, htime, hoffset, hlocal⟩ :=
    readBytes_eq_ok_iff.1 (parse_eq_ok_iff.1 h)
  obtain ⟨hvalid, hyear, -⟩ := of_readDate hdate
  exact ⟨date, seconds, nanos, ahead, hvalid, hyear, (of_readTime htime).1,
    dvd_of_readOffset hoffset, hlocal⟩

theorem slash_not_mem_of_parse (h : parse text = .ok i) : '/' ∉ text.toList := by
  obtain ⟨-, date, bs₁, bs₂, seconds, nanos, bs₃, ahead, hdate, hmark, htime, hoffset, -⟩ :=
    readBytes_eq_ok_iff.1 (parse_eq_ok_iff.1 h)
  intro hslash
  have hslash₀ : 47 ∈ bytes text.toList := List.mem_flatMap.2 ⟨'/', hslash, List.mem_singleton.2 rfl⟩
  have hslash₁ := (of_readDate hdate).2.2.2 hslash₀
  have hslash₂ := slash_of_readMark (by decide) hmark hslash₁
  have hslash₃ := (of_readTime htime).2 hslash₂
  exact List.not_mem_nil (slash_of_readOffset hoffset hslash₃)

theorem startsAsDuration_of_parse (h : parse text = .ok i) :
    TemporalValue.startsAsDuration text.toList = false := by
  obtain ⟨-, date, bs₁, bs₂, seconds, nanos, bs₃, ahead, hdate, -⟩ :=
    readBytes_eq_ok_iff.1 (parse_eq_ok_iff.1 h)
  obtain ⟨-, -, hdigit, -⟩ := of_readDate hdate
  cases htext : text.toList with
  | nil => rfl
  | cons c cs =>
      have hnot : ∀ d : Char, d.toNat < 128 → ¬IsDigit d.toNat → c ≠ d := by
        rintro d hascii hd rfl
        rw [htext, bytes_cons hascii] at hdigit
        obtain ⟨b, hb, hb'⟩ := hdigit
        cases hb
        exact hd hb'
      have hminus : (c == '-') = false := beq_false_of_ne (hnot '-' (by decide) (by decide))
      have hP : (c == 'P') = false := beq_false_of_ne (hnot 'P' (by decide) (by decide))
      have hp : (c == 'p') = false := beq_false_of_ne (hnot 'p' (by decide) (by decide))
      simp only [TemporalValue.startsAsDuration, List.dropWhile_cons, hminus, hP, hp, Bool.or_self,
        Bool.false_eq_true, if_false]

end LiveFilter.Instant
