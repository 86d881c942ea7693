import Mathlib.Data.List.TakeWhile

/-! # Numerals in front of a rest

Digits are read off the head of a text up to the first character that is none, so a numeral is
found again in front of every rest that does not go on with a digit.
-/

namespace LiveFilter

/-- The rest of a text before which a numeral has ended. -/
def EndsDigits (rest : List Char) : Prop := ∀ c, rest.head? = some c → c.isDigit = false

theorem EndsDigits.nil : EndsDigits [] := nofun

theorem EndsDigits.cons {c : Char} (cs : List Char) (h : c.isDigit = false) :
    EndsDigits (c :: cs) := by
  rintro _ ⟨rfl⟩
  exact h

variable {cs rest r s : List Char} {m n : Nat}

theorem takeWhile_isDigit (hcs : ∀ c ∈ cs, c.isDigit) (hrest : EndsDigits rest) :
    (cs ++ rest).takeWhile Char.isDigit = cs := by
  rw [List.takeWhile_append_of_pos hcs]
  cases rest with
  | nil => exact List.append_nil cs
  | cons c rest =>
      have hc : ¬c.isDigit = true := Bool.not_eq_true _ ▸ hrest c rfl
      rw [List.takeWhile_cons_of_neg hc, List.append_nil]

theorem dropWhile_isDigit (hcs : ∀ c ∈ cs, c.isDigit) (hrest : EndsDigits rest) :
    (cs ++ rest).dropWhile Char.isDigit = rest := by
  rw [List.dropWhile_append_of_pos hcs]
  cases rest with
  | nil => rfl
  | cons c rest =>
      have hc : ¬c.isDigit = true := Bool.not_eq_true _ ▸ hrest c rfl
      rw [List.dropWhile_cons_of_neg hc]

theorem exists_digits_append (cs : List Char) : ∃ digits rest,
    cs = digits ++ rest ∧ (∀ c ∈ digits, c.isDigit) ∧ EndsDigits rest := by
  refine ⟨cs.takeWhile Char.isDigit, cs.dropWhile Char.isDigit,
    List.takeWhile_append_dropWhile.symm, fun c => List.mem_takeWhile_imp, ?_⟩
  intro c hc
  have hnot := List.head?_dropWhile_not Char.isDigit cs
  rw [hc] at hnot
  exact hnot

theorem isDigit_of_mem_toDigits : ∀ c ∈ Nat.toDigits 10 n, c.isDigit := fun _ =>
  Nat.isDigit_of_mem_toDigits (by decide) (by decide)

theorem toDigits_append_ne {c : Char} (hc : c.isDigit = false) :
    Nat.toDigits 10 n ++ r ≠ c :: s := by
  intro h
  obtain ⟨d, ds, hdigits⟩ := List.exists_cons_of_ne_nil (Nat.toDigits_ne_nil (n := n) (b := 10))
  have hd : d.isDigit := isDigit_of_mem_toDigits d (hdigits ▸ List.mem_cons_self)
  rw [hdigits, List.cons_append] at h
  rw [(List.cons.inj h).1, hc] at hd
  cases hd

theorem toDigits_append_inj (hr : EndsDigits r) (hs : EndsDigits s)
    (h : Nat.toDigits 10 m ++ r = Nat.toDigits 10 n ++ s) : m = n ∧ r = s := by
  have hdigits := congrArg (List.takeWhile Char.isDigit) h
  have hrest := congrArg (List.dropWhile Char.isDigit) h
  rw [takeWhile_isDigit isDigit_of_mem_toDigits hr,
    takeWhile_isDigit isDigit_of_mem_toDigits hs] at hdigits
  rw [dropWhile_isDigit isDigit_of_mem_toDigits hr,
    dropWhile_isDigit isDigit_of_mem_toDigits hs] at hrest
  have hvalue := congrArg (Nat.ofDigitChars 10 · 0) hdigits
  rw [Nat.ofDigitChars_ten_toDigits, Nat.ofDigitChars_ten_toDigits] at hvalue
  exact ⟨hvalue, hrest⟩

end LiveFilter
