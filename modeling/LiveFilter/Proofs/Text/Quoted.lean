import LiveFilter.Text.Quoted
import Mathlib.Data.List.Basic

/-! # Quoted texts in front of a rest

The end of a quoted text is its first quote that is not written twice, so the text is found again in
front of every rest that does not begin with a quote.
-/

namespace LiveFilter.Quoted

variable {c quote : Char} {cs xs ys r s : List Char}

theorem mem_double : c ∈ double quote cs ↔ c ∈ cs := by
  induction cs with
  | nil => rfl
  | cons x xs ih =>
      unfold double
      split <;> simp [ih]

theorem head?_double_append : (double quote xs ++ quote :: r).head? =
    some (xs.head?.getD quote) := by
  cases xs with
  | nil => rfl
  | cons x xs =>
      unfold double
      split <;> rfl

/-- A quoted text ends with the first quote that is not written twice. -/
theorem double_append_inj (hr : r.head? ≠ some quote) (hs : s.head? ≠ some quote)
    (h : double quote xs ++ quote :: r = double quote ys ++ quote :: s) : xs = ys ∧ r = s := by
  induction xs generalizing ys with
  | nil =>
      cases ys with
      | nil => exact ⟨rfl, (List.cons.inj h).2⟩
      | cons y ys =>
          by_cases hy : y = quote
          · subst hy
            rw [double, double, if_pos rfl] at h
            exact absurd (congrArg List.head? (List.cons.inj h).2) hr
          · rw [double, double, if_neg hy] at h
            exact absurd (List.cons.inj h).1.symm hy
  | cons x xs ih =>
      cases ys with
      | nil =>
          by_cases hx : x = quote
          · subst hx
            rw [double, double, if_pos rfl] at h
            exact absurd (congrArg List.head? (List.cons.inj h).2).symm hs
          · rw [double, double, if_neg hx] at h
            exact absurd (List.cons.inj h).1 hx
      | cons y ys =>
          have hhead := congrArg List.head? h
          rw [head?_double_append, head?_double_append] at hhead
          obtain rfl : x = y := Option.some.inj hhead
          have htail : double quote xs ++ quote :: r = double quote ys ++ quote :: s := by
            by_cases hx : x = quote
            · simpa [double, hx] using h
            · simpa [double, hx] using h
          obtain ⟨rfl, hrest⟩ := ih htail
          exact ⟨rfl, hrest⟩

end LiveFilter.Quoted
