import LiveFilter.Proofs.Evaluation

/-! # Equal and not equal

The rules say in three ways that operands are not equal: by a relation of two terms, by the negation
of a conjunction, and by the negation of a test for null. Each time this is the negation of what
they say for equal, so that unknown stays unknown, and the two fail on the same kinds.
-/

namespace LiveFilter

variable {τ κ : Type}

/-- Unequal is the negation of equal, and false that of true. -/
structure Algebra.Complemented (alg : Algebra τ κ) : Prop where
  compare_ne (a b : τ) : alg.compare .ne a b = alg.not (alg.compare .eq a b)
  literal_false : alg.literal (some false) = alg.not (alg.literal (some true))

namespace Rules

variable {alg : Algebra τ κ}

theorem nullComparison_notEqual (hc : alg.Complemented) (t : Option τ) :
    nullComparison alg .notEqual t = alg.not (nullComparison alg .equal t) := by
  cases t with
  | none => exact hc.literal_false
  | some t => rfl

theorem compareKinds_notEqual (hc : alg.Complemented) (l r : Operand τ κ) :
    (compareKinds alg .notEqual l r).toOption =
      (compareKinds alg .equal l r).toOption.map alg.not := by
  have hnull (t : Option τ) := congrArg some (nullComparison_notEqual hc t)
  have hterms (a b : τ) := congrArg some (hc.compare_ne a b)
  cases l with
  | null =>
      cases r with
      | condition d => rfl
      | _ => exact hnull _
  | scalar a =>
      cases r with
      | null => exact hnull _
      | scalar b => exact hterms a b
      | _ => rfl
  | instant t =>
      cases r with
      | null => exact hnull _
      | instant u => exact hterms t u
      | _ => rfl
  | duration a =>
      cases r with
      | null => exact hnull _
      | duration b => exact hterms a b
      | _ => rfl
  | interval s e =>
      -- with an interval the rows negate a conjunction themselves
      cases r with
      | null => exact hnull _
      | _ => rfl
  | condition c => cases r <;> rfl

theorem compare_notEqual (hc : alg.Complemented) (l r : Operand τ κ) :
    (compare alg .notEqual l r).toOption = (compare alg .equal l r).toOption.map alg.not := by
  have hcheck (op : ComparisonOp) (hop : op ≠ .contains) :
      compare alg op l r = compareKinds alg op l r := if_neg fun h => hop h.1
  rw [hcheck .notEqual nofun, hcheck .equal nofun]
  exact compareKinds_notEqual hc l r

end Rules

namespace Live

theorem compare_ne (a b : Value) : compare .ne a b = (compare .eq a b).not := by
  rw [compare, compare]
  cases order a b with
  | none => rfl
  | some o => cases o <;> rfl

theorem algebra_complemented : algebra.Complemented where
  compare_ne := compare_ne
  literal_false := rfl

/-- Not-equal is the negation of equal and fails when equal does, for operands of all kinds: null,
missing, or without an order. So a filter may as well negate that two operands are equal. -/
theorem evaluate_notEqual (entity : Entity) (l r : Expression) :
    (evaluate entity (.compare .notEqual l r)).toOption =
        (evaluate entity (.compare .equal l r)).toOption.map Truth.not ∧
      (evaluate entity (.compare .notEqual l r)).toOption =
        (evaluate entity (.not (.compare .equal l r))).toOption := by
  have hnegated : (evaluate entity (.compare .notEqual l r)).toOption =
      (evaluate entity (.compare .equal l r)).toOption.map Truth.not := by
    rw [evaluate_compare, evaluate_compare]
    cases lower entity l with
    | error err => rfl
    | ok left =>
        cases lower entity r with
        | error err => rfl
        | ok right => exact Rules.compare_notEqual algebra_complemented left right
  refine ⟨hnegated, hnegated.trans ?_⟩
  rw [evaluate_not]
  cases evaluate entity (.compare .equal l r) <;> rfl

end Live

end LiveFilter
