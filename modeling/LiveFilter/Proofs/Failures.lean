import LiveFilter.Live.Evaluator
import LiveFilter.Proofs.Outcome

/-! # What operators fail with

An operator fails for want of a rule for the kinds of its operands, or of a result for their values.
It never fails with an error about a path, so that such an error tells of a leaf.
-/

namespace LiveFilter

open Outcome (bind_eq_error map_eq_error)

variable {τ κ : Type} {err : FilterError}

/-- An error about operands, by their kinds. -/
inductive FilterError.OfOperands : FilterError → Prop
  | unsupported (op : String) (left right : ValueKind) (detail : String) :
      OfOperands (unsupported op left right detail)
  | invalidArithmetic (op : String) (left right : ValueKind) :
      OfOperands (invalidArithmetic op left right)

theorem FilterError.OfOperands.not_requiresStore {text : String} :
    ¬(requiresStore text).OfOperands := nofun

structure Algebra.BlamesOperands (alg : Algebra τ κ) : Prop where
  truthy {t : τ} {err : FilterError} (h : alg.truthy t = .error err) : err.OfOperands
  arithmetic {op : ArithmeticOp} {shape : ArithmeticShape} {a b : τ} {err : FilterError}
    (h : alg.arithmetic op shape a b = .error err) : err.OfOperands
  negate {t : τ} {err : FilterError} (h : alg.negate t = .error err) : err.OfOperands

namespace Rules

variable {alg : Algebra τ κ}

theorem ordered_eq_error {op : ComparisonOp} {kind : ValueKind} {a b : τ}
    (h : ordered alg op kind a b = .error err) : err.OfOperands := by
  unfold ordered at h
  split at h
  · cases h
  · cases h
    exact .unsupported ..

theorem instantInstant_eq_error {op : ComparisonOp} {t u : τ}
    (h : instantInstant alg op t u = .error err) : err.OfOperands := by
  cases op with
  | contains =>
      cases h
      exact .unsupported ..
  | _ => cases h

theorem instantInterval_eq_error {op : ComparisonOp} {t s e : τ}
    (h : instantInterval alg op t s e = .error err) : err.OfOperands := by
  cases op with
  | contains =>
      cases h
      exact .unsupported ..
  | _ => cases h

theorem intervalInstant_ne_error {op : ComparisonOp} {s e t : τ} :
    intervalInstant alg op s e t ≠ .error err := by
  cases op <;> exact nofun

theorem compareKinds_eq_error {op : ComparisonOp} {l r : Operand τ κ}
    (h : compareKinds alg op l r = .error err) : err.OfOperands := by
  unfold compareKinds at h
  split at h
  · exact instantInstant_eq_error h
  · exact instantInterval_eq_error h
  · exact absurd h intervalInstant_ne_error
  · cases h
  · exact ordered_eq_error h
  · exact ordered_eq_error h
  -- with null there is always a rule; whatever else is left has none
  all_goals cases h
  exact .unsupported ..

theorem compare_eq_error {op : ComparisonOp} {l r : Operand τ κ}
    (h : compare alg op l r = .error err) : err.OfOperands := by
  unfold compare at h
  split at h
  · cases h
    exact .unsupported ..
  · exact compareKinds_eq_error h

variable (halg : alg.BlamesOperands)

include halg

theorem asCondition_eq_error {o : Operand τ κ} (h : asCondition alg o = .error err) :
    err.OfOperands := by
  cases o with
  | null | condition _ => cases h
  | scalar t => exact halg.truthy h
  | instant _ | duration _ | interval _ _ =>
      cases h
      exact .unsupported ..

theorem negate_eq_error {o : Operand τ κ} (h : negate alg o = .error err) : err.OfOperands := by
  cases o with
  | null => cases h
  | scalar t | duration t => exact halg.negate (map_eq_error.1 h)
  | instant _ | interval _ _ | condition _ =>
      cases h
      exact .unsupported ..

theorem arithmetic_eq_error {op : ArithmeticOp} {l r : Operand τ κ}
    (h : arithmetic alg op l r = .error err) : err.OfOperands := by
  unfold arithmetic at h
  split at h
  -- conditions have no rule, and neither have the kinds that no row names
  case h_1 | h_2 | h_17 =>
    cases h
    exact .invalidArithmetic ..
  case h_3 | h_4 => cases h
  -- both bounds of an interval are moved, one after the other
  case h_15 | h_16 =>
    obtain h | ⟨_, _, h⟩ := bind_eq_error.1 h
    · exact halg.arithmetic h
    · obtain h | ⟨_, _, h⟩ := bind_eq_error.1 h
      · exact halg.arithmetic h
      · cases h
  all_goals exact halg.arithmetic (map_eq_error.1 h)

end Rules

namespace Live

theorem truthy_eq_error {v : Value} (h : truthy v = .error err) : err.OfOperands := by
  unfold truthy at h
  split at h
  · cases h
  · cases h
  · cases h
    exact .unsupported ..

theorem arithmetic_eq_error {op : ArithmeticOp} {shape : ArithmeticShape} {a b : Value}
    (h : arithmetic op shape a b = .error err) : err.OfOperands := by
  simp only [arithmetic] at h
  split at h
  · cases h
  · split at h
    · cases h
    · cases h
      exact .invalidArithmetic ..

theorem negate_eq_error {v : Value} (h : negate v = .error err) : err.OfOperands := by
  unfold negate at h
  split at h
  · split at h
    · cases h
      exact .invalidArithmetic ..
    · cases h
  · cases h
  · cases h
  · cases h
  · cases h
    exact .unsupported ..

theorem algebra_blamesOperands : algebra.BlamesOperands where
  truthy := truthy_eq_error
  arithmetic := arithmetic_eq_error
  negate := negate_eq_error

end Live

end LiveFilter
