import LiveFilter.Rules.Operand

/-! # Arithmetic rules

Instants take durations and differ by durations; durations take factors. Null operands make the
result null, except that no condition takes part in arithmetic.
-/

namespace LiveFilter.Rules

variable {τ κ : Type}

def arithmeticError (op : ArithmeticOp) (left right : Operand τ κ) : FilterError :=
  .invalidArithmetic op.token left.kind right.kind

def arithmetic (alg : Algebra τ κ) (op : ArithmeticOp) (left right : Operand τ κ) :
    Except FilterError (Operand τ κ) :=
  match left, right, op with
  | .condition _, _, _ | _, .condition _, _ => .error (arithmeticError op left right)
  | .null, _, _ | _, .null, _ => .ok .null
  | .scalar a, .scalar b, _ => (alg.arithmetic op .numbers a b).map .scalar
  | .scalar a, .duration d, .mul => (alg.arithmetic .mul .durationScalar d a).map .duration
  | .instant t, .duration d, .add | .instant t, .duration d, .sub =>
      (alg.arithmetic op .instantDuration t d).map .instant
  | .instant t, .instant u, .sub => (alg.arithmetic .sub .instantInstant t u).map .duration
  | .duration d, .duration e, .add | .duration d, .duration e, .sub =>
      (alg.arithmetic op .durationDuration d e).map .duration
  | .duration d, .instant t, .add => (alg.arithmetic .add .instantDuration t d).map .instant
  | .duration d, .scalar n, .mul | .duration d, .scalar n, .div =>
      (alg.arithmetic op .durationScalar d n).map .duration
  | .interval s e, .duration d, .add | .interval s e, .duration d, .sub => do
      let start ← alg.arithmetic op .instantDuration s d
      let stop ← alg.arithmetic op .instantDuration e d
      .ok (.interval start stop)
  | _, _, _ => .error (arithmeticError op left right)

def negate (alg : Algebra τ κ) (operand : Operand τ κ) : Except FilterError (Operand τ κ) :=
  match operand with
  | .null => .ok .null
  | .scalar t => (alg.negate t).map .scalar
  | .duration t => (alg.negate t).map .duration
  | .instant _ | .interval _ _ | .condition _ =>
      .error (.unsupported "-" operand.kind operand.kind
        "only numbers and durations can be negated")

end LiveFilter.Rules
