import LiveFilter.Expr.Basic
import LiveFilter.Rules.Arithmetic
import LiveFilter.Rules.Comparison

/-! # Lowering of expressions

One recursion lowers an expression for every place of evaluation. Children come first, from left
to right; the rule for an operator is then chosen by the kinds they turned out to have.
-/

namespace LiveFilter

/-- A place of evaluation: its primitives, and how it lowers the leaves of an expression. -/
structure Backend (m : Type → Type) (τ κ : Type) where
  algebra : Algebra τ κ
  constant : Constant → m (Operand τ κ)
  property : PropertyPath → m (Operand τ κ)

namespace Rules

variable {τ κ : Type}

/-- An operand where a truth value is needed. -/
def asCondition (alg : Algebra τ κ) (operand : Operand τ κ) : Except FilterError κ :=
  match operand with
  | .condition c => .ok c
  | .scalar t => alg.truthy t
  | .null => .ok (alg.literal none)
  | .instant _ | .duration _ | .interval _ _ =>
      .error (.unsupported "filter" operand.kind .boolean "a filter must evaluate to a boolean")

def logical (alg : Algebra τ κ) : LogicalOp → κ → κ → κ
  | .and => alg.and
  | .or => alg.or

end Rules

namespace Backend

variable {m : Type → Type} {τ κ : Type} [Monad m] [MonadLiftT (Except FilterError) m]

def lower (b : Backend m τ κ) : Expression → m (Operand τ κ)
  | .constant c => b.constant c
  | .property p => b.property p
  | .negate e => do
      let operand ← b.lower e
      liftM (Rules.negate b.algebra operand)
  | .not e => do
      let operand ← b.lower e
      let c ← liftM (Rules.asCondition b.algebra operand)
      pure (.condition (b.algebra.not c))
  | .arithmetic op l r => do
      let left ← b.lower l
      let right ← b.lower r
      liftM (Rules.arithmetic b.algebra op left right)
  | .compare op l r => do
      let left ← b.lower l
      let right ← b.lower r
      let c ← liftM (Rules.compare b.algebra op left right)
      pure (.condition c)
  | .logical op l r => do
      let left ← b.lower l
      let c ← liftM (Rules.asCondition b.algebra left)
      let right ← b.lower r
      let d ← liftM (Rules.asCondition b.algebra right)
      pure (.condition (Rules.logical b.algebra op c d))

def lowerCondition (b : Backend m τ κ) (e : Expression) : m κ := do
  let operand ← b.lower e
  liftM (Rules.asCondition b.algebra operand)

end Backend

end LiveFilter
