import LiveFilter.Expr.Operator

/-! # Operands and the primitives on them

What an expression compiles to, and what a place of evaluation has to offer for the operator
rules: the rules decide, by the kinds of two operands, which primitives an operator stands for.
-/

namespace LiveFilter

/-- A primitive comparison of two terms of one kind. -/
inductive Relation where
  | eq
  | ne
  | lt
  | le
  | gt
  | ge
deriving DecidableEq

namespace Relation

def sqlToken : Relation → String
  | eq => "="
  | ne => "<>"
  | lt => "<"
  | le => "<="
  | gt => ">"
  | ge => ">="

def holds : Relation → Ordering → Bool
  | eq, o => o == .eq
  | ne, o => o != .eq
  | lt, o => o == .lt
  | le, o => o != .gt
  | gt, o => o == .gt
  | ge, o => o != .lt

end Relation

/-- The operands of a primitive operation, once the rules have put them in order: an instant
before a duration, a duration before a factor. -/
inductive ArithmeticShape where
  | numbers
  | instantDuration
  | instantInstant
  | durationDuration
  | durationScalar
deriving DecidableEq

/-- A compiled operand, by kind. An operand that is known to be null has no term. -/
inductive Operand (τ κ : Type) where
  | null
  | scalar (term : τ)
  | instant (term : τ)
  | duration (term : τ)
  | interval (start stop : τ)
  | condition (value : κ)
deriving DecidableEq

def Operand.kind {τ κ : Type} : Operand τ κ → ValueKind
  | null => .null
  | scalar _ => .scalar
  | instant _ => .instant
  | duration _ => .duration
  | interval _ _ => .interval
  | condition _ => .boolean

/-- The primitives of a place of evaluation, on its terms `τ` and conditions `κ`. -/
structure Algebra (τ κ : Type) where
  compare : Relation → τ → τ → κ
  isNull : τ → κ
  /-- A truth value, or unknown. -/
  literal : Option Bool → κ
  and : κ → κ → κ
  or : κ → κ → κ
  not : κ → κ
  /-- A scalar term used as a condition. -/
  truthy : τ → Except FilterError κ
  arithmetic : ArithmeticOp → ArithmeticShape → τ → τ → Except FilterError τ
  negate : τ → Except FilterError τ

end LiveFilter
