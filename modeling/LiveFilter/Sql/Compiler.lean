import LiveFilter.Lowering
import LiveFilter.Sql.Column
import LiveFilter.Sql.Condition

/-! # Compilation to SQL

Every literal of a filter becomes a placeholder with the cast of its kind, and its value a
parameter; placeholders are numbered in the order of the literals.
-/

namespace LiveFilter

attribute [local instance (high)] instPowNat

inductive SqlParam where
  | bool (value : Bool)
  | integer (value : Int64)
  | float (value : Binary64)
  | text (value : String)
deriving DecidableEq

/-- Whole numbers within 64 bits are bound as integers. -/
def SqlParam.ofNumber (x : Binary64) : SqlParam :=
  match x with
  | .finite y =>
      if y.isWhole ∧ y.truncate.natAbs < 2 ^ (63 : Nat) then integer (saturate y.truncate)
      else float x
  | _ => float x

/-- A compiled filter and the parameters for its placeholders `$1`, `$2` and so on. -/
structure CompiledFilter where
  condition : SqlCondition
  params : List SqlParam
deriving DecidableEq

def CompiledFilter.sql (f : CompiledFilter) : String := f.condition.render

namespace Sql

/-- Compilation collects parameters until it fails. -/
abbrev Binding := StateT (List SqlParam) (Except FilterError)

def bind (value : SqlParam) (type : Option SqlType) : Binding SqlField := do
  let params ← get
  set (params ++ [value])
  pure (.param (params.length + 1) type)

def instantText (type : TimestampType) (i : Instant) : String :=
  match type with
  | .withTimeZone => i.format
  | .withoutTimeZone => i.formatNaive

def bindInstant (type : TimestampType) (i : Instant) : Binding SqlField :=
  bind (.text (instantText type i)) (some (.timestamp type))

def durationText (d : Duration) : String := Json.intText d.millis ++ " milliseconds"

def guardDivisor (op : ArithmeticOp) (right : SqlField) : SqlField :=
  match op with
  | .div | .mod => .nullIfZero right
  | .add | .sub | .mul => right

def arithmetic (type : TimestampType) (op : ArithmeticOp) (shape : ArithmeticShape)
    (left right : SqlField) : SqlField :=
  let stamp := SqlType.timestamp type
  match shape with
  | .numbers => .binary op left (guardDivisor op right)
  | .durationScalar => .binary op (left.castTo .interval) (guardDivisor op right)
  | .instantDuration => .binary op (left.castTo stamp) (right.castTo .interval)
  | .instantInstant => .binary op (left.castTo stamp) (right.castTo stamp)
  | .durationDuration => .binary op (left.castTo .interval) (right.castTo .interval)

def algebra (type : TimestampType) : Algebra SqlField SqlCondition where
  compare := .compare
  isNull := .isNull
  literal := .literal
  and := .and
  or := .or
  not := .not
  truthy field := .ok (.field field)
  arithmetic op shape left right := .ok (arithmetic type op shape left right)
  negate field := .ok (.negate field)

def constant (type : TimestampType) : Constant → Binding (Operand SqlField SqlCondition)
  | .null => pure .null
  | .bool b => return .scalar (← bind (.bool b) none)
  | .integer n => return .scalar (← bind (.integer n) none)
  | .number x => return .scalar (← bind (.ofNumber x) none)
  | .text s => return .scalar (← bind (.text s) none)
  | .instant i => return .instant (← bindInstant type i)
  | .duration d => return .duration (← bind (.text (durationText d)) (some .interval))
  | .interval i => do
      let start ← bindInstant type i.start
      let stop ← bindInstant type i.stop
      return .interval start stop

def ofMapping : ColumnMapping → Operand SqlField SqlCondition
  | .scalar c => .scalar (.column c)
  | .instant c => .instant (.column c)
  | .duration c => .duration (.column c)
  | .interval s e => .interval (.column s) (.column e)

/-- The table that filters are compiled for. -/
structure Table where
  entityType : EntityType
  timestampType : TimestampType
  resolver : ColumnResolver

namespace Table

def ofType (type : EntityType) : Table := ⟨type, .withTimeZone, ColumnResolver.byName⟩

def backend (t : Table) : Backend Binding SqlField SqlCondition where
  algebra := algebra t.timestampType
  constant := constant t.timestampType
  property path := liftM ((t.resolver t.entityType path).map ofMapping)

/-- Compiles a filter into the body of a `WHERE` clause. -/
def compile (t : Table) (e : Expression) : Except FilterError CompiledFilter := do
  let (condition, params) ← (t.backend.lowerCondition e).run []
  pure ⟨condition, params⟩

end Table

end Sql

end LiveFilter
