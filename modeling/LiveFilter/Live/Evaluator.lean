import LiveFilter.Live.Truth
import LiveFilter.Lowering

/-! # Evaluation on an entity

A filter is evaluated on the entity that a change event delivers, with the treatment of missing
values that a store has: to compare with one is unknown, and unknown does not match. Paths that
leave the entity need the store.
-/

namespace LiveFilter.Live

/-- JSON scalars count as the values they hold. -/
def normalize : Value → Value
  | .json (.bool b) => .bool b
  | .json (.number n) =>
      match n.toInt64? with
      | some i => .integer i
      | none => .number n.toBinary64
  | .json (.string s) => .text s
  | .json .null => .null
  | v => v

/-- The order of two values that have been normalized; JSON arrays and objects are only equal or
not comparable. -/
def orderNormal : Value → Value → Option Ordering
  | .integer a, .integer b => some (Ord.compare a.toInt b.toInt)
  | .integer a, .number b => (Binary64.ofInt a.toInt).compare b
  | .number a, .integer b => a.compare (Binary64.ofInt b.toInt)
  | .number a, .number b => a.compare b
  | .text a, .text b => some (Ord.compare a b)
  | .bool a, .bool b => some (Ord.compare a b)
  | .instant a, .instant b => some (a.compare b)
  | .duration a, .duration b => some (a.compare b)
  | .json a, .json b => if a == b then some .eq else none
  | _, _ => none

def order (a b : Value) : Option Ordering := orderNormal (normalize a) (normalize b)

def compare (r : Relation) (a b : Value) : Truth :=
  match order a b with
  | some o => .ofBool (r.holds o)
  | none => .unknown

def isNull (v : Value) : Truth := .ofBool (normalize v).isNull

def truthy (v : Value) : Except FilterError Truth :=
  match normalize v with
  | .bool b => .ok (.ofBool b)
  | .null => .ok .unknown
  | other => .error (.unsupported "filter" other.kind .boolean "value is not a boolean")

/-- Integers take part in arithmetic as reals. -/
def widen : Value → Value
  | .integer n => .number (.ofInt n.toInt)
  | v => v

/-- Division by zero is null. -/
def numbers (op : ArithmeticOp) (a b : Binary64) : Value :=
  match op with
  | .add => .number (a.add b)
  | .sub => .number (a.sub b)
  | .mul => .number (a.mul b)
  | .div => if b.IsZero then .null else .number (a.div b)
  | .mod => if b.IsZero then .null else .number (a.rem b)

/-- An operation on values that are not null; `none` if it is not defined or leaves the range. -/
def operate? (op : ArithmeticOp) : ArithmeticShape → Value → Value → Option Value
  | .numbers, .number a, .number b => some (numbers op a b)
  | .instantDuration, .instant t, .duration d =>
      match op with
      | .add => (t.add? d).map .instant
      | .sub => (t.sub? d).map .instant
      | .mul | .div | .mod => none
  | .instantInstant, .instant a, .instant b => some (.duration (a.since b))
  | .durationDuration, .duration a, .duration b =>
      match op with
      | .add => (a.add? b).map .duration
      | .sub => (a.sub? b).map .duration
      | .mul | .div | .mod => none
  | .durationScalar, .duration d, .number n =>
      match op with
      | .mul => (d.scale? n).map .duration
      | .div =>
          if n.IsZero then some .null
          else (d.scale? ((Binary64.ofInt 1).div n)).map .duration
      | .add | .sub | .mod => none
  | _, _, _ => none

def arithmetic (op : ArithmeticOp) (shape : ArithmeticShape) (left right : Value) :
    Except FilterError Value :=
  let a := widen (normalize left)
  let b := widen (normalize right)
  if a.isNull || b.isNull then .ok .null
  else
    match operate? op shape a b with
    | some v => .ok v
    | none => .error (.invalidArithmetic op.token left.kind right.kind)

/-- The least integer has no negative. -/
def negate (v : Value) : Except FilterError Value :=
  match normalize v with
  | .integer n =>
      if n = Int64.minValue then .error (.invalidArithmetic "-" .scalar .scalar)
      else .ok (.integer (-n))
  | .number x => .ok (.number x.neg)
  | .duration d => .ok (.duration d.neg)
  | .null => .ok .null
  | other =>
      .error (.unsupported "-" other.kind other.kind
        "only numbers and durations can be negated")

def algebra : Algebra Value Truth where
  compare := compare
  isNull := isNull
  literal := Truth.ofOption
  and := Truth.and
  or := Truth.or
  not := Truth.not
  truthy := truthy
  arithmetic := arithmetic
  negate := negate

def operand : Value → Operand Value Truth
  | .null => .null
  | .json .null => .null
  | .instant i => .instant (.instant i)
  | .duration d => .duration (.duration d)
  | .interval i => .interval (.instant i.start) (.instant i.stop)
  | v => .scalar v

/-- The value behind a path, which is an own property or the identifier behind a link of the
entity. A property that the entity does not have is null. -/
def property (entity : Entity) (path : PropertyPath) : Except FilterError Value :=
  match path with
  | ⟨[], .entity p⟩ => .ok ((entity.get? p).getD .null)
  | ⟨[.navigation link], .entity .id⟩ =>
      if link.isSet then .error (.requiresStore path.display)
      else
        match entity.links link with
        | some id => .ok (.ofId id)
        | none => .error (.requiresStore path.display)
  | _ => .error (.requiresStore path.display)

def backend (entity : Entity) : Backend (Except FilterError) Value Truth where
  algebra := algebra
  constant c := .ok (operand c.toValue)
  property path := (property entity path).map operand

def lower (entity : Entity) (e : Expression) : Except FilterError (Operand Value Truth) :=
  (backend entity).lower e

def evaluate (entity : Entity) (e : Expression) : Except FilterError Truth :=
  (backend entity).lowerCondition e

/-- Whether a filter is definitely satisfied. -/
def isSatisfied (entity : Entity) (e : Expression) : Except FilterError Bool :=
  (evaluate entity e).map Truth.isTrue

end LiveFilter.Live
