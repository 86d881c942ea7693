import LiveFilter.Rules.Operand

/-! # Comparison rules

Every pair of kinds has its own row of rules. An instant is not an interval of length zero: the
rows differ where the two touch.
-/

namespace LiveFilter.Rules

variable {τ κ : Type}

def containsError (left right : ValueKind) : FilterError :=
  .unsupported ComparisonOp.contains.token left right
    "first parameter of contains must be an interval"

def mismatch (op : ComparisonOp) (left right : Operand τ κ) : FilterError :=
  .unsupported op.token left.kind right.kind
    ("can not compare between " ++ left.kind.name ++ " and " ++ right.kind.name)

/-- Equality with null asks for null; every other comparison with null is unknown. Without a
term both sides are null. -/
def nullComparison (alg : Algebra τ κ) : ComparisonOp → Option τ → κ
  | .equal, some t => alg.isNull t
  | .equal, none => alg.literal (some true)
  | .notEqual, some t => alg.not (alg.isNull t)
  | .notEqual, none => alg.literal (some false)
  | _, _ => alg.literal none

def relation? : ComparisonOp → Option Relation
  | .equal => some .eq
  | .notEqual => some .ne
  | .greaterThan => some .gt
  | .greaterEqual => some .ge
  | .lessThan => some .lt
  | .lessEqual => some .le
  | _ => none

/-- Two terms that are ordered but have no place in time. -/
def ordered (alg : Algebra τ κ) (op : ComparisonOp) (kind : ValueKind) (a b : τ) :
    Except FilterError κ :=
  match relation? op with
  | some r => .ok (alg.compare r a b)
  | none =>
      .error (.unsupported op.token kind kind
        "interval relations need instant or interval operands")

/-- Two instants. A point has no extent: to meet, overlap, start or finish another point is to be
the same point. -/
def instantInstant (alg : Algebra τ κ) (op : ComparisonOp) (t u : τ) : Except FilterError κ :=
  match op with
  | .equal => .ok (alg.compare .eq t u)
  | .notEqual => .ok (alg.compare .ne t u)
  | .greaterThan | .after => .ok (alg.compare .gt t u)
  | .greaterEqual => .ok (alg.compare .ge t u)
  | .lessThan | .before => .ok (alg.compare .lt t u)
  | .lessEqual => .ok (alg.compare .le t u)
  | .contains => .error (containsError .instant .instant)
  | .meets | .overlaps | .starts | .finishes => .ok (alg.compare .eq t u)

def instantInterval (alg : Algebra τ κ) (op : ComparisonOp) (t s e : τ) : Except FilterError κ :=
  let equal := alg.and (alg.compare .eq t s) (alg.compare .eq t e)
  match op with
  | .equal => .ok equal
  | .notEqual => .ok (alg.not equal)
  | .greaterThan | .after => .ok (alg.and (alg.compare .ge t e) (alg.compare .gt t s))
  | .greaterEqual => .ok (alg.compare .ge t e)
  | .lessThan | .before => .ok (alg.compare .lt t s)
  | .lessEqual => .ok (alg.compare .le t s)
  | .contains => .error (containsError .instant .interval)
  | .meets => .ok (alg.or (alg.compare .eq t s) (alg.compare .eq t e))
  | .overlaps =>
      .ok (alg.or (alg.compare .eq t s) (alg.and (alg.compare .le s t) (alg.compare .gt e t)))
  | .starts => .ok (alg.compare .eq t s)
  | .finishes => .ok (alg.compare .eq t e)

def intervalInstant (alg : Algebra τ κ) (op : ComparisonOp) (s e t : τ) : Except FilterError κ :=
  let equal := alg.and (alg.compare .eq s t) (alg.compare .eq e t)
  match op with
  | .equal => .ok equal
  | .notEqual => .ok (alg.not equal)
  | .greaterThan | .after => .ok (alg.compare .gt s t)
  | .greaterEqual => .ok (alg.compare .ge s t)
  | .lessThan | .before => .ok (alg.compare .lt e t)
  | .lessEqual => .ok (alg.compare .le e t)
  | .contains => .ok (alg.and (alg.compare .le s t) (alg.compare .gt e t))
  | .meets => .ok (alg.or (alg.compare .eq s t) (alg.compare .eq e t))
  | .overlaps =>
      .ok (alg.or (alg.compare .eq s t) (alg.and (alg.compare .le s t) (alg.compare .gt e t)))
  | .starts => .ok (alg.compare .eq s t)
  | .finishes => .ok (alg.compare .eq e t)

def intervalInterval (alg : Algebra τ κ) (op : ComparisonOp) (s e s' e' : τ) : κ :=
  let equal := alg.and (alg.compare .eq s s') (alg.compare .eq e e')
  match op with
  | .equal => equal
  | .notEqual => alg.not equal
  | .greaterThan | .after => alg.and (alg.compare .ge s e') (alg.compare .gt s s')
  | .greaterEqual => alg.compare .ge s e'
  | .lessThan | .before => alg.and (alg.compare .le e s') (alg.compare .lt e e')
  | .lessEqual => alg.compare .le e s'
  | .contains => alg.and (alg.compare .le s s') (alg.compare .ge e e')
  | .meets => alg.or (alg.compare .eq s e') (alg.compare .eq e s')
  | .overlaps =>
      alg.or (alg.compare .eq s s') (alg.and (alg.compare .lt s e') (alg.compare .gt e s'))
  | .starts => alg.compare .eq s s'
  | .finishes => alg.compare .eq e e'

def compareKinds (alg : Algebra τ κ) (op : ComparisonOp) (left right : Operand τ κ) :
    Except FilterError κ :=
  match left, right with
  | .instant t, .instant u => instantInstant alg op t u
  | .instant t, .interval s e => instantInterval alg op t s e
  | .interval s e, .instant t => intervalInstant alg op s e t
  | .interval s e, .interval s' e' => .ok (intervalInterval alg op s e s' e')
  | .duration a, .duration b => ordered alg op .duration a b
  | .scalar a, .scalar b => ordered alg op .scalar a b
  | .null, .null => .ok (nullComparison alg op none)
  | .scalar t, .null | .instant t, .null | .duration t, .null | .interval t _, .null
  | .null, .scalar t | .null, .instant t | .null, .duration t | .null, .interval t _ =>
      .ok (nullComparison alg op (some t))
  | _, _ => .error (mismatch op left right)

/-- Only an interval, or null, may stand on the left of `contains`. -/
def compare (alg : Algebra τ κ) (op : ComparisonOp) (left right : Operand τ κ) :
    Except FilterError κ :=
  if op = .contains ∧ left.kind ≠ .interval ∧ left.kind ≠ .null then
    .error (containsError left.kind right.kind)
  else compareKinds alg op left right

end LiveFilter.Rules
