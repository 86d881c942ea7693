import LiveFilter.Error

/-! # Operators of the filter language -/

namespace LiveFilter

inductive ArithmeticOp where
  | add
  | sub
  | mul
  | div
  | mod
deriving DecidableEq

namespace ArithmeticOp

def all : List ArithmeticOp := [add, sub, mul, div, mod]

def token : ArithmeticOp → String
  | add => "+"
  | sub => "-"
  | mul => "*"
  | div => "/"
  | mod => "%"

def parse (text : String) : Except FilterError ArithmeticOp :=
  match all.find? (·.token = text) with
  | some op => .ok op
  | none => .error (.unknownOperator text)

end ArithmeticOp

/-- Comparisons, and after them the interval relations, whose tokens are single letters. -/
inductive ComparisonOp where
  | equal
  | notEqual
  | greaterThan
  | greaterEqual
  | lessThan
  | lessEqual
  | after
  | before
  | contains
  | meets
  | overlaps
  | starts
  | finishes
deriving DecidableEq

namespace ComparisonOp

def all : List ComparisonOp :=
  [equal, notEqual, greaterThan, greaterEqual, lessThan, lessEqual, after, before, contains,
    meets, overlaps, starts, finishes]

theorem mem_all (op : ComparisonOp) : op ∈ all := by cases op <;> decide

def token : ComparisonOp → String
  | equal => "="
  | notEqual => "!="
  | greaterThan => ">"
  | greaterEqual => ">="
  | lessThan => "<"
  | lessEqual => "<="
  | after => "a"
  | before => "b"
  | contains => "c"
  | meets => "m"
  | overlaps => "o"
  | starts => "s"
  | finishes => "f"

/-- Whether the operator only makes sense between instants and intervals. -/
def isIntervalRelation : ComparisonOp → Bool
  | after | before | contains | meets | overlaps | starts | finishes => true
  | equal | notEqual | greaterThan | greaterEqual | lessThan | lessEqual => false

def parse (text : String) : Except FilterError ComparisonOp :=
  match all.find? (·.token = text) with
  | some op => .ok op
  | none => .error (.unknownOperator text)

end ComparisonOp

inductive LogicalOp where
  | and
  | or
deriving DecidableEq

def LogicalOp.token : LogicalOp → String
  | and => "and"
  | or => "or"

end LiveFilter
