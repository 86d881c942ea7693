import LiveFilter.Expr.Operator
import LiveFilter.Path

/-! # Filter expressions

The tree of a filter, independent of where it is evaluated.
-/

namespace LiveFilter

/-- A literal operand. Integers stay exact, so that identifiers are never rounded. -/
inductive Constant where
  | null
  | bool (value : Bool)
  | integer (value : Int64)
  | number (value : Binary64)
  | text (value : String)
  | instant (value : Instant)
  | duration (value : Duration)
  | interval (value : Interval)

namespace Constant

def kind : Constant → ValueKind
  | null => .null
  | bool _ => .boolean
  | integer _ | number _ | text _ => .scalar
  | instant _ => .instant
  | duration _ => .duration
  | interval _ => .interval

def toValue : Constant → Value
  | null => .null
  | bool b => .bool b
  | integer n => .integer n
  | number x => .number x
  | text s => .text s
  | instant i => .instant i
  | duration d => .duration d
  | interval i => .interval i

def ofId : Id → Constant
  | .long n => integer n
  | .text s => text s

def display : Constant → String
  | null => "null"
  | bool b => Json.boolText b
  | integer n => Json.intText n.toInt
  | number x => x.toText
  | text s => Quoted.wrap '\'' s
  | instant i => i.format
  | duration d => "duration'" ++ d.format ++ "'"
  | interval i => i.format

end Constant

/-- Properties to go through, and the one at the end; links as a rule, and then a property. -/
structure PropertyPath where
  through : List Property
  last : Property
deriving DecidableEq

namespace PropertyPath

def single (property : Property) : PropertyPath := ⟨[], property⟩

def ofLinks (links : List NavigationProperty) (property : EntityProperty) : PropertyPath :=
  ⟨links.map .navigation, .entity property⟩

def ofSegments (segments : List Property) : Except Misuse PropertyPath :=
  match segments.getLast? with
  | some last => .ok ⟨segments.dropLast, last⟩
  | none => .error .emptyPropertyPath

def segments (p : PropertyPath) : List Property := p.through ++ [p.last]

def local? (p : PropertyPath) : Option EntityProperty :=
  match p with
  | ⟨[], .entity q⟩ => some q
  | _ => none

def kind (p : PropertyPath) : ValueKind :=
  match p.last with
  | .entity q => q.valueKind
  | .navigation _ => .scalar

def display (p : PropertyPath) : String :=
  ResourcePath.joinSlash (p.segments.map Property.wireName)

end PropertyPath

inductive Expression where
  | constant (value : Constant)
  | property (path : PropertyPath)
  | negate (inner : Expression)
  | not (inner : Expression)
  | arithmetic (op : ArithmeticOp) (left right : Expression)
  | compare (op : ComparisonOp) (left right : Expression)
  | logical (op : LogicalOp) (left right : Expression)

namespace Expression

def equal (left right : Expression) : Expression := compare .equal left right

def and (left right : Expression) : Expression := logical .and left right

/-- The kind of an arithmetic result. Null operands make it null. -/
def arithmeticKind : ValueKind → ValueKind → ValueKind
  | .null, _ | _, .null => .null
  | .instant, .duration | .duration, .instant => .instant
  | .instant, .instant => .duration
  | .duration, .duration | .duration, .scalar | .scalar, .duration => .duration
  | .interval, .duration => .interval
  | _, _ => .scalar

/-- The kind of result that the declared kinds of the properties lead to. -/
def resultKind : Expression → ValueKind
  | constant c => c.kind
  | property p => p.kind
  | negate e => e.resultKind
  | not _ | compare _ _ _ | logical _ _ _ => .boolean
  | arithmetic _ l r => arithmeticKind l.resultKind r.resultKind

def displayBinary (token left right : String) : String :=
  "(" ++ left ++ " " ++ token ++ " " ++ right ++ ")"

def display : Expression → String
  | constant c => c.display
  | property p => p.display
  | negate e => "-(" ++ e.display ++ ")"
  | not e => "not (" ++ e.display ++ ")"
  | arithmetic op l r => displayBinary op.token l.display r.display
  | compare op l r => displayBinary op.token l.display r.display
  | logical op l r => displayBinary op.token l.display r.display

end Expression

end LiveFilter
