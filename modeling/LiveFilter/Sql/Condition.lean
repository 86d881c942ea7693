import LiveFilter.Rules.Operand
import LiveFilter.Text.Quoted

/-! # SQL conditions

Conditions of a `WHERE` clause as trees, and their text. Literals occur as numbered placeholders
only.
-/

namespace LiveFilter

/-- How timestamp columns are declared. -/
inductive TimestampType where
  | withTimeZone
  | withoutTimeZone
deriving DecidableEq

inductive SqlType where
  | timestamp (type : TimestampType)
  | interval
deriving DecidableEq

def SqlType.name : SqlType → String
  | timestamp .withTimeZone => "timestamptz"
  | timestamp .withoutTimeZone => "timestamp"
  | interval => "interval"

inductive SqlField where
  | column (name : String)
  | param (index : Nat) (cast : Option SqlType)
  | null
  | cast (field : SqlField) (type : SqlType)
  | nullIfZero (field : SqlField)
  | binary (op : ArithmeticOp) (left right : SqlField)
  | negate (field : SqlField)
deriving DecidableEq

namespace SqlField

/-- A cast, unless the field is a placeholder that is bound with that type already. -/
def castTo (field : SqlField) (type : SqlType) : SqlField :=
  match field with
  | param _ (some bound) => if bound = type then field else cast field type
  | _ => cast field type

def castSuffix : Option SqlType → String
  | some type => "::" ++ type.name
  | none => ""

def render : SqlField → String
  | column name => Quoted.wrap '"' name
  | param index type => "$" ++ Nat.repr index ++ castSuffix type
  | null => "NULL"
  | cast field type => "(" ++ field.render ++ ")" ++ castSuffix (some type)
  | nullIfZero field => "NULLIF(" ++ field.render ++ ", 0)"
  | binary op left right =>
      "(" ++ left.render ++ " " ++ op.token ++ " " ++ right.render ++ ")"
  | negate field => "(-" ++ field.render ++ ")"

end SqlField

inductive SqlCondition where
  | compare (r : Relation) (left right : SqlField)
  | isNull (operand : SqlField)
  | and (left right : SqlCondition)
  | or (left right : SqlCondition)
  | not (inner : SqlCondition)
  | literal (value : Option Bool)
  | field (value : SqlField)
deriving DecidableEq

def SqlCondition.render : SqlCondition → String
  | compare r left right => left.render ++ " " ++ r.sqlToken ++ " " ++ right.render
  | isNull operand => operand.render ++ " IS NULL"
  | and left right => "(" ++ left.render ++ " AND " ++ right.render ++ ")"
  | or left right => "(" ++ left.render ++ " OR " ++ right.render ++ ")"
  | not inner => "NOT (" ++ inner.render ++ ")"
  | literal (some true) => "TRUE"
  | literal (some false) => "FALSE"
  | literal none => "NULL"
  | field value => value.render

end LiveFilter
