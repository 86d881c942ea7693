import LiveFilter.Config
import LiveFilter.Expr.Basic

/-! # JSON forms

How the types that are exchanged with other programs are written in JSON and read from it.
Temporal values are their literals, enumerations the names of their members.
-/

namespace LiveFilter

attribute [local instance (high)] instPowNat

class Interchange (α : Type) where
  ofTree? : Json.Tree → Option α
  toJson : α → Json

namespace Interchange

def parse? (α : Type) [Interchange α] (text : String) : Option α :=
  (Json.Tree.ofText? text).bind ofTree?

def toText {α : Type} [Interchange α] (value : α) : String := (toJson value).compact

/-- Members by the names that a function gives them. -/
def named {α : Type} (all : List α) (name : α → String) : List (String × α) :=
  all.map fun a => (name a, a)

@[reducible] def ofNames {α : Type} (all : List α) (name : α → String) : Interchange α where
  ofTree? := Json.Tree.choice? (named all name)
  toJson a := .string (name a)

@[reducible] def ofLiterals {α : Type} (parse : String → Except ParseError α)
    (format : α → String) : Interchange α where
  ofTree? t := t.string?.bind fun text => (parse text).toOption
  toJson a := .string (format a)

end Interchange

open Interchange

instance : Interchange Instant := ofLiterals Instant.parse Instant.format
instance : Interchange Duration := ofLiterals Duration.parse Duration.format
instance : Interchange Interval := ofLiterals Interval.parse Interval.format

instance : Interchange ValueKind := ofNames ValueKind.all ValueKind.name
instance : Interchange EntityType := ofNames EntityType.all EntityType.name
instance : Interchange NavigationProperty := ofNames NavigationProperty.all NavigationProperty.name

instance : Interchange TimestampType :=
  ofNames [.withTimeZone, .withoutTimeZone] TimestampType.name

def EntityProperty.memberName : EntityProperty → String
  | id => "Id"
  | selfLink => "SelfLink"
  | name => "Name"
  | description => "Description"
  | definition => "Definition"
  | encodingType => "EncodingType"
  | location => "Location"
  | feature => "Feature"
  | metadata => "Metadata"
  | properties => "Properties"
  | time => "Time"
  | unitOfMeasurement => "UnitOfMeasurement"
  | unitOfMeasurements => "UnitOfMeasurements"
  | observationType => "ObservationType"
  | multiObservationDataTypes => "MultiObservationDataTypes"
  | observedArea => "ObservedArea"
  | phenomenonTime => "PhenomenonTime"
  | resultTime => "ResultTime"
  | validTime => "ValidTime"
  | result => "Result"
  | resultQuality => "ResultQuality"
  | parameters => "Parameters"

instance : Interchange EntityProperty := ofNames EntityProperty.all EntityProperty.memberName

def ArithmeticOp.memberName : ArithmeticOp → String
  | add => "Add"
  | sub => "Sub"
  | mul => "Mul"
  | div => "Div"
  | mod => "Mod"

instance : Interchange ArithmeticOp := ofNames ArithmeticOp.all ArithmeticOp.memberName

def ComparisonOp.memberName : ComparisonOp → String
  | equal => "Equal"
  | notEqual => "NotEqual"
  | greaterThan => "GreaterThan"
  | greaterEqual => "GreaterEqual"
  | lessThan => "LessThan"
  | lessEqual => "LessEqual"
  | after => "After"
  | before => "Before"
  | contains => "Contains"
  | meets => "Meets"
  | overlaps => "Overlaps"
  | starts => "Starts"
  | finishes => "Finishes"

instance : Interchange ComparisonOp := ofNames ComparisonOp.all ComparisonOp.memberName

def LogicalOp.memberName : LogicalOp → String
  | and => "And"
  | or => "Or"

instance : Interchange LogicalOp := ofNames [.and, .or] LogicalOp.memberName

/-- An alternative with content. -/
def Interchange.tagged (tag : String) (content : Json) : Json := .object [(tag, content)]

instance : Interchange Property where
  ofTree? t :=
    match t.alternative? with
    | some ("Entity", content) => (ofTree? content).map .entity
    | some ("Navigation", content) => (ofTree? content).map .navigation
    | _ => none
  toJson
    | .entity p => tagged "Entity" (toJson p)
    | .navigation n => tagged "Navigation" (toJson n)

def Id.ofTree? (t : Json.Tree) : Option Id :=
  match t.string?, t.integer? with
  | some s, _ => some (.text s)
  | none, some n =>
      if -2 ^ (63 : Nat) ≤ n ∧ n < 2 ^ (63 : Nat) then some (.long (.ofInt n)) else none
  | none, none => none

instance : Interchange Id := ⟨Id.ofTree?, Id.toJson⟩

def Interchange.optionOfTree? {α : Type} [Interchange α] (t : Json.Tree) : Option (Option α) :=
  if t.isNull then some none else (ofTree? t).map some

def Interchange.optionToJson {α : Type} [Interchange α] : Option α → Json
  | some a => toJson a
  | none => .null

def PathElement.entityOfTree? (t : Json.Tree) : Option PathElement :=
  match t.record? ["entity_type", "id"] 2 true with
  | some [some type, none] => (ofTree? type).map (.entity · none)
  | some [some type, some id] =>
      match ofTree? type, optionOfTree? id with
      | some type, some id => some (.entity type id)
      | _, _ => none
  | _ => none

instance : Interchange PathElement where
  ofTree? t :=
    match t.alternative? with
    | some ("EntitySet", content) => (ofTree? content).map .entitySet
    | some ("Entity", content) => PathElement.entityOfTree? content
    | some ("Property", content) => (ofTree? content).map .property
    | _ => none
  toJson
    | .entitySet t => tagged "EntitySet" (toJson t)
    | .entity t id =>
        tagged "Entity" (.object [("entity_type", toJson t), ("id", optionToJson id)])
    | .property p => tagged "Property" (toJson p)

instance : Interchange ResourcePath where
  ofTree? t :=
    match t.record? ["elements"] 1 true with
    | some [some (.array items)] => (items.mapM ofTree?).map ResourcePath.mk
    | _ => none
  toJson p := .object [("elements", .array (p.elements.map toJson))]

end LiveFilter
