import LiveFilter.Entity.Basic

/-! # Resource paths

A path such as `Datastreams(5)/Thing/name`, already resolved into its elements.
-/

namespace LiveFilter

inductive PathElement where
  /-- A collection. -/
  | entitySet (type : EntityType)
  /-- One entity: by identifier or, without one, through a link. -/
  | entity (type : EntityType) (id : Option Id)
  /-- A property of the entity before it. -/
  | property (property : EntityProperty)
deriving DecidableEq

namespace PathElement

def entityType? : PathElement → Option EntityType
  | entitySet t => some t
  | entity t _ => some t
  | property _ => none

def id? : PathElement → Option Id
  | entity _ id => id
  | _ => none

def display : PathElement → String
  | entitySet t => t.plural
  | entity t (some id) => t.plural ++ "(" ++ id.display ++ ")"
  | entity t none => t.name
  | property p => p.wireName

end PathElement

structure ResourcePath where
  elements : List PathElement
deriving DecidableEq

namespace ResourcePath

def joinSlash : List String → String
  | [] => ""
  | [s] => s
  | s :: t :: rest => s ++ "/" ++ joinSlash (t :: rest)

theorem joinSlash_cons (text : String) {rest : List String} (h : rest ≠ []) :
    joinSlash (text :: rest) = text ++ "/" ++ joinSlash rest := by
  cases rest with
  | nil => exact absurd rfl h
  | cons next rest => rfl

def display (p : ResourcePath) : String := joinSlash (p.elements.map PathElement.display)

def last? (p : ResourcePath) : Option PathElement := p.elements.getLast?

/-- The type and identifier of the last element that has an identifier. -/
def identified? (p : ResourcePath) : Option (EntityType × Id) :=
  p.elements.reverse.findSome? fun
    | .entity t (some id) => some (t, id)
    | _ => none

end ResourcePath

end LiveFilter
