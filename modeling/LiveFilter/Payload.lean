import LiveFilter.Entity.Basic

/-! # Payloads

An entity as a JSON object: its identifier, its own link, its properties and the links from it.
Every entry has a name by which it can be selected. An entry takes the place of an earlier one
with its key.
-/

namespace LiveFilter

/-- Writes an entity, restricted to the selected names if there is a selection, for a service
with that root. -/
abbrev Formatter := Entity → Option (List String) → String → Except FilterError String

namespace Payload

structure Entry where
  name : String
  key : String
  value : Json

def trimRoot (root : String) : String :=
  String.ofList (root.toList.reverse.dropWhile (· == '/')).reverse

def selfLink? (e : Entity) (root : String) : Option String :=
  e.id.map fun id => trimRoot root ++ "/" ++ e.type.plural ++ "(" ++ id.display ++ ")"

def linkKey (n : NavigationProperty) : String := n.name ++ "@iot.navigationLink"

def idEntries (e : Entity) : List Entry :=
  match e.id with
  | some id => [⟨"@iot.id", "@iot.id", id.toJson⟩]
  | none => []

def selfLinkEntries (e : Entity) (root : String) : List Entry :=
  match selfLink? e root with
  | some link => [⟨"@iot.selfLink", "@iot.selfLink", .string link⟩]
  | none => []

def propertyEntries (e : Entity) : List Entry :=
  e.storedProperties.map fun (p, value) => ⟨p.wireName, p.wireName, value.toJson⟩

def navigationEntries (e : Entity) (root : String) : List Entry :=
  match selfLink? e root with
  | some link =>
      e.type.navigation.map fun n => ⟨n.name, linkKey n, .string (link ++ "/" ++ n.name)⟩
  | none => []

def entries (e : Entity) (root : String) : List Entry :=
  idEntries e ++ selfLinkEntries e root ++ propertyEntries e ++ navigationEntries e root

def isSelected (select : Option (List String)) (entry : Entry) : Bool :=
  match select with
  | some names => names.contains entry.name
  | none => true

def object (e : Entity) (select : Option (List String)) (root : String) : Json :=
  .ofFields (((entries e root).filter (isSelected select)).map fun entry =>
    (entry.key, entry.value))

def compact : Formatter := fun e select root => .ok (object e select root).compact

def pretty : Formatter := fun e select root => .ok (object e select root).pretty

end Payload

end LiveFilter
