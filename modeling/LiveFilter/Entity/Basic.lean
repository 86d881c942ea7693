import LiveFilter.Entity.Schema
import LiveFilter.Entity.Value

/-! # Entities

An entity as a change event delivers it: its type, its identifier, the properties it has and the
identifiers behind its links. The identifier is served as a property too, but kept on its own.
-/

namespace LiveFilter

structure Entity where
  type : EntityType
  id : Option Id
  properties : EntityProperty → Option Value
  links : NavigationProperty → Option Id

namespace Entity

def empty (type : EntityType) : Entity := ⟨type, none, fun _ => none, fun _ => none⟩

def withId (e : Entity) (id : Id) : Entity := { e with id := some id }

def withLink (e : Entity) (link : NavigationProperty) (id : Id) : Entity :=
  { e with links := fun l => if l = link then some id else e.links l }

/-- Sets a property. The identifier is only replaced by a value that stands for one. -/
def set (e : Entity) (property : EntityProperty) (value : Value) : Entity :=
  if property = .id then
    match value.toId? with
    | some id => e.withId id
    | none => e
  else { e with properties := fun p => if p = property then some value else e.properties p }

def get? (e : Entity) (property : EntityProperty) : Option Value :=
  if property = .id then e.id.map Value.ofId else e.properties property

def storedProperties (e : Entity) : List (EntityProperty × Value) :=
  EntityProperty.all.filterMap fun p => (e.properties p).map (p, ·)

def storedLinks (e : Entity) : List (NavigationProperty × Id) :=
  NavigationProperty.all.filterMap fun l => (e.links l).map (l, ·)

def beq (a b : Entity) : Bool :=
  decide (a.type = b.type) && decide (a.id = b.id) &&
    EntityProperty.all.all (fun p => a.properties p == b.properties p) &&
    NavigationProperty.all.all (fun l => decide (a.links l = b.links l))

instance : BEq Entity := ⟨beq⟩

@[simp] theorem get?_set_of_ne (e : Entity) {p q : EntityProperty} (value : Value)
    (h : q ≠ p) (hq : q ≠ .id) : (e.set p value).get? q = e.get? q := by
  unfold set
  split
  · split <;> simp [get?, hq, withId]
  · simp [get?, hq, h]

@[simp] theorem get?_set_self (e : Entity) {p : EntityProperty} (value : Value) (h : p ≠ .id) :
    (e.set p value).get? p = some value := by
  simp [set, get?, h]

end Entity

end LiveFilter
