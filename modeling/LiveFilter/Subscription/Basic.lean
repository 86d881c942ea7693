import LiveFilter.Live.Evaluator
import LiveFilter.Payload
import LiveFilter.Subscription.Scope
import LiveFilter.Subscription.Store

/-! # Subscriptions

A subscription concerns one property, one entity or a collection, as its path says. It is asked
about every changed entity, and writes the notification for those that concern it.
-/

namespace LiveFilter

/-- An entity and, unless it was created, the properties that were changed. -/
structure Event where
  entity : Entity
  changed : Option (List Property)

inductive SubscriptionKind where
  /-- One property, of one entity if there is an identifier. -/
  | property (property : EntityProperty) (id : Option Id)
  /-- One entity, by its identifier or through a link. -/
  | entity (id : Option Id)
  | entitySet
deriving DecidableEq

namespace SubscriptionKind

def name : SubscriptionKind → String
  | property _ _ => "property"
  | entity _ => "entity"
  | entitySet => "entity set"

def selection? : SubscriptionKind → Option (List String)
  | property p _ => some [p.wireName]
  | entity _ | entitySet => none

def id? : SubscriptionKind → Option Id
  | property _ id => id
  | entity id => id
  | entitySet => none

end SubscriptionKind

structure Subscription where
  topic : String
  entityType : EntityType
  kind : SubscriptionKind
  filter : Option Expression
  root : String

namespace Subscription

/-- The query options of a topic: what follows the first question mark. -/
def queryChars (topic : String) : List Char := (topic.toList.dropWhile (· != '?')).drop 1

def query (topic : String) : String := String.ofList (queryChars topic)

def propertyKind (topic : String) (p : EntityProperty) (before : List PathElement) :
    Except FilterError (EntityType × SubscriptionKind) :=
  match before.getLast? with
  | none => .error (.invalidTopic topic
      "a property subscription needs an entity followed by a property")
  | some (.entity type id) =>
      if type.hasProperty p then .ok (type, .property p id)
      else .error (.invalidTopic topic (type.name ++ " has no property " ++ p.wireName))
  | some element =>
      .error (.invalidTopic topic (element.display ++ " does not address a single entity"))

/-- Type and kind of a subscription on the last element of a path. Only entity sets may have
query options. -/
def classify (topic : String) (before : List PathElement) (last : PathElement) :
    Except FilterError (EntityType × SubscriptionKind) :=
  match last with
  | .property p =>
      if queryChars topic ≠ [] then
        .error (.invalidTopic topic "query options not allowed for subscription on a property")
      else propertyKind topic p before
  | .entity type id =>
      if queryChars topic ≠ [] then
        .error (.invalidTopic topic "query options not allowed for subscription on an entity")
      else .ok (type, .entity id)
  | .entitySet type => .ok (type, .entitySet)

def ancestors (before : List PathElement) : SubscriptionKind → List PathElement
  | .property _ _ => before.dropLast
  | .entity _ | .entitySet => before

def create (topic : String) (path : ResourcePath) (root : String) :
    Except FilterError Subscription :=
  match path.last? with
  | none => .error (.invalidTopic topic "empty resource path")
  | some last => do
      let before := path.elements.dropLast
      let (type, kind) ← classify topic before last
      let filter ← Scope.ofAncestors topic type (ancestors before kind)
      .ok ⟨topic, type, kind, filter, root⟩

/-- Narrows a subscription on an entity set. -/
def withFilter (s : Subscription) (query : Expression) : Except FilterError Subscription :=
  if s.kind = .entitySet then
    .ok { s with filter := some (match s.filter with
      | some scope => scope.and query
      | none => query) }
  else
    .error (.invalidTopic s.topic
      ("query options not allowed for " ++ s.kind.name ++ " subscriptions"))

def createWith (topic : String) (path : ResourcePath) (root : String)
    (query : Option Expression) : Except FilterError Subscription := do
  let s ← create topic path root
  match query with
  | some query => s.withFilter query
  | none => .ok s

/-- Whether type, identifier and changed properties fit. A property has not changed when its
entity was created. -/
def accepts (s : Subscription) (event : Event) : Bool :=
  decide (event.entity.type = s.entityType) &&
    (match s.kind.id? with
      | some id => decide (event.entity.id = some id)
      | none => true) &&
    (match s.kind with
      | .property p _ =>
          match event.changed with
          | some changed => changed.contains (.entity p)
          | none => false
      | .entity _ | .entitySet => true)

/-- What a subscription decides about an event by itself. -/
inductive Verdict where
  | matched
  | unmatched
  | ask (call : StoreCall)

/-- A filter that leaves the entity is for the store to decide, provided that the entity has an
identifier. Any other failure of the filter counts as no match. -/
def verdict (s : Subscription) (event : Event) : Verdict :=
  if s.accepts event then
    match s.filter with
    | none => .matched
    | some filter =>
        match Live.isSatisfied event.entity filter with
        | .ok true => .matched
        | .ok false => .unmatched
        | .error (.requiresStore _) =>
            match event.entity.id with
            | some id => .ask ⟨s.entityType, id, filter⟩
            | none => .unmatched
        | .error _ => .unmatched
  else .unmatched

/-- Whether an event concerns the subscription, and what the store was asked about it. Only a
positive answer of the store counts. -/
def matching (s : Subscription) (store : Store) (event : Event) : Bool × List StoreCall :=
  match s.verdict event with
  | .matched => (true, [])
  | .unmatched => (false, [])
  | .ask call =>
      match store call.type call.id call.filter with
      | .ok answer => (answer, [call])
      | .error _ => (false, [call])

def isMatch (s : Subscription) (store : Store) (event : Event) : Bool := (s.matching store event).1

def storeCall? (s : Subscription) (event : Event) : Option StoreCall :=
  match s.verdict event with
  | .ask call => some call
  | .matched | .unmatched => none

def message (s : Subscription) (formatter : Formatter) (e : Entity) : Except FilterError String :=
  formatter e s.kind.selection? s.root

end Subscription

end LiveFilter
