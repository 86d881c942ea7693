import LiveFilter.Expr.Basic

/-! # The scope of a path

What a path says about its last entity beyond its type: the nearest ancestor with an identifier
must be reached from it, link by link.
-/

namespace LiveFilter.Scope

/-- The condition that `links` lead to the entity with that identifier. -/
def reaches (links : List NavigationProperty) (id : Id) : Expression :=
  .equal (.property (.ofLinks links .id)) (.constant (.ofId id))

def strayProperty (element : PathElement) : String :=
  "property " ++ element.display ++ " can only end a path"

def unlinked (child parent : EntityType) : String :=
  child.name ++ " has no link to " ++ parent.name

/-- Goes back through the ancestors, nearest first; `links` lead from the subscribed entity to
`child`. The first identifier ends the search. -/
def search (topic : String) (child : EntityType) (links : List NavigationProperty) :
    List PathElement → Except FilterError (Option Expression)
  | [] => .ok none
  | element :: rest =>
      match element.entityType? with
      | none => .error (.invalidTopic topic (strayProperty element))
      | some parent =>
          match child.navigationTo? parent with
          | none => .error (.invalidTopic topic (unlinked child parent))
          | some link =>
              match element.id? with
              | some id => .ok (some (reaches (links ++ [link]) id))
              | none => search topic parent (links ++ [link]) rest

def ofAncestors (topic : String) (child : EntityType) (ancestors : List PathElement) :
    Except FilterError (Option Expression) :=
  search topic child [] ancestors.reverse

end LiveFilter.Scope
