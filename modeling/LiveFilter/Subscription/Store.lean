import LiveFilter.Expr.Basic

/-! # Stores

A store knows the entities that a changed entity is linked to, and so can decide filters that the
changed entity alone does not.
-/

namespace LiveFilter

/-- Whether the stored entity of that type and identifier satisfies a filter. -/
abbrev Store := EntityType → Id → Expression → Except FilterError Bool

def Store.unavailable : Store := fun type id filter =>
  .error (.store ("no store configured to check " ++ type.plural ++ "(" ++ id.display ++
    ") against " ++ filter.display))

structure StoreCall where
  type : EntityType
  id : Id
  filter : Expression

end LiveFilter
