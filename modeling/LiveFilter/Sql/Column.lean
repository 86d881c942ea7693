import LiveFilter.Expr.Basic

/-! # Columns of properties -/

namespace LiveFilter

/-- Where a property lives in the table of its entity type. -/
inductive ColumnMapping where
  | scalar (column : String)
  | instant (column : String)
  | duration (column : String)
  | interval (start stop : String)
deriving DecidableEq

/-- Finds the columns of a path from an entity type. -/
abbrev ColumnResolver := EntityType → PropertyPath → Except FilterError ColumnMapping

namespace ColumnResolver

def snakeTail : List Char → List Char
  | [] => []
  | c :: cs => if c.isUpper then '_' :: c.toLower :: snakeTail cs else c :: snakeTail cs

/-- There is no underscore before the first letter. -/
def snakeCase (name : String) : String :=
  match name.toList with
  | [] => ""
  | c :: cs => String.ofList (c.toLower :: snakeTail cs)

def unmapped (type : EntityType) (path : PropertyPath) : FilterError :=
  .unmappedProperty (type.name ++ "/" ++ path.display)

def mapping (kind : ValueKind) (column : String) : ColumnMapping :=
  match kind with
  | .interval => .interval (column ++ "_start") (column ++ "_end")
  | .instant => .instant column
  | .duration => .duration column
  | .null | .boolean | .scalar => .scalar column

/-- Columns are named after the properties. The identifier behind a link of the type has a column
as well; all other paths would need a join. -/
def byName : ColumnResolver := fun type path =>
  match path with
  | ⟨[], .entity .selfLink⟩ => .error (unmapped type path)
  | ⟨[], .entity .id⟩ => .ok (.scalar "id")
  | ⟨[], .entity p⟩ =>
      if type.hasProperty p then .ok (mapping p.valueKind (snakeCase p.wireName))
      else .error (unmapped type path)
  | ⟨[.navigation link], .entity .id⟩ =>
      if !link.isSet ∧ link ∈ type.navigation then .ok (.scalar (snakeCase link.name ++ "_id"))
      else .error (unmapped type path)
  | _ => .error (unmapped type path)

end ColumnResolver

end LiveFilter
