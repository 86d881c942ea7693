import LiveFilter.Proofs.Sql.Reading

/-! # The row of an entity

Every column that the paths of a type may lead to holds what the entity stores behind the path. No
two paths of a type share a column, so that a column has one content.
-/

namespace LiveFilter

/-- What the two columns of an interval hold. An instant fills both. -/
def Value.bounds : Value → Value × Value
  | .interval i => (.instant i.start, .instant i.stop)
  | .instant t => (.instant t, .instant t)
  | _ => (.null, .null)

namespace ColumnMapping

def columns : ColumnMapping → List String
  | scalar c | instant c | duration c => [c]
  | interval start stop => [start, stop]

def cells (value : Value) : ColumnMapping → List (String × Value)
  | scalar c | instant c | duration c => [(c, value)]
  | interval start stop => [(start, value.bounds.1), (stop, value.bounds.2)]

theorem map_fst_cells (value : Value) (m : ColumnMapping) :
    (m.cells value).map Prod.fst = m.columns := by
  cases m <;> rfl

end ColumnMapping

namespace ColumnResolver

def paths : List PropertyPath :=
  EntityProperty.all.map (fun p => .single (.entity p)) ++
    NavigationProperty.all.map fun l => .ofLinks [l] .id

/-- The paths of a type that have columns, and where. -/
def layout (type : EntityType) : List (PropertyPath × ColumnMapping) :=
  paths.filterMap fun p => (byName type p).toOption.map (p, ·)

theorem columns_nodup (type : EntityType) :
    ((layout type).flatMap fun entry => entry.2.columns).Nodup := by
  cases type <;> decide +kernel

theorem mapping_kind (p : EntityProperty) (column : String) :
    (Sql.ofMapping (mapping p.valueKind column)).kind = p.valueKind := by
  cases p <;> rfl

theorem byName_eq_ok {type : EntityType} {path : PropertyPath} {m : ColumnMapping}
    (h : byName type path = .ok m) :
    (∃ p column, path = .single (.entity p) ∧ type.hasProperty p = true ∧
      m = mapping p.valueKind column) ∨
    ∃ l column, path = .ofLinks [l] .id ∧ m = .scalar column := by
  unfold byName at h
  split at h
  · cases h
  · cases h
    exact .inl ⟨.id, "id", rfl, rfl, rfl⟩
  · rename_i p _ _
    split at h
    · rename_i hp
      cases h
      exact .inl ⟨p, _, rfl, hp, rfl⟩
    · cases h
  · rename_i l
    split at h
    · cases h
      exact .inr ⟨l, _, rfl, rfl⟩
    · cases h
  · cases h

theorem byName_single {type : EntityType} {p : EntityProperty} (hself : p ≠ .selfLink)
    (hp : type.hasProperty p = true) : ∃ m, byName type (.single (.entity p)) = .ok m := by
  cases p with
  | selfLink => exact absurd rfl hself
  | id => exact ⟨_, rfl⟩
  | _ => exact ⟨_, if_pos hp⟩

theorem byName_link {type : EntityType} {l : NavigationProperty} (hset : l.isSet = false)
    (hl : l ∈ type.navigation) : ∃ m, byName type (.ofLinks [l] .id) = .ok m :=
  ⟨_, if_pos ⟨by rw [hset]; rfl, hl⟩⟩

theorem ofMapping_kind {type : EntityType} {path : PropertyPath} {m : ColumnMapping}
    (h : byName type path = .ok m) : (Sql.ofMapping m).kind = path.kind := by
  obtain ⟨p, column, rfl, _, rfl⟩ | ⟨l, column, rfl, rfl⟩ := byName_eq_ok h
  · exact mapping_kind p column
  · rfl

theorem mem_layout {type : EntityType} {path : PropertyPath} {m : ColumnMapping}
    (h : byName type path = .ok m) : (path, m) ∈ layout type := by
  have hpath : path ∈ paths := by
    obtain ⟨p, _, rfl, _, _⟩ | ⟨l, _, rfl, _⟩ := byName_eq_ok h
    · exact List.mem_append_left _ (List.mem_map_of_mem (EntityProperty.mem_all p))
    · exact List.mem_append_right _ (List.mem_map_of_mem (NavigationProperty.mem_all l))
  refine List.mem_filterMap.2 ⟨path, hpath, ?_⟩
  rw [h]
  rfl

end ColumnResolver

open ColumnResolver (layout byName)

namespace Entity

/-- What an entity stores behind a path, null when it is missing. -/
def storedValue (entity : Entity) : PropertyPath → Value
  | ⟨[], .entity p⟩ => (entity.get? p).getD .null
  | ⟨[.navigation l], .entity .id⟩ => ((entity.links l).map Value.ofId).getD .null
  | _ => .null

theorem storedValue_single {entity : Entity} {p : EntityProperty} {v : Value}
    (hv : entity.get? p = some v) : entity.storedValue (.single (.entity p)) = v := by
  simp only [PropertyPath.single, storedValue, hv, Option.getD_some]

theorem storedValue_ofLinks {entity : Entity} {l : NavigationProperty} {id : Id}
    (hid : entity.links l = some id) : entity.storedValue (.ofLinks [l] .id) = .ofId id := by
  simp only [PropertyPath.ofLinks, List.map_cons, List.map_nil, storedValue, hid,
    Option.map_some, Option.getD_some]

def cells (entity : Entity) : List (String × Value) :=
  (layout entity.type).flatMap fun entry => entry.2.cells (entity.storedValue entry.1)

/-- The row of an entity in the table of its type. -/
def row (entity : Entity) (column : String) : Option Value := entity.cells.lookup column

theorem map_fst_cells (entity : Entity) :
    entity.cells.map Prod.fst = (layout entity.type).flatMap fun entry => entry.2.columns := by
  unfold cells
  rw [List.map_flatMap]
  simp only [ColumnMapping.map_fst_cells]

theorem row_of_mem {entity : Entity} {column : String} {value : Value}
    (h : (column, value) ∈ entity.cells) : entity.row column = some value := by
  -- a look-up stops at the first cell of its name, so that the names have to be distinct
  have hnodup : (entity.cells.map Prod.fst).Nodup := by
    rw [map_fst_cells]
    exact ColumnResolver.columns_nodup entity.type
  obtain ⟨before, after, hcells⟩ := List.append_of_mem h
  refine List.lookup_eq_some_iff.2 ⟨before, after, hcells, fun cell hcell => ?_⟩
  rw [hcells, List.map_append, List.nodup_append] at hnodup
  have hne := hnodup.2.2 cell.1 (List.mem_map_of_mem hcell) column List.mem_cons_self
  exact bne_iff_ne.2 (Ne.symm hne)

theorem row_of_byName {entity : Entity} {path : PropertyPath} {m : ColumnMapping}
    (h : byName entity.type path = .ok m) {column : String} {value : Value}
    (hcell : (column, value) ∈ m.cells (entity.storedValue path)) :
    entity.row column = some value :=
  row_of_mem (List.mem_flatMap.2 ⟨(path, m), ColumnResolver.mem_layout h, hcell⟩)

theorem storedValue_eq {entity : Entity} {path : PropertyPath} {value : Value}
    (h : Live.property entity path = .ok value) : entity.storedValue path = value := by
  unfold Live.property at h
  split at h
  · cases h
    rfl
  · split at h
    · cases h
    · split at h
      · rename_i id hid
        cases h
        exact storedValue_ofLinks hid
      · cases h
  · cases h

end Entity

namespace Live

theorem operand_of_kind_scalar {v : Value} (h : (operand v).kind = .scalar) :
    operand v = .scalar v := by
  unfold operand at h ⊢
  split at h <;> first | rfl | cases h

theorem operand_of_kind_instant {v : Value} (h : (operand v).kind = .instant) :
    ∃ t, v = .instant t := by
  unfold operand at h
  split at h <;> first | exact ⟨_, rfl⟩ | cases h

theorem operand_of_kind_duration {v : Value} (h : (operand v).kind = .duration) :
    ∃ d, v = .duration d := by
  unfold operand at h
  split at h <;> first | exact ⟨_, rfl⟩ | cases h

theorem operand_of_kind_interval {v : Value} (h : (operand v).kind = .interval) :
    ∃ i, v = .interval i := by
  unfold operand at h
  split at h <;> first | exact ⟨_, rfl⟩ | cases h

end Live

namespace Sql

variable {args : List Value}

/-- The columns of a path read as the operand of a value of the declared kind. -/
theorem related_ofMapping {entity : Entity} {path : PropertyPath} {m : ColumnMapping}
    (h : byName entity.type path = .ok m)
    (hkind : (Live.operand (entity.storedValue path)).kind = path.kind) :
    Operand.Related (Reads entity.row args) (Holds entity.row args) (ofMapping m)
      (Live.operand (entity.storedValue path)) := by
  rw [← ColumnResolver.ofMapping_kind h] at hkind
  have hrow {column : String} {value : Value}
      (hcell : (column, value) ∈ m.cells (entity.storedValue path)) :
      entity.row column = some value := Entity.row_of_byName h hcell
  -- from here on only the kinds count: the mapping's kind is the kind of the operand
  generalize entity.storedValue path = v at hkind hrow ⊢
  cases m with
  | scalar c =>
      rw [Live.operand_of_kind_scalar hkind]
      exact .scalar (hrow List.mem_cons_self)
  | instant c =>
      obtain ⟨t, rfl⟩ := Live.operand_of_kind_instant hkind
      exact .instant (hrow List.mem_cons_self)
  | duration c =>
      obtain ⟨d, rfl⟩ := Live.operand_of_kind_duration hkind
      exact .duration (hrow List.mem_cons_self)
  | interval start stop =>
      obtain ⟨i, rfl⟩ := Live.operand_of_kind_interval hkind
      exact .interval (hrow List.mem_cons_self)
        (hrow (List.mem_cons_of_mem _ List.mem_cons_self))

/-- The placeholders of a literal read as its operand when its values are bound there. -/
theorem related_placeholder {row : String → Option Value} (type : TimestampType) {n : Nat}
    {c : Constant} (h : c.arguments <+: args.drop n) :
    Operand.Related (Reads row args) (Holds row args) (placeholder type n c)
      (Live.operand c.toValue) := by
  have hargs (i : Nat) (hi : i < c.arguments.length) : args[n + i]? = some c.arguments[i] := by
    rw [← List.getElem?_drop]
    exact List.prefix_iff_getElem?.1 h i hi
  cases c with
  | null => exact .null
  | bool b => exact .scalar (hargs 0 Nat.zero_lt_one)
  | integer k => exact .scalar (hargs 0 Nat.zero_lt_one)
  | number x => exact .scalar (hargs 0 Nat.zero_lt_one)
  | text s => exact .scalar (hargs 0 Nat.zero_lt_one)
  | instant t => exact .instant (hargs 0 Nat.zero_lt_one)
  | duration d => exact .duration (hargs 0 Nat.zero_lt_one)
  | interval i =>
      exact .interval (hargs 0 Nat.zero_lt_two) (hargs 1 Nat.one_lt_two)

end Sql

end LiveFilter
