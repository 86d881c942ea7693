import LiveFilter.Proofs.Sql.Row

/-! # Agreement on populated entities

Where the entity has a value of the declared kind behind every path of a filter, evaluation and the
compiled condition give the same truth, arithmetic included.
-/

namespace LiveFilter

open ColumnResolver (byName)
open Outcome (Follows)

/-- A path that has columns, with a value of the declared kind behind it. -/
inductive Entity.Populated (entity : Entity) : PropertyPath → Prop
  | own {p : EntityProperty} {v : Value} (hself : p ≠ .selfLink)
      (hp : entity.type.hasProperty p = true) (hv : entity.get? p = some v)
      (hkind : (Live.operand v).kind = p.valueKind) : Populated entity (.single (.entity p))
  | link {l : NavigationProperty} {id : Id} (hset : l.isSet = false)
      (hl : l ∈ entity.type.navigation) (hid : entity.links l = some id) :
      Populated entity (.ofLinks [l] .id)

theorem Live.operand_ofId_kind (id : Id) : (Live.operand (.ofId id)).kind = .scalar := by
  cases id <;> rfl

namespace Entity.Populated

variable {entity : Entity} {path : PropertyPath}

theorem resolved (h : entity.Populated path) : ∃ m, byName entity.type path = .ok m := by
  cases h with
  | own hself hp _ _ => exact ColumnResolver.byName_single hself hp
  | link hset hl _ => exact ColumnResolver.byName_link hset hl

theorem kind_storedValue (h : entity.Populated path) :
    (Live.operand (entity.storedValue path)).kind = path.kind := by
  cases h with
  | own _ _ hv hkind =>
      rw [storedValue_single hv]
      exact hkind
  | link _ _ hid =>
      rw [storedValue_ofLinks hid]
      exact Live.operand_ofId_kind _

end Entity.Populated

namespace Sql

variable {entity : Entity} {type : TimestampType} {args : List Value}

theorem property_follows {path : PropertyPath} (h : entity.Populated path) :
    Follows (Operand.Related (Reads entity.row args) (Holds entity.row args))
      ((byName entity.type path).map ofMapping)
      ((Live.property entity path).map Live.operand) := by
  intro operand hoperand
  obtain ⟨value, hvalue, rfl⟩ := Outcome.map_eq_ok.1 hoperand
  obtain ⟨m, hm⟩ := h.resolved
  rw [← Entity.storedValue_eq hvalue, hm]
  exact ⟨ofMapping m, rfl, related_ofMapping hm h.kind_storedValue⟩

theorem lowerAt_follows {e : Expression} {n : Nat} (hpaths : ∀ p ∈ e.paths, entity.Populated p)
    (hargs : e.arguments <+: args.drop n) :
    Follows (Operand.Related (Reads entity.row args) (Holds entity.row args))
      (Table.lowerAt ⟨entity.type, type, byName⟩ n e) (Live.lower entity e) := by
  have hsim := algebra_simulates entity.row args type
  -- the right part of a node starts after what the left part binds, hence every `n`
  induction e generalizing n with
  | constant c =>
      rw [Expression.arguments_constant] at hargs
      exact .ok (related_placeholder type hargs)
  | property path => exact property_follows (hpaths path List.mem_cons_self)
  | negate e ih => exact (ih hpaths hargs).bind fun _ _ => hsim.negate_lifts
  | not e ih =>
      exact (ih hpaths hargs).bind fun _ _ ho =>
        (hsim.asCondition_lifts ho).bind fun _ _ hc => .ok (.condition (hsim.not hc))
  | arithmetic op l r ihl ihr =>
      obtain ⟨hl, hr⟩ := List.forall_mem_append.1 hpaths
      obtain ⟨hargsl, hargsr⟩ := Expression.arguments_prefix hargs
      exact (ihl hl hargsl).bind fun _ _ ho =>
        (ihr hr hargsr).bind fun _ _ => hsim.arithmetic_lifts op ho
  | compare op l r ihl ihr =>
      obtain ⟨hl, hr⟩ := List.forall_mem_append.1 hpaths
      obtain ⟨hargsl, hargsr⟩ := Expression.arguments_prefix hargs
      exact (ihl hl hargsl).bind fun _ _ ho => (ihr hr hargsr).bind fun _ _ ho' =>
        (hsim.compare_lifts op ho ho').bind fun _ _ hc => .ok (.condition hc)
  | logical op l r ihl ihr =>
      obtain ⟨hl, hr⟩ := List.forall_mem_append.1 hpaths
      obtain ⟨hargsl, hargsr⟩ := Expression.arguments_prefix hargs
      exact (ihl hl hargsl).bind fun _ _ ho =>
        (hsim.asCondition_lifts ho).bind fun _ _ hc => (ihr hr hargsr).bind fun _ _ ho' =>
          (hsim.asCondition_lifts ho').bind fun _ _ hd =>
            .ok (.condition (hsim.logical op hc hd))

/-- What the evaluator accepts compiles, to a condition with the same truth on the entity's row. -/
theorem compile_of_evaluate {e : Expression} {v : Truth} (type : TimestampType)
    (hpaths : ∀ p ∈ e.paths, entity.Populated p) (h : Live.evaluate entity e = .ok v) :
    ∃ c, Table.compile ⟨entity.type, type, byName⟩ e = .ok c ∧ c.params = e.params type ∧
      c.condition.truth? entity.row e.arguments = some v := by
  have hsim := algebra_simulates entity.row e.arguments type
  have hcondition : Follows (Holds entity.row e.arguments)
      (Table.conditionAt ⟨entity.type, type, byName⟩ 0 e) (Live.evaluate entity e) :=
    (lowerAt_follows hpaths List.prefix_rfl).bind fun _ _ ho => hsim.asCondition_lifts ho
  obtain ⟨condition, hc, htruth⟩ := hcondition v h
  refine ⟨⟨condition, e.params type⟩, ?_, rfl, htruth⟩
  rw [Table.compile_eq, hc]
  rfl

/-- A quotient, an interval that is moved, and the identifier behind a link. -/
theorem compile_of_evaluate_observation :
    let start : Instant := .utc ⟨0, 0, 0, by decide⟩
    let entity : Entity :=
      { type := .observation, id := some (.long 1)
        properties := fun p =>
          if p = .result then some (.integer 10)
          else if p = .phenomenonTime then some (.interval ⟨start, .utc ⟨2, 0, 0, by decide⟩⟩)
          else none
        links := fun l => if l = .datastream then some (.long 5) else none }
    let quotient : Expression :=
      .arithmetic .div (.property (.single (.entity .result))) (.constant (.integer 2))
    let moved : Expression :=
      .arithmetic .add (.property (.single (.entity .phenomenonTime)))
        (.constant (.duration ⟨1000, by decide⟩))
    let e : Expression :=
      (Expression.compare .lessThan (.constant (.integer 4)) quotient).and
        ((Expression.not (.compare .contains moved (.constant (.instant start)))).and
          (.equal (.property (.ofLinks [.datastream] .id)) (.constant (.integer 5))))
    (∀ p ∈ e.paths, entity.Populated p) ∧ Live.evaluate entity e = .ok .true ∧
      ∃ c, Table.compile ⟨entity.type, .withTimeZone, byName⟩ e = .ok c ∧
        c.params = e.params .withTimeZone ∧
        c.condition.truth? entity.row e.arguments = some .true := by
  intro start entity quotient moved e
  have hpaths : ∀ p ∈ e.paths, entity.Populated p := by
    refine List.forall_mem_cons.2 ⟨.own (by decide) rfl rfl rfl, ?_⟩
    refine List.forall_mem_cons.2 ⟨.own (by decide) rfl rfl rfl, ?_⟩
    exact List.forall_mem_singleton.2 (.link rfl (by decide) rfl)
  have hv : Live.evaluate entity e = .ok .true := by
    unfold e moved quotient entity start
    rfl
  exact ⟨hpaths, hv, compile_of_evaluate .withTimeZone hpaths hv⟩

/-- A link that its type does not have is no column, although the entity carries an identifier
behind it. -/
theorem not_compile_of_foreign_link :
    let entity := (Entity.empty .thing).withLink .datastream (.long 5)
    let path : PropertyPath := .ofLinks [.datastream] .id
    let e : Expression := .equal (.property path) (.constant (.integer 5))
    NavigationProperty.isSet .datastream = false ∧ entity.links .datastream = some (.long 5) ∧
      e.paths = [path] ∧ Live.evaluate entity e = .ok .true ∧
      ∀ type, Table.compile ⟨entity.type, type, byName⟩ e =
        .error (.unmappedProperty (EntityType.thing.name ++ "/" ++ path.display)) := by
  refine ⟨rfl, rfl, rfl, rfl, fun type => rfl⟩

end Sql

end LiveFilter
