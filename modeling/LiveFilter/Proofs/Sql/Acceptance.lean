import LiveFilter.Proofs.Comparable
import LiveFilter.Proofs.Sql.Kinds
import LiveFilter.Proofs.Sql.Leaves

/-! # What compiles can be evaluated

A failure on a changed entity would pass for an event that does not concern the subscription. For
filters that only compare, compilation has found every such failure before: on an entity the
operands have the kinds of the columns, except that what is missing is null, and null compares
with everything that had a comparison.
-/

namespace LiveFilter

open ColumnResolver (byName)
open Outcome (bind_eq_ok map_eq_ok)
open ValueKind (Fades)

namespace Expression

/-- A literal or a path of a scalar kind. A literal truth value is none. -/
def BareScalar : Expression → Prop
  | constant c => c.operandKind = .scalar ∧ ∀ b, c ≠ .bool b
  | property p => p.kind = .scalar
  | _ => False

/-- Comparisons and connectives over literals and paths, where no connective stands directly on a
scalar. -/
def Comparing : Expression → Prop
  | constant _ | property _ => True
  | negate _ | arithmetic _ _ _ => False
  | not e => e.Comparing ∧ ¬e.BareScalar
  | compare _ l r => l.Comparing ∧ r.Comparing
  | logical _ l r => (l.Comparing ∧ ¬l.BareScalar) ∧ (r.Comparing ∧ ¬r.BareScalar)

end Expression

/-- The entity has an identifier behind every single link whose identifier the filter names. -/
def Entity.Carries (entity : Entity) (e : Expression) : Prop :=
  ∀ l : NavigationProperty, l.isSet = false → PropertyPath.ofLinks [l] .id ∈ e.paths →
    ∃ id, entity.links l = some id

namespace ColumnResolver

theorem isSet_of_byName {type : EntityType} {l : NavigationProperty} {m : ColumnMapping}
    (h : byName type (.ofLinks [l] .id) = .ok m) : l.isSet = false := by
  cases hset : l.isSet with
  | false => rfl
  | true =>
      have herror : byName type (.ofLinks [l] .id) = .error (unmapped type (.ofLinks [l] .id)) :=
        if_neg fun hl => by simp [hset] at hl
      rw [herror] at h
      cases h

end ColumnResolver

namespace Sql

variable {entity : Entity} {type : TimestampType} {n : Nat}

theorem property_eq_ok {path : PropertyPath} {m : ColumnMapping}
    (hlinks : entity.Carries (.property path)) (hm : byName entity.type path = .ok m) :
    ∃ v, Live.property entity path = .ok v := by
  obtain ⟨p, column, rfl, _, _⟩ | ⟨l, column, rfl, _⟩ := ColumnResolver.byName_eq_ok hm
  · exact ⟨_, rfl⟩
  · have hset := ColumnResolver.isSet_of_byName hm
    obtain ⟨id, hid⟩ := hlinks l hset List.mem_cons_self
    refine ⟨.ofId id, ?_⟩
    simp only [Live.property, PropertyPath.ofLinks, List.map_cons, List.map_nil, hset, hid]
    rfl

theorem property_fades {path : PropertyPath} {m : ColumnMapping} (h : entity.Conforms)
    (hlinks : entity.Carries (.property path)) (hm : byName entity.type path = .ok m) :
    ∃ o, (Live.property entity path).map Live.operand = .ok o ∧
      Fades (ofMapping m).kind o.kind := by
  obtain ⟨v, hv⟩ := property_eq_ok hlinks hm
  refine ⟨Live.operand v, map_eq_ok.2 ⟨v, hv, rfl⟩, ?_⟩
  have hstored := Entity.storedValue_eq hv
  by_cases hnull : IsNull (entity.storedValue path)
  · rw [← hstored, Live.operand_of_isNull hnull]
    exact .null (ofMapping_kind_ne_boolean m)
  · rw [← hstored, kind_storedValue h hm hnull, ColumnResolver.ofMapping_kind hm]
    exact .refl _

theorem carries_append {l r : Expression}
    (h : ∀ k : NavigationProperty, k.isSet = false →
      PropertyPath.ofLinks [k] .id ∈ l.paths ++ r.paths → ∃ id, entity.links k = some id) :
    entity.Carries l ∧ entity.Carries r :=
  ⟨fun k hk hpath => h k hk (List.mem_append_left _ hpath),
    fun k hk hpath => h k hk (List.mem_append_right _ hpath)⟩

theorem asCondition_fades {o : Operand SqlField SqlCondition} {o' : Operand Value Truth}
    {c : SqlCondition} (hfades : Fades o.kind o'.kind) (hscalar : o.kind ≠ .scalar)
    (hc : Rules.asCondition (algebra type) o = .ok c) :
    ∃ v, Rules.asCondition Live.algebra o' = .ok v := by
  cases o with
  | condition d =>
      obtain ⟨v, rfl⟩ := hfades.eq_condition
      exact ⟨v, rfl⟩
  | null =>
      rw [hfades.eq_null]
      exact ⟨_, rfl⟩
  | scalar f => exact absurd rfl hscalar
  | _ => cases hc

theorem kind_ne_scalar_or {e : Expression} {o : Operand SqlField SqlCondition} (he : e.Comparing)
    (hbare : ¬e.BareScalar) (ho : Table.lowerAt ⟨entity.type, type, byName⟩ n e = .ok o) :
    o.kind ≠ .scalar ∨ ∃ b, e = .constant (.bool b) := by
  cases e with
  | property path =>
      obtain ⟨m, hm, rfl⟩ := map_eq_ok.1 ho
      rw [ColumnResolver.ofMapping_kind hm]
      exact .inl hbare
  | constant c =>
      rw [Table.kind_of_lowerAt ho]
      cases c with
      | bool b => exact .inr ⟨b, rfl⟩
      | _ => exact .inl fun hscalar => hbare ⟨hscalar, nofun⟩
  | negate e | arithmetic op l r => exact he.elim
  | not e | compare op l r | logical op l r =>
      rw [Table.kind_of_lowerAt ho]
      exact .inl nofun

theorem condition_of_lower {e : Expression} {o : Operand SqlField SqlCondition}
    {o' : Operand Value Truth} {c : SqlCondition} (he : e.Comparing) (hbare : ¬e.BareScalar)
    (ho : Table.lowerAt ⟨entity.type, type, byName⟩ n e = .ok o)
    (ho' : Live.lower entity e = .ok o') (hfades : Fades o.kind o'.kind)
    (hc : Rules.asCondition (algebra type) o = .ok c) :
    ∃ v, Rules.asCondition Live.algebra o' = .ok v := by
  obtain hscalar | ⟨b, rfl⟩ := kind_ne_scalar_or he hbare ho
  · exact asCondition_fades hfades hscalar hc
  · cases ho'
    exact ⟨.ofBool b, rfl⟩

theorem lower_fades {e : Expression} {o : Operand SqlField SqlCondition} (he : e.Comparing)
    (h : entity.Conforms) (hlinks : entity.Carries e)
    (ho : Table.lowerAt ⟨entity.type, type, byName⟩ n e = .ok o) :
    ∃ o', Live.lower entity e = .ok o' ∧ Fades o.kind o'.kind := by
  induction e generalizing n o with
  | constant c =>
      cases ho
      refine ⟨_, rfl, ?_⟩
      rw [placeholder_kind, Live.operand_toValue_kind]
      exact .refl _
  | property path =>
      obtain ⟨m, hm, rfl⟩ := map_eq_ok.1 ho
      exact property_fades h hlinks hm
  | negate e => exact he.elim
  | arithmetic op l r => exact he.elim
  | not e ih =>
      obtain ⟨a, ha, ho⟩ := bind_eq_ok.1 ho
      obtain ⟨c, hc, ho⟩ := bind_eq_ok.1 ho
      cases ho
      obtain ⟨a', ha', hfades⟩ := ih he.1 hlinks ha
      obtain ⟨v, hv⟩ := condition_of_lower he.1 he.2 ha ha' hfades hc
      refine ⟨_, bind_eq_ok.2 ⟨a', ha', bind_eq_ok.2 ⟨v, hv, rfl⟩⟩, .refl _⟩
  | compare op l r ihl ihr =>
      obtain ⟨a, ha, ho⟩ := bind_eq_ok.1 ho
      obtain ⟨b, hb, ho⟩ := bind_eq_ok.1 ho
      obtain ⟨c, hc, ho⟩ := bind_eq_ok.1 ho
      cases ho
      obtain ⟨hlinksl, hlinksr⟩ := carries_append hlinks
      obtain ⟨a', ha', hfadesl⟩ := ihl he.1 hlinksl ha
      obtain ⟨b', hb', hfadesr⟩ := ihr he.2 hlinksr hb
      have hkinds := (Rules.compare_eq_ok_iff.1 ⟨c, hc⟩).fades hfadesl hfadesr
      obtain ⟨v, hv⟩ : ∃ v, Rules.compare Live.algebra op a' b' = .ok v :=
        Rules.compare_eq_ok_iff.2 hkinds
      exact ⟨_, bind_eq_ok.2 ⟨a', ha', bind_eq_ok.2 ⟨b', hb', bind_eq_ok.2 ⟨v, hv, rfl⟩⟩⟩, .refl _⟩
  | logical op l r ihl ihr =>
      obtain ⟨a, ha, ho⟩ := bind_eq_ok.1 ho
      obtain ⟨c, hc, ho⟩ := bind_eq_ok.1 ho
      obtain ⟨b, hb, ho⟩ := bind_eq_ok.1 ho
      obtain ⟨d, hd, ho⟩ := bind_eq_ok.1 ho
      cases ho
      obtain ⟨hlinksl, hlinksr⟩ := carries_append hlinks
      obtain ⟨a', ha', hfadesl⟩ := ihl he.1.1 hlinksl ha
      obtain ⟨v, hv⟩ := condition_of_lower he.1.1 he.1.2 ha ha' hfadesl hc
      obtain ⟨b', hb', hfadesr⟩ := ihr he.2.1 hlinksr hb
      obtain ⟨w, hw⟩ := condition_of_lower he.2.1 he.2.2 hb hb' hfadesr hd
      refine ⟨.condition (Rules.logical Live.algebra op v w), ?_, .refl _⟩
      exact bind_eq_ok.2 ⟨a', ha', bind_eq_ok.2 ⟨v, hv, bind_eq_ok.2 ⟨b', hb',
        bind_eq_ok.2 ⟨w, hw, rfl⟩⟩⟩⟩

/-- A filter that only compares and compiles has a truth value on every entity of the type that
conforms to it and carries the links the filter names, whatever is missing. -/
theorem evaluate_eq_ok_of_compile {e : Expression} {c : CompiledFilter} (he : e.Comparing)
    (hbare : ¬e.BareScalar) (h : entity.Conforms) (hlinks : entity.Carries e)
    (hc : Table.compile ⟨entity.type, type, byName⟩ e = .ok c) :
    ∃ v, Live.evaluate entity e = .ok v := by
  rw [Table.compile_eq] at hc
  obtain ⟨condition, hcondition, _⟩ := map_eq_ok.1 hc
  obtain ⟨o, ho, hcondition⟩ := bind_eq_ok.1 hcondition
  obtain ⟨o', ho', hfades⟩ := lower_fades he h hlinks ho
  obtain ⟨v, hv⟩ := condition_of_lower he hbare ho ho' hfades hcondition
  exact ⟨v, bind_eq_ok.2 ⟨o', ho', hv⟩⟩

/-- A missing instant faces an interval that is there, a missing result a number, and a missing
interval is asked what it contains. -/
theorem evaluate_eq_ok_of_compile_observation :
    let start : Instant := .utc ⟨0, 0, 0, by decide⟩
    let entity := ((Entity.empty .observation).set .phenomenonTime
      (.interval ⟨start, .utc ⟨2, 0, 0, by decide⟩⟩)).withLink .datastream (.long 5)
    let within : Expression := .compare .contains (.property (.single (.entity .phenomenonTime)))
      (.property (.single (.entity .resultTime)))
    let valid : Expression := .compare .contains (.property (.single (.entity .validTime)))
      (.constant (.instant start))
    let high : Expression :=
      .compare .greaterThan (.property (.single (.entity .result))) (.constant (.integer 5))
    let stream : Expression :=
      .equal (.property (.ofLinks [.datastream] .id)) (.constant (.integer 5))
    let e : Expression := (Expression.logical .or within (.not (valid.and high))).and stream
    e.Comparing ∧ ¬e.BareScalar ∧ entity.Conforms ∧ entity.Carries e ∧
      (∃ c, Table.compile ⟨entity.type, .withTimeZone, byName⟩ e = .ok c) ∧
      ∃ v, Live.evaluate entity e = .ok v := by
  intro start entity within valid high stream e
  have he : e.Comparing := by simp [e, within, valid, high, stream, Expression.and,
    Expression.equal, Expression.Comparing, Expression.BareScalar]
  have hbare : ¬e.BareScalar := not_false
  have hentity : entity.Conforms := by
    intro p v _ hv
    cases p <;> cases hv
    exact .inr rfl
  have hlinks : entity.Carries e := by
    intro l hset hl
    have hl : PropertyPath.ofLinks [l] .id = .ofLinks [.datastream] .id := by
      simpa [e, within, valid, high, stream, Expression.and, Expression.equal, Expression.paths,
        PropertyPath.ofLinks, PropertyPath.single] using hl
    cases hl
    exact ⟨.long 5, rfl⟩
  obtain ⟨c, hc⟩ : ∃ c, Table.compile ⟨entity.type, .withTimeZone, byName⟩ e = .ok c := ⟨_, rfl⟩
  exact ⟨he, hbare, hentity, hlinks, ⟨c, hc⟩,
    evaluate_eq_ok_of_compile he hbare hentity hlinks hc⟩

end Sql

end LiveFilter
