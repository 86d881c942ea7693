import LiveFilter.Proofs.Sql.Agreement
import LiveFilter.Proofs.Sql.Kinds

/-! # Kinds of results

The kind that the declarations of properties lead to, without a look at any value, is the kind of
the operand. It is so wherever the leaves have their declared kinds: in SQL always, and on an entity
that has values of these kinds. Literals that are truth values are left out, since they become
scalars.
-/

namespace LiveFilter

open ColumnResolver (byName)
open LawfulMonadAttach (canReturn_bind_imp' canReturn_liftM_imp' eq_of_canReturn_pure)
open MonadAttach (CanReturn)
open Outcome (map_eq_ok)

namespace Backend

variable {m : Type → Type} {τ κ : Type}
variable [Monad m] [LawfulMonad m] [MonadAttach m] [LawfulMonadAttach m]
variable [MonadLiftT (Except FilterError) m] [LawfulMonadLiftT (Except FilterError) m]
variable {b : Backend m τ κ} {e : Expression} {o : Operand τ κ}

/-- Where the leaves have their declared kinds, every node has the kind of its result. -/
theorem kind_of_lower
    (hliterals : ∀ c ∈ e.literals, ∀ o, CanReturn (b.constant c) o → o.kind = c.kind)
    (hpaths : ∀ p ∈ e.paths, ∀ o, CanReturn (b.property p) o → o.kind = p.kind)
    (h : CanReturn (b.lower e) o) : o.kind = e.resultKind := by
  induction e generalizing o with
  | constant c => exact hliterals c List.mem_cons_self o h
  | property path => exact hpaths path List.mem_cons_self o h
  | negate e ih =>
      obtain ⟨a, ha, h⟩ := canReturn_bind_imp' h
      have ho : Rules.negate b.algebra a = .ok o := canReturn_liftM_imp' h
      exact (Rules.kind_of_negate ho).trans (ih hliterals hpaths ha)
  | not e _ =>
      -- whatever the checks found, a condition is what is returned in the end
      obtain ⟨_, _, h⟩ := canReturn_bind_imp' h
      obtain ⟨_, _, h⟩ := canReturn_bind_imp' h
      cases eq_of_canReturn_pure h
      rfl
  | arithmetic op l r ihl ihr =>
      obtain ⟨hliteralsl, hliteralsr⟩ := List.forall_mem_append.1 hliterals
      obtain ⟨hpathsl, hpathsr⟩ := List.forall_mem_append.1 hpaths
      obtain ⟨left, hleft, h⟩ := canReturn_bind_imp' h
      obtain ⟨right, hright, h⟩ := canReturn_bind_imp' h
      have ho : Rules.arithmetic b.algebra op left right = .ok o := canReturn_liftM_imp' h
      rw [(Rules.computed_of_arithmetic ho).kind_eq, ihl hliteralsl hpathsl hleft,
        ihr hliteralsr hpathsr hright]
      rfl
  | compare op l r _ _ =>
      obtain ⟨_, _, h⟩ := canReturn_bind_imp' h
      obtain ⟨_, _, h⟩ := canReturn_bind_imp' h
      obtain ⟨_, _, h⟩ := canReturn_bind_imp' h
      cases eq_of_canReturn_pure h
      rfl
  | logical op l r _ _ =>
      obtain ⟨_, _, h⟩ := canReturn_bind_imp' h
      obtain ⟨_, _, h⟩ := canReturn_bind_imp' h
      obtain ⟨_, _, h⟩ := canReturn_bind_imp' h
      obtain ⟨_, _, h⟩ := canReturn_bind_imp' h
      cases eq_of_canReturn_pure h
      rfl

end Backend

theorem Constant.operandKind_eq_kind {c : Constant} (h : ∀ value, .bool value ≠ c) :
    c.operandKind = c.kind := by
  cases c with
  | bool value => exact absurd rfl (h value)
  | _ => rfl

/-- The kind of the properties that may hold the value: no property is declared to hold truth
values, and scalar ones may. -/
def Value.declaredKind : Value → ValueKind
  | bool _ => .scalar
  | v => v.kind

/-- A path with a value behind it: that of an own property, not null and of the declared kind, or
the identifier behind a link. -/
inductive Entity.Supplies (entity : Entity) : PropertyPath → Prop
  | own {p : EntityProperty} {v : Value} (hv : entity.get? p = some v) (hnull : ¬Sql.IsNull v)
      (hkind : v.declaredKind = p.valueKind) : Supplies entity (.single (.entity p))
  | link {l : NavigationProperty} {id : Id} (hset : l.isSet = false)
      (hid : entity.links l = some id) : Supplies entity (.ofLinks [l] .id)

namespace Sql

theorem kind_of_constant {type : TimestampType} {c : Constant} {o : Operand SqlField SqlCondition}
    (h : CanReturn (constant type c) o) : o.kind = c.operandKind := by
  obtain ⟨ps, qs, h⟩ := h
  cases (binds_constant type c ps).symm.trans h
  exact placeholder_kind type ps.length c

theorem kind_of_property {t : Table} (ht : t.resolver = byName) {path : PropertyPath}
    {o : Operand SqlField SqlCondition} (h : CanReturn (t.backend.property path) o) :
    o.kind = path.kind := by
  obtain ⟨mapping, hmapping, rfl⟩ := map_eq_ok.1 (canReturn_liftM_imp' h)
  rw [ht] at hmapping
  exact ColumnResolver.ofMapping_kind hmapping

end Sql

namespace Live

theorem operand_kind {v : Value} (hnull : ¬Sql.IsNull v) : (operand v).kind = v.declaredKind := by
  cases v with
  | null => exact absurd rfl hnull
  | json j =>
      cases j with
      | null => exact absurd rfl hnull
      | _ => rfl
  | _ => rfl

theorem kind_of_property {entity : Entity} {path : PropertyPath} {v : Value}
    (hpath : entity.Supplies path) (h : property entity path = .ok v) :
    (operand v).kind = path.kind := by
  rw [← Entity.storedValue_eq h]
  cases hpath with
  | own hv hnull hkind =>
      rw [Entity.storedValue_single hv]
      exact (operand_kind hnull).trans hkind
  | link _ hid =>
      rw [Entity.storedValue_ofLinks hid]
      exact operand_ofId_kind _

end Live

/-- The kind of result that an expression declares is the kind of its operand, for every table with
columns by name and for every entity with values behind the paths. What divides by zero is null, but
still counts as a scalar or a duration. -/
theorem kind_eq_resultKind {e : Expression} (hliterals : ∀ value, .bool value ∉ e.literals) :
    (∀ type stamp ps qs o,
      ((Sql.Table.backend ⟨type, stamp, byName⟩).lower e).run ps = .ok (o, qs) →
        o.kind = e.resultKind) ∧
    ∀ entity : Entity, (∀ path ∈ e.paths, entity.Supplies path) →
      ∀ o, Live.lower entity e = .ok o → o.kind = e.resultKind := by
  have hkind (c : Constant) (hc : c ∈ e.literals) : c.operandKind = c.kind :=
    Constant.operandKind_eq_kind fun value hvalue => hliterals value (hvalue ▸ hc)
  constructor
  · intro type stamp ps qs o ho
    have h : CanReturn ((Sql.Table.backend ⟨type, stamp, byName⟩).lower e) o := ⟨ps, qs, ho⟩
    refine Backend.kind_of_lower ?_ (fun path _ o' => Sql.kind_of_property rfl) h
    intro c hc o' ho'
    exact (Sql.kind_of_constant ho').trans (hkind c hc)
  · intro entity hpaths o ho
    have h : CanReturn ((Live.backend entity).lower e) o := ho
    refine Backend.kind_of_lower ?_ ?_ h
    · rintro c hc _ ⟨⟩
      exact (Live.operand_toValue_kind c).trans (hkind c hc)
    · intro path hpath o' ho'
      obtain ⟨v, hv, rfl⟩ := map_eq_ok.1 ho'
      exact Live.kind_of_property (hpaths path hpath) hv

/-- An instant and a duration in either order, and a quotient that is null on the entity. -/
theorem kind_eq_resultKind_quotient :
    let time : Instant := .utc ⟨0, 0, 0, by decide⟩
    let entity : Entity :=
      { type := .observation, id := none
        properties := fun p => if p = .resultTime then some (.instant time) else none
        links := fun l => if l = .datastream then some (.long 5) else none }
    let resultTime : Expression := .property (.single (.entity .resultTime))
    let later : Expression := .arithmetic .add (.constant (.duration ⟨1000, by decide⟩)) resultTime
    let quotient : Expression :=
      .arithmetic .div (.property (.ofLinks [.datastream] .id)) (.constant (.integer 0))
    let e : Expression := .arithmetic .mul quotient (.arithmetic .sub later resultTime)
    (∀ value, .bool value ∉ e.literals) ∧ (∀ path ∈ e.paths, entity.Supplies path) ∧
      e.resultKind = .duration ∧ Live.lower entity e = .ok (.duration .null) ∧
      (Operand.duration Value.null : Operand Value Truth).kind = e.resultKind ∧
      ∃ o qs, ((Sql.Table.ofType .observation).backend.lower e).run [] = .ok (o, qs) ∧
        o.kind = e.resultKind := by
  intro time entity resultTime later quotient e
  have hliterals : ∀ value, .bool value ∉ e.literals := by
    have hne : ∀ c ∈ e.literals, ∀ value, c ≠ .bool value :=
      List.forall_mem_cons.2 ⟨nofun, List.forall_mem_singleton.2 nofun⟩
    exact fun value hvalue => hne _ hvalue value rfl
  have htime : entity.Supplies (.single (.entity .resultTime)) := .own rfl nofun rfl
  have hpaths : ∀ path ∈ e.paths, entity.Supplies path := by
    refine List.forall_mem_cons.2 ⟨.link rfl rfl, ?_⟩
    exact List.forall_mem_cons.2 ⟨htime, List.forall_mem_singleton.2 htime⟩
  have hlive : Live.lower entity e = .ok (.duration .null) := by
    unfold e quotient later resultTime entity time
    rfl
  obtain ⟨hsql, hentity⟩ := kind_eq_resultKind hliterals
  exact ⟨hliterals, hpaths, rfl, hlive, hentity entity hpaths _ hlive, _, _, rfl,
    hsql .observation .withTimeZone [] _ _ rfl⟩

end LiveFilter
