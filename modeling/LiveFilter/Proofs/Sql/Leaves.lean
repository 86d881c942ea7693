import LiveFilter.Proofs.Conditions
import LiveFilter.Proofs.Sql.Row

/-! # Leaves of plain filters

What a literal or a path compiles to, next to its operand on an entity. They correspond, except
that the columns of a missing property face the null operand.
-/

namespace LiveFilter

open ColumnResolver (byName)
open Outcome (bind_eq_ok)

namespace Expression

/-- Literals and paths under comparisons and connectives. -/
def Plain : Expression → Prop
  | constant _ | property _ => True
  | negate _ | arithmetic _ _ _ => False
  | not e => e.Plain
  | compare _ l r | logical _ l r => l.Plain ∧ r.Plain

def IsNullLiteral : Expression → Prop
  | constant .null => True
  | _ => False

instance : (e : Expression) → Decidable e.IsNullLiteral
  | constant .null => .isTrue trivial
  | constant (.bool _) | constant (.integer _) | constant (.number _) | constant (.text _)
  | constant (.instant _) | constant (.duration _) | constant (.interval _) | property _ | negate _
  | not _ | arithmetic _ _ _ | compare _ _ _ | logical _ _ _ => .isFalse not_false

end Expression

namespace Entity

/-- The values of the own properties are null or of the declared kinds. -/
def Conforms (entity : Entity) : Prop :=
  ∀ p v, entity.type.hasProperty p = true → entity.get? p = some v →
    Sql.IsNull v ∨ (Live.operand v).kind = p.valueKind

def Lacks (entity : Entity) : Expression → Prop
  | .property path => Sql.IsNull (entity.storedValue path)
  | _ => False

instance (entity : Entity) : (e : Expression) → Decidable (entity.Lacks e)
  | .property path => inferInstanceAs (Decidable (Sql.IsNull (entity.storedValue path)))
  | .constant _ | .negate _ | .not _ | .arithmetic _ _ _ | .compare _ _ _ | .logical _ _ _ =>
      .isFalse not_false

theorem Lacks.not_isNullLiteral {entity : Entity} {e : Expression} (h : entity.Lacks e) :
    ¬e.IsNullLiteral := by
  cases e with
  | property path => exact not_false
  | _ => exact h.elim

end Entity

namespace Live

theorem operand_of_isNull {v : Value} (h : Sql.IsNull v) : operand v = .null := by
  unfold Sql.IsNull normalize at h
  split at h <;> first | rfl | cases h | skip
  · split at h <;> cases h
  · cases v with
    | null => rfl
    | _ => cases h

theorem truthy_of_isNull {v : Value} (h : Sql.IsNull v) : truthy v = .ok .unknown := by
  have hv : normalize v = .null := by
    unfold Sql.IsNull at h
    cases hn : normalize v <;> first | rfl | (rw [hn] at h; cases h)
  simp only [truthy, hv]

theorem operand_kind_ne_null {v : Value} (h : ¬Sql.IsNull v) : (operand v).kind ≠ .null := by
  unfold operand
  split
  · exact absurd rfl h
  · exact absurd rfl h
  all_goals exact nofun

end Live

namespace Sql

variable {entity : Entity} {row : String → Option Value} {args : List Value}

/-- An operand that has terms, and all of them read as null. -/
structure Blank (row : String → Option Value) (args : List Value)
    (o : Operand SqlField SqlCondition) : Prop where
  ne_null : o.kind ≠ .null
  ne_boolean : o.kind ≠ .boolean
  terms : ∀ f ∈ o.terms, ∃ v, Reads row args f v ∧ IsNull v

theorem exists_reads_of_related {o : Operand SqlField SqlCondition} {o' : Operand Value Truth}
    (h : Operand.Related (Reads row args) (Holds row args) o o') {f : SqlField}
    (hf : f ∈ o.terms) : ∃ v, Reads row args f v := by
  cases h with
  | null | condition _ => cases hf
  | scalar h | instant h | duration h =>
      rw [List.mem_singleton.1 hf]
      exact ⟨_, h⟩
  | interval hstart hstop =>
      obtain rfl | hf := List.mem_cons.1 hf
      · exact ⟨_, hstart⟩
      · rw [List.mem_singleton.1 hf]
        exact ⟨_, hstop⟩

/-- What a leaf of a filter compiles to, next to its operand on the entity. -/
inductive Faces (entity : Entity) (args : List Value) :
    Expression → Operand SqlField SqlCondition → Operand Value Truth → Prop
  | null : Faces entity args (.constant .null) .null .null
  | missing {e : Expression} {o : Operand SqlField SqlCondition} (hlacks : entity.Lacks e)
      (h : Blank entity.row args o) : Faces entity args e o .null
  | present {e : Expression} {o : Operand SqlField SqlCondition} {o' : Operand Value Truth}
      (hlacks : ¬entity.Lacks e) (hlit : ¬e.IsNullLiteral) (hkind : o'.kind ≠ .null)
      (h : Operand.Related (Reads entity.row args) (Holds entity.row args) o o') :
      Faces entity args e o o'

namespace Faces

variable {e : Expression} {o : Operand SqlField SqlCondition} {o' : Operand Value Truth}

theorem of_lacks (h : Faces entity args e o o') (hlacks : entity.Lacks e) :
    Blank entity.row args o ∧ o' = .null := by
  cases h with
  | null => exact hlacks.elim
  | missing _ h => exact ⟨h, rfl⟩
  | present hnot _ _ _ => exact absurd hlacks hnot

theorem of_isNullLiteral (h : Faces entity args e o o') (hlit : e.IsNullLiteral) :
    o = .null ∧ o' = .null := by
  cases h with
  | null => exact ⟨rfl, rfl⟩
  | missing hlacks _ => exact absurd hlit hlacks.not_isNullLiteral
  | present _ hnot _ _ => exact absurd hlit hnot

theorem related (h : Faces entity args e o o') (hlacks : ¬entity.Lacks e) :
    Operand.Related (Reads entity.row args) (Holds entity.row args) o o' := by
  cases h with
  | null => exact .null
  | missing h _ => exact absurd h hlacks
  | present _ _ _ h => exact h

theorem kind_ne_null (h : Faces entity args e o o') (hlit : ¬e.IsNullLiteral) :
    o.kind ≠ .null := by
  cases h with
  | null => exact absurd trivial hlit
  | missing _ h => exact h.ne_null
  | present _ _ hkind h => rwa [h.kind_eq]

theorem reads (h : Faces entity args e o o') {f : SqlField} (hf : f ∈ o.terms) :
    ∃ v, Reads entity.row args f v := by
  cases h with
  | null => cases hf
  | missing _ h =>
      obtain ⟨v, hv, _⟩ := h.terms f hf
      exact ⟨v, hv⟩
  | present _ _ _ h => exact exists_reads_of_related h hf

end Faces

theorem kind_storedValue {path : PropertyPath} {m : ColumnMapping} (h : entity.Conforms)
    (hm : byName entity.type path = .ok m) (hnull : ¬IsNull (entity.storedValue path)) :
    (Live.operand (entity.storedValue path)).kind = path.kind := by
  obtain ⟨p, column, rfl, hp, rfl⟩ | ⟨l, column, rfl, rfl⟩ := ColumnResolver.byName_eq_ok hm
  · change ¬IsNull ((entity.get? p).getD .null) at hnull
    change (Live.operand ((entity.get? p).getD .null)).kind = p.valueKind
    cases hv : entity.get? p with
    | none =>
        rw [hv] at hnull
        exact absurd rfl hnull
    | some v =>
        rw [hv] at hnull
        exact (h p v hp hv).resolve_left hnull
  · change ¬IsNull (((entity.links l).map Value.ofId).getD .null) at hnull
    change (Live.operand (((entity.links l).map Value.ofId).getD .null)).kind = .scalar
    cases hid : entity.links l with
    | none =>
        rw [hid] at hnull
        exact absurd rfl hnull
    | some id => cases id <;> rfl

theorem bounds_of_isNull {v : Value} (h : IsNull v) : v.bounds = (.null, .null) := by
  cases v with
  | instant t => cases h
  | interval i => cases h
  | _ => rfl

theorem blank_ofMapping {path : PropertyPath} {m : ColumnMapping}
    (hm : byName entity.type path = .ok m) (hnull : IsNull (entity.storedValue path)) :
    Blank entity.row args (ofMapping m) := by
  have hrow {column : String} {value : Value}
      (hcell : (column, value) ∈ m.cells (entity.storedValue path)) :
      entity.row column = some value := Entity.row_of_byName hm hcell
  generalize entity.storedValue path = v at hnull hrow
  cases m with
  | scalar c | instant c | duration c =>
      refine ⟨nofun, nofun, fun f hf => ⟨v, ?_, hnull⟩⟩
      rw [List.mem_singleton.1 hf]
      exact hrow List.mem_cons_self
  | interval start stop =>
      simp only [ColumnMapping.cells, bounds_of_isNull hnull] at hrow
      refine ⟨nofun, nofun, fun f hf => ⟨.null, ?_, rfl⟩⟩
      obtain rfl | hf := List.mem_cons.1 hf
      · exact hrow List.mem_cons_self
      · rw [List.mem_singleton.1 hf]
        exact hrow (List.mem_cons_of_mem _ List.mem_cons_self)

theorem faces_property {path : PropertyPath} {o : Operand SqlField SqlCondition}
    {o' : Operand Value Truth} (h : entity.Conforms)
    (ho : (byName entity.type path).map ofMapping = .ok o)
    (ho' : (Live.property entity path).map Live.operand = .ok o') :
    Faces entity args (.property path) o o' := by
  obtain ⟨m, hm, rfl⟩ := Outcome.map_eq_ok.1 ho
  obtain ⟨v, hv, rfl⟩ := Outcome.map_eq_ok.1 ho'
  rw [← Entity.storedValue_eq hv]
  by_cases hnull : IsNull (entity.storedValue path)
  · rw [Live.operand_of_isNull hnull]
    exact .missing hnull (blank_ofMapping hm hnull)
  · exact .present hnull not_false (Live.operand_kind_ne_null hnull)
      (related_ofMapping hm (kind_storedValue h hm hnull))

theorem faces_constant {type : TimestampType} {n : Nat} {k : Constant}
    (hargs : k.arguments <+: args.drop n) :
    Faces entity args (.constant k) (placeholder type n k) (Live.operand k.toValue) := by
  have hrel : Operand.Related (Reads entity.row args) (Holds entity.row args)
      (placeholder type n k) (Live.operand k.toValue) := related_placeholder type hargs
  cases k with
  | null => exact .null
  | _ => exact .present not_false not_false nofun hrel

/-- A leaf in the place of a condition: null is unknown on both sides. -/
theorem asCondition_faces {type : TimestampType} {e : Expression}
    {o : Operand SqlField SqlCondition} {o' : Operand Value Truth} {c : SqlCondition} {v : Truth}
    (h : Faces entity args e o o') (hc : Rules.asCondition (algebra type) o = .ok c)
    (hv : Rules.asCondition Live.algebra o' = .ok v) : Holds entity.row args c v := by
  by_cases hlacks : entity.Lacks e
  · obtain ⟨hblank, rfl⟩ := h.of_lacks hlacks
    cases hv
    cases o with
    | null => exact absurd rfl hblank.ne_null
    | scalar f =>
        cases hc
        obtain ⟨a, hread, hnull⟩ := hblank.terms f List.mem_cons_self
        exact holds_truthy hread (Live.truthy_of_isNull hnull)
    | condition d => exact absurd rfl hblank.ne_boolean
    | _ => cases hc
  · have hsim := algebra_simulates entity.row args type
    obtain ⟨d, hd, hholds⟩ := hsim.asCondition_lifts (h.related hlacks) v hv
    rw [hc] at hd
    cases hd
    exact hholds

theorem faces_of_plain {type : TimestampType} {e : Expression} {n : Nat}
    {o : Operand SqlField SqlCondition} {o' : Operand Value Truth} (hplain : e.Plain)
    (h : entity.Conforms) (hargs : e.arguments <+: args.drop n)
    (ho : Table.lowerAt ⟨entity.type, type, byName⟩ n e = .ok o)
    (ho' : Live.lower entity e = .ok o') (hkind : o'.kind ≠ .boolean) :
    Faces entity args e o o' := by
  cases e with
  | constant k =>
      cases ho
      cases ho'
      rw [Expression.arguments_constant] at hargs
      exact faces_constant hargs
  | property path => exact faces_property h ho ho'
  | negate e => exact hplain.elim
  | arithmetic op l r => exact hplain.elim
  | not e =>
      obtain ⟨_, _, ho'⟩ := bind_eq_ok.1 ho'
      obtain ⟨_, _, ho'⟩ := bind_eq_ok.1 ho'
      cases ho'
      exact absurd rfl hkind
  | compare op l r =>
      obtain ⟨_, _, ho'⟩ := bind_eq_ok.1 ho'
      obtain ⟨_, _, ho'⟩ := bind_eq_ok.1 ho'
      obtain ⟨_, _, ho'⟩ := bind_eq_ok.1 ho'
      cases ho'
      exact absurd rfl hkind
  | logical op l r =>
      obtain ⟨_, _, ho'⟩ := bind_eq_ok.1 ho'
      obtain ⟨_, _, ho'⟩ := bind_eq_ok.1 ho'
      obtain ⟨_, _, ho'⟩ := bind_eq_ok.1 ho'
      obtain ⟨_, _, ho'⟩ := bind_eq_ok.1 ho'
      cases ho'
      exact absurd rfl hkind

end Sql

end LiveFilter
