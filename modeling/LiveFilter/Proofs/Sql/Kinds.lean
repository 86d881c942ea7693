import LiveFilter.Live.Evaluator
import LiveFilter.Proofs.Computed
import LiveFilter.Proofs.Sql.Literals

/-! # Kinds of what is lowered

The kind of the operand that an expression lowers to can be read off the expression and the columns
of its paths.
-/

namespace LiveFilter

open Outcome (bind_eq_ok map_eq_ok)

theorem Live.operand_toValue_kind (c : Constant) : (operand c.toValue).kind = c.operandKind := by
  cases c <;> rfl

namespace Sql

theorem placeholder_kind (type : TimestampType) (n : Nat) (c : Constant) :
    (placeholder type n c).kind = c.operandKind := by
  cases c <;> rfl

theorem ofMapping_kind_ne_boolean (m : ColumnMapping) : (ofMapping m).kind ≠ .boolean := by
  cases m <;> exact nofun

namespace Table

/-- The kind of the operand that an expression lowers to. -/
def kind (t : Table) : Expression → ValueKind
  | .constant c => c.operandKind
  | .property p =>
      match t.resolver t.entityType p with
      | .ok m => (ofMapping m).kind
      | .error _ => .null
  | .negate e => t.kind e
  | .not _ | .compare _ _ _ | .logical _ _ _ => .boolean
  | .arithmetic _ l r => Expression.arithmeticKind (t.kind l) (t.kind r)

theorem kind_of_lowerAt {t : Table} {n : Nat} {e : Expression}
    {o : Operand SqlField SqlCondition} (ho : t.lowerAt n e = .ok o) : o.kind = t.kind e := by
  induction e generalizing n o with
  | constant k =>
      cases ho
      exact placeholder_kind _ _ k
  | property path =>
      obtain ⟨m, hm, rfl⟩ := map_eq_ok.1 ho
      rw [kind, hm]
  | negate e ih =>
      obtain ⟨a, ha, ho⟩ := bind_eq_ok.1 ho
      rw [kind, ← ih ha]
      exact Rules.kind_of_negate ho
  | not e ih =>
      obtain ⟨_, _, ho⟩ := bind_eq_ok.1 ho
      obtain ⟨_, _, ho⟩ := bind_eq_ok.1 ho
      cases ho
      rfl
  | arithmetic op l r ihl ihr =>
      obtain ⟨a, ha, ho⟩ := bind_eq_ok.1 ho
      obtain ⟨b, hb, ho⟩ := bind_eq_ok.1 ho
      rw [(Rules.computed_of_arithmetic ho).kind_eq, ihl ha, ihr hb]
      rfl
  | compare op l r =>
      obtain ⟨_, _, ho⟩ := bind_eq_ok.1 ho
      obtain ⟨_, _, ho⟩ := bind_eq_ok.1 ho
      obtain ⟨_, _, ho⟩ := bind_eq_ok.1 ho
      cases ho
      rfl
  | logical op l r =>
      obtain ⟨_, _, ho⟩ := bind_eq_ok.1 ho
      obtain ⟨_, _, ho⟩ := bind_eq_ok.1 ho
      obtain ⟨_, _, ho⟩ := bind_eq_ok.1 ho
      obtain ⟨_, _, ho⟩ := bind_eq_ok.1 ho
      cases ho
      rfl

end Table

end Sql

end LiveFilter
