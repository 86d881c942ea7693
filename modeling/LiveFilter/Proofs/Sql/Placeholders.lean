import LiveFilter.Proofs.Computed
import LiveFilter.Proofs.Sql.Numbering

/-! # Placeholders of a condition

Rules copy, reorder and drop the terms of their operands, but they make no placeholders and change
none. So every placeholder in a compiled condition is one that a literal was given: it has the
number under which the literal is bound, and the cast of the literal's kind.
-/

namespace LiveFilter

open Outcome (bind_eq_ok map_eq_ok)

namespace SqlField

def placeholders : SqlField → List (Option SqlType × Nat)
  | column _ | null => []
  | param index type => [(type, index)]
  | cast field _ | nullIfZero field | negate field => field.placeholders
  | binary _ left right => left.placeholders ++ right.placeholders

@[simp] theorem placeholders_castTo (f : SqlField) (type : SqlType) :
    (f.castTo type).placeholders = f.placeholders := by
  unfold castTo
  split
  · split <;> rfl
  · rfl

end SqlField

namespace SqlCondition

def placeholders : SqlCondition → List (Option SqlType × Nat)
  | compare _ left right => left.placeholders ++ right.placeholders
  | isNull f | field f => f.placeholders
  | and left right | or left right => left.placeholders ++ right.placeholders
  | not inner => inner.placeholders
  | literal _ => []

def indices (c : SqlCondition) : List Nat := c.placeholders.map Prod.snd

end SqlCondition

namespace Constant

def casts (type : TimestampType) : Constant → List (Option SqlType)
  | null => []
  | bool _ | integer _ | number _ | text _ => [none]
  | instant _ => [some (.timestamp type)]
  | duration _ => [some .interval]
  | interval _ => [some (.timestamp type), some (.timestamp type)]

theorem length_casts (type : TimestampType) (c : Constant) :
    (c.casts type).length = c.arguments.length := by
  cases c <;> rfl

end Constant

namespace Expression

def casts (type : TimestampType) (e : Expression) : List (Option SqlType) :=
  e.literals.flatMap (Constant.casts type)

theorem length_casts (type : TimestampType) (e : Expression) :
    (e.casts type).length = e.arguments.length := by
  simp only [casts, arguments, List.length_flatMap, Constant.length_casts]

/-- The placeholders for the literals of an expression when `n` parameters are bound before it. -/
def slots (type : TimestampType) (n : Nat) (e : Expression) : List (Option SqlType × Nat) :=
  (e.casts type).zipIdx (n + 1)

variable {type : TimestampType} {n : Nat} {l r : Expression}

theorem slots_append (type : TimestampType) (n : Nat) (l r : Expression) :
    ((l.literals ++ r.literals).flatMap (Constant.casts type)).zipIdx (n + 1) =
      l.slots type n ++ r.slots type (n + l.arguments.length) := by
  rw [List.flatMap_append, List.zipIdx_append]
  change l.slots type n ++ (r.casts type).zipIdx (n + 1 + (l.casts type).length) = _
  rw [length_casts, Nat.add_right_comm]
  rfl

theorem mem_slots {cast : Option SqlType} {k : Nat} :
    (cast, k) ∈ l.slots type n ↔ n + 1 ≤ k ∧ (l.casts type)[k - (n + 1)]? = some cast :=
  List.mk_mem_zipIdx_iff_le_and_getElem?_sub

theorem mem_slots_append {x : Option SqlType × Nat} :
    x ∈ ((l.literals ++ r.literals).flatMap (Constant.casts type)).zipIdx (n + 1) ↔
      x ∈ l.slots type n ∨ x ∈ r.slots type (n + l.arguments.length) := by
  rw [slots_append, List.mem_append]

theorem slots_disjoint {x : Option SqlType × Nat} (hl : x ∈ l.slots type n) :
    x ∉ r.slots type (n + l.arguments.length) := by
  intro hr
  obtain ⟨_, hl⟩ := mem_slots.1 hl
  obtain ⟨hk, _⟩ := mem_slots.1 hr
  have hlt := (List.getElem?_eq_some_iff.1 hl).1
  rw [length_casts] at hlt
  omega

end Expression

/-- How much of an operand a rule looks at. -/
inductive Extent where
  | nothing
  | start
  | stop
  | whole
deriving DecidableEq

namespace Operand

variable {τ κ : Type}

/-- The terms of an operand within an extent, which tells apart the bounds of an interval only. -/
def visible : Extent → Operand τ κ → List τ
  | .nothing, _ => []
  | .start, interval s _ => [s]
  | .stop, interval _ e => [e]
  | _, o => o.terms

theorem visible_eq_terms {o : Operand τ κ} {e : Extent} (ho : o.kind ≠ .interval)
    (he : e ≠ .nothing) : o.visible e = o.terms := by
  cases o with
  | interval s f => exact absurd rfl ho
  | _ => cases e <;> first | rfl | exact absurd rfl he

theorem eq_null_of_kind {o : Operand τ κ} (h : o.kind = .null) : o = .null := by
  cases o <;> first | rfl | cases h

theorem eq_interval_of_kind {o : Operand τ κ} (h : o.kind = .interval) :
    ∃ a b, o = .interval a b := by
  cases o with
  | interval a b => exact ⟨a, b, rfl⟩
  | _ => cases h

def placeholders : Operand SqlField SqlCondition → List (Option SqlType × Nat)
  | condition c => c.placeholders
  | o => o.terms.flatMap SqlField.placeholders

theorem placeholders_of_terms {o : Operand SqlField SqlCondition} {f : SqlField}
    (h : o.terms = [f]) : o.placeholders = f.placeholders := by
  cases o with
  | scalar _ | instant _ | duration _ =>
      cases h
      exact List.append_nil _
  | _ => cases h

theorem mem_placeholders_interval {f g : SqlField} {x : Option SqlType × Nat} :
    x ∈ (interval f g : Operand SqlField SqlCondition).placeholders ↔
      x ∈ f.placeholders ∨ x ∈ g.placeholders := by
  simp [placeholders, terms]

end Operand

namespace Rules

def extentLeft (op : ComparisonOp) (right : ValueKind) : Extent :=
  match right, op with
  | .null, .equal | .null, .notEqual => .start
  | .null, _ => .nothing
  | _, .greaterThan | _, .after | _, .greaterEqual | _, .starts => .start
  | _, .lessThan | _, .before | _, .lessEqual | _, .finishes => .stop
  | _, _ => .whole

def extentRight (op : ComparisonOp) (left : ValueKind) : Extent :=
  match left, op with
  | .null, .equal | .null, .notEqual => .start
  | .null, _ => .nothing
  | .instant, .lessThan | .instant, .before => .start
  | _, .lessEqual | _, .starts => .start
  | _, .greaterEqual | _, .finishes => .stop
  | _, _ => .whole

theorem extentLeft_ne_nothing (op : ComparisonOp) {right : ValueKind} (h : right ≠ .null) :
    extentLeft op right ≠ .nothing := by
  cases right with
  | null => exact absurd rfl h
  | _ => cases op <;> exact nofun

theorem extentRight_ne_nothing (op : ComparisonOp) {left : ValueKind} (h : left ≠ .null) :
    extentRight op left ≠ .nothing := by
  cases left with
  | null => exact absurd rfl h
  | _ => cases op <;> exact nofun

theorem extentRight_null (op : ComparisonOp) : extentRight op .null = extentLeft op .null := by
  cases op <;> rfl

end Rules

namespace Sql

open Rules (extentLeft extentRight)

variable {type : TimestampType} {op : ComparisonOp} {o l r : Operand SqlField SqlCondition}
variable {c : SqlCondition} {x : Option SqlType × Nat}

theorem placeholders_asCondition (h : Rules.asCondition (algebra type) o = .ok c) :
    c.placeholders = o.placeholders := by
  cases o with
  | null =>
      cases h
      rfl
  | scalar f =>
      cases h
      exact (List.append_nil _).symm
  | condition d =>
      cases h
      rfl
  | _ => cases h

def Mentions (fields : List SqlField) (x : Option SqlType × Nat) : Prop :=
  ∃ f ∈ fields, x ∈ f.placeholders

theorem mem_placeholders_cross {f g : SqlField} (r : Relation) :
    x ∈ (SqlCondition.compare r f g).placeholders ↔ Mentions [f] x ∨ Mentions [g] x := by
  simp [SqlCondition.placeholders, Mentions]

theorem mem_placeholders_ordered {kind : ValueKind} {f g : SqlField}
    (h : Rules.ordered (algebra type) op kind f g = .ok c) :
    x ∈ c.placeholders ↔ Mentions [f] x ∨ Mentions [g] x := by
  unfold Rules.ordered at h
  split at h
  · cases h
    exact mem_placeholders_cross _
  · cases h

theorem mem_placeholders_instantInstant {f g : SqlField}
    (h : Rules.instantInstant (algebra type) op f g = .ok c) :
    x ∈ c.placeholders ↔ Mentions [f] x ∨ Mentions [g] x := by
  cases op with
  | contains => cases h
  | _ =>
      cases h
      exact mem_placeholders_cross _

theorem mem_placeholders_instantInterval {t s e : SqlField}
    (h : Rules.instantInterval (algebra type) op t s e = .ok c) :
    x ∈ c.placeholders ↔ Mentions [t] x ∨
      Mentions ((Operand.interval s e : Operand SqlField SqlCondition).visible
        (extentRight op .instant)) x := by
  cases op with
  | contains => cases h
  | _ =>
      cases h
      simp only [algebra, SqlCondition.placeholders, extentRight, Operand.visible, Operand.terms,
        Mentions, List.mem_append, List.mem_cons, List.not_mem_nil]
      grind

theorem mem_placeholders_intervalInstant {s e t : SqlField}
    (h : Rules.intervalInstant (algebra type) op s e t = .ok c) :
    x ∈ c.placeholders ↔ Mentions ((Operand.interval s e : Operand SqlField SqlCondition).visible
        (extentLeft op .instant)) x ∨ Mentions [t] x := by
  cases op <;> cases h <;>
    simp only [algebra, SqlCondition.placeholders, extentLeft, Operand.visible, Operand.terms,
      Mentions, List.mem_append, List.mem_cons, List.not_mem_nil] <;>
    grind

theorem mem_placeholders_intervalInterval {s e u v : SqlField} :
    x ∈ (Rules.intervalInterval (algebra type) op s e u v).placeholders ↔
      Mentions ((Operand.interval s e : Operand SqlField SqlCondition).visible
        (extentLeft op .interval)) x ∨
      Mentions ((Operand.interval u v : Operand SqlField SqlCondition).visible
        (extentRight op .interval)) x := by
  cases op <;>
    simp only [Rules.intervalInterval, algebra, SqlCondition.placeholders, extentLeft, extentRight,
      Operand.visible, Operand.terms, Mentions, List.mem_append, List.mem_cons,
      List.not_mem_nil] <;>
    grind

theorem mem_placeholders_nullComparison (h : o.kind ≠ .boolean) :
    x ∈ (Rules.nullComparison (algebra type) op o.terms.head?).placeholders ↔
      Mentions (o.visible (extentLeft op .null)) x := by
  cases o with
  | condition d => exact absurd rfl h
  | _ =>
      cases op <;>
        simp [Rules.nullComparison, algebra, SqlCondition.placeholders, extentLeft,
          Operand.visible, Operand.terms, Mentions]

theorem not_mentions_null (e : Extent) :
    ¬Mentions ((Operand.null : Operand SqlField SqlCondition).visible e) x := by
  rintro ⟨f, hf, _⟩
  cases e <;> cases hf

theorem mem_placeholders_compareKinds (hl : l.kind ≠ .null) (hr : r.kind ≠ .null)
    (h : Rules.compareKinds (algebra type) op l r = .ok c) :
    x ∈ c.placeholders ↔ Mentions (l.visible (extentLeft op r.kind)) x ∨
      Mentions (r.visible (extentRight op l.kind)) x := by
  have hleft := Rules.extentLeft_ne_nothing op hr
  have hright := Rules.extentRight_ne_nothing op hl
  cases l with
  | null => exact absurd rfl hl
  | condition _ => cases r <;> cases h
  | scalar a =>
      cases r with
      | null => exact absurd rfl hr
      | scalar b =>
          rw [Operand.visible_eq_terms (o := .scalar a) nofun hleft,
            Operand.visible_eq_terms (o := .scalar b) nofun hright]
          exact mem_placeholders_ordered h
      | _ => cases h
  | duration a =>
      cases r with
      | null => exact absurd rfl hr
      | duration b =>
          rw [Operand.visible_eq_terms (o := .duration a) nofun hleft,
            Operand.visible_eq_terms (o := .duration b) nofun hright]
          exact mem_placeholders_ordered h
      | _ => cases h
  | instant t =>
      rw [Operand.visible_eq_terms (o := .instant t) nofun hleft]
      cases r with
      | null => exact absurd rfl hr
      | instant u =>
          rw [Operand.visible_eq_terms (o := .instant u) nofun hright]
          exact mem_placeholders_instantInstant h
      | interval s e => exact mem_placeholders_instantInterval h
      | _ => cases h
  | interval s e =>
      cases r with
      | null => exact absurd rfl hr
      | instant t =>
          rw [Operand.visible_eq_terms (o := .instant t) nofun hright]
          exact mem_placeholders_intervalInstant h
      | interval u v =>
          cases h
          exact mem_placeholders_intervalInterval
      | _ => cases h

/-- The placeholders of a comparison are those in what it looks at. -/
theorem mem_placeholders_compare (h : Rules.compare (algebra type) op l r = .ok c) :
    x ∈ c.placeholders ↔ Mentions (l.visible (extentLeft op r.kind)) x ∨
      Mentions (r.visible (extentRight op l.kind)) x := by
  obtain ⟨hl, hr⟩ := Rules.kind_ne_boolean_of_compare h
  by_cases hrnull : r.kind = .null
  · obtain rfl := Operand.eq_null_of_kind hrnull
    rw [Rules.compare_null h, mem_placeholders_nullComparison hl]
    exact ⟨.inl, fun h => h.resolve_right (not_mentions_null _)⟩
  by_cases hlnull : l.kind = .null
  · obtain rfl := Operand.eq_null_of_kind hlnull
    rw [Rules.null_compare h, mem_placeholders_nullComparison hr, ← Rules.extentRight_null]
    exact ⟨.inr, fun h => h.resolve_left (not_mentions_null _)⟩
  · exact mem_placeholders_compareKinds hlnull hrnull (Rules.compareKinds_of_compare h)

@[simp] theorem placeholders_guardDivisor (op : ArithmeticOp) (f : SqlField) :
    (guardDivisor op f).placeholders = f.placeholders := by
  cases op <;> rfl

@[simp] theorem placeholders_arithmetic (type : TimestampType) (op : ArithmeticOp)
    (shape : ArithmeticShape) (f g : SqlField) :
    (arithmetic type op shape f g).placeholders = f.placeholders ++ g.placeholders := by
  cases shape <;> simp [arithmetic, SqlField.placeholders]

theorem placeholders_negate {o' : Operand SqlField SqlCondition}
    (h : Rules.negate (algebra type) o = .ok o') : o'.placeholders = o.placeholders := by
  cases o with
  | null | scalar _ | duration _ =>
      cases h
      rfl
  | _ => cases h

theorem mem_placeholders_computed {op : ArithmeticOp}
    (h : Rules.Computed (algebra type) op l r o) (hl : l ≠ .null) (hr : r ≠ .null) :
    x ∈ o.placeholders ↔ x ∈ l.placeholders ∨ x ∈ r.placeholders := by
  cases h with
  | null h => exact absurd h (not_or.2 ⟨hl, hr⟩)
  | joined shape hl hr ho hv _ =>
      rw [Operand.placeholders_of_terms hl, Operand.placeholders_of_terms hr,
        Operand.placeholders_of_terms ho]
      obtain hv | hv := hv <;> cases hv
      · rw [placeholders_arithmetic, List.mem_append]
      · rw [placeholders_arithmetic, List.mem_append, or_comm]
  | moved hs he =>
      cases hs
      cases he
      rw [Operand.mem_placeholders_interval, Operand.mem_placeholders_interval,
        Operand.placeholders_of_terms rfl, placeholders_arithmetic, placeholders_arithmetic,
        List.mem_append, List.mem_append]
      exact or_or_distrib_right.symm

theorem mem_placeholders_logical {d : SqlCondition} (op : LogicalOp) :
    x ∈ (Rules.logical (algebra type) op c d).placeholders ↔
      x ∈ c.placeholders ∨ x ∈ d.placeholders := by
  cases op <;> exact List.mem_append

theorem mem_placeholders_of_visible {e : Extent} (h : Mentions (o.visible e) x) :
    x ∈ o.placeholders := by
  obtain ⟨f, hf, hx⟩ := h
  cases o with
  | null | condition _ => cases e <;> cases hf
  | _ =>
      refine List.mem_flatMap.2 ⟨f, ?_, hx⟩
      cases e <;> simp_all [Operand.visible, Operand.terms]

theorem placeholders_placeholder (type : TimestampType) (n : Nat) (k : Constant) :
    (placeholder type n k).placeholders = (k.casts type).zipIdx (n + 1) := by
  cases k <;> rfl

theorem placeholders_ofMapping (m : ColumnMapping) : (ofMapping m).placeholders = [] := by
  cases m <;> rfl

namespace Table

variable {t : Table} {n : Nat}

theorem mem_slots_of_lowerAt {e : Expression} (ho : t.lowerAt n e = .ok o)
    (hx : x ∈ o.placeholders) : x ∈ e.slots t.timestampType n := by
  induction e generalizing n o with
  | constant k =>
      cases ho
      rw [placeholders_placeholder] at hx
      unfold Expression.slots Expression.casts
      rwa [Expression.literals, List.flatMap_singleton]
  | property path =>
      obtain ⟨m, _, rfl⟩ := map_eq_ok.1 ho
      rw [placeholders_ofMapping] at hx
      cases hx
  | negate e ih =>
      obtain ⟨a, ha, ho⟩ := bind_eq_ok.1 ho
      rw [placeholders_negate ho] at hx
      exact ih ha hx
  | not e ih =>
      obtain ⟨a, ha, ho⟩ := bind_eq_ok.1 ho
      obtain ⟨c, hc, ho⟩ := bind_eq_ok.1 ho
      cases ho
      exact ih ha (placeholders_asCondition hc ▸ hx)
  | arithmetic op l r ihl ihr =>
      obtain ⟨a, ha, ho⟩ := bind_eq_ok.1 ho
      obtain ⟨b, hb, ho⟩ := bind_eq_ok.1 ho
      refine Expression.mem_slots_append.2 ?_
      have hcomputed := Rules.computed_of_arithmetic ho
      by_cases hnull : a = .null ∨ b = .null
      · rw [hcomputed.eq_null hnull] at hx
        cases hx
      · obtain ⟨hanull, hbnull⟩ := not_or.1 hnull
        obtain hx | hx := (mem_placeholders_computed hcomputed hanull hbnull).1 hx
        · exact .inl (ihl ha hx)
        · exact .inr (ihr hb hx)
  | compare op l r ihl ihr =>
      obtain ⟨a, ha, ho⟩ := bind_eq_ok.1 ho
      obtain ⟨b, hb, ho⟩ := bind_eq_ok.1 ho
      obtain ⟨c, hc, ho⟩ := bind_eq_ok.1 ho
      cases ho
      refine Expression.mem_slots_append.2 ?_
      obtain hx | hx := (mem_placeholders_compare hc).1 hx
      · exact .inl (ihl ha (mem_placeholders_of_visible hx))
      · exact .inr (ihr hb (mem_placeholders_of_visible hx))
  | logical op l r ihl ihr =>
      obtain ⟨a, ha, ho⟩ := bind_eq_ok.1 ho
      obtain ⟨c, hc, ho⟩ := bind_eq_ok.1 ho
      obtain ⟨b, hb, ho⟩ := bind_eq_ok.1 ho
      obtain ⟨d, hd, ho⟩ := bind_eq_ok.1 ho
      cases ho
      refine Expression.mem_slots_append.2 ?_
      obtain hx | hx := (mem_placeholders_logical op).1 hx
      · exact .inl (ihl ha (placeholders_asCondition hc ▸ hx))
      · exact .inr (ihr hb (placeholders_asCondition hd ▸ hx))

/-- The parameters are those of the literals from left to right, and a placeholder with the number
of a parameter has the cast with which that parameter is bound. -/
theorem compile_params_and_casts {e : Expression} {c : CompiledFilter} (h : t.compile e = .ok c) :
    c.params = e.literals.flatMap (Constant.params t.timestampType) ∧
      (e.casts t.timestampType).length = c.params.length ∧
      ∀ cast k, (cast, k) ∈ c.condition.placeholders →
        1 ≤ k ∧ (e.casts t.timestampType)[k - 1]? = some cast := by
  rw [compile_eq] at h
  obtain ⟨condition, hcondition, rfl⟩ := map_eq_ok.1 h
  obtain ⟨o, ho, hc⟩ := bind_eq_ok.1 hcondition
  refine ⟨rfl, ?_, fun cast k hx => ?_⟩
  · rw [Expression.length_casts]
    exact (e.length_params t.timestampType).symm
  · rw [placeholders_asCondition hc] at hx
    have hslot := Expression.mem_slots.1 (mem_slots_of_lowerAt ho hx)
    rwa [Nat.zero_add] at hslot

/-- The duration that moves an interval literal is copied to both bounds, and a null has no
placeholder. -/
theorem compile_params_and_casts_moved :
    let start : Instant := .utc ⟨0, 0, 0, by decide⟩
    let moved : Expression := .arithmetic .add
      (.constant (.interval ⟨start, .utc ⟨2, 0, 0, by decide⟩⟩))
      (.constant (.duration ⟨1000, by decide⟩))
    let e : Expression :=
      (Expression.compare .overlaps (.property (.single (.entity .phenomenonTime))) moved).and
        ((Expression.equal (.constant .null) (.property (.single (.entity .result)))).and
          (.compare .lessThan (.constant (.integer 5)) (.property (.single (.entity .result)))))
    let t : Table := ⟨.observation, .withoutTimeZone, ColumnResolver.byName⟩
    ∃ c, t.compile e = .ok c ∧
      c.params = e.literals.flatMap (Constant.params .withoutTimeZone) ∧
      (e.casts .withoutTimeZone).length = c.params.length ∧
      ∀ cast k, (cast, k) ∈ c.condition.placeholders →
        1 ≤ k ∧ (e.casts .withoutTimeZone)[k - 1]? = some cast := by
  intro start moved e t
  obtain ⟨c, hc⟩ : ∃ c, t.compile e = .ok c := ⟨_, rfl⟩
  exact ⟨c, hc, compile_params_and_casts hc⟩

end Table

end Sql

end LiveFilter
