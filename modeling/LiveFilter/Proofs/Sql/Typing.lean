import LiveFilter.Proofs.Comparable
import LiveFilter.Proofs.Sql.FieldTypes
import LiveFilter.Proofs.Sql.Numbering

/-! # Types of compiled conditions

The kind of an operand fixes the types of its terms, and the rules of the operators combine terms
by the kinds of the operands. So whatever compiles has types throughout: both sides of a comparison
agree, conditions are scalars, every divisor is guarded, and no cast is repeated.
-/

namespace LiveFilter

open Outcome (bind_eq_ok map_eq_ok)

variable {columns : String → Option SqlType → Prop} {stamp : TimestampType}

namespace SqlCondition

def parts : SqlCondition → List SqlCondition
  | and left right => and left right :: (left.parts ++ right.parts)
  | or left right => or left right :: (left.parts ++ right.parts)
  | not inner => not inner :: inner.parts
  | c => [c]

def fields : SqlCondition → List SqlField
  | compare _ f g => f.parts ++ g.parts
  | isNull f | field f => f.parts
  | and left right | or left right => left.fields ++ right.fields
  | not inner => inner.fields
  | literal _ => []

/-- A condition whose fields are in order, which compares fields of one type only and takes only
scalars for truth values. -/
structure Sound (columns : String → Option SqlType → Prop) (stamp : TimestampType)
    (c : SqlCondition) : Prop where
  fields : ∀ f ∈ c.fields, f.Fit columns stamp
  compared : ∀ rel f g, compare rel f g ∈ c.parts →
    ∃ type, f.HasType columns type ∧ g.HasType columns type
  asserted : ∀ f, field f ∈ c.parts → f.HasType columns none

variable {c d : SqlCondition} {f g : SqlField} {type : Option SqlType}

theorem sound_compare (rel : Relation) (hf : f.Sound columns stamp type)
    (hg : g.Sound columns stamp type) : (compare rel f g).Sound columns stamp where
  fields part hpart := by
    obtain hpart | hpart := List.mem_append.1 hpart
    · exact hf.parts part hpart
    · exact hg.parts part hpart
  compared _ _ _ h := by
    cases List.mem_singleton.1 h
    exact ⟨type, hf.hasType, hg.hasType⟩
  asserted _ h := nomatch List.mem_singleton.1 h

theorem sound_isNull (hf : f.Sound columns stamp type) : (isNull f).Sound columns stamp where
  fields := hf.parts
  compared _ _ _ h := nomatch List.mem_singleton.1 h
  asserted _ h := nomatch List.mem_singleton.1 h

theorem sound_field (hf : f.Sound columns stamp none) : (field f).Sound columns stamp where
  fields := hf.parts
  compared _ _ _ h := nomatch List.mem_singleton.1 h
  asserted _ h := by
    cases List.mem_singleton.1 h
    exact hf.hasType

theorem sound_literal (value : Option Bool) : (literal value).Sound columns stamp where
  fields _ h := nomatch h
  compared _ _ _ h := nomatch List.mem_singleton.1 h
  asserted _ h := nomatch List.mem_singleton.1 h

theorem Sound.joined {whole : SqlCondition} (hc : c.Sound columns stamp)
    (hd : d.Sound columns stamp) (hfields : whole.fields = c.fields ++ d.fields)
    (hparts : whole.parts = whole :: (c.parts ++ d.parts))
    (hcompare : ∀ rel f g, whole ≠ compare rel f g) (hfield : ∀ f, whole ≠ field f) :
    whole.Sound columns stamp where
  fields f hf := by
    rw [hfields] at hf
    exact (List.mem_append.1 hf).elim (hc.fields f) (hd.fields f)
  compared rel f g h := by
    rw [hparts] at h
    obtain h | h := List.mem_cons.1 h
    · exact absurd h.symm (hcompare rel f g)
    · exact (List.mem_append.1 h).elim (hc.compared rel f g) (hd.compared rel f g)
  asserted f h := by
    rw [hparts] at h
    obtain h | h := List.mem_cons.1 h
    · exact absurd h.symm (hfield f)
    · exact (List.mem_append.1 h).elim (hc.asserted f) (hd.asserted f)

theorem Sound.and (hc : c.Sound columns stamp) (hd : d.Sound columns stamp) :
    (and c d).Sound columns stamp :=
  hc.joined hd rfl rfl nofun nofun

theorem Sound.or (hc : c.Sound columns stamp) (hd : d.Sound columns stamp) :
    (or c d).Sound columns stamp :=
  hc.joined hd rfl rfl nofun nofun

theorem Sound.not (hc : c.Sound columns stamp) : (not c).Sound columns stamp where
  fields := hc.fields
  compared rel f g h := by
    obtain h | h := List.mem_cons.1 h
    · cases h
    · exact hc.compared rel f g h
  asserted f h := by
    obtain h | h := List.mem_cons.1 h
    · cases h
    · exact hc.asserted f h

end SqlCondition

namespace Sql

variable {o l r : Operand SqlField SqlCondition} {c : SqlCondition}

/-- An operand whose terms have the type of its kind. -/
inductive Typed (columns : String → Option SqlType → Prop) (stamp : TimestampType) :
    Operand SqlField SqlCondition → Prop
  | terms {o : Operand SqlField SqlCondition} (hkind : o.kind ≠ .boolean)
      (h : ∀ f ∈ o.terms, f.Sound columns stamp (o.kind.sqlType stamp)) : Typed columns stamp o
  | condition {c : SqlCondition} (h : c.Sound columns stamp) : Typed columns stamp (.condition c)

theorem Typed.sound (h : Typed columns stamp o) {f : SqlField} (hf : f ∈ o.terms) :
    f.Sound columns stamp (o.kind.sqlType stamp) := by
  cases h with
  | terms _ h => exact h f hf
  | condition _ => cases hf

theorem Typed.asCondition (h : Typed columns stamp o)
    (hc : Rules.asCondition (algebra stamp) o = .ok c) : c.Sound columns stamp := by
  cases o with
  | null =>
      cases hc
      exact SqlCondition.sound_literal none
  | scalar f =>
      cases hc
      exact SqlCondition.sound_field (h.sound (.head _))
  | condition d =>
      cases hc
      cases h with
      | terms hkind _ => exact absurd rfl hkind
      | condition h => exact h
  | _ => cases hc

theorem sqlType_eq_of_comparable {op : ComparisonOp} {j k : ValueKind}
    (h : Rules.Comparable op j k) (hj : j ≠ .null) (hk : k ≠ .null) :
    j.sqlType stamp = k.sqlType stamp := by
  obtain ⟨_, h⟩ := h
  cases j <;> cases k <;> first | rfl | exact absurd rfl hj | exact absurd rfl hk | cases h

theorem sound_crossing {left right : List SqlField} {type : Option SqlType}
    (hl : ∀ f ∈ left, f.Sound columns stamp type) (hr : ∀ f ∈ right, f.Sound columns stamp type)
    (h : Rules.Crossing (algebra stamp) left right c) : c.Sound columns stamp := by
  induction h with
  | compare rel ha hb => exact SqlCondition.sound_compare rel (hl _ ha) (hr _ hb)
  | flipped rel ha hb => exact SqlCondition.sound_compare rel (hr _ hb) (hl _ ha)
  | and _ _ ihc ihd => exact ihc.and ihd
  | or _ _ ihc ihd => exact ihc.or ihd
  | not _ ih => exact ih.not

theorem Typed.nullComparison (h : Typed columns stamp o) (op : ComparisonOp) :
    (Rules.nullComparison (algebra stamp) op o.terms.head?).Sound columns stamp := by
  cases hterm : o.terms.head? with
  | none => cases op <;> exact SqlCondition.sound_literal _
  | some f =>
      have hf := SqlCondition.sound_isNull (h.sound (List.mem_of_head? hterm))
      cases op with
      | equal => exact hf
      | notEqual => exact hf.not
      | _ => exact SqlCondition.sound_literal _

theorem Typed.compare {op : ComparisonOp} (hl : Typed columns stamp l) (hr : Typed columns stamp r)
    (hc : Rules.compare (algebra stamp) op l r = .ok c) : c.Sound columns stamp := by
  -- a missing value has no type to agree with; other kinds are compared under one type only
  by_cases hrnull : r.kind = .null
  · obtain rfl : r = .null := by cases r <;> first | rfl | cases hrnull
    rw [Rules.compare_null hc]
    exact hl.nullComparison op
  by_cases hlnull : l.kind = .null
  · obtain rfl : l = .null := by cases l <;> first | rfl | cases hlnull
    rw [Rules.null_compare hc]
    exact hr.nullComparison op
  · have htype : l.kind.sqlType stamp = r.kind.sqlType stamp :=
      sqlType_eq_of_comparable (Rules.compare_eq_ok_iff.1 ⟨c, hc⟩) hlnull hrnull
    exact sound_crossing (fun f hf => htype ▸ hl.sound hf) (fun f hf => hr.sound hf)
      (Rules.compare_crossing hlnull hrnull hc)

theorem Typed.negate (h : Typed columns stamp o)
    {o' : Operand SqlField SqlCondition} (ho : Rules.negate (algebra stamp) o = .ok o') :
    Typed columns stamp o' := by
  cases o with
  | null =>
      cases ho
      exact h
  | scalar f | duration f =>
      cases ho
      refine .terms nofun fun g hg => ?_
      cases List.mem_singleton.1 hg
      exact (h.sound (.head _)).negate (by simp [Operand.kind, ValueKind.sqlType])
  | _ => cases ho

theorem typed_scalar {f : SqlField} (h : f.Sound columns stamp none) :
    Typed columns stamp (.scalar f) :=
  .terms nofun (List.forall_mem_singleton.2 h)

theorem typed_instant {f : SqlField} (h : f.Sound columns stamp (some (.timestamp stamp))) :
    Typed columns stamp (.instant f) :=
  .terms nofun (List.forall_mem_singleton.2 h)

theorem typed_duration {f : SqlField} (h : f.Sound columns stamp (some .interval)) :
    Typed columns stamp (.duration f) :=
  .terms nofun (List.forall_mem_singleton.2 h)

theorem typed_interval {f g : SqlField} (hf : f.Sound columns stamp (some (.timestamp stamp)))
    (hg : g.Sound columns stamp (some (.timestamp stamp))) :
    Typed columns stamp (.interval f g) :=
  .terms nofun (List.forall_mem_cons.2 ⟨hf, List.forall_mem_singleton.2 hg⟩)

theorem typed_null : Typed columns stamp (.null : Operand SqlField SqlCondition) :=
  .terms nofun nofun

theorem Typed.arithmetic {op : ArithmeticOp} (hl : Typed columns stamp l)
    (hr : Typed columns stamp r) (ho : Rules.arithmetic (algebra stamp) op l r = .ok o) :
    Typed columns stamp o := by
  cases l with
  | null =>
      cases r with
      | condition _ => cases ho
      | _ =>
          cases ho
          exact typed_null
  | condition _ => cases ho
  | scalar a =>
      have ha := hl.sound (.head _)
      cases r with
      | null =>
          cases ho
          exact typed_null
      | scalar b =>
          cases ho
          exact typed_scalar (sound_numbers op ha (hr.sound (.head _)))
      | duration d =>
          cases op with
          | mul =>
              cases ho
              exact typed_duration (sound_scaled (.inl rfl) (hr.sound (.head _)) ha)
          | _ => cases ho
      | _ => cases ho
  | instant a =>
      have ha := hl.sound (.head _)
      cases r with
      | null =>
          cases ho
          exact typed_null
      | duration d =>
          have hd := hr.sound (.head _)
          cases op with
          | add =>
              cases ho
              exact typed_instant (sound_moved (.inl rfl) ha hd)
          | sub =>
              cases ho
              exact typed_instant (sound_moved (.inr rfl) ha hd)
          | _ => cases ho
      | instant b =>
          cases op with
          | sub =>
              cases ho
              exact typed_duration (sound_difference ha (hr.sound (.head _)))
          | _ => cases ho
      | _ => cases ho
  | duration a =>
      have ha := hl.sound (.head _)
      cases r with
      | null =>
          cases ho
          exact typed_null
      | duration d =>
          have hd := hr.sound (.head _)
          cases op with
          | add =>
              cases ho
              exact typed_duration (sound_intervals (.inl rfl) ha hd)
          | sub =>
              cases ho
              exact typed_duration (sound_intervals (.inr rfl) ha hd)
          | _ => cases ho
      | instant b =>
          cases op with
          | add =>
              cases ho
              exact typed_instant (sound_moved (.inl rfl) (hr.sound (.head _)) ha)
          | _ => cases ho
      | scalar b =>
          have hb := hr.sound (.head _)
          cases op with
          | mul =>
              cases ho
              exact typed_duration (sound_scaled (.inl rfl) ha hb)
          | div =>
              cases ho
              exact typed_duration (sound_scaled (.inr rfl) ha hb)
          | _ => cases ho
      | _ => cases ho
  | interval a b =>
      have ha := hl.sound (.head _)
      have hb := hl.sound (.tail _ (.head _))
      cases r with
      | null =>
          cases ho
          exact typed_null
      | duration d =>
          have hd := hr.sound (.head _)
          cases op with
          | add =>
              cases ho
              exact typed_interval (sound_moved (.inl rfl) ha hd) (sound_moved (.inl rfl) hb hd)
          | sub =>
              cases ho
              exact typed_interval (sound_moved (.inr rfl) ha hd) (sound_moved (.inr rfl) hb hd)
          | _ => cases ho
      | _ => cases ho

theorem typed_placeholder (stamp : TimestampType) (n : Nat) (k : Constant) :
    Typed columns stamp (placeholder stamp n k) := by
  have hscalar : SqlField.Native stamp none := nofun
  cases k with
  | null => exact typed_null
  | bool _ | integer _ | number _ | text _ => exact typed_scalar (SqlField.sound_param _ hscalar)
  | instant _ => exact typed_instant (SqlField.sound_param _ native_timestamp)
  | duration _ => exact typed_duration (SqlField.sound_param _ native_interval)
  | interval _ =>
      exact typed_interval (SqlField.sound_param _ native_timestamp)
        (SqlField.sound_param _ native_timestamp)

end Sql

def ColumnMapping.columnTypes (stamp : TimestampType) :
    ColumnMapping → List (String × Option SqlType)
  | scalar c => [(c, none)]
  | instant c => [(c, some (.timestamp stamp))]
  | duration c => [(c, some .interval)]
  | interval s e => [(s, some (.timestamp stamp)), (e, some (.timestamp stamp))]

namespace Sql

theorem typed_ofMapping {m : ColumnMapping}
    (h : ∀ x ∈ m.columnTypes stamp, columns x.1 x.2) : Typed columns stamp (ofMapping m) := by
  cases m with
  | scalar c => exact typed_scalar (SqlField.sound_column (h _ (.head _)))
  | instant c => exact typed_instant (SqlField.sound_column (h _ (.head _)))
  | duration c => exact typed_duration (SqlField.sound_column (h _ (.head _)))
  | interval s e =>
      exact typed_interval (SqlField.sound_column (h _ (.head _)))
        (SqlField.sound_column (h _ (.tail _ (.head _))))

namespace Table

variable {t : Table} {n : Nat} {e : Expression}

/-- A column has the type under which a path of the expression is mapped to it. -/
def ColumnHasType (t : Table) (e : Expression) (name : String) (type : Option SqlType) : Prop :=
  ∃ path ∈ e.paths, ∃ m, t.resolver t.entityType path = .ok m ∧
    (name, type) ∈ m.columnTypes t.timestampType

theorem typed_of_lowerAt {o : Operand SqlField SqlCondition} (ho : t.lowerAt n e = .ok o)
    (hcolumns : ∀ path ∈ e.paths, ∀ m, t.resolver t.entityType path = .ok m →
      ∀ x ∈ m.columnTypes t.timestampType, columns x.1 x.2) :
    Typed columns t.timestampType o := by
  induction e generalizing n o with
  | constant k =>
      cases ho
      exact typed_placeholder _ _ k
  | property path =>
      obtain ⟨m, hm, rfl⟩ := map_eq_ok.1 ho
      exact typed_ofMapping (hcolumns path (.head _) m hm)
  | negate e ih =>
      obtain ⟨a, ha, ho⟩ := bind_eq_ok.1 ho
      exact (ih ha hcolumns).negate ho
  | not e ih =>
      obtain ⟨a, ha, ho⟩ := bind_eq_ok.1 ho
      obtain ⟨c, hc, ho⟩ := bind_eq_ok.1 ho
      cases ho
      exact .condition ((ih ha hcolumns).asCondition hc).not
  | arithmetic op l r ihl ihr =>
      obtain ⟨a, ha, ho⟩ := bind_eq_ok.1 ho
      obtain ⟨b, hb, ho⟩ := bind_eq_ok.1 ho
      obtain ⟨hleft, hright⟩ := List.forall_mem_append.1 hcolumns
      exact (ihl ha hleft).arithmetic (ihr hb hright) ho
  | compare op l r ihl ihr =>
      obtain ⟨a, ha, ho⟩ := bind_eq_ok.1 ho
      obtain ⟨b, hb, ho⟩ := bind_eq_ok.1 ho
      obtain ⟨c, hc, ho⟩ := bind_eq_ok.1 ho
      cases ho
      obtain ⟨hleft, hright⟩ := List.forall_mem_append.1 hcolumns
      exact .condition ((ihl ha hleft).compare (ihr hb hright) hc)
  | logical op l r ihl ihr =>
      obtain ⟨a, ha, ho⟩ := bind_eq_ok.1 ho
      obtain ⟨c, hc, ho⟩ := bind_eq_ok.1 ho
      obtain ⟨b, hb, ho⟩ := bind_eq_ok.1 ho
      obtain ⟨d, hd, ho⟩ := bind_eq_ok.1 ho
      cases ho
      obtain ⟨hleft, hright⟩ := List.forall_mem_append.1 hcolumns
      have hc := (ihl ha hleft).asCondition hc
      have hd := (ihr hb hright).asCondition hd
      cases op with
      | and => exact .condition (hc.and hd)
      | or => exact .condition (hc.or hd)

/-- Compiled conditions are well typed and divide safely. -/
theorem compile_sound {c : CompiledFilter} (h : t.compile e = .ok c) :
    c.condition.Sound (t.ColumnHasType e) t.timestampType := by
  rw [compile_eq] at h
  obtain ⟨condition, hcondition, rfl⟩ := map_eq_ok.1 h
  obtain ⟨o, ho, hc⟩ := bind_eq_ok.1 hcondition
  exact (typed_of_lowerAt ho fun path hpath m hm x hx => ⟨path, hpath, m, hm, hx⟩).asCondition hc

/-- The length of an interval of timestamps is compared with a scaled duration, beside a
division. -/
theorem compile_sound_scaled :
    let length : Expression := .arithmetic .sub (.property (.single (.entity .resultTime)))
      (.constant (.instant (.utc ⟨0, 0, 0, by decide⟩)))
    let e : Expression :=
      (Expression.compare .lessThan length
        (.arithmetic .mul (.constant (.integer 2)) (.constant (.duration ⟨1000, by decide⟩)))).and
      (.equal (.arithmetic .div (.property (.single (.entity .result))) (.constant (.integer 0)))
        (.negate (.constant (.integer 1))))
    let t : Table := ⟨.observation, .withoutTimeZone, ColumnResolver.byName⟩
    ∃ c, t.compile e = .ok c ∧ c.condition.Sound (t.ColumnHasType e) .withoutTimeZone := by
  intro length e t
  obtain ⟨c, hc⟩ : ∃ c, t.compile e = .ok c := ⟨_, rfl⟩
  exact ⟨c, hc, compile_sound hc⟩

end Table

end Sql

end LiveFilter
