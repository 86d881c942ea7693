import LiveFilter.Proofs.Comparable
import LiveFilter.Proofs.Sql.MissingValues

/-! # Instants in the columns of an interval

A property that is declared as an interval may hold an instant, which then fills both columns. The
evaluator takes the rows for an instant, and the compiled condition those for an interval that
starts and stops with it. Only the order of the instant to the bounds of the other operand counts,
so that the rows can be laid side by side; they part at two places.
-/

namespace LiveFilter

open ColumnResolver (byName)
open Outcome (map_eq_ok)

theorem Instant.compare_swap (a b : Instant) : b.compare a = (a.compare b).swap :=
  Std.OrientedOrd.eq_swap (α := Int)

namespace Interval

/-- The instant starts the interval and does not end it. With bounds that are out of order, it lies
between them. -/
def StartsWith (i : Interval) (t : Instant) : Prop :=
  t.compare i.start = .eq ∧ t.compare i.stop = .lt ∨
    t.compare i.start = .lt ∧ t.compare i.stop ≠ .lt

def StopsWith (i : Interval) (t : Instant) : Prop :=
  t.compare i.start ≠ .lt ∧ t.compare i.stop = .eq

end Interval

/-- The comparison tells an instant from the interval that starts and stops with it. -/
inductive Instant.SetApart (t : Instant) : ComparisonOp → Expression → Expression → Prop
  | before {op : ComparisonOp} (hop : op = .lessThan ∨ op = .before) {i : Interval}
      (h : i.StartsWith t) (l : Expression) : SetApart t op l (.constant (.interval i))
  | contains {i : Interval} (h : i.StopsWith t) (r : Expression) :
      SetApart t .contains (.constant (.interval i)) r

namespace Live

theorem compare_instants (r : Relation) (a b : Instant) :
    compare r (.instant a) (.instant b) = .ofBool (r.holds (a.compare b)) := rfl

variable {op : ComparisonOp} {t u : Instant} {i : Interval} {v w : Truth} {k : Constant}

theorem intervalInstant_eq
    (hv : Rules.instantInstant algebra op (.instant t) (.instant u) = .ok v)
    (hw : Rules.intervalInstant algebra op (.instant t) (.instant t) (.instant u) = .ok w) :
    w = v := by
  simp only [Rules.instantInstant, Rules.intervalInstant, algebra, compare_instants] at hv hw
  generalize t.compare u = o at hv hw
  cases op <;> cases hv <;> cases hw <;> cases o <;> rfl

theorem instantInterval_eq
    (hv : Rules.instantInstant algebra op (.instant u) (.instant t) = .ok v)
    (hw : Rules.instantInterval algebra op (.instant u) (.instant t) (.instant t) = .ok w) :
    w = v := by
  simp only [Rules.instantInstant, Rules.instantInterval, algebra, compare_instants,
    Instant.compare_swap u t] at hv hw
  generalize u.compare t = o at hv hw
  cases op <;> cases hv <;> cases hw <;> cases o <;> rfl

theorem intervalInterval_left_iff
    (hv : Rules.instantInterval algebra op (.instant t) (.instant i.start) (.instant i.stop) =
      .ok v) :
    Rules.intervalInterval algebra op (.instant t) (.instant t) (.instant i.start)
      (.instant i.stop) = v ↔ ¬((op = .lessThan ∨ op = .before) ∧ i.StartsWith t) := by
  simp only [Rules.instantInterval, Rules.intervalInterval, algebra, compare_instants,
    Interval.StartsWith, Instant.compare_swap t] at hv ⊢
  generalize t.compare i.start = o at hv ⊢
  generalize t.compare i.stop = o' at hv ⊢
  cases op <;> cases hv <;> cases o <;> cases o' <;> decide

theorem intervalInterval_right_iff
    (hv : Rules.intervalInstant algebra op (.instant i.start) (.instant i.stop) (.instant t) =
      .ok v) :
    Rules.intervalInterval algebra op (.instant i.start) (.instant i.stop) (.instant t)
      (.instant t) = v ↔ ¬(op = .contains ∧ i.StopsWith t) := by
  simp only [Rules.intervalInstant, Rules.intervalInterval, algebra, compare_instants,
    Interval.StopsWith, Instant.compare_swap t] at hv ⊢
  generalize t.compare i.start = o at hv ⊢
  generalize t.compare i.stop = o' at hv ⊢
  cases op <;> cases hv <;> cases o <;> cases o' <;> decide

theorem compare_left_iff (hk : k.kind = .instant ∨ k.kind = .interval) (l : Expression)
    (hl : ∀ i, l ≠ .constant (.interval i))
    (hv : Rules.compare algebra op (.instant (.instant t)) (operand k.toValue) = .ok v)
    (hw : Rules.compare algebra op (.interval (.instant t) (.instant t)) (operand k.toValue) =
      .ok w) : w = v ↔ ¬t.SetApart op l (.constant k) := by
  have hv := Rules.compareKinds_of_compare hv
  have hw := Rules.compareKinds_of_compare hw
  cases k with
  | instant u =>
      refine iff_of_true (intervalInstant_eq hv hw) ?_
      intro h
      cases h with
      | contains h r => exact hl _ rfl
  | interval i =>
      cases hw
      refine (intervalInterval_left_iff hv).trans (not_congr ?_)
      constructor
      · rintro ⟨hop, h⟩
        exact .before hop h l
      · intro h
        cases h with
        | before hop h => exact ⟨hop, h⟩
        | contains h r => exact absurd rfl (hl _)
  | _ => obtain h | h := hk <;> cases h

theorem compare_right_iff (hk : k.kind = .instant ∨ k.kind = .interval) (r : Expression)
    (hr : ∀ i, r ≠ .constant (.interval i))
    (hv : Rules.compare algebra op (operand k.toValue) (.instant (.instant t)) = .ok v)
    (hw : Rules.compare algebra op (operand k.toValue) (.interval (.instant t) (.instant t)) =
      .ok w) : w = v ↔ ¬t.SetApart op (.constant k) r := by
  have hv := Rules.compareKinds_of_compare hv
  have hw := Rules.compareKinds_of_compare hw
  cases k with
  | instant u =>
      refine iff_of_true (instantInterval_eq hv hw) ?_
      intro h
      cases h with
      | before hop h l => exact hr _ rfl
  | interval i =>
      cases hw
      refine (intervalInterval_right_iff hv).trans (not_congr ?_)
      constructor
      · rintro ⟨rfl, h⟩
        exact .contains h r
      · intro h
        cases h with
        | before hop h l => exact absurd rfl (hr _)
        | contains h r => exact ⟨rfl, h⟩
  | _ => obtain h | h := hk <;> cases h

end Live

namespace Sql

variable {entity : Entity} {p : EntityProperty} {t : Instant} {op : ComparisonOp} {k : Constant}
  {l r : Expression} {args : List Value} {type : TimestampType} {n : Nat}

/-- The property has two columns, and the instant is in both of them. -/
def FillsColumns (entity : Entity) (p : EntityProperty) (t : Instant) : Prop :=
  ∃ start stop, byName entity.type (.single (.entity p)) = .ok (.interval start stop) ∧
    entity.row start = some (.instant t) ∧ entity.row stop = some (.instant t)

theorem fillsColumns_of_byName {m : ColumnMapping} (hp : p.valueKind = .interval)
    (ht : entity.get? p = some (.instant t))
    (hm : byName entity.type (.single (.entity p)) = .ok m) : FillsColumns entity p t := by
  have hstored : entity.storedValue (.single (.entity p)) = .instant t :=
    Entity.storedValue_single ht
  have hrow {column : String} {value : Value} (hcell : (column, value) ∈ m.cells (.instant t)) :
      entity.row column = some value := by
    apply Entity.row_of_byName hm
    rwa [hstored]
  obtain ⟨q, column, hq, _, rfl⟩ | ⟨link, column, hlink, _⟩ := ColumnResolver.byName_eq_ok hm
  · cases hq
    rw [hp] at hm hrow
    exact ⟨_, _, hm, hrow List.mem_cons_self, hrow (List.mem_cons_of_mem _ List.mem_cons_self)⟩
  · cases hlink

theorem related_columns (args : List Value) {o : Operand SqlField SqlCondition}
    (hp : p.valueKind = .interval)
    (ht : entity.get? p = some (.instant t))
    (ho : Table.lowerAt ⟨entity.type, type, byName⟩ n (.property (.single (.entity p))) = .ok o) :
    FillsColumns entity p t ∧ Operand.Related (Reads entity.row args) (Holds entity.row args) o
      (.interval (.instant t) (.instant t)) := by
  obtain ⟨m, hm, rfl⟩ := map_eq_ok.1 ho
  have hfills := fillsColumns_of_byName hp ht hm
  have ⟨start, stop, hm', hstart, hstop⟩ := hfills
  cases hm.symm.trans hm'
  exact ⟨hfills, .interval hstart hstop⟩

theorem operand_of_instant {o : Operand Value Truth} (ht : entity.get? p = some (.instant t))
    (ho : Live.lower entity (.property (.single (.entity p))) = .ok o) :
    o = .instant (.instant t) := by
  change (Live.property entity (.single (.entity p))).map Live.operand = .ok o at ho
  simp only [PropertyPath.single, Live.property, ht, Option.getD_some] at ho
  cases ho
  rfl

theorem exists_holds_compare {o q : Operand SqlField SqlCondition} {o' q' : Operand Value Truth}
    {row : String → Option Value} {c : SqlCondition}
    (ho : Operand.Related (Reads row args) (Holds row args) o o')
    (hq : Operand.Related (Reads row args) (Holds row args) q q')
    (hc : Rules.compare (algebra type) op o q = .ok c) :
    ∃ w, Rules.compare Live.algebra op o' q' = .ok w ∧ Holds row args c w := by
  have hcomparable := Rules.compare_eq_ok_iff.1 ⟨c, hc⟩
  rw [ho.kind_eq, hq.kind_eq] at hcomparable
  have hcompare : ∃ w, Rules.compare Live.algebra op o' q' = .ok w :=
    Rules.compare_eq_ok_iff.2 hcomparable
  obtain ⟨w, hw⟩ := hcompare
  exact ⟨w, hw, holds_of_related ho hq hc hw⟩

/-- An instant in the place of an interval, compared with an instant or interval literal: evaluation
and the compiled condition agree, unless the literal is an interval and the comparison tells the
instant from the interval that starts and stops with it. -/
theorem truth?_eq_evaluate_iff_of_instant {c : CompiledFilter} {v : Truth} (type : TimestampType)
    (hp : p.valueKind = .interval) (ht : entity.get? p = some (.instant t))
    (hk : k.kind = .instant ∨ k.kind = .interval)
    (hsides : l = .property (.single (.entity p)) ∧ r = .constant k ∨
      l = .constant k ∧ r = .property (.single (.entity p)))
    (hc : Table.compile ⟨entity.type, type, byName⟩ (.compare op l r) = .ok c)
    (hv : Live.evaluate entity (.compare op l r) = .ok v) :
    FillsColumns entity p t ∧
      ∃ w, c.condition.truth? entity.row (Expression.compare op l r).arguments = some w ∧
        (w = v ↔ ¬t.SetApart op l r) := by
  rw [Table.compile_eq] at hc
  obtain ⟨condition, hcondition, rfl⟩ := map_eq_ok.1 hc
  obtain ⟨o, q, ho, hq, hcondition⟩ := Rules.compare_eq_ok.1 hcondition
  obtain ⟨o', q', ho', hq', hv⟩ := Rules.compare_eq_ok.1 hv
  have hliteral : Operand.Related (Reads entity.row (k.arguments ++ []))
      (Holds entity.row (k.arguments ++ [])) (placeholder type 0 k) (Live.operand k.toValue) :=
    related_placeholder type (List.prefix_append k.arguments [])
  obtain ⟨rfl, rfl⟩ | ⟨rfl, rfl⟩ := hsides
  · obtain ⟨hfills, hcolumns⟩ := related_columns (k.arguments ++ []) hp ht ho
    obtain rfl := operand_of_instant ht ho'
    cases hq
    cases hq'
    obtain ⟨w, hw, hholds⟩ := exists_holds_compare hcolumns hliteral hcondition
    exact ⟨hfills, w, hholds, Live.compare_left_iff hk _ (fun _ h => by cases h) hv hw⟩
  · obtain ⟨hfills, hcolumns⟩ := related_columns (k.arguments ++ []) hp ht hq
    obtain rfl := operand_of_instant ht hq'
    cases ho
    cases ho'
    obtain ⟨w, hw, hholds⟩ := exists_holds_compare hliteral hcolumns hcondition
    exact ⟨hfills, w, hholds, Live.compare_right_iff hk _ (fun _ h => by cases h) hv hw⟩

/-- An interval that contains the instant, and does not stop with it. -/
theorem truth?_eq_evaluate_iff_of_instant_inside :
    let time (seconds : Nat) (h : Timestamp.Valid 0 seconds 0) : Instant := .utc ⟨0, seconds, 0, h⟩
    let i : Interval := ⟨time 0 (by decide), time 20 (by decide)⟩
    let t : Instant := time 10 (by decide)
    let entity : Entity := { Entity.empty .observation with
      properties := fun p => if p = .phenomenonTime then some (.instant t) else none }
    let own : Expression := .property (.single (.entity .phenomenonTime))
    let e : Expression := .compare .contains (.constant (.interval i)) own
    EntityProperty.valueKind .phenomenonTime = .interval ∧
      entity.get? .phenomenonTime = some (.instant t) ∧ Live.evaluate entity e = .ok .true ∧
      ∃ c, Table.compile ⟨entity.type, .withTimeZone, byName⟩ e = .ok c ∧
        FillsColumns entity .phenomenonTime t ∧
        ∃ w, c.condition.truth? entity.row e.arguments = some w ∧
          (w = .true ↔ ¬t.SetApart .contains (.constant (.interval i)) own) := by
  intro time i t entity own e
  have ht : entity.get? .phenomenonTime = some (.instant t) := rfl
  have hv : Live.evaluate entity e = .ok .true := by
    unfold e own entity i t time
    rfl
  refine ⟨rfl, ht, hv, _, rfl, ?_⟩
  exact truth?_eq_evaluate_iff_of_instant .withTimeZone rfl ht (.inr rfl) (.inr ⟨rfl, rfl⟩) rfl hv

/-- An observation at the instant with which the interval of the filter starts: the row matches,
but not the event. -/
theorem evaluate_ne_truth?_of_shared_start :
    let start : Instant := .utc ⟨18262, 0, 0, by decide⟩
    let stop : Instant := .utc ⟨18266, 0, 0, by decide⟩
    let entity : Entity := { Entity.empty .observation with
      properties := fun p => if p = .phenomenonTime then some (.instant start) else none }
    let e : Expression := .compare .before (.property (.single (.entity .phenomenonTime)))
      (.constant (.interval ⟨start, stop⟩))
    (⟨start, stop⟩ : Interval).Ordered ∧ FillsColumns entity .phenomenonTime start ∧
      Live.evaluate entity e = .ok .false ∧
      ∃ c, Table.compile ⟨entity.type, .withTimeZone, byName⟩ e = .ok c ∧
        c.condition.truth? entity.row e.arguments = some .true := by
  intro start stop entity e
  have hfills : FillsColumns entity .phenomenonTime start :=
    fillsColumns_of_byName rfl rfl rfl
  have hv : Live.evaluate entity e = .ok .false := by
    unfold e entity start stop
    rfl
  refine ⟨by decide, hfills, hv, _, rfl, ?_⟩
  unfold e entity start stop
  rfl

end Sql

end LiveFilter
