import LiveFilter.Proofs.Evaluation
import LiveFilter.Proofs.Simulation
import LiveFilter.Proofs.Sql.Numbering

/-! # Contains without an interval

To ask what an operand contains that is not an interval is an error, which names the operator and
both kinds. Null alone is let through: what it contains is unknown, as every comparison with null
is, and only a condition on the right is still an error.
-/

namespace LiveFilter

open Outcome (Alike Lifting map_eq_ok)

namespace Rules

variable {τ κ : Type} {alg : Algebra τ κ} {left right : Operand τ κ}

/-- The error for an operand that is not an interval. Null gets as far as the rows of kinds, where
only conditions are missing. -/
def containsFault (left right : ValueKind) : FilterError :=
  .unsupported "c" left right
    (if left = .null then "can not compare between null and boolean"
    else "first parameter of contains must be an interval")

theorem compare_contains_eq_error (hleft : left.kind ≠ .interval)
    (hright : left.kind = .null → right.kind = .boolean) :
    compare alg .contains left right = .error (containsFault left.kind right.kind) := by
  cases left with
  | null =>
      cases right with
      | condition d => rfl
      | _ => cases hright rfl
  | interval s e => exact absurd rfl hleft
  | _ => rfl

theorem compare_contains_null (hleft : left.kind = .null) (hright : right.kind ≠ .boolean) :
    compare alg .contains left right = .ok (alg.literal none) := by
  cases left with
  | null =>
      cases right with
      | condition d => exact absurd rfl hright
      | _ => rfl
  | _ => cases hleft

end Rules

namespace Sql

/-- Terms and conditions that may be any. -/
abbrev SameKind : Operand SqlField SqlCondition → Operand SqlField SqlCondition → Prop :=
  Operand.Related (fun _ _ => True) (fun _ _ => True)

theorem algebra_total (type : TimestampType) :
    (algebra type).Simulates (.alike Eq fun _ => rfl) (algebra type) (fun _ _ => True)
      (fun _ _ => True) where
  compare _ _ _ _ _ _ _ := trivial
  isNull _ := trivial
  literal _ := trivial
  and _ _ := trivial
  or _ _ := trivial
  not _ := trivial
  truthy _ := .ok trivial
  arithmetic _ _ _ _ _ _ _ _ := .ok trivial
  negate _ := .ok trivial

namespace Table

/-- What was bound before has no part in the kind of an operand, nor in whether there is one. -/
theorem lowerAt_alike (t : Table) (e : Expression) (n m : Nat) :
    Alike Eq SameKind (t.lowerAt n e) (t.lowerAt m e) := by
  have hsim := algebra_total t.timestampType
  induction e generalizing n m with
  | constant c =>
      apply Alike.ok
      cases c with
      | null => exact .null
      | instant i => exact .instant trivial
      | duration d => exact .duration trivial
      | interval i => exact .interval trivial trivial
      | _ => exact .scalar trivial
  | property path =>
      exact Alike.refl (fun _ => rfl) (Operand.Related.refl (fun _ => trivial) fun _ => trivial) _
  | negate e ih => exact (ih n m).bind fun _ _ => hsim.negate_lifts
  | not e ih =>
      exact (ih n m).bind fun _ _ ho =>
        (hsim.asCondition_lifts ho).bind fun _ _ _ => .ok (.condition trivial)
  | arithmetic op l r ihl ihr =>
      exact (ihl n m).bind fun _ _ ho => (ihr _ _).bind fun _ _ => hsim.arithmetic_lifts op ho
  | compare op l r ihl ihr =>
      exact (ihl n m).bind fun _ _ ho => (ihr _ _).bind fun _ _ ho' =>
        (hsim.compare_lifts op ho ho').bind fun _ _ _ => .ok (.condition trivial)
  | logical op l r ihl ihr =>
      exact (ihl n m).bind fun _ _ ho => (hsim.asCondition_lifts ho).bind fun _ _ _ =>
        (ihr _ _).bind fun _ _ ho' => (hsim.asCondition_lifts ho').bind fun _ _ _ =>
          .ok (.condition trivial)

variable {t : Table} {e : Expression} {o : Operand SqlField SqlCondition} {ps qs : List SqlParam}

theorem exists_lowerAt_of_run (h : (t.backend.lower e).run ps = .ok (o, qs)) (n : Nat) :
    ∃ o', t.lowerAt n e = .ok o' ∧ o'.kind = o.kind := by
  have hbinds : (t.lowerAt ps.length e).map (fun o => (o, ps ++ e.params t.timestampType)) =
      .ok (o, qs) := (t.binds_lower e ps).symm.trans h
  obtain ⟨_, ho, hpair⟩ := map_eq_ok.1 hbinds
  cases hpair
  have halike := t.lowerAt_alike e n ps.length
  rw [ho] at halike
  generalize t.lowerAt n e = x at halike ⊢
  cases halike with
  | ok hrelated => exact ⟨_, rfl, hrelated.kind_eq⟩

theorem lowerAt_compare {n : Nat} {l r : Expression} {left right : Operand SqlField SqlCondition}
    (hl : t.lowerAt n l = .ok left) (hr : t.lowerAt (n + l.arguments.length) r = .ok right)
    (op : ComparisonOp) : t.lowerAt n (.compare op l r) =
      (Rules.compare (algebra t.timestampType) op left right).map .condition := by
  rw [lowerAt, hl, hr]
  change (Rules.compare _ op left right >>= fun c => Except.ok (Operand.condition c)) = _
  cases Rules.compare (algebra t.timestampType) op left right <;> rfl

variable {x : Except FilterError SqlCondition}

theorem run_of_lowerAt (h : t.lowerAt ps.length e = x.map .condition) :
    (t.backend.lower e).run ps = x.map fun c => (.condition c, ps ++ e.params t.timestampType) := by
  refine (t.binds_lower e ps).trans ?_
  rw [h]
  cases x <;> rfl

theorem compile_of_lowerAt (h : t.lowerAt 0 e = x.map .condition) :
    t.compile e = x.map fun c => ⟨c, e.params t.timestampType⟩ := by
  rw [t.compile_eq, conditionAt, h]
  cases x <;> rfl

end Table

end Sql

/-- What `contains` comes to when its left operand is not an interval: an error in memory and in the
store, whatever the right operand is, but unknown for null and anything but a condition. -/
theorem contains_without_interval (l r : Expression) :
    (∀ (entity : Entity) (left right : Operand Value Truth),
      Live.lower entity l = .ok left → Live.lower entity r = .ok right → left.kind ≠ .interval →
        ((left.kind = .null → right.kind = .boolean) →
          Live.lower entity (.compare .contains l r) =
              .error (Rules.containsFault left.kind right.kind) ∧
            Live.evaluate entity (.compare .contains l r) =
              .error (Rules.containsFault left.kind right.kind)) ∧
        (left.kind = .null → right.kind ≠ .boolean →
          Live.lower entity (.compare .contains l r) = .ok (.condition .unknown) ∧
            Live.evaluate entity (.compare .contains l r) = .ok .unknown)) ∧
    ∀ (t : Sql.Table) (ps ps' qs qs' : List SqlParam) (left right : Operand SqlField SqlCondition),
      (t.backend.lower l).run ps = .ok (left, ps') →
      (t.backend.lower r).run qs = .ok (right, qs') → left.kind ≠ .interval →
        ((left.kind = .null → right.kind = .boolean) →
          (∀ params, (t.backend.lower (.compare .contains l r)).run params =
              .error (Rules.containsFault left.kind right.kind)) ∧
            t.compile (.compare .contains l r) =
              .error (Rules.containsFault left.kind right.kind)) ∧
        (left.kind = .null → right.kind ≠ .boolean →
          (∀ params, ∃ params', (t.backend.lower (.compare .contains l r)).run params =
              .ok (.condition (.literal none), params')) ∧
            ∃ params, t.compile (.compare .contains l r) = .ok ⟨.literal none, params⟩) := by
  constructor
  · intro entity left right hl hr hleft
    rw [Live.lower_compare_of_lower hl hr, Live.evaluate_compare_of_lower hl hr]
    constructor
    · intro hright
      rw [Rules.compare_contains_eq_error hleft hright]
      exact ⟨rfl, rfl⟩
    · intro hnull hright
      rw [Rules.compare_contains_null hnull hright]
      exact ⟨rfl, rfl⟩
  · intro t ps ps' qs qs' left right hl hr hleft
    -- other parameters may have been bound by then than in `hl` and `hr`
    have hlower (n : Nat) : ∃ left' right', left'.kind = left.kind ∧ right'.kind = right.kind ∧
        t.lowerAt n (.compare .contains l r) =
          (Rules.compare (Sql.algebra t.timestampType) .contains left' right').map .condition := by
      obtain ⟨left', hl', hkind⟩ := Sql.Table.exists_lowerAt_of_run hl n
      obtain ⟨right', hr', hkind'⟩ := Sql.Table.exists_lowerAt_of_run hr (n + l.arguments.length)
      exact ⟨left', right', hkind, hkind', Sql.Table.lowerAt_compare hl' hr' _⟩
    constructor
    · intro hright
      have herror (n : Nat) : t.lowerAt n (.compare .contains l r) =
          (Except.error (Rules.containsFault left.kind right.kind)).map .condition := by
        obtain ⟨left', right', hkind, hkind', h⟩ := hlower n
        rw [h, Rules.compare_contains_eq_error (by rwa [hkind]) (by rwa [hkind, hkind']), hkind,
          hkind']
      exact ⟨fun params => Sql.Table.run_of_lowerAt (herror params.length),
        Sql.Table.compile_of_lowerAt (herror 0)⟩
    · intro hnull hright
      have hunknown (n : Nat) : t.lowerAt n (.compare .contains l r) =
          (Except.ok (SqlCondition.literal none)).map .condition := by
        obtain ⟨left', right', hkind, hkind', h⟩ := hlower n
        rw [h, Rules.compare_contains_null (by rwa [hkind]) (by rwa [hkind'])]
        rfl
      exact ⟨fun params => ⟨_, Sql.Table.run_of_lowerAt (hunknown params.length)⟩,
        _, Sql.Table.compile_of_lowerAt (hunknown 0)⟩

/-- A moved instant is asked for an interval, and null for the outcome of a comparison and for an
interval. -/
theorem contains_without_interval_observation :
    let start : Instant := .utc ⟨0, 0, 0, by decide⟩
    let entity := (Entity.empty .observation).set .resultTime (.instant start)
    let table := Sql.Table.ofType .observation
    let moved : Expression := .arithmetic .sub (.property (.single (.entity .resultTime)))
      (.constant (.duration ⟨1000, by decide⟩))
    let span : Expression := .constant (.interval ⟨start, .utc ⟨2, 0, 0, by decide⟩⟩)
    let compared : Expression := .equal span span
    let null : Expression := .constant .null
    (∃ left right, Live.lower entity moved = .ok left ∧ Live.lower entity span = .ok right ∧
      left.kind = .instant ∧ right.kind = .interval ∧
      Live.lower entity (.compare .contains moved span) =
        .error (.unsupported "c" .instant .interval
          "first parameter of contains must be an interval")) ∧
    (∃ left right, Live.lower entity null = .ok left ∧ Live.lower entity compared = .ok right ∧
      left.kind = .null ∧ right.kind = .boolean ∧
      Live.evaluate entity (.compare .contains null compared) =
        .error (.unsupported "c" .null .boolean "can not compare between null and boolean")) ∧
    ∃ left right ps qs, (table.backend.lower null).run [] = .ok (left, ps) ∧
      (table.backend.lower span).run [] = .ok (right, qs) ∧
      left.kind = .null ∧ right.kind = .interval ∧
      ∃ params, table.compile (.compare .contains null span) = .ok ⟨.literal none, params⟩ := by
  intro start entity table moved span compared null
  obtain ⟨left, hleft, hkind⟩ : ∃ left, Live.lower entity moved = .ok left ∧
      left.kind = .instant := by
    unfold moved entity start
    exact ⟨_, rfl, rfl⟩
  refine ⟨⟨left, _, hleft, rfl, hkind, rfl, ?_⟩, ⟨_, _, rfl, rfl, rfl, rfl, ?_⟩,
    _, _, _, _, rfl, rfl, rfl, rfl, ?_⟩
  · obtain ⟨hrefused, -⟩ :=
      (contains_without_interval moved span).1 entity left _ hleft rfl (by rw [hkind]; decide)
    rw [(hrefused (by rw [hkind]; exact nofun)).1, hkind]
    rfl
  · obtain ⟨hrefused, -⟩ :=
      (contains_without_interval null compared).1 entity _ _ rfl rfl (by decide)
    exact (hrefused fun _ => rfl).2
  · obtain ⟨-, hunknown⟩ :=
      (contains_without_interval null span).2 table [] _ [] _ _ _ rfl rfl (by decide)
    exact (hunknown rfl (by decide)).2

/-- Null is not an interval, and yet it is not an error to ask what it contains. -/
theorem contains_of_null_is_unknown :
    let span : Expression :=
      .constant (.interval ⟨.utc ⟨0, 0, 0, by decide⟩, .utc ⟨2, 0, 0, by decide⟩⟩)
    let e : Expression := .compare .contains (.constant .null) span
    let entity := Entity.empty .observation
    Live.lower entity (.constant .null) = .ok .null ∧
      (Operand.null : Operand Value Truth).kind ≠ .interval ∧
      Live.evaluate entity e = .ok .unknown ∧ Live.isSatisfied entity e = .ok false ∧
      ∃ f, (Sql.Table.ofType .observation).compile e = .ok f ∧ f.sql = "NULL" :=
  ⟨rfl, nofun, rfl, rfl, _, rfl, rfl⟩

end LiveFilter
