import LiveFilter.Proofs.Conditions

/-! # Kinds that compare

Whether a comparison has a rule is decided by the operator and the kinds of the two operands alone,
whatever the place of evaluation. To put null in the place of an operand takes no rule away.
-/

namespace LiveFilter

variable {τ κ : Type}

namespace Rules

/-- Operands of these kinds have a rule for the operator. -/
def Comparable (op : ComparisonOp) (left right : ValueKind) : Prop :=
  (op = .contains → left = .interval ∨ left = .null) ∧
    match left, right with
    | .boolean, _ | _, .boolean => False
    | .null, _ | _, .null => True
    | .instant, .instant | .instant, .interval | .interval, .instant | .interval, .interval => True
    | .duration, .duration | .scalar, .scalar => op.isIntervalRelation = false
    | _, _ => False

variable {alg : Algebra τ κ} {op : ComparisonOp} {left right : Operand τ κ}

theorem relation?_eq_some_iff : (∃ r, relation? op = some r) ↔ op.isIntervalRelation = false := by
  cases op <;> simp [relation?, ComparisonOp.isIntervalRelation]

theorem ordered_eq_ok_iff {kind : ValueKind} {a b : τ} :
    (∃ c, ordered alg op kind a b = .ok c) ↔ op.isIntervalRelation = false := by
  rw [← relation?_eq_some_iff]
  unfold ordered
  cases relation? op with
  | none => simp
  | some r => simp

theorem instantInstant_eq_ok {t u : τ} (hop : op ≠ .contains) :
    ∃ c, instantInstant alg op t u = .ok c := by
  cases op with
  | contains => exact absurd rfl hop
  | _ => exact ⟨_, rfl⟩

theorem instantInterval_eq_ok {t s e : τ} (hop : op ≠ .contains) :
    ∃ c, instantInterval alg op t s e = .ok c := by
  cases op with
  | contains => exact absurd rfl hop
  | _ => exact ⟨_, rfl⟩

theorem intervalInstant_eq_ok {s e t : τ} : ∃ c, intervalInstant alg op s e t = .ok c := by
  cases op <;> exact ⟨_, rfl⟩

theorem compareKinds_eq_ok (h : Comparable op left.kind right.kind) :
    ∃ c, compareKinds alg op left right = .ok c := by
  obtain ⟨hcontains, h⟩ := h
  have hop (hleft : left.kind = .instant) : op ≠ .contains := by
    rintro rfl
    obtain h | h := hcontains rfl <;> rw [hleft] at h <;> cases h
  cases left with
  | null => cases right <;> first | exact ⟨_, rfl⟩ | cases h
  | scalar a =>
      cases right with
      | null => exact ⟨_, rfl⟩
      | scalar b => exact ordered_eq_ok_iff.2 h
      | _ => cases h
  | instant t =>
      cases right with
      | null => exact ⟨_, rfl⟩
      | instant u => exact instantInstant_eq_ok (hop rfl)
      | interval s e => exact instantInterval_eq_ok (hop rfl)
      | _ => cases h
  | duration a =>
      cases right with
      | null => exact ⟨_, rfl⟩
      | duration b => exact ordered_eq_ok_iff.2 h
      | _ => cases h
  | interval s e =>
      cases right with
      | null => exact ⟨_, rfl⟩
      | instant t => exact intervalInstant_eq_ok
      | interval u v => exact ⟨_, rfl⟩
      | _ => cases h
  | condition c => cases right <;> cases h

theorem compare_eq_ok_iff :
    (∃ c, compare alg op left right = .ok c) ↔ Comparable op left.kind right.kind := by
  constructor
  · rintro ⟨c, h⟩
    have hcontains : op = .contains → left.kind = .interval ∨ left.kind = .null := by
      intro hop
      unfold compare at h
      split at h
      · cases h
      · rename_i hcheck
        by_cases hinterval : left.kind = .interval
        · exact .inl hinterval
        · exact .inr (Decidable.not_not.1 fun hnull => hcheck ⟨hop, hinterval, hnull⟩)
    refine ⟨hcontains, ?_⟩
    have h := compareKinds_of_compare h
    cases left with
    | null => cases right <;> trivial
    | scalar a =>
        cases right with
        | null => trivial
        | scalar b => exact ordered_eq_ok_iff.1 ⟨c, h⟩
        | _ => cases h
    | duration a =>
        cases right with
        | null => trivial
        | duration b => exact ordered_eq_ok_iff.1 ⟨c, h⟩
        | _ => cases h
    | instant t => cases right <;> trivial
    | interval s e => cases right <;> trivial
    | condition d => cases right <;> cases h
  · intro h
    obtain ⟨c, hc⟩ : ∃ c, compareKinds alg op left right = .ok c := compareKinds_eq_ok h
    refine ⟨c, ?_⟩
    unfold compare
    rw [if_neg, hc]
    rintro ⟨hop, hinterval, hnull⟩
    exact (h.1 hop).elim hinterval hnull

end Rules

namespace ValueKind

/-- The second kind is the first, or null in place of anything but a condition. -/
inductive Fades : ValueKind → ValueKind → Prop
  | refl (k : ValueKind) : Fades k k
  | null {k : ValueKind} (h : k ≠ .boolean) : Fades k .null

variable {o : Operand τ κ}

theorem Fades.eq_null (h : Fades .null o.kind) : o = .null := by
  generalize hk : o.kind = k at h
  cases h <;> cases o <;> first | rfl | cases hk

theorem Fades.eq_condition (h : Fades .boolean o.kind) : ∃ c, o = .condition c := by
  generalize hk : o.kind = k at h
  cases h with
  | refl => cases o <;> first | exact ⟨_, rfl⟩ | cases hk
  | null hne => exact absurd rfl hne

end ValueKind

namespace Rules.Comparable

open ValueKind (Fades)

variable {op : ComparisonOp} {j k j' k' : ValueKind}

theorem ne_boolean (h : Comparable op k k') : k ≠ .boolean ∧ k' ≠ .boolean := by
  obtain ⟨_, h⟩ := h
  constructor
  · rintro rfl
    exact h
  · rintro rfl
    cases k <;> exact h

theorem null_left (op : ComparisonOp) (h : k ≠ .boolean) : Comparable op .null k := by
  refine ⟨fun _ => .inr rfl, ?_⟩
  cases k <;> trivial

theorem null_right (h : Comparable op k k') : Comparable op k .null := by
  refine ⟨h.1, ?_⟩
  have hk := h.ne_boolean.1
  cases k <;> trivial

theorem fades (h : Comparable op k k') (hl : Fades k j) (hr : Fades k' j') :
    Comparable op j j' := by
  cases hl with
  | refl =>
      cases hr with
      | refl => exact h
      | null _ => exact h.null_right
  | null _ =>
      cases hr with
      | refl => exact null_left op h.ne_boolean.2
      | null _ => exact null_left op nofun

end Rules.Comparable

end LiveFilter
