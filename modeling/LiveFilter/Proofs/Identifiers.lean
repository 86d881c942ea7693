import LiveFilter.Proofs.Evaluation

/-! # Filters on identifiers

An identifier is compared as it is: nothing rounds a number, and a number is not a text.
-/

namespace LiveFilter.Live

variable {entity : Entity} {path : PropertyPath} {i j : Id} {v : Value}

/-- Numbers are compared with all their bits, texts character by character, and a number is never
equal to a text. -/
theorem compare_ofId : compare .eq (.ofId i) (.ofId j) = .true ↔ i = j := by
  cases i with
  | long a =>
      cases j with
      | long b =>
          simp [compare, order, normalize, orderNormal, Value.ofId, Truth.ofBool, Relation.holds,
            Int64.toInt_inj]
      | text t => exact iff_of_false nofun nofun
  | text s =>
      cases j with
      | long b => exact iff_of_false nofun nofun
      | text t =>
          simp [compare, order, normalize, orderNormal, Value.ofId, Truth.ofBool, Relation.holds]

theorem operand_ofId (id : Id) : operand (.ofId id) = .scalar (.ofId id) := by
  cases id <;> rfl

theorem lower_property (h : property entity path = .ok v) :
    (backend entity).lower (.property path) = .ok (operand v) := by
  change (property entity path).map operand = _
  rw [h]
  rfl

theorem evaluate_equal (h : property entity path = .ok v) (c : Constant) :
    evaluate entity (.equal (.property path) (.constant c)) =
      Rules.compare algebra .equal (operand v) (operand c.toValue) :=
  evaluate_compare_of_lower (lower_property h) rfl .equal

theorem evaluate_equal_scalar {c : Constant} (h : property entity path = .ok (.ofId j))
    (hc : operand c.toValue = .scalar v) :
    evaluate entity (.equal (.property path) (.constant c)) = .ok (compare .eq (.ofId j) v) := by
  rw [evaluate_equal h, operand_ofId, hc]
  rfl

theorem evaluate_equal_ofId (h : property entity path = .ok (.ofId j)) :
    evaluate entity (.equal (.property path) (.constant (.ofId i))) =
      .ok (compare .eq (.ofId j) (.ofId i)) := by
  refine evaluate_equal_scalar h ?_
  cases i <;> rfl

theorem evaluate_equal_of_null (h : property entity path = .ok .null) :
    evaluate entity (.equal (.property path) (.constant (.ofId i))) = .ok .false := by
  rw [evaluate_equal h]
  cases i <;> rfl

theorem evaluate_own_id (entity : Entity) (i : Id) : ∃ truth,
    evaluate entity (.equal (.property (.single (.entity .id))) (.constant (.ofId i))) = .ok truth ∧
      (truth = .true ↔ entity.id = some i) := by
  have hproperty : property entity (.single (.entity .id)) =
      .ok ((entity.id.map Value.ofId).getD .null) := rfl
  cases hid : entity.id with
  | none =>
      rw [hid] at hproperty
      exact ⟨_, evaluate_equal_of_null hproperty, iff_of_false nofun nofun⟩
  | some j =>
      rw [hid] at hproperty
      refine ⟨_, evaluate_equal_ofId hproperty, ?_⟩
      rw [compare_ofId, Option.some_inj]

end LiveFilter.Live
