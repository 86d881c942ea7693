import LiveFilter.Proofs.Identifiers
import LiveFilter.Proofs.Numeric.Whole

/-! # Identifiers that are set

An entity whose identifier is set to a value is found again by that value, or is left as it was. The
exceptions are whole numbers above `2 ^ 63` in size: the identifier becomes the greatest or the
least integer of 64 bits, and a filter that asks for the number that was set is false.
-/

namespace LiveFilter

open Binary64

attribute [local instance (high)] instPowNat

/-- A whole number farther from zero than every identifier is, also when the identifier is read as a
real. -/
def Value.Oversized : Value → Prop
  | .number (.finite x) => x.isWhole = true ∧ 2 ^ 63 < |x.value|
  | _ => False

instance : (v : Value) → Decidable v.Oversized
  | .number (.finite _) => inferInstanceAs (Decidable (_ ∧ _))
  | .null | .bool _ | .integer _ | .number .nan | .number (.infinite _) | .text _ | .instant _
  | .duration _ | .interval _ | .json _ => inferInstanceAs (Decidable False)

def Expression.ownId (c : Constant) : Expression :=
  .equal (.property (.single (.entity .id))) (.constant c)

/-- Setting the identifier to `v` does nothing, or it changes the identifier alone and the filter
that asks for `v` is true. -/
def Entity.SetsFaithfully (entity : Entity) (v : Value) : Prop :=
  entity.set .id v = entity ∨
    ∃ id c, entity.set .id v = entity.withId id ∧ c.toValue = v ∧
      Live.evaluate (entity.set .id v) (.ownId c) = .ok .true

variable {v : Value} {id : Id} {c : Constant} {x : Finite}

theorem Value.toId?_cases (h : v.toId? = some id) :
    v = .ofId id ∨ ∃ x : Finite, v = .number (.finite x) ∧ x.isWhole = true ∧
      id = .long (saturate x.truncate) := by
  cases v with
  | integer n =>
      cases h
      exact .inl rfl
  | text s =>
      cases h
      exact .inl rfl
  | number a =>
      cases a with
      | finite x =>
          by_cases hwhole : x.isWhole = true
          · rw [toId?, if_pos hwhole] at h
            cases h
            exact .inr ⟨x, rfl, hwhole, rfl⟩
          · rw [toId?, if_neg hwhole] at h
            cases h
      | _ => cases h
  | _ => cases h

theorem Value.exists_constant (h : v.toId? = some id) : ∃ c : Constant, c.toValue = v := by
  obtain rfl | ⟨x, rfl, -, -⟩ := toId?_cases h
  · exact ⟨.ofId id, by cases id <;> rfl⟩
  · exact ⟨.number (.finite x), rfl⟩

theorem Value.Oversized.toId?_isSome (h : v.Oversized) : v.toId?.isSome = true := by
  unfold Oversized at h
  split at h
  · rw [toId?, if_pos h.1]
    rfl
  · exact h.elim

theorem Value.oversized_iff (hwhole : x.isWhole = true) :
    (number (.finite x)).Oversized ↔ x.truncate < -2 ^ 63 ∨ 2 ^ 63 < x.truncate := by
  have hiff : (number (.finite x)).Oversized ↔ (2 : ℚ) ^ 63 < |x.value| := and_iff_right hwhole
  rw [hiff, Finite.value_eq_truncate hwhole, lt_abs, lt_neg, or_comm]
  exact_mod_cast Iff.rfl

theorem toInt_saturate_eq_value_iff (hwhole : x.isWhole = true) :
    ((saturate x.truncate).toInt : ℚ) = x.value ↔ -2 ^ 63 ≤ x.value ∧ x.value < 2 ^ 63 := by
  have hint : (saturate x.truncate).toInt = x.truncate ↔
      -2 ^ 63 ≤ x.truncate ∧ x.truncate < 2 ^ 63 := by
    rw [toInt_saturate]
    omega
  rw [Finite.value_eq_truncate hwhole, Int.cast_inj, hint]
  exact_mod_cast Iff.rfl

namespace Entity

theorem set_of_toId? (entity : Entity) (h : v.toId? = some id) :
    entity.set .id v = entity.withId id := by
  rw [set, if_pos rfl, h]

theorem set_of_toId?_eq_none (entity : Entity) (h : v.toId? = none) :
    entity.set .id v = entity := by
  rw [set, if_pos rfl, h]

theorem set_eq_self {entity : Entity} (h : entity.id = v.toId?) : entity.set .id v = entity := by
  cases hid : v.toId? with
  | none => exact entity.set_of_toId?_eq_none hid
  | some id => rw [entity.set_of_toId? hid, withId, ← hid, ← h]

end Entity

namespace Live

theorem operand_of_toId? (h : v.toId? = some id) : operand v = .scalar v := by
  obtain rfl | ⟨x, rfl, -, -⟩ := Value.toId?_cases h
  · exact operand_ofId id
  · rfl

theorem compare_of_order {a b : Value} {o : Ordering} (h : order a b = some o) (r : Relation) :
    compare r a b = .ofBool (r.holds o) := by
  rw [compare, h]

/-- An integer and a real are compared as reals, which takes a number that was cut off back to
`2 ^ 63` at most. -/
theorem compare_toId? (h : v.toId? = some id) :
    compare .eq (.ofId id) v = .ofBool (decide ¬ v.Oversized) := by
  obtain rfl | ⟨x, rfl, hwhole, rfl⟩ := Value.toId?_cases h
  · have hsize : ¬ (Value.ofId id).Oversized := by cases id <;> exact not_false
    rw [compare_ofId.2 rfl, decide_eq_true hsize]
    rfl
  · have hvalue := Finite.value_eq_truncate hwhole
    obtain ⟨o, horder, hequal⟩ := (ofInt_saturate ⟨x, hvalue⟩).compare_finite x
    have hnormal : order (.ofId (.long (saturate x.truncate))) (.number (.finite x)) = some o :=
      horder
    have hclamp : max (-2 ^ 63) (min x.truncate (2 ^ 63)) = x.truncate ↔
        ¬ (x.truncate < -2 ^ 63 ∨ 2 ^ 63 < x.truncate) := by omega
    rw [hvalue, Int.cast_inj, hclamp, ← Value.oversized_iff hwhole] at hequal
    have htruth : Relation.eq.holds o = decide ¬ (Value.number (.finite x)).Oversized := by
      rw [Relation.holds, Bool.eq_iff_iff, beq_iff_eq, hequal, decide_eq_true_iff]
    rw [compare_of_order hnormal, htruth]

theorem evaluate_set_id (entity : Entity) (h : v.toId? = some id) (hc : c.toValue = v) :
    evaluate (entity.set .id v) (.ownId c) = .ok (.ofBool (decide ¬ v.Oversized)) := by
  have hproperty : property (entity.withId id) (.single (.entity .id)) = .ok (.ofId id) := rfl
  have hoperand : operand c.toValue = .scalar v := by rw [hc, operand_of_toId? h]
  rw [entity.set_of_toId? h, Expression.ownId, evaluate_equal_scalar hproperty hoperand,
    compare_toId? h]

end Live

namespace Entity

theorem set_id_cases (entity : Entity) (v : Value) :
    entity.set .id v = entity ∨
      ∃ id c, entity.set .id v = entity.withId id ∧ c.toValue = v ∧
        Live.evaluate (entity.set .id v) (.ownId c) = .ok (.ofBool (decide ¬ v.Oversized)) := by
  cases hid : v.toId? with
  | none => exact .inl (entity.set_of_toId?_eq_none hid)
  | some id =>
      obtain ⟨c, hc⟩ := Value.exists_constant hid
      exact .inr ⟨id, c, entity.set_of_toId? hid, hc, Live.evaluate_set_id entity hid hc⟩

theorem not_setsFaithfully {entity : Entity} (h : v.Oversized) (hid : entity.id ≠ v.toId?) :
    ¬ entity.SetsFaithfully v := by
  obtain ⟨id, hsome⟩ := Option.isSome_iff_exists.1 h.toId?_isSome
  -- a constant is known from its value, so that the filter that is true is the one known to be false
  rintro (hself | ⟨_, c, -, hc, htrue⟩)
  · rw [entity.set_of_toId? hsome] at hself
    exact hid ((congrArg Entity.id hself).symm.trans hsome.symm)
  · rw [Live.evaluate_set_id entity hsome hc, decide_eq_false (not_not.2 h)] at htrue
    cases htrue

/-- The identifier that is set is a faithful one unless the value is a whole number above `2 ^ 63`
in size, which is cut off; the filter that asks for it is then false, unless nothing was set at all.
The identifier is the very number only below `2 ^ 63`, which itself is found again as a real. -/
theorem setsFaithfully_iff (entity : Entity) (v : Value) :
    (entity.SetsFaithfully v ↔ ¬ v.Oversized ∨ entity.id = v.toId?) ∧
    (entity.set .id v = entity ∨
      ∃ id c, entity.set .id v = entity.withId id ∧ c.toValue = v ∧
        Live.evaluate (entity.set .id v) (.ownId c) = .ok (.ofBool (decide ¬ v.Oversized))) ∧
    ∀ x n, v = .number (.finite x) → v.toId? = some (.long n) →
      ((n.toInt : ℚ) = x.value ↔ -2 ^ 63 ≤ x.value ∧ x.value < 2 ^ 63) := by
  refine ⟨⟨fun h => ?_, ?_⟩, entity.set_id_cases v, ?_⟩
  · by_contra hnot
    obtain ⟨hsize, hid⟩ := not_or.1 hnot
    exact not_setsFaithfully (not_not.1 hsize) hid h
  · rintro (hsize | hself)
    · refine (entity.set_id_cases v).imp_right ?_
      rintro ⟨id, c, hset, hc, htruth⟩
      rw [decide_eq_true hsize] at htruth
      exact ⟨id, c, hset, hc, htruth⟩
    · exact .inl (set_eq_self hself)
  · rintro x n rfl hid
    obtain hv | ⟨_, hv, hwhole, hn⟩ := Value.toId?_cases hid
    · cases hv
    · cases hv
      cases hn
      exact toInt_saturate_eq_value_iff hwhole

/-- The greatest real below `2 ^ 63`, and `2 ^ 63` itself, for which the identifier is one less. -/
theorem setsFaithfully_iff_boundary :
    let below : Finite := ⟨false, 2 ^ 53 - 1, 10, by decide⟩
    let limit : Finite := ⟨false, 2 ^ 52, 11, by decide⟩
    let entity := (Entity.empty .thing).withId (.long 7)
    (below.value = 2 ^ 63 - 1024 ∧ entity.SetsFaithfully (.number (.finite below)) ∧
      Value.toId? (.number (.finite below)) = some (.long 9223372036854774784) ∧
      ((9223372036854774784 : Int64).toInt : ℚ) = below.value) ∧
    (limit.value = 2 ^ 63 ∧ entity.SetsFaithfully (.number (.finite limit)) ∧
      Value.toId? (.number (.finite limit)) = some (.long Int64.maxValue) ∧
      (Int64.maxValue.toInt : ℚ) ≠ limit.value) := by
  intro below limit entity
  have hbelow : below.value = 2 ^ 63 - 1024 := by
    norm_num [below, Finite.value, Finite.magnitude]
  have hlimit : limit.value = 2 ^ 63 := by
    norm_num [limit, Finite.value, Finite.magnitude]
  have hbelowId : Value.toId? (.number (.finite below)) = some (.long 9223372036854774784) := by
    decide +kernel
  have hlimitId : Value.toId? (.number (.finite limit)) = some (.long Int64.maxValue) := by
    decide +kernel
  obtain ⟨hfaithful, -, hexact⟩ := setsFaithfully_iff entity (.number (.finite below))
  obtain ⟨hfaithful', -, hexact'⟩ := setsFaithfully_iff entity (.number (.finite limit))
  refine ⟨⟨hbelow, hfaithful.2 (.inl ?_), hbelowId, (hexact below _ rfl hbelowId).2 ?_⟩,
    hlimit, hfaithful'.2 (.inl ?_), hlimitId, fun h => ?_⟩
  · rintro ⟨-, hsize⟩
    rw [hbelow] at hsize
    norm_num [abs_lt] at hsize
  · rw [hbelow]
    norm_num
  · rintro ⟨-, hsize⟩
    rw [hlimit] at hsize
    norm_num at hsize
  · have hlt := ((hexact' limit _ rfl hlimitId).1 h).2
    exact hlt.ne hlimit

/-- The number `2 ^ 64` replaces the identifier by one that it is not equal to. -/
theorem set_id_cuts_off_large :
    let large : Finite := ⟨false, 2 ^ 52, 12, by decide⟩
    let v : Value := .number (.finite large)
    let entity := (Entity.empty .thing).withId (.long 7)
    large.value = 2 ^ 64 ∧ entity.set .id v = entity.withId (.long Int64.maxValue) ∧
      Live.evaluate (entity.set .id v) (.ownId (.number (.finite large))) = .ok .false ∧
      ¬ entity.SetsFaithfully v := by
  intro large v entity
  have hlarge : large.value = 2 ^ 64 := by
    norm_num [large, Finite.value, Finite.magnitude]
  have hid : v.toId? = some (.long Int64.maxValue) := by decide +kernel
  have hsize : v.Oversized := by
    refine ⟨by decide +kernel, ?_⟩
    rw [hlarge]
    norm_num
  have hfalse := Live.evaluate_set_id (c := .number (.finite large)) entity hid rfl
  rw [decide_eq_false (not_not.2 hsize)] at hfalse
  refine ⟨hlarge, entity.set_of_toId? hid, hfalse, not_setsFaithfully hsize ?_⟩
  rw [hid]
  decide

end Entity

end LiveFilter
