import LiveFilter.Live.Evaluator
import LiveFilter.Proofs.Simulation

/-! # Scalars in JSON

An entity may hold a scalar natively or as a JSON value. Operands carry values as they are stored,
and every primitive looks through the JSON for itself. Nothing tells how a scalar is stored but the
kinds that the error of a computation names.
-/

namespace LiveFilter

open Outcome (Alike Lifting)

/-- A value that JSON has a scalar for, which is the one in payloads. -/
inductive Value.Wrappable : Value → Prop
  | null : Wrappable .null
  | bool (b : Bool) : Wrappable (.bool b)
  | integer (n : Int64) : Wrappable (.integer n)
  | number (x : Binary64.Finite) : Wrappable (.number (.finite x))
  | text (s : String) : Wrappable (.text s)

/-- Values that are equal but for a scalar that one of them has in JSON. -/
inductive Value.SameContent : Value → Value → Prop
  | refl (v : Value) : SameContent v v
  | wrapped {v : Value} (h : v.Wrappable) : SameContent v (.json v.toJson)
  | unwrapped {v : Value} (h : v.Wrappable) : SameContent (.json v.toJson) v

structure Entity.SameContent (a b : Entity) : Prop where
  type_eq : a.type = b.type
  id_eq : a.id = b.id
  links_eq : a.links = b.links
  properties (p : EntityProperty) : Option.Rel Value.SameContent (a.properties p) (b.properties p)

/-- Errors that are equal but for the kinds of the operands of a computation. -/
inductive FilterError.SameButKinds : FilterError → FilterError → Prop
  | refl (err : FilterError) : SameButKinds err err
  | invalidArithmetic (op : String) (l r l' r' : ValueKind) :
      SameButKinds (.invalidArithmetic op l r) (.invalidArithmetic op l' r')

theorem FilterError.SameButKinds.ctorIdx_eq {err err' : FilterError} (h : err.SameButKinds err') :
    err.ctorIdx = err'.ctorIdx := by
  cases h <;> rfl

theorem Json.Number.toInt64?_ofInt64 (n : Int64) : (ofInt64 n).toInt64? = some n := by
  have hn : n.toInt < 2 ^ 63 := n.toInt_lt
  rw [ofInt64, toInt64?, if_pos hn, Int64.ofInt_toInt]

namespace Live

variable {v w : Value}

def SameNormal (v w : Value) : Prop := normalize v = normalize w

theorem SameNormal.refl (v : Value) : SameNormal v v := Eq.refl (normalize v)

theorem SameNormal.symm (h : SameNormal v w) : SameNormal w v := Eq.symm h

theorem sameNormal_toJson (h : v.Wrappable) : SameNormal v (.json v.toJson) := by
  cases h with
  | integer n => simp only [SameNormal, Value.toJson, normalize, Json.Number.toInt64?_ofInt64]
  | _ => rfl

theorem operand_toJson (h : v.Wrappable) :
    Operand.Related SameNormal Eq (operand v) (operand (.json v.toJson)) := by
  have hv := sameNormal_toJson h
  cases h with
  | null => exact .null
  | _ => exact .scalar hv

theorem operand_of_sameContent (h : v.SameContent w) :
    Operand.Related SameNormal Eq (operand v) (operand w) := by
  cases h with
  | refl => exact .refl .refl Eq.refl _
  | wrapped hv => exact operand_toJson hv
  | unwrapped hv => exact (operand_toJson hv).symm (fun _ _ => .symm) fun _ _ => .symm

section

variable {a b a' b' : Value} (ha : SameNormal a a')

include ha

theorem compare_of_sameNormal (r : Relation) (hb : SameNormal b b') :
    compare r a b = compare r a' b' := by
  unfold SameNormal at ha hb
  rw [compare, compare, order, order, ha, hb]

theorem isNull_of_sameNormal : isNull a = isNull a' := by
  unfold SameNormal at ha
  rw [isNull, isNull, ha]

theorem truthy_of_sameNormal : truthy a = truthy a' := by
  unfold SameNormal at ha
  rw [truthy, truthy, ha]

theorem negate_of_sameNormal : negate a = negate a' := by
  unfold SameNormal at ha
  rw [negate, negate, ha]

/-- The one primitive whose error names the kinds of the values as they are stored. -/
theorem arithmetic_alike (op : ArithmeticOp) (shape : ArithmeticShape) (hb : SameNormal b b') :
    Alike FilterError.SameButKinds SameNormal (arithmetic op shape a b)
      (arithmetic op shape a' b') := by
  unfold SameNormal at ha hb
  simp only [arithmetic, ha, hb]
  split
  · exact .ok rfl
  · cases operate? op shape (widen (normalize a')) (widen (normalize b')) with
    | none => exact .error (.invalidArithmetic ..)
    | some v => exact .ok rfl

end

theorem algebra_alike :
    algebra.Simulates (.alike FilterError.SameButKinds .refl) algebra SameNormal Eq where
  compare r _ _ _ _ ha hb := compare_of_sameNormal ha r hb
  isNull ha := isNull_of_sameNormal ha
  literal _ := rfl
  and hc hd := hc ▸ hd ▸ rfl
  or hc hd := hc ▸ hd ▸ rfl
  not hc := hc ▸ rfl
  truthy {a a'} ha := by
    change Alike _ _ (truthy a) (truthy a')
    rw [truthy_of_sameNormal ha]
    exact .refl .refl Eq.refl _
  arithmetic op shape _ _ _ _ ha hb := arithmetic_alike ha op shape hb
  negate {a a'} ha := by
    change Alike _ _ (negate a) (negate a')
    rw [negate_of_sameNormal ha]
    exact .refl .refl .refl _

variable {a b : Entity}

theorem get?_of_sameContent (h : a.SameContent b) (p : EntityProperty) :
    Value.SameContent ((a.get? p).getD .null) ((b.get? p).getD .null) := by
  unfold Entity.get?
  split
  · rw [h.id_eq]
    exact .refl _
  · have hp := h.properties p
    generalize a.properties p = x at hp
    generalize b.properties p = y at hp
    cases hp with
    | none => exact .refl _
    | some hvalue => exact hvalue

theorem property_alike (h : a.SameContent b) (path : PropertyPath) :
    Alike FilterError.SameButKinds Value.SameContent (property a path) (property b path) := by
  unfold property
  split
  · exact .ok (get?_of_sameContent h _)
  · rw [h.links_eq]
    exact .refl .refl .refl _
  · exact .error (.refl _)

theorem evaluate_alike (h : a.SameContent b) (e : Expression) :
    Alike FilterError.SameButKinds Eq (evaluate a e) (evaluate b e) := by
  let L : Lifting FilterError := .alike FilterError.SameButKinds .refl
  refine Backend.lowerCondition_lifts (L := L) algebra_alike (fun c => ?_) (fun path => ?_) e
  · exact .ok (.refl .refl Eq.refl _)
  · exact L.map (property_alike h path) fun _ _ => operand_of_sameContent

/-- Entities that differ only in which scalars are in JSON give every filter the same truth, or the
same error up to the kinds of the operands of a computation, and so one of the same variant. -/
theorem evaluate_of_sameContent (h : a.SameContent b) (e : Expression) :
    (∃ t, evaluate a e = .ok t ∧ evaluate b e = .ok t) ∨
    ∃ err err', evaluate a e = .error err ∧ evaluate b e = .error err' ∧
      err.ctorIdx = err'.ctorIdx ∧ err.SameButKinds err' := by
  have halike := evaluate_alike h e
  generalize evaluate a e = x at halike
  generalize evaluate b e = y at halike
  cases halike with
  | ok ht => exact .inl ⟨_, rfl, ht ▸ rfl⟩
  | error herr => exact .inr ⟨_, _, rfl, rfl, herr.ctorIdx_eq, herr⟩

/-- A truth value in JSON on the one side and a number in JSON on the other. Addition to the truth
value fails on both, with different kinds. -/
theorem evaluate_of_sameContent_crossed :
    let observation (result quality : Value) : Entity := { Entity.empty .observation with
      properties := fun p =>
        if p = .result then some result else if p = .resultQuality then some quality else none }
    let a := observation (.bool true) (.json (.number (.ofInt64 5)))
    let b := observation (.json (.bool true)) (.integer 5)
    let result : Expression := .property (.single (.entity .result))
    let quality : Expression := .property (.single (.entity .resultQuality))
    let e := result.and (.equal quality (.constant (.integer 5)))
    let f := Expression.equal (.arithmetic .add result (.constant (.integer 1))) quality
    a.SameContent b ∧ evaluate a e = .ok .true ∧ evaluate b e = .ok .true ∧
      evaluate a f = .error (.invalidArithmetic "+" .boolean .scalar) ∧
      (∃ l r, evaluate b f = .error (.invalidArithmetic "+" l r)) ∧ evaluate b f ≠ evaluate a f := by
  intro observation a b result quality e f
  have hab : a.SameContent b := by
    refine ⟨rfl, rfl, rfl, fun p => ?_⟩
    dsimp only [a, b, observation]
    split
    · exact .some (.wrapped (.bool true))
    · split
      · exact .some (.unwrapped (.integer 5))
      · exact .none
  have he : evaluate a e = .ok .true := by
    unfold e quality result a observation
    rfl
  have hf : evaluate a f = .error (.invalidArithmetic "+" .boolean .scalar) := by
    unfold f quality result a observation
    rfl
  refine ⟨hab, he, ?_, hf, ?_, ?_⟩
  · obtain ⟨t, ha, hb⟩ | ⟨_, _, ha, _⟩ := evaluate_of_sameContent hab e
    · cases he.symm.trans ha
      exact hb
    · cases he.symm.trans ha
  · obtain ⟨_, ha, _⟩ | ⟨_, _, ha, hb, _, hkinds⟩ := evaluate_of_sameContent hab f
    · cases hf.symm.trans ha
    · cases hf.symm.trans ha
      cases hkinds with
      | refl => exact ⟨_, _, hb⟩
      | invalidArithmetic => exact ⟨_, _, hb⟩
  · rw [hf]
    unfold f quality result b observation
    exact nofun

end Live

end LiveFilter
