import LiveFilter.Live.Evaluator
import LiveFilter.Proofs.Simulation
import LiveFilter.Proofs.Sql.Numbering

/-! # Reading conditions on rows

What a condition means on the row that stands for an entity, in three-valued logic. A placeholder
reads as the value it was bound for, and casts do nothing. Read so, the primitives of the SQL tree
simulate those of the evaluator.
-/

namespace LiveFilter

open Outcome (Follows)

namespace Sql

/-- Null in a store: the missing value, and the null of JSON. -/
def IsNull (v : Value) : Prop := (Live.normalize v).isNull = true

instance (v : Value) : Decidable (IsNull v) := inferInstanceAs (Decidable (_ = _))

/-- To compare with null is unknown, and so is to compare what has no order. -/
def compareCells (r : Relation) (a b : Value) : Truth :=
  if IsNull a ∨ IsNull b then .unknown
  else
    match Live.order a b with
    | some o => .ofBool (r.holds o)
    | none => .unknown

def truthOf? (v : Value) : Option Truth :=
  match Live.normalize v with
  | .bool b => some (.ofBool b)
  | .null => some .unknown
  | _ => none

def nullIfZero (v : Value) : Value :=
  match Live.widen (Live.normalize v) with
  | .number x => if x.IsZero then .null else v
  | _ => v

/-- The operation that an arithmetic sign stands for between such values. -/
def shape? : Value → Value → Option ArithmeticShape
  | .number _, .number _ => some .numbers
  | .instant _, .duration _ => some .instantDuration
  | .instant _, .instant _ => some .instantInstant
  | .duration _, .duration _ => some .durationDuration
  | .duration _, .number _ => some .durationScalar
  | _, _ => none

def combine? (op : ArithmeticOp) (a b : Value) : Option Value :=
  if IsNull a ∨ IsNull b then some .null
  else
    let x := Live.widen (Live.normalize a)
    let y := Live.widen (Live.normalize b)
    (shape? x y).bind fun shape => Live.operate? op shape x y

end Sql

/-- The value of a field on a row, with `args` behind the placeholders. -/
def SqlField.value? (row : String → Option Value) (args : List Value) : SqlField → Option Value
  | column name => row name
  | param 0 _ => none
  | param (k + 1) _ => args[k]?
  | null => some .null
  | cast field _ => field.value? row args
  | nullIfZero field => (field.value? row args).map Sql.nullIfZero
  | binary op left right => do
      let a ← left.value? row args
      let b ← right.value? row args
      Sql.combine? op a b
  | negate field => do
      let a ← field.value? row args
      (Live.negate a).toOption

/-- The truth of a condition on a row. -/
def SqlCondition.truth? (row : String → Option Value) (args : List Value) :
    SqlCondition → Option Truth
  | compare r left right => do
      let a ← left.value? row args
      let b ← right.value? row args
      some (Sql.compareCells r a b)
  | isNull operand => do
      let a ← operand.value? row args
      some (.ofBool (decide (Sql.IsNull a)))
  | and left right => do
      let c ← left.truth? row args
      let d ← right.truth? row args
      some (c.and d)
  | or left right => do
      let c ← left.truth? row args
      let d ← right.truth? row args
      some (c.or d)
  | not inner => (inner.truth? row args).map Truth.not
  | literal value => some (.ofOption value)
  | field value => do
      let a ← value.value? row args
      Sql.truthOf? a

namespace Sql

theorem orderNormal_of_isNull {a b : Value} (h : a.isNull = true ∨ b.isNull = true) :
    Live.orderNormal a b = none := by
  obtain h | h := h
  · cases a <;> first | rfl | cases h
  · cases b <;> first | (cases a <;> rfl) | cases h

theorem compareCells_eq (r : Relation) (a b : Value) : compareCells r a b = Live.compare r a b := by
  unfold compareCells Live.compare
  split
  · rename_i h
    rw [Live.order, orderNormal_of_isNull h]
  · rfl

theorem value?_castTo (row : String → Option Value) (args : List Value) (f : SqlField)
    (type : SqlType) : (f.castTo type).value? row args = f.value? row args := by
  unfold SqlField.castTo
  split
  · split <;> rfl
  · rfl

theorem isNull_widen (v : Value) : (Live.widen v).isNull = v.isNull := by
  cases v <;> rfl

theorem shape?_of_operate? {op : ArithmeticOp} {shape : ArithmeticShape} {a b v : Value}
    (h : Live.operate? op shape a b = some v) : shape? a b = some shape := by
  cases shape <;> cases a <;> cases b <;> first | rfl | cases h

theorem arithmetic_eq (op : ArithmeticOp) (shape : ArithmeticShape) (a b : Value) :
    Live.arithmetic op shape a b =
      if IsNull a ∨ IsNull b then .ok .null
      else
        match Live.operate? op shape (Live.widen (Live.normalize a))
          (Live.widen (Live.normalize b)) with
        | some v => .ok v
        | none => .error (.invalidArithmetic op.token a.kind b.kind) := by
  simp only [Live.arithmetic, isNull_widen, Bool.or_eq_true, IsNull]
  rfl

theorem combine?_of_arithmetic {op : ArithmeticOp} {shape : ArithmeticShape} {a b v : Value}
    (h : Live.arithmetic op shape a b = .ok v) : combine? op a b = some v := by
  rw [arithmetic_eq] at h
  unfold combine?
  split
  · rename_i hnull
    rw [if_pos hnull] at h
    cases h
    rfl
  · rename_i hnull
    rw [if_neg hnull] at h
    split at h
    · rename_i w hw
      cases h
      simp only [shape?_of_operate? hw, Option.bind_some, hw]
    · cases h

/-- To divide by zero is null already, so that the guard of a divisor changes nothing. -/
theorem operate?_zero {op : ArithmeticOp} {shape : ArithmeticShape} {a v : Value} {x : Binary64}
    (hop : op = .div ∨ op = .mod) (hx : x.IsZero)
    (h : Live.operate? op shape a (.number x) = some v) : v = .null := by
  obtain rfl | rfl := hop <;> cases shape <;> cases a <;>
    simp only [Live.operate?, Live.numbers, if_pos hx, Option.some.injEq, reduceCtorEq] at h
  all_goals exact h.symm

theorem combine?_nullIfZero {op : ArithmeticOp} {shape : ArithmeticShape} {a b v : Value}
    (hop : op = .div ∨ op = .mod) (h : Live.arithmetic op shape a b = .ok v) :
    combine? op a (nullIfZero b) = some v := by
  unfold nullIfZero
  split
  · rename_i x hb
    split
    · -- the guard makes the divisor null, and the evaluator's quotient is null as well
      rename_i hx
      have hv : v = .null := by
        rw [arithmetic_eq, hb] at h
        split at h
        · cases h
          rfl
        · split at h
          · rename_i w hw
            cases h
            exact operate?_zero hop hx hw
          · cases h
      rw [hv]
      exact if_pos (.inr rfl)
    · exact combine?_of_arithmetic h
  · exact combine?_of_arithmetic h

section

variable (row : String → Option Value) (args : List Value)

def Reads (f : SqlField) (v : Value) : Prop := f.value? row args = some v

def Holds (c : SqlCondition) (t : Truth) : Prop := c.truth? row args = some t

variable {row args}

theorem Reads.castTo {f : SqlField} {v : Value} (h : Reads row args f v) (type : SqlType) :
    Reads row args (f.castTo type) v :=
  (value?_castTo row args f type).trans h

theorem Reads.binary {f g : SqlField} {a b v : Value} {op : ArithmeticOp} (hf : Reads row args f a)
    (hg : Reads row args g b) (h : combine? op a b = some v) :
    Reads row args (.binary op f g) v := by
  unfold Reads at hf hg ⊢
  simp only [SqlField.value?, hf, hg]
  exact h

theorem Reads.divided {f g : SqlField} {a b v : Value} {op : ArithmeticOp} {shape : ArithmeticShape}
    (hf : Reads row args f a) (hg : Reads row args g b)
    (h : Live.arithmetic op shape a b = .ok v) :
    Reads row args (.binary op f (guardDivisor op g)) v := by
  have hguard : Reads row args (.nullIfZero g) (nullIfZero b) := by
    unfold Reads at hg ⊢
    simp only [SqlField.value?, hg, Option.map_some]
  cases op with
  | add | sub | mul => exact hf.binary hg (combine?_of_arithmetic h)
  | div => exact hf.binary hguard (combine?_nullIfZero (.inl rfl) h)
  | mod => exact hf.binary hguard (combine?_nullIfZero (.inr rfl) h)

theorem reads_arithmetic (type : TimestampType) (op : ArithmeticOp) (shape : ArithmeticShape)
    {f g : SqlField} {a b v : Value} (hf : Reads row args f a) (hg : Reads row args g b)
    (h : Live.arithmetic op shape a b = .ok v) :
    Reads row args (arithmetic type op shape f g) v := by
  cases shape with
  | numbers => exact hf.divided hg h
  | durationScalar => exact (hf.castTo _).divided hg h
  | instantDuration | instantInstant | durationDuration =>
      exact (hf.castTo _).binary (hg.castTo _) (combine?_of_arithmetic h)

theorem holds_compare (r : Relation) {f g : SqlField} {a b : Value} (hf : Reads row args f a)
    (hg : Reads row args g b) : Holds row args (.compare r f g) (compareCells r a b) := by
  unfold Reads at hf hg
  simp only [Holds, SqlCondition.truth?, hf, hg]
  rfl

theorem holds_truthy {f : SqlField} {a : Value} {t : Truth} (hf : Reads row args f a)
    (h : Live.truthy a = .ok t) : Holds row args (.field f) t := by
  unfold Reads at hf
  simp only [Holds, SqlCondition.truth?, hf]
  unfold Live.truthy at h
  change truthOf? a = some t
  unfold truthOf?
  generalize Live.normalize a = n at h ⊢
  cases n with
  | bool b | null =>
      cases h
      rfl
  | _ => cases h

theorem reads_negate {f : SqlField} {a v : Value} (hf : Reads row args f a)
    (h : Live.negate a = .ok v) : Reads row args (.negate f) v := by
  unfold Reads at hf ⊢
  simp only [SqlField.value?, hf]
  change (Live.negate a).toOption = some v
  rw [h]
  rfl

theorem algebra_simulates (row : String → Option Value) (args : List Value) (type : TimestampType) :
    (algebra type).Simulates .follows Live.algebra (Reads row args) (Holds row args) where
  compare r a b a' b' ha hb := by
    have h := holds_compare r ha hb
    rwa [compareCells_eq] at h
  isNull {a a'} ha := by
    unfold Reads at ha
    simp only [Holds, algebra, SqlCondition.truth?, ha]
    exact congrArg (some ∘ Truth.ofBool) Bool.decide_eq_true
  literal value := rfl
  and {c d c' d'} hc hd := by
    unfold Holds at hc hd ⊢
    simp only [algebra, SqlCondition.truth?, hc, hd]
    rfl
  or {c d c' d'} hc hd := by
    unfold Holds at hc hd ⊢
    simp only [algebra, SqlCondition.truth?, hc, hd]
    rfl
  not {c c'} hc := by
    unfold Holds at hc ⊢
    simp only [algebra, SqlCondition.truth?, hc]
    rfl
  truthy {a a'} ha t ht := ⟨_, rfl, holds_truthy ha ht⟩
  arithmetic op shape a b a' b' ha hb v hv := ⟨_, rfl, reads_arithmetic type op shape ha hb hv⟩
  negate {a a'} ha v hv := ⟨_, rfl, reads_negate ha hv⟩

end

end Sql

end LiveFilter
