/-! # Three-valued truth -/

namespace LiveFilter

/-- A truth value; `unknown` is the outcome of comparing with a missing value. -/
inductive Truth where
  | true
  | false
  | unknown
deriving DecidableEq

namespace Truth

def isTrue (t : Truth) : Bool := t == .true

def and : Truth → Truth → Truth
  | .false, _ | _, .false => .false
  | .true, .true => .true
  | _, _ => .unknown

def or : Truth → Truth → Truth
  | .true, _ | _, .true => .true
  | .false, .false => .false
  | _, _ => .unknown

def not : Truth → Truth
  | .true => .false
  | .false => .true
  | .unknown => .unknown

def ofBool (b : Bool) : Truth := if b then .true else .false

def ofOption : Option Bool → Truth
  | some b => ofBool b
  | none => .unknown

theorem and_comm (a b : Truth) : and a b = and b a := by cases a <;> cases b <;> rfl

theorem or_comm (a b : Truth) : or a b = or b a := by cases a <;> cases b <;> rfl

@[simp] theorem not_not (a : Truth) : not (not a) = a := by cases a <;> rfl

theorem isTrue_iff {t : Truth} : t.isTrue = Bool.true ↔ t = .true := by cases t <;> decide

end Truth

end LiveFilter
