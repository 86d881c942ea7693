import LiveFilter.Sql.Compiler

/-! # Numbering of placeholders

Compilation threads the parameters bound so far through a recursion. Only their number matters to
the tree that comes out, and what a literal binds depends on the literal alone. So compilation is a
lowering without state, given the number of the first placeholder, next to the list of what the
literals bind from left to right.
-/

namespace LiveFilter

namespace Constant

/-- The values that the placeholders of a literal stand for. -/
def arguments : Constant → List Value
  | null => []
  | interval i => [.instant i.start, .instant i.stop]
  | c => [c.toValue]

def params (type : TimestampType) : Constant → List SqlParam
  | null => []
  | bool b => [.bool b]
  | integer n => [.integer n]
  | number x => [.ofNumber x]
  | text s => [.text s]
  | instant i => [.text (Sql.instantText type i)]
  | duration d => [.text (Sql.durationText d)]
  | interval i => [.text (Sql.instantText type i.start), .text (Sql.instantText type i.stop)]

theorem length_params (type : TimestampType) (c : Constant) :
    (c.params type).length = c.arguments.length := by
  cases c <;> rfl

end Constant

namespace Expression

def literals : Expression → List Constant
  | constant c => [c]
  | property _ => []
  | negate e | not e => e.literals
  | arithmetic _ l r | compare _ l r | logical _ l r => l.literals ++ r.literals

def paths : Expression → List PropertyPath
  | constant _ => []
  | property p => [p]
  | negate e | not e => e.paths
  | arithmetic _ l r | compare _ l r | logical _ l r => l.paths ++ r.paths

def arguments (e : Expression) : List Value := e.literals.flatMap Constant.arguments

def params (type : TimestampType) (e : Expression) : List SqlParam :=
  e.literals.flatMap (Constant.params type)

theorem length_params (type : TimestampType) (e : Expression) :
    (e.params type).length = e.arguments.length := by
  simp only [params, arguments, List.length_flatMap, Constant.length_params]

@[simp] theorem arguments_constant (c : Constant) : (constant c).arguments = c.arguments :=
  List.append_nil _

/-- What two expressions bind one after the other, each finds in its own place. -/
theorem arguments_prefix {args : List Value} {l r : Expression} {n : Nat}
    (h : (l.literals ++ r.literals).flatMap Constant.arguments <+: args.drop n) :
    l.arguments <+: args.drop n ∧ r.arguments <+: args.drop (n + l.arguments.length) := by
  obtain ⟨rest, hrest⟩ := h
  rw [List.flatMap_append, List.append_assoc] at hrest
  refine ⟨⟨r.arguments ++ rest, hrest⟩, ⟨rest, ?_⟩⟩
  rw [← List.drop_drop, ← hrest]
  exact List.drop_left.symm

theorem params_append (type : TimestampType) (l r : Expression) :
    (l.literals ++ r.literals).flatMap (Constant.params type) =
      l.params type ++ (r.params type ++ []) := by
  rw [List.flatMap_append, List.append_nil]
  rfl

end Expression

namespace Sql

/-- From the parameters `ps`, a compilation has the outcome `x`, and binds `qs` if it succeeds. -/
def Binds {α : Type} (ps : List SqlParam) (m : Binding α) (x : Except FilterError α)
    (qs : List SqlParam) : Prop :=
  m.run ps = x.map fun a => (a, ps ++ qs)

namespace Binds

variable {α β : Type} {ps qs rs : List SqlParam}

theorem pure (a : α) : Binds ps (pure a) (.ok a) [] := by
  simp only [Binds, List.append_nil]
  rfl

theorem lift (x : Except FilterError α) : Binds ps (liftM x) x [] := by
  simp only [Binds, List.append_nil]
  cases x <;> rfl

theorem bind {m : Binding α} {f : α → Binding β} {x : Except FilterError α}
    {g : α → Except FilterError β} (hm : Binds ps m x qs)
    (hf : ∀ a, Binds (ps ++ qs) (f a) (g a) rs) : Binds ps (m >>= f) (x >>= g) (qs ++ rs) := by
  unfold Binds at hm ⊢
  rw [StateT.run_bind, hm]
  cases x with
  | error err => rfl
  | ok a =>
      change (f a).run (ps ++ qs) = (g a).map fun b => (b, ps ++ (qs ++ rs))
      rw [hf a, List.append_assoc]

theorem lift_bind {f : α → Binding β} {g : α → Except FilterError β} {x : Except FilterError α}
    (hf : ∀ a, Binds ps (f a) (g a) qs) : Binds ps (liftM x >>= f) (x >>= g) qs := by
  cases x with
  | error err => rfl
  | ok a => exact hf a

end Binds

def placeholder (type : TimestampType) (n : Nat) : Constant → Operand SqlField SqlCondition
  | .null => .null
  | .bool _ | .integer _ | .number _ | .text _ => .scalar (.param (n + 1) none)
  | .instant _ => .instant (.param (n + 1) (some (.timestamp type)))
  | .duration _ => .duration (.param (n + 1) (some .interval))
  | .interval _ =>
      .interval (.param (n + 1) (some (.timestamp type))) (.param (n + 2) (some (.timestamp type)))

theorem binds_constant (type : TimestampType) (c : Constant) (ps : List SqlParam) :
    Binds ps (constant type c) (.ok (placeholder type ps.length c)) (c.params type) := by
  cases c with
  | null => exact Binds.pure _
  | interval i =>
      let first := SqlParam.text (instantText type i.start)
      let second := SqlParam.text (instantText type i.stop)
      have hlength : (ps ++ [first]).length + 1 = ps.length + 2 := by simp
      have hparams : (ps ++ [first]) ++ [second] = ps ++ [first, second] := by simp
      change Except.ok (Operand.interval (SqlField.param (ps.length + 1) _)
        (SqlField.param ((ps ++ [first]).length + 1) _), (ps ++ [first]) ++ [second]) = _
      rw [hlength, hparams]
      rfl
  | _ => rfl

namespace Table

/-- The lowering of an expression when `n` parameters are bound before it. -/
def lowerAt (t : Table) (n : Nat) : Expression → Except FilterError (Operand SqlField SqlCondition)
  | .constant c => .ok (placeholder t.timestampType n c)
  | .property p => (t.resolver t.entityType p).map ofMapping
  | .negate e => do
      let operand ← t.lowerAt n e
      Rules.negate (algebra t.timestampType) operand
  | .not e => do
      let operand ← t.lowerAt n e
      let c ← Rules.asCondition (algebra t.timestampType) operand
      .ok (.condition (.not c))
  | .arithmetic op l r => do
      let left ← t.lowerAt n l
      let right ← t.lowerAt (n + l.arguments.length) r
      Rules.arithmetic (algebra t.timestampType) op left right
  | .compare op l r => do
      let left ← t.lowerAt n l
      let right ← t.lowerAt (n + l.arguments.length) r
      let c ← Rules.compare (algebra t.timestampType) op left right
      .ok (.condition c)
  | .logical op l r => do
      let left ← t.lowerAt n l
      let c ← Rules.asCondition (algebra t.timestampType) left
      let right ← t.lowerAt (n + l.arguments.length) r
      let d ← Rules.asCondition (algebra t.timestampType) right
      .ok (.condition (Rules.logical (algebra t.timestampType) op c d))

def conditionAt (t : Table) (n : Nat) (e : Expression) : Except FilterError SqlCondition := do
  let operand ← t.lowerAt n e
  Rules.asCondition (algebra t.timestampType) operand

/-- Lowering binds what the literals bind, and takes nothing but their number from the state. -/
theorem binds_lower (t : Table) (e : Expression) (ps : List SqlParam) :
    Binds ps (t.backend.lower e) (t.lowerAt ps.length e) (e.params t.timestampType) := by
  induction e generalizing ps with
  | constant c =>
      change Binds ps _ _ (c.params t.timestampType ++ [])
      rw [List.append_nil]
      exact binds_constant t.timestampType c ps
  | property p => exact Binds.lift _
  | negate e ih =>
      change Binds ps _ _ (e.params t.timestampType)
      rw [← List.append_nil (e.params t.timestampType)]
      exact (ih ps).bind fun o => Binds.lift _
  | not e ih =>
      change Binds ps _ _ (e.params t.timestampType)
      rw [← List.append_nil (e.params t.timestampType)]
      exact (ih ps).bind fun o => Binds.lift_bind fun c => Binds.pure _
  | arithmetic op l r ihl ihr =>
      have hr := ihr (ps ++ l.params t.timestampType)
      rw [List.length_append, l.length_params] at hr
      change Binds ps _ _ ((l.literals ++ r.literals).flatMap _)
      rw [Expression.params_append]
      exact (ihl ps).bind fun left => hr.bind fun right => Binds.lift _
  | compare op l r ihl ihr =>
      have hr := ihr (ps ++ l.params t.timestampType)
      rw [List.length_append, l.length_params] at hr
      change Binds ps _ _ ((l.literals ++ r.literals).flatMap _)
      rw [Expression.params_append]
      exact (ihl ps).bind fun left => hr.bind fun right => Binds.lift_bind fun c => Binds.pure _
  | logical op l r ihl ihr =>
      have hr := ihr (ps ++ l.params t.timestampType)
      rw [List.length_append, l.length_params] at hr
      change Binds ps _ _ ((l.literals ++ r.literals).flatMap _)
      rw [Expression.params_append]
      exact (ihl ps).bind fun left => Binds.lift_bind fun c => hr.bind fun right =>
        Binds.lift_bind fun d => Binds.pure _

theorem compile_eq (t : Table) (e : Expression) :
    t.compile e = (t.conditionAt 0 e).map fun c => ⟨c, e.params t.timestampType⟩ := by
  have h : Binds [] (t.backend.lowerCondition e) (t.conditionAt 0 e)
      (e.params t.timestampType) := by
    have h := (t.binds_lower e []).bind fun o =>
      Binds.lift (Rules.asCondition (algebra t.timestampType) o)
    rwa [List.append_nil] at h
  unfold compile
  rw [h]
  cases t.conditionAt 0 e <;> rfl

end Table

end Sql

end LiveFilter
