import LiveFilter.Proofs.Sql.Numbering

/-! # Contents of literals

Two filters of one shape compile to one text, whatever their literals say: literals of one kind
lower to one placeholder and move the count of parameters by the same amount. No error depends on
the contents either.
-/

namespace LiveFilter

/-- The kind of operand that a literal lowers to. Truth values are scalars here. -/
def Constant.operandKind : Constant → ValueKind
  | null => .null
  | bool _ | integer _ | number _ | text _ => .scalar
  | instant _ => .instant
  | duration _ => .duration
  | interval _ => .interval

theorem Constant.length_arguments_congr {c d : Constant} (h : c.operandKind = d.operandKind) :
    c.arguments.length = d.arguments.length := by
  cases c <;> cases d <;> first | rfl | cases h

theorem Sql.placeholder_congr (type : TimestampType) (n : Nat) {c d : Constant}
    (h : c.operandKind = d.operandKind) : placeholder type n c = placeholder type n d := by
  cases c <;> cases d <;> first | rfl | cases h

namespace Expression

/-- The same tree but for the literals, which face literals of the same kind. -/
inductive SameShape : Expression → Expression → Prop
  | constant {c d : Constant} (h : c.operandKind = d.operandKind) :
      SameShape (constant c) (constant d)
  | property (p : PropertyPath) : SameShape (property p) (property p)
  | negate {e f : Expression} (h : SameShape e f) : SameShape (negate e) (negate f)
  | not {e f : Expression} (h : SameShape e f) : SameShape (not e) (not f)
  | arithmetic (op : ArithmeticOp) {l r l' r' : Expression} (hl : SameShape l l')
      (hr : SameShape r r') : SameShape (arithmetic op l r) (arithmetic op l' r')
  | compare (op : ComparisonOp) {l r l' r' : Expression} (hl : SameShape l l')
      (hr : SameShape r r') : SameShape (compare op l r) (compare op l' r')
  | logical (op : LogicalOp) {l r l' r' : Expression} (hl : SameShape l l')
      (hr : SameShape r r') : SameShape (logical op l r) (logical op l' r')

theorem SameShape.length_arguments {e f : Expression} (h : SameShape e f) :
    e.arguments.length = f.arguments.length := by
  induction h with
  | constant h => simpa using Constant.length_arguments_congr h
  | property p => rfl
  | negate _ ih | not _ ih => exact ih
  | arithmetic _ _ _ ihl ihr | compare _ _ _ ihl ihr | logical _ _ _ ihl ihr =>
      simp only [arguments, literals, List.flatMap_append, List.length_append] at ihl ihr ⊢
      rw [ihl, ihr]

end Expression

namespace Sql.Table

open Expression (SameShape)

theorem lowerAt_congr (t : Table) {e f : Expression} (h : SameShape e f) (n : Nat) :
    t.lowerAt n e = t.lowerAt n f := by
  induction h generalizing n with
  | constant h => exact congrArg Except.ok (placeholder_congr t.timestampType n h)
  | property p => rfl
  | negate _ ih | not _ ih => simp only [lowerAt, ih]
  | arithmetic _ hl _ ihl ihr | compare _ hl _ ihl ihr | logical _ hl _ ihl ihr =>
      simp only [lowerAt, ihl, ihr, hl.length_arguments]

theorem conditionAt_congr (t : Table) {e f : Expression} (h : SameShape e f) (n : Nat) :
    t.conditionAt n e = t.conditionAt n f := by
  simp only [conditionAt, t.lowerAt_congr h n]

/-- What the literals of a filter say shows in the values of the parameters only. -/
theorem compile_sameShape (t : Table) {e f : Expression} (h : SameShape e f) :
    (∃ c d, t.compile e = .ok c ∧ t.compile f = .ok d ∧ c.sql = d.sql ∧
      c.params.length = d.params.length) ∨
    ∃ err, t.compile e = .error err ∧ t.compile f = .error err := by
  rw [t.compile_eq e, t.compile_eq f, t.conditionAt_congr h 0]
  cases t.conditionAt 0 f with
  | error err => exact .inr ⟨err, rfl, rfl⟩
  | ok condition =>
      refine .inl ⟨_, _, rfl, rfl, rfl, ?_⟩
      simp only [Expression.length_params, h.length_arguments]

/-- A text that looks like SQL faces a number, and a null a null. -/
theorem compile_sameShape_text_number :
    let filter (c : Constant) : Expression :=
      (Expression.compare .notEqual (.property (.single (.entity .name))) (.constant c)).and
        (.equal (.property (.single (.entity .description))) (.constant .null))
    let e := filter (.text "x' OR 1=1 --")
    let f := filter (.integer 5)
    let t := ofType .thing
    SameShape e f ∧
      ((∃ c d, t.compile e = .ok c ∧ t.compile f = .ok d ∧ c.sql = d.sql ∧
        c.params.length = d.params.length) ∨
      ∃ err, t.compile e = .error err ∧ t.compile f = .error err) := by
  intro filter e f t
  have h : SameShape e f :=
    .logical _ (.compare _ (.property _) (.constant rfl)) (.compare _ (.property _) (.constant rfl))
  exact ⟨h, compile_sameShape t h⟩

end Sql.Table

end LiveFilter
