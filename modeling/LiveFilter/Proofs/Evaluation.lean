import LiveFilter.Live.Evaluator

/-! # Evaluation of a node from its parts -/

namespace LiveFilter.Live

theorem evaluate_compare (entity : Entity) (op : ComparisonOp) (e f : Expression) :
    evaluate entity (.compare op e f) = (do
      let left ← lower entity e
      let right ← lower entity f
      Rules.compare algebra op left right) := by
  simp only [evaluate, lower, Backend.lowerCondition, Backend.lower, bind_assoc, pure_bind]
  refine bind_congr fun left => bind_congr fun right => ?_
  exact bind_pure (Rules.compare algebra op left right)

theorem evaluate_compare_of_lower {entity : Entity} {e f : Expression} {l r : Operand Value Truth}
    (hl : lower entity e = .ok l) (hr : lower entity f = .ok r) (op : ComparisonOp) :
    evaluate entity (.compare op e f) = Rules.compare algebra op l r := by
  rw [evaluate_compare, hl, hr]
  rfl

theorem lower_compare_of_lower {entity : Entity} {e f : Expression} {l r : Operand Value Truth}
    (hl : lower entity e = .ok l) (hr : lower entity f = .ok r) (op : ComparisonOp) :
    lower entity (.compare op e f) = (Rules.compare algebra op l r).map .condition := by
  simp only [lower] at hl hr
  simp only [lower, Backend.lower, hl, hr]
  rfl

theorem evaluate_not (entity : Entity) (e : Expression) :
    evaluate entity (.not e) = (do
      let value ← evaluate entity e
      .ok value.not) := by
  simp only [evaluate, Backend.lowerCondition, Backend.lower, bind_assoc, pure_bind]
  rfl

theorem evaluate_and (entity : Entity) (l r : Expression) :
    evaluate entity (l.and r) = (do
      let left ← evaluate entity l
      let right ← evaluate entity r
      .ok (left.and right)) := by
  simp only [evaluate, Expression.and, Backend.lowerCondition, Backend.lower, bind_assoc, pure_bind]
  rfl

end LiveFilter.Live
