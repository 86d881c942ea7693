import LiveFilter.Proofs.Evaluation

/-! # Operands in the other order

The rules write the rows of a mix of kinds once for each order of the operands. For the operators
that have a mirror image both rows are made of the same comparisons, so that nothing depends on the
order in which a filter names its operands.
-/

namespace LiveFilter

variable {τ κ : Type}

def Relation.mirror : Relation → Relation
  | eq => eq
  | ne => ne
  | lt => gt
  | le => ge
  | gt => lt
  | ge => le

theorem Relation.holds_swap (r : Relation) (o : Ordering) : r.mirror.holds o.swap = r.holds o := by
  cases r <;> cases o <;> rfl

def ComparisonOp.mirror? : ComparisonOp → Option ComparisonOp
  | equal => some equal
  | notEqual => some notEqual
  | greaterEqual => some lessEqual
  | lessEqual => some greaterEqual
  | meets => some meets
  | overlaps => some overlaps
  | starts => some starts
  | finishes => some finishes
  | greaterThan | lessThan | after | before | contains => none

/-- Comparisons and connectives do not depend on the order of what they join. -/
structure Algebra.Mirrored (alg : Algebra τ κ) : Prop where
  compare (r : Relation) (a b : τ) : alg.compare r.mirror b a = alg.compare r a b
  and_comm (c d : κ) : alg.and c d = alg.and d c
  or_comm (c d : κ) : alg.or c d = alg.or d c

namespace Rules

variable {alg : Algebra τ κ} {op op' : ComparisonOp}

theorem mirror?_symm (h : op.mirror? = some op') : op'.mirror? = some op := by
  cases op <;> cases h <;> rfl

theorem nullComparison_mirror (alg : Algebra τ κ) (h : op.mirror? = some op') (t : Option τ) :
    nullComparison alg op' t = nullComparison alg op t := by
  cases op <;> cases h <;> rfl

theorem relation?_mirror (h : op.mirror? = some op') :
    relation? op' = (relation? op).map Relation.mirror := by
  cases op <;> cases h <;> rfl

variable (hm : alg.Mirrored)

include hm

/-- Without a rule for the kind both orders fail, though not with the same error. -/
theorem ordered_mirror (h : op.mirror? = some op') (kind : ValueKind) (a b : τ) :
    (ordered alg op' kind b a).toOption = (ordered alg op kind a b).toOption := by
  unfold ordered
  rw [relation?_mirror h]
  cases relation? op with
  | none => rfl
  | some r => exact congrArg some (hm.compare r a b)

theorem instantInstant_mirror (h : op.mirror? = some op') (t u : τ) :
    instantInstant alg op' u t = instantInstant alg op t u := by
  cases op with
  | equal | meets | overlaps | starts | finishes =>
      cases h
      exact congrArg Except.ok (hm.compare .eq t u)
  | notEqual =>
      cases h
      exact congrArg Except.ok (hm.compare .ne t u)
  | greaterEqual =>
      cases h
      exact congrArg Except.ok (hm.compare .ge t u)
  | lessEqual =>
      cases h
      exact congrArg Except.ok (hm.compare .le t u)
  | _ => cases h

theorem intervalInstant_mirror (h : op.mirror? = some op') (t s e : τ) :
    intervalInstant alg op' s e t = instantInterval alg op t s e := by
  have hstart : alg.compare .eq s t = alg.compare .eq t s := hm.compare .eq t s
  have hstop : alg.compare .eq e t = alg.compare .eq t e := hm.compare .eq t e
  cases op with
  | equal | notEqual | meets | overlaps | starts | finishes =>
      cases h
      simp only [intervalInstant, instantInterval, hstart, hstop]
  | greaterEqual =>
      cases h
      exact congrArg Except.ok (hm.compare .ge t e)
  | lessEqual =>
      cases h
      exact congrArg Except.ok (hm.compare .le t s)
  | _ => cases h

theorem intervalInterval_mirror (h : op.mirror? = some op') (s e u v : τ) :
    intervalInterval alg op' u v s e = intervalInterval alg op s e u v := by
  have hstarts : alg.compare .eq u s = alg.compare .eq s u := hm.compare .eq s u
  have hstops : alg.compare .eq v e = alg.compare .eq e v := hm.compare .eq e v
  cases op with
  | equal | notEqual | starts | finishes =>
      cases h
      simp only [intervalInterval, hstarts, hstops]
  | greaterEqual =>
      cases h
      exact hm.compare .ge s v
  | lessEqual =>
      cases h
      exact hm.compare .le e u
  | meets =>
      cases h
      have houter : alg.compare .eq v s = alg.compare .eq s v := hm.compare .eq s v
      have hinner : alg.compare .eq u e = alg.compare .eq e u := hm.compare .eq e u
      rw [intervalInterval, hinner, houter, hm.or_comm]
      rfl
  | overlaps =>
      cases h
      have houter : alg.compare .gt v s = alg.compare .lt s v := hm.compare .lt s v
      have hinner : alg.compare .lt u e = alg.compare .gt e u := hm.compare .gt e u
      rw [intervalInterval, hstarts, houter, hinner, hm.and_comm]
      rfl
  | _ => cases h

theorem compareKinds_mirror (h : op.mirror? = some op') (l r : Operand τ κ) :
    (compareKinds alg op' r l).toOption = (compareKinds alg op l r).toOption := by
  have hnull (t : Option τ) := congrArg some (nullComparison_mirror alg h t)
  cases l with
  | null =>
      cases r with
      | condition d => rfl
      | _ => exact hnull _
  | scalar a =>
      cases r with
      | null => exact hnull _
      | scalar b => exact ordered_mirror hm h .scalar a b
      | _ => rfl
  | instant t =>
      cases r with
      | null => exact hnull _
      | instant u => exact congrArg Except.toOption (instantInstant_mirror hm h t u)
      | interval s e => exact congrArg Except.toOption (intervalInstant_mirror hm h t s e)
      | _ => rfl
  | duration a =>
      cases r with
      | null => exact hnull _
      | duration b => exact ordered_mirror hm h .duration a b
      | _ => rfl
  | interval s e =>
      cases r with
      | null => exact hnull _
      | instant t =>
          exact congrArg Except.toOption (intervalInstant_mirror hm (mirror?_symm h) t s e).symm
      | interval u v => exact congrArg some (intervalInterval_mirror hm h s e u v)
      | _ => rfl
  | condition c => cases r <;> rfl

theorem compare_mirror (h : op.mirror? = some op') (l r : Operand τ κ) :
    (compare alg op' r l).toOption = (compare alg op l r).toOption := by
  have hop : op ≠ .contains := by
    rintro rfl
    cases h
  have hop' : op' ≠ .contains := by
    rintro rfl
    cases mirror?_symm h
  rw [compare, compare, if_neg fun hc => hop' hc.1, if_neg fun hc => hop hc.1]
  exact compareKinds_mirror hm h l r

end Rules

namespace Binary64

theorem Finite.compare_swap (x y : Finite) : (x.compare y).swap = y.compare x := by
  rw [Finite.compare, Finite.compare, Int.min_comm]
  exact Int.compare_swap _ _

theorem compare_swap (a b : Binary64) : (a.compare b).map Ordering.swap = b.compare a := by
  cases a with
  | nan => cases b <;> rfl
  | infinite s =>
      cases b with
      | nan => rfl
      | infinite t => cases s <;> cases t <;> rfl
      | finite y => cases s <;> rfl
  | finite x =>
      cases b with
      | nan => rfl
      | infinite t => cases t <;> rfl
      | finite y => exact congrArg some (x.compare_swap y)

end Binary64

namespace Json

theorem Number.beq_comm (a b : Number) : a.beq b = b.beq a := by
  cases a with
  | integer m _ =>
      cases b with
      | integer n _ => exact Bool.beq_comm
      | real y => rfl
  | real x =>
      cases b with
      | integer n _ => rfl
      | real y =>
          rw [Number.beq, Number.beq, ← x.compare_swap y]
          cases x.compare y <;> rfl

mutual

theorem beq_comm (a b : Json) : beq a b = beq b a := by
  cases a with
  | array xs =>
      cases b with
      | array ys => exact beqItems_comm xs ys
      | _ => rfl
  | object xs =>
      cases b with
      | object ys => exact beqFields_comm xs ys
      | _ => rfl
  | bool s =>
      cases b with
      | bool t => exact Bool.beq_comm
      | _ => rfl
  | string s =>
      cases b with
      | string t => exact Bool.beq_comm
      | _ => rfl
  | number m =>
      cases b with
      | number n => exact m.beq_comm n
      | _ => rfl
  | null => cases b <;> rfl

theorem beqItems_comm (xs ys : List Json) : beqItems xs ys = beqItems ys xs := by
  cases xs with
  | nil => cases ys <;> rfl
  | cons x xs =>
      cases ys with
      | nil => rfl
      | cons y ys => rw [beqItems, beqItems, beq_comm x y, beqItems_comm xs ys]

theorem beqFields_comm (xs ys : List (String × Json)) : beqFields xs ys = beqFields ys xs := by
  cases xs with
  | nil => cases ys <;> rfl
  | cons x xs =>
      cases ys with
      | nil => rfl
      | cons y ys =>
          rw [beqFields, beqFields, beq_comm x.2 y.2, beqFields_comm xs ys, Bool.beq_comm]

end

end Json

namespace Live

theorem orderNormal_swap (v w : Value) :
    (orderNormal v w).map Ordering.swap = orderNormal w v := by
  cases v with
  | null => cases w <;> rfl
  | interval i => cases w <;> rfl
  | bool a =>
      cases w with
      | bool b => exact congrArg some Std.OrientedOrd.eq_swap.symm
      | _ => rfl
  | integer a =>
      cases w with
      | integer b => exact congrArg some (Int.compare_swap _ _)
      | number b => exact Binary64.compare_swap _ _
      | _ => rfl
  | number a =>
      cases w with
      | integer b => exact Binary64.compare_swap _ _
      | number b => exact Binary64.compare_swap _ _
      | _ => rfl
  | text a =>
      cases w with
      | text b => exact congrArg some Std.OrientedOrd.eq_swap.symm
      | _ => rfl
  | instant a =>
      cases w with
      | instant b => exact congrArg some (Int.compare_swap _ _)
      | _ => rfl
  | duration a =>
      cases w with
      | duration b => exact congrArg some (Int.compare_swap _ _)
      | _ => rfl
  | json a =>
      cases w with
      | json b =>
          have h : (a == b) = (b == a) := Json.beq_comm a b
          rw [orderNormal, orderNormal, h]
          split <;> rfl
      | _ => rfl

theorem compare_mirror (r : Relation) (v w : Value) : compare r.mirror w v = compare r v w := by
  rw [compare, compare, order, order, ← orderNormal_swap]
  cases orderNormal (normalize v) (normalize w) with
  | none => rfl
  | some o => exact congrArg Truth.ofBool (r.holds_swap o)

theorem algebra_mirrored : algebra.Mirrored where
  compare := compare_mirror
  and_comm := Truth.and_comm
  or_comm := Truth.or_comm

theorem evaluate_compare_mirror {op op' : ComparisonOp} (h : op.mirror? = some op')
    (entity : Entity) (e f : Expression) :
    (evaluate entity (.compare op' f e)).toOption =
      (evaluate entity (.compare op e f)).toOption := by
  rw [evaluate_compare, evaluate_compare]
  cases lower entity e with
  | error err => cases lower entity f <;> rfl
  | ok l =>
      cases lower entity f with
      | error err => rfl
      | ok r => exact Rules.compare_mirror algebra_mirrored h l r

/-- Both orders of the operands give the same truth or both fail, of whatever kinds they are and
whether they are null or not. Greater-or-equal goes over into less-or-equal. -/
theorem evaluate_swapped (entity : Entity) (e f : Expression) :
    (∀ op ∈ [ComparisonOp.equal, .notEqual, .meets, .overlaps, .starts, .finishes],
      (evaluate entity (.compare op e f)).toOption =
        (evaluate entity (.compare op f e)).toOption) ∧
    (evaluate entity (.compare .greaterEqual e f)).toOption =
      (evaluate entity (.compare .lessEqual f e)).toOption := by
  have hmirror : ∀ op ∈ [ComparisonOp.equal, .notEqual, .meets, .overlaps, .starts, .finishes],
      op.mirror? = some op := by decide
  have hless : ComparisonOp.mirror? .lessEqual = some .greaterEqual := rfl
  exact ⟨fun op hop => evaluate_compare_mirror (hmirror op hop) entity f e,
    evaluate_compare_mirror hless entity f e⟩

/-- An instant overlaps the stored interval that it starts, and the interval overlaps the
instant. -/
theorem evaluate_swapped_overlaps :
    let time (seconds : Nat) (h : Timestamp.Valid 0 seconds 0) : Instant := .utc ⟨0, seconds, 0, h⟩
    let stored : Interval := ⟨time 10 (by decide), time 20 (by decide)⟩
    let entity : Entity := { Entity.empty .observation with
      properties := fun p => if p = .phenomenonTime then some (.interval stored) else none }
    let e : Expression := .constant (.instant (time 10 (by decide)))
    let f : Expression := .property (.single (.entity .phenomenonTime))
    ComparisonOp.overlaps ∈
        [ComparisonOp.equal, .notEqual, .meets, .overlaps, .starts, .finishes] ∧
      evaluate entity (.compare .overlaps e f) = .ok .true ∧
      (evaluate entity (.compare .overlaps f e)).toOption = some .true := by
  intro time stored entity e f
  have hop : ComparisonOp.overlaps ∈
      [ComparisonOp.equal, .notEqual, .meets, .overlaps, .starts, .finishes] := by decide
  have htrue : evaluate entity (.compare .overlaps e f) = .ok .true := by
    unfold e f entity stored time
    rfl
  refine ⟨hop, htrue, ?_⟩
  rw [← (evaluate_swapped entity e f).1 .overlaps hop, htrue]
  rfl

end Live

end LiveFilter
