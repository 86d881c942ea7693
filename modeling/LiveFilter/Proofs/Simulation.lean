import LiveFilter.Lowering
import LiveFilter.Proofs.Outcome

/-! # Places of evaluation side by side

One place of evaluation simulates another when its primitives do. The rules look at nothing but the
kinds of the operands, so on related operands every rule gives related results, and where a rule
fails for want of a row it fails on both sides alike.
-/

namespace LiveFilter

open Outcome (Lifting)

variable {τ κ τ' κ' : Type}

/-- The primitives of `A` and `B` give related results on related terms, where the lifting says how
far a failure of the one is a failure of the other. -/
structure Algebra.Simulates (L : Lifting FilterError) (A : Algebra τ κ) (B : Algebra τ' κ')
    (T : τ → τ' → Prop) (K : κ → κ' → Prop) : Prop where
  compare (r : Relation) {a b : τ} {a' b' : τ'} (ha : T a a') (hb : T b b') :
    K (A.compare r a b) (B.compare r a' b')
  isNull {a : τ} {a' : τ'} (ha : T a a') : K (A.isNull a) (B.isNull a')
  literal (value : Option Bool) : K (A.literal value) (B.literal value)
  and {c d : κ} {c' d' : κ'} (hc : K c c') (hd : K d d') : K (A.and c d) (B.and c' d')
  or {c d : κ} {c' d' : κ'} (hc : K c c') (hd : K d d') : K (A.or c d) (B.or c' d')
  not {c : κ} {c' : κ'} (hc : K c c') : K (A.not c) (B.not c')
  truthy {a : τ} {a' : τ'} (ha : T a a') : L.Rel K (A.truthy a) (B.truthy a')
  arithmetic (op : ArithmeticOp) (shape : ArithmeticShape) {a b : τ} {a' b' : τ'} (ha : T a a')
    (hb : T b b') : L.Rel T (A.arithmetic op shape a b) (B.arithmetic op shape a' b')
  negate {a : τ} {a' : τ'} (ha : T a a') : L.Rel T (A.negate a) (B.negate a')

inductive Operand.Related (T : τ → τ' → Prop) (K : κ → κ' → Prop) :
    Operand τ κ → Operand τ' κ' → Prop
  | null : Related T K .null .null
  | scalar {a : τ} {a' : τ'} (h : T a a') : Related T K (.scalar a) (.scalar a')
  | instant {a : τ} {a' : τ'} (h : T a a') : Related T K (.instant a) (.instant a')
  | duration {a : τ} {a' : τ'} (h : T a a') : Related T K (.duration a) (.duration a')
  | interval {a b : τ} {a' b' : τ'} (hstart : T a a') (hstop : T b b') :
      Related T K (.interval a b) (.interval a' b')
  | condition {c : κ} {c' : κ'} (h : K c c') : Related T K (.condition c) (.condition c')

namespace Operand.Related

theorem kind_eq {T : τ → τ' → Prop} {K : κ → κ' → Prop} {o : Operand τ κ} {o' : Operand τ' κ'}
    (h : Related T K o o') : o.kind = o'.kind := by
  cases h <;> rfl

variable {T : τ → τ → Prop} {K : κ → κ → Prop} {o o' : Operand τ κ}

theorem refl (hT : ∀ a, T a a) (hK : ∀ c, K c c) (o : Operand τ κ) : Related T K o o := by
  cases o with
  | null => exact .null
  | scalar a => exact .scalar (hT a)
  | instant a => exact .instant (hT a)
  | duration a => exact .duration (hT a)
  | interval a b => exact .interval (hT a) (hT b)
  | condition c => exact .condition (hK c)

theorem symm (hT : ∀ a b, T a b → T b a) (hK : ∀ c d, K c d → K d c) (h : Related T K o o') :
    Related T K o' o := by
  cases h with
  | null => exact .null
  | scalar ha => exact .scalar (hT _ _ ha)
  | instant ha => exact .instant (hT _ _ ha)
  | duration ha => exact .duration (hT _ _ ha)
  | interval ha hb => exact .interval (hT _ _ ha) (hT _ _ hb)
  | condition hc => exact .condition (hK _ _ hc)

end Operand.Related

namespace Algebra.Simulates

open Operand (Related)

variable {L : Lifting FilterError} {A : Algebra τ κ} {B : Algebra τ' κ'}
variable {T : τ → τ' → Prop} {K : κ → κ' → Prop}
variable {l r : Operand τ κ} {l' r' : Operand τ' κ'}

theorem ordered_lifts (h : A.Simulates L B T K) (op : ComparisonOp) (kind : ValueKind) {a b : τ}
    {a' b' : τ'} (ha : T a a') (hb : T b b') :
    L.Rel K (Rules.ordered A op kind a b) (Rules.ordered B op kind a' b') := by
  unfold Rules.ordered
  cases Rules.relation? op with
  | none => exact L.error _
  | some rel => exact L.ok (h.compare rel ha hb)

theorem nullComparison_none (h : A.Simulates L B T K) (op : ComparisonOp) :
    K (Rules.nullComparison A op none) (Rules.nullComparison B op none) := by
  cases op <;> exact h.literal _

theorem nullComparison_some (h : A.Simulates L B T K) (op : ComparisonOp) {a : τ} {a' : τ'}
    (ha : T a a') :
    K (Rules.nullComparison A op (some a)) (Rules.nullComparison B op (some a')) := by
  cases op with
  | equal => exact h.isNull ha
  | notEqual => exact h.not (h.isNull ha)
  | _ => exact h.literal none

theorem instantInstant_lifts (h : A.Simulates L B T K) (op : ComparisonOp) {t u : τ} {t' u' : τ'}
    (ht : T t t') (hu : T u u') :
    L.Rel K (Rules.instantInstant A op t u) (Rules.instantInstant B op t' u') := by
  cases op with
  | contains => exact L.error _
  | _ => exact L.ok (h.compare _ ht hu)

theorem instantInterval_lifts (h : A.Simulates L B T K) (op : ComparisonOp) {t s e : τ}
    {t' s' e' : τ'} (ht : T t t') (hs : T s s') (he : T e e') :
    L.Rel K (Rules.instantInterval A op t s e) (Rules.instantInterval B op t' s' e') := by
  have hstart (rel : Relation) := h.compare rel ht hs
  have hstop (rel : Relation) := h.compare rel ht he
  cases op with
  | equal => exact L.ok (h.and (hstart _) (hstop _))
  | notEqual => exact L.ok (h.not (h.and (hstart _) (hstop _)))
  | greaterThan | after => exact L.ok (h.and (hstop _) (hstart _))
  | greaterEqual | finishes => exact L.ok (hstop _)
  | lessThan | before | lessEqual | starts => exact L.ok (hstart _)
  | contains => exact L.error _
  | meets => exact L.ok (h.or (hstart _) (hstop _))
  | overlaps =>
      exact L.ok (h.or (hstart _) (h.and (h.compare _ hs ht) (h.compare _ he ht)))

theorem intervalInstant_lifts (h : A.Simulates L B T K) (op : ComparisonOp) {s e t : τ}
    {s' e' t' : τ'} (hs : T s s') (he : T e e') (ht : T t t') :
    L.Rel K (Rules.intervalInstant A op s e t) (Rules.intervalInstant B op s' e' t') := by
  have hstart (rel : Relation) := h.compare rel hs ht
  have hstop (rel : Relation) := h.compare rel he ht
  cases op with
  | equal => exact L.ok (h.and (hstart _) (hstop _))
  | notEqual => exact L.ok (h.not (h.and (hstart _) (hstop _)))
  | greaterThan | after | greaterEqual | starts => exact L.ok (hstart _)
  | lessThan | before | lessEqual | finishes => exact L.ok (hstop _)
  | contains => exact L.ok (h.and (hstart _) (hstop _))
  | meets => exact L.ok (h.or (hstart _) (hstop _))
  | overlaps => exact L.ok (h.or (hstart _) (h.and (hstart _) (hstop _)))

theorem intervalInterval (h : A.Simulates L B T K) (op : ComparisonOp) {s e u v : τ}
    {s' e' u' v' : τ'} (hs : T s s') (he : T e e') (hu : T u u') (hv : T v v') :
    K (Rules.intervalInterval A op s e u v) (Rules.intervalInterval B op s' e' u' v') := by
  have hstarts (rel : Relation) := h.compare rel hs hu
  have hstops (rel : Relation) := h.compare rel he hv
  have houter (rel : Relation) := h.compare rel hs hv
  have hinner (rel : Relation) := h.compare rel he hu
  cases op with
  | equal | contains => exact h.and (hstarts _) (hstops _)
  | notEqual => exact h.not (h.and (hstarts _) (hstops _))
  | greaterThan | after => exact h.and (houter _) (hstarts _)
  | greaterEqual => exact houter _
  | lessThan | before => exact h.and (hinner _) (hstops _)
  | lessEqual => exact hinner _
  | meets => exact h.or (houter _) (hinner _)
  | overlaps => exact h.or (hstarts _) (h.and (houter _) (hinner _))
  | starts => exact hstarts _
  | finishes => exact hstops _

theorem compareKinds_lifts (h : A.Simulates L B T K) (op : ComparisonOp) (hl : Related T K l l')
    (hr : Related T K r r') :
    L.Rel K (Rules.compareKinds A op l r) (Rules.compareKinds B op l' r') := by
  cases hl with
  | null =>
      cases hr with
      | null => exact L.ok (h.nullComparison_none op)
      | scalar hb | instant hb | duration hb | interval hb _ =>
          exact L.ok (h.nullComparison_some op hb)
      | condition _ => exact L.error _
  | scalar ha =>
      cases hr with
      | null => exact L.ok (h.nullComparison_some op ha)
      | scalar hb => exact h.ordered_lifts op .scalar ha hb
      | _ => exact L.error _
  | instant ha =>
      cases hr with
      | null => exact L.ok (h.nullComparison_some op ha)
      | instant hb => exact h.instantInstant_lifts op ha hb
      | interval hb hb' => exact h.instantInterval_lifts op ha hb hb'
      | _ => exact L.error _
  | duration ha =>
      cases hr with
      | null => exact L.ok (h.nullComparison_some op ha)
      | duration hb => exact h.ordered_lifts op .duration ha hb
      | _ => exact L.error _
  | interval ha ha' =>
      cases hr with
      | null => exact L.ok (h.nullComparison_some op ha)
      | instant hb => exact h.intervalInstant_lifts op ha ha' hb
      | interval hb hb' => exact L.ok (h.intervalInterval op ha ha' hb hb')
      | _ => exact L.error _
  | condition _ => cases hr <;> exact L.error _

theorem compare_lifts (h : A.Simulates L B T K) (op : ComparisonOp) (hl : Related T K l l')
    (hr : Related T K r r') :
    L.Rel K (Rules.compare A op l r) (Rules.compare B op l' r') := by
  unfold Rules.compare
  rw [hl.kind_eq, hr.kind_eq]
  split
  · exact L.error _
  · exact h.compareKinds_lifts op hl hr

theorem asCondition_lifts (h : A.Simulates L B T K) (hl : Related T K l l') :
    L.Rel K (Rules.asCondition A l) (Rules.asCondition B l') := by
  cases hl with
  | null => exact L.ok (h.literal none)
  | scalar ha => exact h.truthy ha
  | condition hc => exact L.ok hc
  | instant _ | duration _ | interval _ _ => exact L.error _

theorem logical (h : A.Simulates L B T K) (op : LogicalOp) {c d : κ} {c' d' : κ'} (hc : K c c')
    (hd : K d d') : K (Rules.logical A op c d) (Rules.logical B op c' d') := by
  cases op with
  | and => exact h.and hc hd
  | or => exact h.or hc hd

theorem negate_lifts (h : A.Simulates L B T K) (hl : Related T K l l') :
    L.Rel (Related T K) (Rules.negate A l) (Rules.negate B l') := by
  cases hl with
  | null => exact L.ok .null
  | scalar ha => exact L.map (h.negate ha) fun _ _ => .scalar
  | duration ha => exact L.map (h.negate ha) fun _ _ => .duration
  | instant _ | interval _ _ | condition _ => exact L.error _

theorem arithmetic_lifts (h : A.Simulates L B T K) (op : ArithmeticOp) (hl : Related T K l l')
    (hr : Related T K r r') :
    L.Rel (Related T K) (Rules.arithmetic A op l r) (Rules.arithmetic B op l' r') := by
  cases hl with
  | null =>
      cases hr with
      | condition _ => exact L.error _
      | _ => exact L.ok .null
  | scalar ha =>
      cases hr with
      | null => exact L.ok .null
      | scalar hb => exact L.map (h.arithmetic op .numbers ha hb) fun _ _ => .scalar
      | duration hb =>
          cases op with
          | mul => exact L.map (h.arithmetic .mul .durationScalar hb ha) fun _ _ => .duration
          | _ => exact L.error _
      | _ => exact L.error _
  | instant ha =>
      cases hr with
      | null => exact L.ok .null
      | duration hb =>
          cases op with
          | add | sub => exact L.map (h.arithmetic _ .instantDuration ha hb) fun _ _ => .instant
          | _ => exact L.error _
      | instant hb =>
          cases op with
          | sub => exact L.map (h.arithmetic .sub .instantInstant ha hb) fun _ _ => .duration
          | _ => exact L.error _
      | _ => exact L.error _
  | duration ha =>
      cases hr with
      | null => exact L.ok .null
      | duration hb =>
          cases op with
          | add | sub => exact L.map (h.arithmetic _ .durationDuration ha hb) fun _ _ => .duration
          | _ => exact L.error _
      | instant hb =>
          cases op with
          | add => exact L.map (h.arithmetic .add .instantDuration hb ha) fun _ _ => .instant
          | _ => exact L.error _
      | scalar hb =>
          cases op with
          | mul | div => exact L.map (h.arithmetic _ .durationScalar ha hb) fun _ _ => .duration
          | _ => exact L.error _
      | _ => exact L.error _
  | interval ha ha' =>
      cases hr with
      | null => exact L.ok .null
      | duration hb =>
          cases op with
          | add | sub =>
              exact L.bind (h.arithmetic _ .instantDuration ha hb) fun _ _ hstart =>
                L.bind (h.arithmetic _ .instantDuration ha' hb) fun _ _ hstop =>
                  L.ok (.interval hstart hstop)
          | _ => exact L.error _
      | _ => exact L.error _
  | condition _ => cases hr <;> exact L.error _

end Algebra.Simulates

/-- Where the leaves of an expression are lowered to related operands, so is every node. -/
theorem Backend.lower_lifts {L : Lifting FilterError} {b : Backend (Except FilterError) τ κ}
    {b' : Backend (Except FilterError) τ' κ'} {T : τ → τ' → Prop} {K : κ → κ' → Prop}
    (h : b.algebra.Simulates L b'.algebra T K)
    (hconstant : ∀ c, L.Rel (Operand.Related T K) (b.constant c) (b'.constant c))
    (hproperty : ∀ path, L.Rel (Operand.Related T K) (b.property path) (b'.property path))
    (e : Expression) : L.Rel (Operand.Related T K) (b.lower e) (b'.lower e) := by
  induction e with
  | constant c => exact hconstant c
  | property path => exact hproperty path
  | negate e ih => exact L.bind ih fun _ _ => h.negate_lifts
  | not e ih =>
      exact L.bind ih fun _ _ ho =>
        L.bind (h.asCondition_lifts ho) fun _ _ hc => L.ok (.condition (h.not hc))
  | arithmetic op l r ihl ihr =>
      exact L.bind ihl fun _ _ ho => L.bind ihr fun _ _ ho' => h.arithmetic_lifts op ho ho'
  | compare op l r ihl ihr =>
      exact L.bind ihl fun _ _ ho => L.bind ihr fun _ _ ho' =>
        L.bind (h.compare_lifts op ho ho') fun _ _ hc => L.ok (.condition hc)
  | logical op l r ihl ihr =>
      exact L.bind ihl fun _ _ ho => L.bind (h.asCondition_lifts ho) fun _ _ hc =>
        L.bind ihr fun _ _ ho' => L.bind (h.asCondition_lifts ho') fun _ _ hd =>
          L.ok (.condition (h.logical op hc hd))

theorem Backend.lowerCondition_lifts {L : Lifting FilterError}
    {b : Backend (Except FilterError) τ κ} {b' : Backend (Except FilterError) τ' κ'}
    {T : τ → τ' → Prop} {K : κ → κ' → Prop} (h : b.algebra.Simulates L b'.algebra T K)
    (hconstant : ∀ c, L.Rel (Operand.Related T K) (b.constant c) (b'.constant c))
    (hproperty : ∀ path, L.Rel (Operand.Related T K) (b.property path) (b'.property path))
    (e : Expression) : L.Rel K (b.lowerCondition e) (b'.lowerCondition e) :=
  L.bind (lower_lifts h hconstant hproperty e) fun _ _ => h.asCondition_lifts

end LiveFilter
