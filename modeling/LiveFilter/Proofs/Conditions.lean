import LiveFilter.Lowering
import LiveFilter.Proofs.Outcome

/-! # How conditions come about

Without null, the rules make a comparison out of comparisons with a term of one operand on one side
and a term of the other operand on the other side. The condition of a node is made out of the
conditions of its parts.
-/

namespace LiveFilter

open Outcome (bind_eq_ok)

variable {τ κ : Type}

namespace Operand

def terms : Operand τ κ → List τ
  | null | condition _ => []
  | scalar t | instant t | duration t => [t]
  | interval s e => [s, e]

end Operand

namespace Rules

/-- Conditions made by the connectives from comparisons across two lists of terms. -/
inductive Crossing (alg : Algebra τ κ) (left right : List τ) : κ → Prop
  | compare (r : Relation) {a b : τ} (ha : a ∈ left) (hb : b ∈ right) :
      Crossing alg left right (alg.compare r a b)
  | flipped (r : Relation) {a b : τ} (ha : a ∈ left) (hb : b ∈ right) :
      Crossing alg left right (alg.compare r b a)
  | and {c d : κ} (hc : Crossing alg left right c) (hd : Crossing alg left right d) :
      Crossing alg left right (alg.and c d)
  | or {c d : κ} (hc : Crossing alg left right c) (hd : Crossing alg left right d) :
      Crossing alg left right (alg.or c d)
  | not {c : κ} (hc : Crossing alg left right c) : Crossing alg left right (alg.not c)

variable {alg : Algebra τ κ} {op : ComparisonOp} {left right : Operand τ κ} {c : κ}

theorem ordered_crossing {kind : ValueKind} {a b : τ} (h : ordered alg op kind a b = .ok c) :
    Crossing alg [a] [b] c := by
  unfold ordered at h
  split at h
  · cases h
    exact .compare _ (.head _) (.head _)
  · cases h

theorem instantInstant_crossing {t u : τ} (h : instantInstant alg op t u = .ok c) :
    Crossing alg [t] [u] c := by
  cases op with
  | contains => cases h
  | _ =>
      cases h
      exact .compare _ (.head _) (.head _)

theorem instantInterval_crossing {t s e : τ} (h : instantInterval alg op t s e = .ok c) :
    Crossing alg [t] [s, e] c := by
  have ht : t ∈ [t] := .head _
  have hs : s ∈ [s, e] := .head _
  have he : e ∈ [s, e] := .tail _ (.head _)
  cases op with
  | contains => cases h
  | equal => cases h; exact .and (.compare _ ht hs) (.compare _ ht he)
  | notEqual => cases h; exact .not (.and (.compare _ ht hs) (.compare _ ht he))
  | greaterThan | after => cases h; exact .and (.compare _ ht he) (.compare _ ht hs)
  | greaterEqual | finishes => cases h; exact .compare _ ht he
  | lessThan | before | lessEqual | starts => cases h; exact .compare _ ht hs
  | meets => cases h; exact .or (.compare _ ht hs) (.compare _ ht he)
  | overlaps =>
      cases h
      exact .or (.compare _ ht hs) (.and (.flipped _ ht hs) (.flipped _ ht he))

theorem intervalInstant_crossing {s e t : τ} (h : intervalInstant alg op s e t = .ok c) :
    Crossing alg [s, e] [t] c := by
  have hs : s ∈ [s, e] := .head _
  have he : e ∈ [s, e] := .tail _ (.head _)
  have ht : t ∈ [t] := .head _
  cases op with
  | equal | contains => cases h; exact .and (.compare _ hs ht) (.compare _ he ht)
  | notEqual => cases h; exact .not (.and (.compare _ hs ht) (.compare _ he ht))
  | greaterThan | after | greaterEqual | starts => cases h; exact .compare _ hs ht
  | lessThan | before | lessEqual | finishes => cases h; exact .compare _ he ht
  | meets => cases h; exact .or (.compare _ hs ht) (.compare _ he ht)
  | overlaps =>
      cases h
      exact .or (.compare _ hs ht) (.and (.compare _ hs ht) (.compare _ he ht))

theorem intervalInterval_crossing (alg : Algebra τ κ) (op : ComparisonOp) (s e u v : τ) :
    Crossing alg [s, e] [u, v] (intervalInterval alg op s e u v) := by
  have hs : s ∈ [s, e] := .head _
  have he : e ∈ [s, e] := .tail _ (.head _)
  have hu : u ∈ [u, v] := .head _
  have hv : v ∈ [u, v] := .tail _ (.head _)
  cases op with
  | equal | contains => exact .and (.compare _ hs hu) (.compare _ he hv)
  | notEqual => exact .not (.and (.compare _ hs hu) (.compare _ he hv))
  | greaterThan | after => exact .and (.compare _ hs hv) (.compare _ hs hu)
  | greaterEqual => exact .compare _ hs hv
  | lessThan | before => exact .and (.compare _ he hu) (.compare _ he hv)
  | lessEqual => exact .compare _ he hu
  | meets => exact .or (.compare _ hs hv) (.compare _ he hu)
  | overlaps =>
      exact .or (.compare _ hs hu) (.and (.compare _ hs hv) (.compare _ he hu))
  | starts => exact .compare _ hs hu
  | finishes => exact .compare _ he hv

theorem compareKinds_crossing (hl : left.kind ≠ .null) (hr : right.kind ≠ .null)
    (h : compareKinds alg op left right = .ok c) : Crossing alg left.terms right.terms c := by
  cases left with
  | null => exact absurd rfl hl
  | condition _ => cases right <;> cases h
  | scalar a =>
      cases right with
      | null => exact absurd rfl hr
      | scalar b => exact ordered_crossing h
      | _ => cases h
  | instant t =>
      cases right with
      | null => exact absurd rfl hr
      | instant u => exact instantInstant_crossing h
      | interval s e => exact instantInterval_crossing h
      | _ => cases h
  | duration a =>
      cases right with
      | null => exact absurd rfl hr
      | duration b => exact ordered_crossing h
      | _ => cases h
  | interval s e =>
      cases right with
      | null => exact absurd rfl hr
      | instant t => exact intervalInstant_crossing h
      | interval u v =>
          cases h
          exact intervalInterval_crossing alg op s e u v
      | _ => cases h

theorem compareKinds_of_compare (h : compare alg op left right = .ok c) :
    compareKinds alg op left right = .ok c := by
  unfold compare at h
  split at h
  · cases h
  · exact h

theorem compare_crossing (hl : left.kind ≠ .null) (hr : right.kind ≠ .null)
    (h : compare alg op left right = .ok c) : Crossing alg left.terms right.terms c :=
  compareKinds_crossing hl hr (compareKinds_of_compare h)

theorem compare_null (h : compare alg op left .null = .ok c) :
    c = nullComparison alg op left.terms.head? := by
  have h := compareKinds_of_compare h
  cases left <;> cases h <;> rfl

theorem null_compare (h : compare alg op .null right = .ok c) :
    c = nullComparison alg op right.terms.head? := by
  have h := compareKinds_of_compare h
  cases right <;> cases h <;> rfl

theorem kind_ne_boolean_of_compare (h : compare alg op left right = .ok c) :
    left.kind ≠ .boolean ∧ right.kind ≠ .boolean := by
  have h := compareKinds_of_compare h
  constructor
  · intro hkind
    cases left with
    | condition _ => cases right <;> cases h
    | _ => cases hkind
  · intro hkind
    cases right with
    | condition _ => cases left <;> cases h
    | _ => cases hkind

section

variable {x y : Except FilterError (Operand τ κ)}

theorem not_eq_ok :
    ((do let o ← x; let d ← asCondition alg o; .ok (Operand.condition (alg.not d))) >>=
      asCondition alg) = .ok c ↔
    ∃ d, (x >>= asCondition alg) = .ok d ∧ alg.not d = c := by
  constructor
  · intro h
    obtain ⟨_, ho, hc⟩ := bind_eq_ok.1 h
    obtain ⟨o, hx, ho⟩ := bind_eq_ok.1 ho
    obtain ⟨d, hd, ho⟩ := bind_eq_ok.1 ho
    cases ho
    cases hc
    exact ⟨d, bind_eq_ok.2 ⟨o, hx, hd⟩, rfl⟩
  · rintro ⟨d, h, rfl⟩
    obtain ⟨o, hx, hd⟩ := bind_eq_ok.1 h
    exact bind_eq_ok.2 ⟨_, bind_eq_ok.2 ⟨o, hx, bind_eq_ok.2 ⟨d, hd, rfl⟩⟩, rfl⟩

theorem compare_eq_ok :
    ((do let l ← x; let r ← y; let d ← compare alg op l r; .ok (Operand.condition d)) >>=
      asCondition alg) = .ok c ↔
    ∃ l r, x = .ok l ∧ y = .ok r ∧ compare alg op l r = .ok c := by
  constructor
  · intro h
    obtain ⟨_, ho, hc⟩ := bind_eq_ok.1 h
    obtain ⟨l, hx, ho⟩ := bind_eq_ok.1 ho
    obtain ⟨r, hy, ho⟩ := bind_eq_ok.1 ho
    obtain ⟨d, hd, ho⟩ := bind_eq_ok.1 ho
    cases ho
    cases hc
    exact ⟨l, r, hx, hy, hd⟩
  · rintro ⟨l, r, hx, hy, hc⟩
    exact bind_eq_ok.2
      ⟨_, bind_eq_ok.2 ⟨l, hx, bind_eq_ok.2 ⟨r, hy, bind_eq_ok.2 ⟨c, hc, rfl⟩⟩⟩, rfl⟩

theorem logical_eq_ok {op : LogicalOp} :
    ((do
      let l ← x
      let d ← asCondition alg l
      let r ← y
      let e ← asCondition alg r
      .ok (Operand.condition (logical alg op d e))) >>= asCondition alg) = .ok c ↔
    ∃ d e, (x >>= asCondition alg) = .ok d ∧ (y >>= asCondition alg) = .ok e ∧
      logical alg op d e = c := by
  constructor
  · intro h
    obtain ⟨_, ho, hc⟩ := bind_eq_ok.1 h
    obtain ⟨l, hx, ho⟩ := bind_eq_ok.1 ho
    obtain ⟨d, hd, ho⟩ := bind_eq_ok.1 ho
    obtain ⟨r, hy, ho⟩ := bind_eq_ok.1 ho
    obtain ⟨e, he, ho⟩ := bind_eq_ok.1 ho
    cases ho
    cases hc
    exact ⟨d, e, bind_eq_ok.2 ⟨l, hx, hd⟩, bind_eq_ok.2 ⟨r, hy, he⟩, rfl⟩
  · rintro ⟨d, e, h, h', rfl⟩
    obtain ⟨l, hx, hd⟩ := bind_eq_ok.1 h
    obtain ⟨r, hy, he⟩ := bind_eq_ok.1 h'
    exact bind_eq_ok.2
      ⟨.condition (logical alg op d e), bind_eq_ok.2 ⟨l, hx, bind_eq_ok.2 ⟨d, hd,
        bind_eq_ok.2 ⟨r, hy, bind_eq_ok.2 ⟨e, he, rfl⟩⟩⟩⟩, rfl⟩

end

end Rules

end LiveFilter
