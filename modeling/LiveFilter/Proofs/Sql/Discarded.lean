import LiveFilter.Proofs.Sql.Kinds
import LiveFilter.Proofs.Sql.Placeholders

/-! # Parameters without a placeholder

A literal is bound before its operator is looked at. When the rule then leaves the operand aside,
because the other one is null, or looks at one bound of an interval only, the parameter stays
without a placeholder. There is no other way to lose one.
-/

namespace LiveFilter

open Outcome (bind_eq_ok map_eq_ok)
open Rules (extentLeft extentRight)

namespace Expression

/-- An interval literal, perhaps moved by durations. -/
def IsMovedInterval : Expression → Prop
  | constant (.interval _) => True
  | arithmetic _ l _ => l.IsMovedInterval
  | _ => False

/-- The extent takes in whatever the operand has of the literals. -/
def CoveredBy (e : Expression) (extent : Extent) : Prop :=
  (e.arguments ≠ [] → extent ≠ .nothing) ∧ (e.IsMovedInterval → extent = .whole)

theorem arguments_eq_nil_iff (type : TimestampType) (n : Nat) {e : Expression} :
    e.arguments = [] ↔ ∀ x, x ∉ e.slots type n := by
  rw [← List.length_eq_zero_iff, ← length_casts type, List.length_eq_zero_iff,
    ← List.eq_nil_iff_forall_not_mem]
  exact List.zipIdx_eq_nil_iff.symm

theorem IsMovedInterval.arguments_ne_nil {e : Expression} (h : e.IsMovedInterval) :
    e.arguments ≠ [] := by
  induction e with
  | constant c =>
      cases c with
      | interval i => exact nofun
      | _ => exact h.elim
  | arithmetic op l r ihl _ =>
      intro hnil
      refine ihl h ?_
      unfold arguments at hnil ⊢
      rw [literals, List.flatMap_append] at hnil
      exact (List.append_eq_nil_iff.1 hnil).1
  | _ => exact h.elim

end Expression

namespace Sql.Table

/-- No operator of the expression leaves a literal aside. -/
def KeepsLiterals (t : Table) : Expression → Prop
  | .constant _ | .property _ => True
  | .negate e | .not e => t.KeepsLiterals e
  | .arithmetic _ l r =>
      (t.KeepsLiterals l ∧ t.KeepsLiterals r) ∧
        (l.arguments ≠ [] → t.kind r ≠ .null) ∧ (r.arguments ≠ [] → t.kind l ≠ .null)
  | .compare op l r =>
      (t.KeepsLiterals l ∧ t.KeepsLiterals r) ∧
        l.CoveredBy (extentLeft op (t.kind r)) ∧ r.CoveredBy (extentRight op (t.kind l))
  | .logical _ l r => t.KeepsLiterals l ∧ t.KeepsLiterals r

variable {t : Table} {n : Nat} {e l r : Expression} {o a b : Operand SqlField SqlCondition}

/-- The placeholders of an operand next to those that its literals were given. -/
structure Traced (t : Table) (n : Nat) (e : Expression) (o : Operand SqlField SqlCondition) :
    Prop where
  keeps : (∀ x ∈ e.slots t.timestampType n, x ∈ o.placeholders) ↔ t.KeepsLiterals e
  sided : e.IsMovedInterval → o = .null ∨ ∃ f g, o = .interval f g ∧
    (∃ x ∈ f.placeholders, x ∉ g.placeholders) ∧ ∃ x ∈ g.placeholders, x ∉ f.placeholders
  paired : ¬e.IsMovedInterval → ∀ f g, o = .interval f g →
    ∀ x, x ∈ f.placeholders ↔ x ∈ g.placeholders

theorem mentions_terms {x : Option SqlType × Nat} (h : o.kind ≠ .boolean)
    (hx : x ∈ o.placeholders) : Mentions o.terms x := by
  cases o with
  | condition c => exact absurd rfl h
  | _ => exact List.mem_flatMap.1 hx

theorem Traced.coveredBy_of_visible (h : Traced t n e o) (ho : t.lowerAt n e = .ok o)
    {extent : Extent}
    (hvisible : ∀ x ∈ e.slots t.timestampType n, Mentions (o.visible extent) x) :
    e.CoveredBy extent := by
  have hnothing (hargs : e.arguments ≠ []) : extent ≠ .nothing := by
    rintro rfl
    refine hargs ((Expression.arguments_eq_nil_iff t.timestampType n).2 fun x hx => ?_)
    obtain ⟨f, hf, _⟩ := hvisible x hx
    cases hf
  refine ⟨hnothing, fun hmoved => ?_⟩
  obtain rfl | ⟨f, g, rfl, ⟨x, hx, hxg⟩, y, hy, hyf⟩ := h.sided hmoved
  · refine absurd ?_ hmoved.arguments_ne_nil
    rw [Expression.arguments_eq_nil_iff t.timestampType n]
    intro x hx
    exact not_mentions_null extent (hvisible x hx)
  -- each bound has a placeholder that the other one lacks, so that one bound is not enough
  · have hslot {z : Option SqlType × Nat} (hz : z ∈ f.placeholders ∨ z ∈ g.placeholders) :
        Mentions ((Operand.interval f g : Operand SqlField SqlCondition).visible extent) z := by
      apply hvisible
      apply mem_slots_of_lowerAt ho
      exact Operand.mem_placeholders_interval.2 hz
    cases extent with
    | nothing => exact absurd rfl (hnothing hmoved.arguments_ne_nil)
    | whole => rfl
    | start =>
        obtain ⟨h, hh, hyh⟩ := hslot (.inr hy)
        rw [List.mem_singleton.1 hh] at hyh
        exact absurd hyh hyf
    | stop =>
        obtain ⟨h, hh, hxh⟩ := hslot (.inl hx)
        rw [List.mem_singleton.1 hh] at hxh
        exact absurd hxh hxg

theorem Traced.visible_of_coveredBy (h : Traced t n e o) (hkind : o.kind ≠ .boolean)
    (hkeeps : t.KeepsLiterals e) {extent : Extent} (hcovered : e.CoveredBy extent)
    {x : Option SqlType × Nat} (hx : x ∈ e.slots t.timestampType n) :
    Mentions (o.visible extent) x := by
  have hmem := h.keeps.2 hkeeps x hx
  have hnothing : extent ≠ .nothing :=
    hcovered.1 fun hargs => (Expression.arguments_eq_nil_iff _ _).1 hargs x hx
  by_cases hinterval : o.kind = .interval
  · obtain ⟨f, g, rfl⟩ := Operand.eq_interval_of_kind hinterval
    by_cases hmoved : e.IsMovedInterval
    · rw [hcovered.2 hmoved]
      exact mentions_terms hkind hmem
    · have hboth : x ∈ f.placeholders ∧ x ∈ g.placeholders := by
        have hpaired := h.paired hmoved f g rfl x
        obtain hf | hg := Operand.mem_placeholders_interval.1 hmem
        · exact ⟨hf, hpaired.1 hf⟩
        · exact ⟨hpaired.2 hg, hg⟩
      cases extent with
      | nothing => exact absurd rfl hnothing
      | start => exact ⟨f, List.mem_cons_self, hboth.1⟩
      | stop => exact ⟨g, List.mem_cons_self, hboth.2⟩
      | whole => exact mentions_terms hkind hmem
  · rw [Operand.visible_eq_terms hinterval hnothing]
    exact mentions_terms hkind hmem

theorem forall_slots_append {type : TimestampType} {P Q R : Option SqlType × Nat → Prop}
    (hP : ∀ x, P x → x ∈ l.slots type n)
    (hQ : ∀ x, Q x → x ∈ r.slots type (n + l.arguments.length))
    (hR : ∀ x, R x ↔ P x ∨ Q x) :
    (∀ x ∈ ((l.literals ++ r.literals).flatMap (Constant.casts type)).zipIdx (n + 1), R x) ↔
      (∀ x ∈ l.slots type n, P x) ∧ ∀ x ∈ r.slots type (n + l.arguments.length), Q x := by
  constructor
  · intro h
    constructor
    · intro x hx
      have hRx := h x (Expression.mem_slots_append.2 (.inl hx))
      exact ((hR x).1 hRx).resolve_right fun hq => Expression.slots_disjoint hx (hQ x hq)
    · intro x hx
      have hRx := h x (Expression.mem_slots_append.2 (.inr hx))
      exact ((hR x).1 hRx).resolve_left fun hp => Expression.slots_disjoint (hP x hp) hx
  · rintro ⟨hl, hr⟩ x hx
    obtain hx | hx := Expression.mem_slots_append.1 hx
    · exact (hR x).2 (.inl (hl x hx))
    · exact (hR x).2 (.inr (hr x hx))

theorem traced_condition {c : SqlCondition} (hmoved : ¬e.IsMovedInterval)
    (h : (∀ x ∈ e.slots t.timestampType n, x ∈ c.placeholders) ↔ t.KeepsLiterals e) :
    Traced t n e (.condition c) :=
  ⟨h, fun hm => absurd hm hmoved, nofun⟩

theorem traced_constant (k : Constant) :
    Traced t n (.constant k) (placeholder t.timestampType n k) where
  keeps := by
    refine iff_of_true (fun x hx => ?_) trivial
    rw [placeholders_placeholder]
    unfold Expression.slots Expression.casts at hx
    rwa [Expression.literals, List.flatMap_singleton] at hx
  sided hmoved := by
    cases k with
    | interval i =>
        refine .inr ⟨_, _, rfl, ⟨_, List.mem_cons_self, ?_⟩, _, List.mem_cons_self, ?_⟩ <;>
          simp [SqlField.placeholders]
    | _ => exact hmoved.elim
  paired hmoved f g h := by
    cases k with
    | interval i => exact absurd trivial hmoved
    | _ => cases h

theorem traced_property {path : PropertyPath} {m : ColumnMapping} :
    Traced t n (.property path) (ofMapping m) where
  keeps := iff_of_true (fun x hx => by cases hx) trivial
  sided hmoved := hmoved.elim
  paired _ f g h x := by
    cases m <;> cases h
    exact Iff.rfl

theorem traced_negate (h : Traced t n e a) (ho : Rules.negate (algebra t.timestampType) a = .ok o) :
    Traced t n (.negate e) o where
  keeps := by
    rw [placeholders_negate ho]
    exact h.keeps
  sided hmoved := hmoved.elim
  paired _ f g hinterval := by
    subst hinterval
    cases a <;> cases ho

section

variable {op : ArithmeticOp}

theorem Traced.arguments_of_null (h : Traced t n e .null) (hkeeps : t.KeepsLiterals e) :
    e.arguments = [] :=
  (Expression.arguments_eq_nil_iff _ _).2 fun x hx => by cases h.keeps.2 hkeeps x hx

theorem traced_arithmetic_null (hl : Traced t n l a)
    (hr : Traced t (n + l.arguments.length) r b) (hkindl : a.kind = t.kind l)
    (hkindr : b.kind = t.kind r) (hnull : a = .null ∨ b = .null) :
    Traced t n (.arithmetic op l r) .null where
  keeps := by
    constructor
    · intro h
      have hslots (x : Option SqlType × Nat) : x ∉ l.slots t.timestampType n ∧
          x ∉ r.slots t.timestampType (n + l.arguments.length) := by
        constructor <;> intro hx
        · cases h x (Expression.mem_slots_append.2 (.inl hx))
        · cases h x (Expression.mem_slots_append.2 (.inr hx))
      have hargsl := (Expression.arguments_eq_nil_iff _ _).2 fun x => (hslots x).1
      have hargsr := (Expression.arguments_eq_nil_iff _ _).2 fun x => (hslots x).2
      refine ⟨⟨hl.keeps.1 fun x hx => ?_, hr.keeps.1 fun x hx => ?_⟩,
        fun hargs => absurd hargsl hargs, fun hargs => absurd hargsr hargs⟩
      · exact absurd hx (hslots x).1
      · exact absurd hx (hslots x).2
    · rintro ⟨⟨hkeepsl, hkeepsr⟩, hnullr, hnulll⟩
      have hargs : l.arguments = [] ∧ r.arguments = [] := by
        obtain rfl | rfl := hnull
        · exact ⟨hl.arguments_of_null hkeepsl,
            Decidable.not_not.1 fun hargs => hnulll hargs hkindl.symm⟩
        · exact ⟨Decidable.not_not.1 fun hargs => hnullr hargs hkindr.symm,
            hr.arguments_of_null hkeepsr⟩
      intro x hx
      obtain hx | hx := Expression.mem_slots_append.1 hx
      · exact absurd hx ((Expression.arguments_eq_nil_iff _ _).1 hargs.1 x)
      · exact absurd hx ((Expression.arguments_eq_nil_iff _ _).1 hargs.2 x)
  sided _ := .inl rfl
  paired _ := nofun

theorem traced_arithmetic (hl : Traced t n l a) (hr : Traced t (n + l.arguments.length) r b)
    (ha : t.lowerAt n l = .ok a) (hb : t.lowerAt (n + l.arguments.length) r = .ok b)
    (hcomputed : Rules.Computed (algebra t.timestampType) op a b o) (hanull : a ≠ .null)
    (hbnull : b ≠ .null) : Traced t n (.arithmetic op l r) o where
  keeps := by
    have hkinds : (l.arguments ≠ [] → t.kind r ≠ .null) ∧
        (r.arguments ≠ [] → t.kind l ≠ .null) := by
      rw [← kind_of_lowerAt ha, ← kind_of_lowerAt hb]
      exact ⟨fun _ h => hbnull (Operand.eq_null_of_kind h),
        fun _ h => hanull (Operand.eq_null_of_kind h)⟩
    refine (forall_slots_append (fun x => mem_slots_of_lowerAt ha)
      (fun x => mem_slots_of_lowerAt hb)
      fun x => mem_placeholders_computed hcomputed hanull hbnull).trans ?_
    rw [hl.keeps, hr.keeps]
    exact (and_iff_left hkinds).symm
  sided hmoved := by
    obtain rfl | ⟨f, g, rfl, ⟨x, hx, hxg⟩, y, hy, hyf⟩ := hl.sided hmoved
    · exact absurd rfl hanull
    cases hcomputed with
    | null h => exact absurd h (not_or.2 ⟨hanull, hbnull⟩)
    | joined _ hterms _ _ _ _ => cases hterms
    | @moved _ _ d _ _ hs he =>
        cases hs
        cases he
        -- the literal and the duration that moves it have different placeholders
        have hother {z : Option SqlType × Nat} (hz : z ∈ f.placeholders ∨ z ∈ g.placeholders) :
            z ∉ d.placeholders := by
          intro hd
          have hzl := mem_slots_of_lowerAt ha (Operand.mem_placeholders_interval.2 hz)
          have hzr : z ∈ r.slots t.timestampType (n + l.arguments.length) := by
            apply mem_slots_of_lowerAt hb
            rwa [Operand.placeholders_of_terms rfl]
          exact Expression.slots_disjoint hzl hzr
        refine .inr ⟨_, _, rfl, ⟨x, ?_, ?_⟩, y, ?_, ?_⟩ <;>
          rw [placeholders_arithmetic, List.mem_append]
        · exact .inl hx
        · exact not_or.2 ⟨hxg, hother (.inl hx)⟩
        · exact .inl hy
        · exact not_or.2 ⟨hyf, hother (.inr hy)⟩
  paired hmoved f g hinterval x := by
    subst hinterval
    cases hcomputed with
    | joined _ _ _ hterms _ _ => cases hterms
    | @moved s e _ _ _ hs he =>
        cases hs
        cases he
        rw [placeholders_arithmetic, placeholders_arithmetic, List.mem_append, List.mem_append,
          hl.paired hmoved s e rfl x]

end

theorem keeps_compare (hl : Traced t n l a) (hr : Traced t (n + l.arguments.length) r b)
    (ha : t.lowerAt n l = .ok a) (hb : t.lowerAt (n + l.arguments.length) r = .ok b)
    {op : ComparisonOp} {c : SqlCondition}
    (hc : Rules.compare (algebra t.timestampType) op a b = .ok c) :
    (∀ x ∈ (Expression.compare op l r).slots t.timestampType n, x ∈ c.placeholders) ↔
      t.KeepsLiterals (.compare op l r) := by
  obtain ⟨hkinda, hkindb⟩ := Rules.kind_ne_boolean_of_compare hc
  have hmem (x : Option SqlType × Nat) : x ∈ c.placeholders ↔
      Mentions (a.visible (extentLeft op (t.kind r))) x ∨
        Mentions (b.visible (extentRight op (t.kind l))) x := by
    rw [← kind_of_lowerAt ha, ← kind_of_lowerAt hb]
    exact mem_placeholders_compare hc
  refine (forall_slots_append
    (fun x hx => mem_slots_of_lowerAt ha (mem_placeholders_of_visible hx))
    (fun x hx => mem_slots_of_lowerAt hb (mem_placeholders_of_visible hx)) hmem).trans ?_
  constructor
  · rintro ⟨hvisiblel, hvisibler⟩
    exact ⟨⟨hl.keeps.1 fun x hx => mem_placeholders_of_visible (hvisiblel x hx),
        hr.keeps.1 fun x hx => mem_placeholders_of_visible (hvisibler x hx)⟩,
      hl.coveredBy_of_visible ha hvisiblel, hr.coveredBy_of_visible hb hvisibler⟩
  · rintro ⟨⟨hkeepsl, hkeepsr⟩, hcoveredl, hcoveredr⟩
    exact ⟨fun x => hl.visible_of_coveredBy hkinda hkeepsl hcoveredl,
      fun x => hr.visible_of_coveredBy hkindb hkeepsr hcoveredr⟩

theorem traced_of_lowerAt (ho : t.lowerAt n e = .ok o) : Traced t n e o := by
  induction e generalizing n o with
  | constant k =>
      cases ho
      exact traced_constant k
  | property path =>
      obtain ⟨m, _, rfl⟩ := map_eq_ok.1 ho
      exact traced_property
  | negate e ih =>
      obtain ⟨a, ha, ho⟩ := bind_eq_ok.1 ho
      exact traced_negate (ih ha) ho
  | not e ih =>
      obtain ⟨a, ha, ho⟩ := bind_eq_ok.1 ho
      obtain ⟨c, hc, ho⟩ := bind_eq_ok.1 ho
      cases ho
      refine traced_condition not_false ?_
      have hkeeps := (ih ha).keeps
      rwa [← placeholders_asCondition hc] at hkeeps
  | arithmetic op l r ihl ihr =>
      obtain ⟨a, ha, ho⟩ := bind_eq_ok.1 ho
      obtain ⟨b, hb, ho⟩ := bind_eq_ok.1 ho
      have hcomputed := Rules.computed_of_arithmetic ho
      by_cases hnull : a = .null ∨ b = .null
      · rw [hcomputed.eq_null hnull]
        exact traced_arithmetic_null (ihl ha) (ihr hb) (kind_of_lowerAt ha) (kind_of_lowerAt hb)
          hnull
      · obtain ⟨hanull, hbnull⟩ := not_or.1 hnull
        exact traced_arithmetic (ihl ha) (ihr hb) ha hb hcomputed hanull hbnull
  | compare op l r ihl ihr =>
      obtain ⟨a, ha, ho⟩ := bind_eq_ok.1 ho
      obtain ⟨b, hb, ho⟩ := bind_eq_ok.1 ho
      obtain ⟨c, hc, ho⟩ := bind_eq_ok.1 ho
      cases ho
      exact traced_condition not_false (keeps_compare (ihl ha) (ihr hb) ha hb hc)
  | logical op l r ihl ihr =>
      obtain ⟨a, ha, ho⟩ := bind_eq_ok.1 ho
      obtain ⟨c, hc, ho⟩ := bind_eq_ok.1 ho
      obtain ⟨b, hb, ho⟩ := bind_eq_ok.1 ho
      obtain ⟨d, hd, ho⟩ := bind_eq_ok.1 ho
      cases ho
      refine traced_condition not_false ?_
      have hmem (x : Option SqlType × Nat) :
          x ∈ (Rules.logical (algebra t.timestampType) op c d).placeholders ↔
            x ∈ a.placeholders ∨ x ∈ b.placeholders := by
        rw [mem_placeholders_logical, placeholders_asCondition hc, placeholders_asCondition hd]
      refine (forall_slots_append (fun x => mem_slots_of_lowerAt ha)
        (fun x => mem_slots_of_lowerAt hb) hmem).trans ?_
      rw [(ihl ha).keeps, (ihr hb).keeps]
      rfl

/-- No placeholder is out of range, and every parameter has one exactly if no operator of the filter
leaves a literal aside. -/
theorem compile_indices_iff {c : CompiledFilter} (h : t.compile e = .ok c) :
    (∀ k ∈ c.condition.indices, 1 ≤ k ∧ k ≤ c.params.length) ∧
      ((∀ k, k ∈ c.condition.indices ↔ 1 ≤ k ∧ k ≤ c.params.length) ↔ t.KeepsLiterals e) := by
  rw [compile_eq] at h
  obtain ⟨condition, hcondition, rfl⟩ := map_eq_ok.1 h
  obtain ⟨o, ho, hc⟩ := bind_eq_ok.1 hcondition
  have hslot {cast : Option SqlType} {k : Nat} (hx : (cast, k) ∈ condition.placeholders) :
      1 ≤ k ∧ (e.casts t.timestampType)[k - 1]? = some cast := by
    rw [placeholders_asCondition hc] at hx
    have hx := Expression.mem_slots.1 (mem_slots_of_lowerAt ho hx)
    rwa [Nat.zero_add] at hx
  have hlength : (e.casts t.timestampType).length = (e.params t.timestampType).length := by
    rw [Expression.length_casts, Expression.length_params]
  have hrange : ∀ k ∈ condition.indices, 1 ≤ k ∧ k ≤ (e.params t.timestampType).length := by
    intro k hk
    obtain ⟨⟨cast, _⟩, hx, rfl⟩ := List.mem_map.1 hk
    obtain ⟨hpos, hcast⟩ := hslot hx
    have hlt := (List.getElem?_eq_some_iff.1 hcast).1
    exact ⟨hpos, by omega⟩
  refine ⟨hrange, ?_⟩
  rw [← (traced_of_lowerAt ho).keeps, ← placeholders_asCondition hc]
  constructor
  · rintro hall ⟨cast, k⟩ hx
    obtain ⟨hpos, hcast⟩ := Expression.mem_slots.1 hx
    rw [Nat.zero_add] at hpos hcast
    have hlt := (List.getElem?_eq_some_iff.1 hcast).1
    have hle : k ≤ (e.params t.timestampType).length := by omega
    obtain ⟨⟨cast', _⟩, hx', rfl⟩ := List.mem_map.1 ((hall k).2 ⟨hpos, hle⟩)
    -- a number has one cast, so that the placeholder with this number is the one in question
    rw [(hslot hx').2] at hcast
    cases hcast
    exact hx'
  · intro hkeeps k
    refine ⟨hrange k, fun ⟨hpos, hle⟩ => ?_⟩
    change k ≤ (e.params t.timestampType).length at hle
    have hlt : k - 1 < (e.casts t.timestampType).length := by omega
    have hslotk : ((e.casts t.timestampType)[k - 1], k) ∈ e.slots t.timestampType 0 := by
      rw [Expression.mem_slots, Nat.zero_add]
      exact ⟨hpos, List.getElem?_eq_getElem hlt⟩
    exact List.mem_map.2 ⟨_, hkeeps _ hslotk, rfl⟩

/-- Both bounds of the literal are compared, beside a number that is compared too. -/
theorem compile_indices_iff_overlaps :
    let start : Instant := .utc ⟨0, 0, 0, by decide⟩
    let e : Expression :=
      (Expression.compare .overlaps (.property (.single (.entity .phenomenonTime)))
        (.constant (.interval ⟨start, .utc ⟨2, 0, 0, by decide⟩⟩))).and
          (.compare .lessThan (.constant (.integer 5)) (.property (.single (.entity .result))))
    let t : Table := ⟨.observation, .withTimeZone, ColumnResolver.byName⟩
    ∃ c, t.compile e = .ok c ∧ t.KeepsLiterals e ∧ c.params.length = 3 ∧
      ∀ k, k ∈ c.condition.indices ↔ 1 ≤ k ∧ k ≤ c.params.length := by
  intro start e t
  obtain ⟨c, hc, hparams⟩ : ∃ c, t.compile e = .ok c ∧ c.params.length = 3 := ⟨_, rfl, rfl⟩
  have hwhole : Extent.whole ≠ .nothing := nofun
  have hstop : Extent.stop ≠ .nothing := nofun
  have hkeeps : t.KeepsLiterals e := by
    refine ⟨⟨⟨trivial, trivial⟩, ?_, ?_⟩, ⟨trivial, trivial⟩, ?_, ?_⟩
    · exact ⟨fun _ => hwhole, fun _ => rfl⟩
    · exact ⟨fun _ => hwhole, fun _ => rfl⟩
    · exact ⟨fun _ => hstop, False.elim⟩
    · exact ⟨fun _ => hwhole, fun _ => rfl⟩
  exact ⟨c, hc, hkeeps, hparams, (compile_indices_iff hc).2.2 hkeeps⟩

/-- Only the start of the literal is compared, but its end is bound as well. -/
theorem starts_leaves_parameter :
    let start : Instant := .utc ⟨0, 0, 0, by decide⟩
    let e : Expression :=
      .compare .starts (.property (.single (.entity .phenomenonTime)))
        (.constant (.interval ⟨start, .utc ⟨2, 0, 0, by decide⟩⟩))
    let t : Table := ⟨.observation, .withTimeZone, ColumnResolver.byName⟩
    ∃ c, t.compile e = .ok c ∧ c.params.length = 2 ∧ 2 ∉ c.condition.indices := by
  intro start e t
  exact ⟨_, rfl, rfl, by decide⟩

end Sql.Table

end LiveFilter
