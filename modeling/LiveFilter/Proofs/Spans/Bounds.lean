import LiveFilter.Proofs.Evaluation

/-! # Spans of time

An instant or an interval spans a stretch of time. The rules have a row for each mix of the two,
and yet before, after, contains, meets and overlaps come down to one comparison of bounds each. What
else counts is that an instant is before nothing that starts with it, and that an interval does not
contain the instant at its end.
-/

namespace LiveFilter

/-- What an operand takes up of time. -/
inductive Span where
  | instant (value : Instant)
  | interval (value : Interval)

namespace Span

variable {x y : Span}

def value : Span → Value
  | instant t => .instant t
  | interval i => .interval i

def start : Span → Instant
  | instant t => t
  | interval i => i.start

def stop : Span → Instant
  | instant t => t
  | interval i => i.stop

def IsInstant : Span → Prop
  | instant _ => True
  | interval _ => False

instance : (x : Span) → Decidable x.IsInstant
  | instant _ => inferInstanceAs (Decidable True)
  | interval _ => inferInstanceAs (Decidable False)

def Ordered (x : Span) : Prop := x.start.compare x.stop ≠ .gt

instance (x : Span) : Decidable x.Ordered := inferInstanceAs (Decidable (_ ≠ _))

def IsPoint (x : Span) : Prop := x.start.compare x.stop = .eq

instance (x : Span) : Decidable x.IsPoint := inferInstanceAs (Decidable (_ = _))

def first (x : Span) : Int := x.start.time.position

def last (x : Span) : Int := x.stop.time.position

theorem ordered_iff : x.Ordered ↔ x.first ≤ x.last := Int.compare_ne_gt

theorem isPoint_iff : x.IsPoint ↔ x.first = x.last := Int.compare_eq_eq

theorem IsInstant.first_eq_last (h : x.IsInstant) : x.first = x.last := by
  cases x with
  | instant t => rfl
  | interval i => cases h

def Before (x y : Span) : Prop :=
  x.last ≤ y.first ∧ x.last < y.last ∧ (x.IsInstant → x.last < y.first)

def After (x y : Span) : Prop := y.last ≤ x.first ∧ y.first < x.first

def Contains (x y : Span) : Prop :=
  x.first ≤ y.first ∧ y.last ≤ x.last ∧ (y.IsInstant → y.last < x.last)

def Meets (x y : Span) : Prop := x.first = y.last ∨ x.last = y.first

def Overlaps (x y : Span) : Prop :=
  x.first = y.first ∨ (x.first < y.last ∧ y.first < x.last)

end Span

def Relation.Relates : Relation → Int → Int → Prop
  | eq, m, n => m = n
  | ne, m, n => m ≠ n
  | lt, m, n => m < n
  | le, m, n => m ≤ n
  | gt, m, n => n < m
  | ge, m, n => n ≤ m

theorem Relation.holds_compare (r : Relation) (m n : Int) :
    r.holds (Ord.compare m n) = true ↔ r.Relates m n := by
  cases r with
  | eq => exact beq_iff_eq.trans Int.compare_eq_eq
  | ne => exact bne_iff_ne.trans (not_congr Int.compare_eq_eq)
  | lt => exact beq_iff_eq.trans Int.compare_eq_lt
  | le => exact bne_iff_ne.trans Int.compare_ne_gt
  | gt => exact beq_iff_eq.trans Int.compare_eq_gt
  | ge => exact bne_iff_ne.trans Int.compare_ne_lt

namespace Truth

variable {p q : Prop} {v w : Truth}

def Tells (v : Truth) (p : Prop) : Prop := (v = .true ∧ p) ∨ (v = .false ∧ ¬p)

theorem tells_ofBool {b : Bool} (h : b = Bool.true ↔ p) : (ofBool b).Tells p := by
  cases b with
  | true => exact .inl ⟨rfl, h.1 rfl⟩
  | false => exact .inr ⟨rfl, fun hp => Bool.noConfusion (h.2 hp)⟩

namespace Tells

theorem congr (h : v.Tells p) (hpq : p ↔ q) : v.Tells q := by
  rwa [Tells, ← hpq]

theorem and (h : v.Tells p) (h' : w.Tells q) : (v.and w).Tells (p ∧ q) := by
  obtain ⟨rfl, hp⟩ | ⟨rfl, hp⟩ := h
  · obtain ⟨rfl, hq⟩ | ⟨rfl, hq⟩ := h'
    · exact .inl ⟨rfl, hp, hq⟩
    · exact .inr ⟨rfl, fun h => hq h.2⟩
  · exact .inr ⟨rfl, fun h => hp h.1⟩

theorem or (h : v.Tells p) (h' : w.Tells q) : (v.or w).Tells (p ∨ q) := by
  obtain ⟨rfl, hp⟩ | ⟨rfl, hp⟩ := h
  · exact .inl ⟨rfl, .inl hp⟩
  · obtain ⟨rfl, hq⟩ | ⟨rfl, hq⟩ := h'
    · exact .inl ⟨rfl, .inr hq⟩
    · exact .inr ⟨rfl, fun h => h.elim hp hq⟩

theorem eq_true_iff (h : v.Tells p) : v = .true ↔ p := by
  obtain ⟨rfl, hp⟩ | ⟨rfl, hp⟩ := h
  · exact iff_of_true rfl hp
  · exact iff_of_false nofun hp

theorem eq_false_iff (h : v.Tells p) : v = .false ↔ ¬p := by
  obtain ⟨rfl, hp⟩ | ⟨rfl, hp⟩ := h
  · exact iff_of_false nofun fun hn => hn hp
  · exact iff_of_true rfl hp

end Tells

end Truth

namespace Live

variable {entity : Entity} {op : ComparisonOp} {e f : Expression} {x y : Span} {p : Prop}

theorem tells_compare (r : Relation) (a b : Instant) :
    (algebra.compare r (.instant a) (.instant b)).Tells
      (r.Relates a.time.position b.time.position) :=
  Truth.tells_ofBool (r.holds_compare _ _)

theorem compare_before (x : Span) (hy : y.Ordered) :
    ∃ v, Rules.compare algebra .before (operand x.value) (operand y.value) = .ok v ∧
      v.Tells (x.Before y) := by
  have hy := Span.ordered_iff.1 hy
  cases x with
  | instant t =>
      have h : t.time.position < y.first ↔ (Span.instant t).Before y := by
        change _ ↔ t.time.position ≤ y.first ∧ t.time.position < y.last ∧
          (True → t.time.position < y.first)
        rw [true_imp_iff]
        omega
      have htells := (tells_compare .lt t y.start).congr h
      cases y <;> exact ⟨_, rfl, htells⟩
  | interval i =>
      cases y with
      | instant u =>
          refine ⟨_, rfl, (tells_compare .lt i.stop u).congr ?_⟩
          change i.stop.time.position < u.time.position ↔
            i.stop.time.position ≤ u.time.position ∧ i.stop.time.position < u.time.position ∧
              (False → i.stop.time.position < u.time.position)
          rw [false_imp_iff, and_true]
          omega
      | interval j =>
          have htells := (tells_compare .le i.stop j.start).and (tells_compare .lt i.stop j.stop)
          exact ⟨_, rfl, htells.congr (and_congr_right fun _ => (and_iff_left nofun).symm)⟩

theorem compare_after (x y : Span) :
    ∃ v, Rules.compare algebra .after (operand x.value) (operand y.value) = .ok v ∧
      v.Tells (x.After y) := by
  cases y with
  | instant u =>
      have h : u.time.position < x.first ↔ x.After (.instant u) := by
        change _ ↔ u.time.position ≤ x.first ∧ u.time.position < x.first
        omega
      have htells := (tells_compare .gt x.start u).congr h
      cases x <;> exact ⟨_, rfl, htells⟩
  | interval j =>
      have htells := (tells_compare .ge x.start j.stop).and (tells_compare .gt x.start j.start)
      cases x <;> exact ⟨_, rfl, htells⟩

theorem compare_contains (i : Interval) (y : Span) :
    ∃ v, Rules.compare algebra .contains (operand (.interval i)) (operand y.value) = .ok v ∧
      v.Tells (Span.Contains (.interval i) y) := by
  cases y with
  | instant u =>
      have htells := (tells_compare .le i.start u).and (tells_compare .gt i.stop u)
      refine ⟨_, rfl, htells.congr ?_⟩
      change i.start.time.position ≤ u.time.position ∧ u.time.position < i.stop.time.position ↔
        i.start.time.position ≤ u.time.position ∧ u.time.position ≤ i.stop.time.position ∧
          (True → u.time.position < i.stop.time.position)
      rw [true_imp_iff]
      omega
  | interval j =>
      have htells := (tells_compare .le i.start j.start).and (tells_compare .ge i.stop j.stop)
      exact ⟨_, rfl, htells.congr (and_congr_right fun _ => (and_iff_left nofun).symm)⟩

theorem compare_meets (x y : Span) :
    ∃ v, Rules.compare algebra .meets (operand x.value) (operand y.value) = .ok v ∧
      v.Tells (x.Meets y) := by
  cases x with
  | instant t =>
      cases y with
      | instant u => exact ⟨_, rfl, (tells_compare .eq t u).congr or_self_iff.symm⟩
      | interval j =>
          have htells := (tells_compare .eq t j.start).or (tells_compare .eq t j.stop)
          exact ⟨_, rfl, htells.congr or_comm⟩
  | interval i =>
      have htells := (tells_compare .eq i.start y.stop).or (tells_compare .eq i.stop y.start)
      cases y <;> exact ⟨_, rfl, htells⟩

theorem compare_overlaps (x y : Span) :
    ∃ v, Rules.compare algebra .overlaps (operand x.value) (operand y.value) = .ok v ∧
      v.Tells (x.Overlaps y) := by
  cases x with
  | instant t =>
      cases y with
      | instant u =>
          refine ⟨_, rfl, (tells_compare .eq t u).congr ?_⟩
          change t.time.position = u.time.position ↔ t.time.position = u.time.position ∨
            (t.time.position < u.time.position ∧ u.time.position < t.time.position)
          omega
      | interval j =>
          have htells := (tells_compare .eq t j.start).or
            ((tells_compare .le j.start t).and (tells_compare .gt j.stop t))
          refine ⟨_, rfl, htells.congr ?_⟩
          change t.time.position = j.start.time.position ∨
            (j.start.time.position ≤ t.time.position ∧ t.time.position < j.stop.time.position) ↔
            t.time.position = j.start.time.position ∨
              (t.time.position < j.stop.time.position ∧ j.start.time.position < t.time.position)
          omega
  | interval i =>
      cases y with
      | instant u =>
          have htells := (tells_compare .eq i.start u).or
            ((tells_compare .le i.start u).and (tells_compare .gt i.stop u))
          refine ⟨_, rfl, htells.congr ?_⟩
          change i.start.time.position = u.time.position ∨
            (i.start.time.position ≤ u.time.position ∧ u.time.position < i.stop.time.position) ↔
            i.start.time.position = u.time.position ∨
              (i.start.time.position < u.time.position ∧ u.time.position < i.stop.time.position)
          omega
      | interval j =>
          have htells := (tells_compare .eq i.start j.start).or
            ((tells_compare .lt i.start j.stop).and (tells_compare .gt i.stop j.start))
          exact ⟨_, rfl, htells⟩

/-- The expression has the span on the entity. -/
def Denotes (entity : Entity) (e : Expression) (x : Span) : Prop :=
  lower entity e = .ok (operand x.value)

/-- The filter is true on the entity if the statement holds, and false otherwise. -/
def Decides (entity : Entity) (e : Expression) (p : Prop) : Prop :=
  ∃ v, evaluate entity e = .ok v ∧ v.Tells p

namespace Decides

theorem eq_true_iff (h : Decides entity e p) : evaluate entity e = .ok .true ↔ p := by
  obtain ⟨v, hv, htells⟩ := h
  rw [hv, Except.ok.injEq]
  exact htells.eq_true_iff

theorem eq_false_iff (h : Decides entity e p) : evaluate entity e = .ok .false ↔ ¬p := by
  obtain ⟨v, hv, htells⟩ := h
  rw [hv, Except.ok.injEq]
  exact htells.eq_false_iff

end Decides

namespace Denotes

theorem evaluate_compare (he : Denotes entity e x) (hf : Denotes entity f y) :
    evaluate entity (.compare op e f) =
      Rules.compare algebra op (operand x.value) (operand y.value) :=
  evaluate_compare_of_lower he hf op

theorem before (he : Denotes entity e x) (hf : Denotes entity f y) (hy : y.Ordered) :
    Decides entity (.compare .before e f) (x.Before y) := by
  rw [Decides, he.evaluate_compare hf]
  exact compare_before x hy

theorem after (he : Denotes entity e x) (hf : Denotes entity f y) :
    Decides entity (.compare .after e f) (x.After y) := by
  rw [Decides, he.evaluate_compare hf]
  exact compare_after x y

theorem contains {i : Interval} (he : Denotes entity e (.interval i)) (hf : Denotes entity f y) :
    Decides entity (.compare .contains e f) (Span.Contains (.interval i) y) := by
  rw [Decides, he.evaluate_compare hf]
  exact compare_contains i y

theorem meets (he : Denotes entity e x) (hf : Denotes entity f y) :
    Decides entity (.compare .meets e f) (x.Meets y) := by
  rw [Decides, he.evaluate_compare hf]
  exact compare_meets x y

theorem overlaps (he : Denotes entity e x) (hf : Denotes entity f y) :
    Decides entity (.compare .overlaps e f) (x.Overlaps y) := by
  rw [Decides, he.evaluate_compare hf]
  exact compare_overlaps x y

theorem lessThan (he : Denotes entity e x) (hf : Denotes entity f y) :
    evaluate entity (.compare .lessThan e f) = evaluate entity (.compare .before e f) := by
  rw [he.evaluate_compare hf, he.evaluate_compare hf]
  cases x <;> cases y <;> rfl

theorem greaterThan (he : Denotes entity e x) (hf : Denotes entity f y) :
    evaluate entity (.compare .greaterThan e f) = evaluate entity (.compare .after e f) := by
  rw [he.evaluate_compare hf, he.evaluate_compare hf]
  cases x <;> cases y <;> rfl

end Denotes

end Live

end LiveFilter
