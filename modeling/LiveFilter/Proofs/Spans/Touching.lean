import LiveFilter.Proofs.Spans.Bounds

/-! # Spans that touch

After is the converse of before, and to contain is to overlap, unless the two spans touch at an end
and just one of them has length zero. The rows take different sides there: the one that asks for
after looks at the length of the earlier span, the one that asks for before at that of the later
span.
-/

namespace LiveFilter

namespace Span

variable {x y : Span}

/-- The first starts where the second, an interval, stops, and just one of them has length zero. -/
def Tangent (x y : Span) : Prop :=
  ¬y.IsInstant ∧ x.start.compare y.stop = .eq ∧ (x.IsPoint ↔ ¬y.IsPoint)

instance (x y : Span) : Decidable (x.Tangent y) := inferInstanceAs (Decidable (_ ∧ _ ∧ _))

theorem tangent_iff : x.Tangent y ↔
    ¬y.IsInstant ∧ x.first = y.last ∧ (x.first = x.last ↔ ¬y.first = y.last) := by
  rw [Tangent, isPoint_iff, isPoint_iff]
  exact and_congr_right fun _ => and_congr_left fun _ => Int.compare_eq_eq

theorem after_iff_before (hx : x.Ordered) (hy : y.Ordered) :
    (x.After y ↔ y.Before x) ↔ ¬x.Tangent y := by
  have hx := ordered_iff.1 hx
  have hy := ordered_iff.1 hy
  rw [tangent_iff]
  by_cases h : y.IsInstant
  · have hpoint := h.first_eq_last
    simp only [After, Before, h, true_imp_iff, not_true_eq_false, false_and, not_false_eq_true,
      iff_true]
    omega
  · simp only [After, Before, h, false_imp_iff, not_false_eq_true, true_and, and_true]
    omega

theorem Tangent.after_iff (h : x.Tangent y) (hy : y.Ordered) : x.After y ↔ ¬y.IsPoint := by
  have hy := ordered_iff.1 hy
  obtain ⟨_, htouch, _⟩ := tangent_iff.1 h
  rw [isPoint_iff, After]
  omega

theorem Tangent.before_iff (h : x.Tangent y) (hx : x.Ordered) : y.Before x ↔ ¬x.IsPoint := by
  have hx := ordered_iff.1 hx
  obtain ⟨hinterval, htouch, _⟩ := tangent_iff.1 h
  rw [isPoint_iff, Before, and_iff_left fun hy => absurd hy hinterval]
  omega

/-- A point at the end of a span of positive length. -/
def IsTipOf (y x : Span) : Prop := y.IsPoint ∧ y.stop.compare x.stop = .eq ∧ ¬x.IsPoint

instance (y x : Span) : Decidable (y.IsTipOf x) := inferInstanceAs (Decidable (_ ∧ _ ∧ _))

theorem isTipOf_iff : y.IsTipOf x ↔ y.first = y.last ∧ y.last = x.last ∧ ¬x.first = x.last := by
  rw [IsTipOf, isPoint_iff, isPoint_iff]
  exact and_congr_right fun _ => and_congr_left fun _ => Int.compare_eq_eq

theorem IsTipOf.contains (h : y.IsTipOf x) (hx : x.Ordered) (hinterval : ¬y.IsInstant) :
    x.Contains y := by
  have hx := ordered_iff.1 hx
  obtain ⟨hpoint, hlast, _⟩ := isTipOf_iff.1 h
  refine ⟨?_, ?_, fun hinstant => absurd hinstant hinterval⟩ <;> omega

theorem Overlaps.comm : x.Overlaps y ↔ y.Overlaps x := by
  rw [Overlaps, Overlaps, eq_comm, and_comm]

theorem Contains.overlaps_iff (hy : y.Ordered) (h : x.Contains y) :
    x.Overlaps y ↔ ¬y.IsTipOf x := by
  have hy := ordered_iff.1 hy
  obtain ⟨hfirst, hlast, _⟩ := h
  rw [isTipOf_iff, Overlaps]
  omega

end Span

namespace Live

variable {entity : Entity} {op op' : ComparisonOp} {e f : Expression} {i : Interval} {x y : Span}

/-- A span is after another one exactly if that is before it, unless the two are tangent. Then the
one holds if the earlier span has a length and the other if the later one has. -/
theorem after_iff_before_swapped
    (hop : op = .after ∧ op' = .before ∨ op = .greaterThan ∧ op' = .lessThan)
    (he : Denotes entity e x) (hf : Denotes entity f y) (hx : x.Ordered) (hy : y.Ordered) :
    ((evaluate entity (.compare op e f) = .ok .true ↔
      evaluate entity (.compare op' f e) = .ok .true) ↔ ¬x.Tangent y) ∧
    (x.Tangent y → (evaluate entity (.compare op e f) = .ok .true ↔ ¬y.IsPoint) ∧
      (evaluate entity (.compare op' f e) = .ok .true ↔ ¬x.IsPoint)) := by
  have hoperators : evaluate entity (.compare op e f) = evaluate entity (.compare .after e f) ∧
      evaluate entity (.compare op' f e) = evaluate entity (.compare .before f e) := by
    obtain ⟨rfl, rfl⟩ | ⟨rfl, rfl⟩ := hop
    · exact ⟨rfl, rfl⟩
    · exact ⟨he.greaterThan hf, hf.lessThan he⟩
  rw [hoperators.1, hoperators.2, (he.after hf).eq_true_iff, (hf.before he hx).eq_true_iff]
  exact ⟨Span.after_iff_before hx hy, fun h => ⟨h.after_iff hy, h.before_iff hx⟩⟩

/-- Two intervals of positive length that touch. -/
theorem after_iff_before_swapped_touching :
    let time (seconds : Nat) (h : Timestamp.Valid 0 seconds 0) : Instant := .utc ⟨0, seconds, 0, h⟩
    let earlier : Interval := ⟨time 0 (by decide), time 10 (by decide)⟩
    let later : Interval := ⟨time 10 (by decide), time 20 (by decide)⟩
    let entity : Entity := { Entity.empty .observation with
      properties := fun p => if p = .phenomenonTime then some (.interval later) else none }
    let e : Expression := .property (.single (.entity .phenomenonTime))
    let f : Expression := .constant (.interval earlier)
    Denotes entity e (.interval later) ∧ Denotes entity f (.interval earlier) ∧
      Span.Ordered (.interval later) ∧ Span.Ordered (.interval earlier) ∧
      evaluate entity (.compare .after e f) = .ok .true ∧
      evaluate entity (.compare .before f e) = .ok .true := by
  intro time earlier later entity e f
  have he : Denotes entity e (.interval later) := rfl
  have hf : Denotes entity f (.interval earlier) := rfl
  have hlater : Span.Ordered (.interval later) := by decide
  have hearlier : Span.Ordered (.interval earlier) := by decide
  have hafter : evaluate entity (.compare .after e f) = .ok .true := by
    unfold e f entity earlier later time
    rfl
  have hclear : ¬Span.Tangent (.interval later) (.interval earlier) := by decide
  obtain ⟨hconverse, _⟩ := after_iff_before_swapped (.inl ⟨rfl, rfl⟩) he hf hlater hearlier
  exact ⟨he, hf, hlater, hearlier, hafter, (hconverse.2 hclear).1 hafter⟩

/-- The instant at the end of an interval is after the interval, which is not before the instant. -/
theorem after_of_end_not_before :
    let start : Instant := .utc ⟨18262, 0, 0, by decide⟩
    let stop : Instant := .utc ⟨18266, 0, 0, by decide⟩
    let entity := Entity.empty .observation
    let e : Expression := .constant (.instant stop)
    let f : Expression := .constant (.interval ⟨start, stop⟩)
    Denotes entity e (.instant stop) ∧ Denotes entity f (.interval ⟨start, stop⟩) ∧
      Span.Ordered (.interval ⟨start, stop⟩) ∧
      evaluate entity (.compare .after e f) = .ok .true ∧
      evaluate entity (.compare .before f e) = .ok .false ∧
      evaluate entity ((Expression.compare .after e f).and (.not (.compare .before f e))) =
        .ok .true := by
  intro start stop entity e f
  refine ⟨rfl, rfl, by decide, ?_, ?_, ?_⟩
  all_goals
    unfold e f start stop
    rfl

/-- What an interval contains overlaps it, unless it is a point at the end of a longer interval.
Such a point, taken as an interval, is contained, and neither of the two overlaps the other. -/
theorem overlaps_of_contains (he : Denotes entity e (.interval i)) (hf : Denotes entity f y)
    (hy : y.Ordered) :
    (evaluate entity (.compare .contains e f) = .ok .true →
      (evaluate entity (.compare .overlaps e f) = .ok .true ↔ ¬y.IsTipOf (.interval i)) ∧
      (evaluate entity (.compare .overlaps f e) = .ok .true ↔ ¬y.IsTipOf (.interval i))) ∧
    (y.IsTipOf (.interval i) → ¬y.IsInstant → Span.Ordered (.interval i) →
      evaluate entity (.compare .contains e f) = .ok .true ∧
      evaluate entity (.compare .overlaps e f) = .ok .false ∧
      evaluate entity (.compare .overlaps f e) = .ok .false) := by
  rw [(he.contains hf).eq_true_iff, (he.overlaps hf).eq_true_iff, (hf.overlaps he).eq_true_iff,
    (he.overlaps hf).eq_false_iff, (hf.overlaps he).eq_false_iff, @Span.Overlaps.comm y]
  constructor
  · intro hcontains
    exact ⟨hcontains.overlaps_iff hy, hcontains.overlaps_iff hy⟩
  · intro htip hinterval hi
    have hcontains := htip.contains hi hinterval
    have hapart := fun hoverlaps => (hcontains.overlaps_iff hy).1 hoverlaps htip
    exact ⟨hcontains, hapart, hapart⟩

/-- An interval of length zero at the start of the stored interval. -/
theorem overlaps_of_contains_start :
    let time (seconds : Nat) (h : Timestamp.Valid 0 seconds 0) : Instant := .utc ⟨0, seconds, 0, h⟩
    let stored : Interval := ⟨time 0 (by decide), time 20 (by decide)⟩
    let point : Interval := ⟨time 0 (by decide), time 0 (by decide)⟩
    let entity : Entity := { Entity.empty .observation with
      properties := fun p => if p = .phenomenonTime then some (.interval stored) else none }
    let e : Expression := .property (.single (.entity .phenomenonTime))
    let f : Expression := .constant (.interval point)
    Denotes entity e (.interval stored) ∧ Denotes entity f (.interval point) ∧
      Span.Ordered (.interval point) ∧
      evaluate entity (.compare .contains e f) = .ok .true ∧
      evaluate entity (.compare .overlaps e f) = .ok .true ∧
      evaluate entity (.compare .overlaps f e) = .ok .true := by
  intro time stored point entity e f
  have he : Denotes entity e (.interval stored) := rfl
  have hf : Denotes entity f (.interval point) := rfl
  have hpoint : Span.Ordered (.interval point) := by decide
  have hcontains : evaluate entity (.compare .contains e f) = .ok .true := by
    unfold e f entity stored point time
    rfl
  have hclear : ¬Span.IsTipOf (.interval point) (.interval stored) := by decide
  obtain ⟨hright, hleft⟩ := (overlaps_of_contains he hf hpoint).1 hcontains
  exact ⟨he, hf, hpoint, hcontains, hright.2 hclear, hleft.2 hclear⟩

/-- The end of an interval, taken as an interval of length zero, is contained and does not
overlap. -/
theorem contains_end_not_overlaps :
    let start : Instant := .utc ⟨18262, 0, 0, by decide⟩
    let stop : Instant := .utc ⟨18266, 0, 0, by decide⟩
    let entity := Entity.empty .observation
    let e : Expression := .constant (.interval ⟨start, stop⟩)
    let f : Expression := .constant (.interval ⟨stop, stop⟩)
    Denotes entity e (.interval ⟨start, stop⟩) ∧ Denotes entity f (.interval ⟨stop, stop⟩) ∧
      Span.Ordered (.interval ⟨start, stop⟩) ∧ Span.Ordered (.interval ⟨stop, stop⟩) ∧
      evaluate entity (.compare .contains e f) = .ok .true ∧
      evaluate entity (.compare .overlaps e f) = .ok .false ∧
      evaluate entity (.compare .overlaps f e) = .ok .false ∧
      evaluate entity ((Expression.compare .contains e f).and (.not (.compare .overlaps e f))) =
        .ok .true := by
  intro start stop entity e f
  refine ⟨rfl, rfl, by decide, by decide, ?_, ?_, ?_, ?_⟩
  all_goals
    unfold e f start stop
    rfl

end Live

end LiveFilter
