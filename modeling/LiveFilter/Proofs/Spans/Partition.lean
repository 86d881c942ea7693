import LiveFilter.Proofs.Spans.StrictOrder

/-! # Intervals next to each other

Of two intervals of positive length one is before the other or the two overlap, and never more than
one of these holds. Intervals that meet do not overlap.
-/

namespace LiveFilter

namespace Span

variable {x y : Span}

/-- The length is positive, as that of an instant never is. -/
def Extended (x : Span) : Prop := x.start.compare x.stop = .lt

instance (x : Span) : Decidable x.Extended := inferInstanceAs (Decidable (_ = _))

theorem extended_iff : x.Extended ↔ x.first < x.last := Int.compare_eq_lt

theorem Extended.ordered (h : x.Extended) : x.Ordered :=
  ordered_iff.2 (Int.le_of_lt (extended_iff.1 h))

theorem Extended.not_isInstant (h : x.Extended) : ¬x.IsInstant := fun hinstant => by
  have hpoint := hinstant.first_eq_last
  have hlength := extended_iff.1 h
  omega

theorem before_or_after_or_overlaps (hx : x.Extended) (hy : y.Extended) :
    x.Before y ∨ x.After y ∨ x.Overlaps y := by
  have hlength := extended_iff.1 hx
  have hlength' := extended_iff.1 hy
  by_cases hbefore : x.last ≤ y.first
  · exact .inl ⟨hbefore, by omega, fun h => absurd h hx.not_isInstant⟩
  by_cases hafter : y.last ≤ x.first
  · exact .inr (.inl ⟨hafter, by omega⟩)
  · exact .inr (.inr (.inr (by omega)))

theorem Before.not_overlaps (hx : x.Extended) (h : x.Before y) : ¬x.Overlaps y := by
  have hlength := extended_iff.1 hx
  have hbefore := h.1
  rw [Overlaps]
  omega

theorem After.not_overlaps (h : x.After y) : ¬x.Overlaps y := by
  obtain ⟨hlast, hfirst⟩ := h
  rw [Overlaps]
  omega

theorem Meets.not_overlaps (hx : x.Extended) (hy : y.Extended) (h : x.Meets y) :
    ¬x.Overlaps y := by
  have hlength := extended_iff.1 hx
  have hlength' := extended_iff.1 hy
  rw [Meets] at h
  rw [Overlaps]
  omega

end Span

namespace Live

variable {entity : Entity} {e f : Expression} {i j : Interval}

/-- Exactly one of before, after and overlaps is true of two intervals of positive length, and the
other two are false. Overlaps is not the one if they meet. -/
theorem before_after_overlaps_partition (he : Denotes entity e (.interval i))
    (hf : Denotes entity f (.interval j)) (hi : Span.Extended (.interval i))
    (hj : Span.Extended (.interval j)) :
    (∃ op ∈ [ComparisonOp.before, .after, .overlaps],
      evaluate entity (.compare op e f) = .ok .true ∧
        ∀ other ∈ [ComparisonOp.before, .after, .overlaps], other ≠ op →
          evaluate entity (.compare other e f) = .ok .false) ∧
    (evaluate entity (.compare .meets e f) = .ok .true →
      evaluate entity (.compare .overlaps e f) = .ok .false) := by
  have hbefore := he.before hf hj.ordered
  have hafter := he.after hf
  have hoverlaps := he.overlaps hf
  have hall {p : ComparisonOp → Prop} (hb : p .before) (ha : p .after) (ho : p .overlaps) :
      ∀ op ∈ [ComparisonOp.before, .after, .overlaps], p op :=
    List.forall_mem_cons.2 ⟨hb, List.forall_mem_cons.2 ⟨ha, List.forall_mem_singleton.2 ho⟩⟩
  constructor
  · obtain h | h | h := Span.before_or_after_or_overlaps hi hj
    · exact ⟨.before, by decide, hbefore.eq_true_iff.2 h,
        hall (absurd rfl) (fun _ => hafter.eq_false_iff.2 (h.not_after hi.ordered))
          (fun _ => hoverlaps.eq_false_iff.2 (h.not_overlaps hi))⟩
    · exact ⟨.after, by decide, hafter.eq_true_iff.2 h,
        hall (fun _ => hbefore.eq_false_iff.2 fun h' => h'.not_after hi.ordered h) (absurd rfl)
          (fun _ => hoverlaps.eq_false_iff.2 h.not_overlaps)⟩
    · exact ⟨.overlaps, by decide, hoverlaps.eq_true_iff.2 h,
        hall (fun _ => hbefore.eq_false_iff.2 fun h' => h'.not_overlaps hi h)
          (fun _ => hafter.eq_false_iff.2 fun h' => h'.not_overlaps h) (absurd rfl)⟩
  · rw [(he.meets hf).eq_true_iff, hoverlaps.eq_false_iff]
    exact Span.Meets.not_overlaps hi hj

/-- A stored interval and an interval that was moved to where the stored one stops. -/
theorem before_after_overlaps_partition_touching :
    let time (seconds : Nat) (h : Timestamp.Valid 0 seconds 0) : Instant := .utc ⟨0, seconds, 0, h⟩
    let stored : Interval := ⟨time 0 (by decide), time 10 (by decide)⟩
    let moved : Interval := ⟨time 10 (by decide), time 20 (by decide)⟩
    let entity : Entity := { Entity.empty .observation with
      properties := fun p => if p = .phenomenonTime then some (.interval stored) else none }
    let e : Expression := .property (.single (.entity .phenomenonTime))
    let f : Expression := .arithmetic .add (.constant (.interval stored))
      (.constant (.duration ⟨10000000000, by decide⟩))
    Denotes entity e (.interval stored) ∧ Denotes entity f (.interval moved) ∧
      Span.Extended (.interval stored) ∧ Span.Extended (.interval moved) ∧
      (∃ op ∈ [ComparisonOp.before, .after, .overlaps],
        evaluate entity (.compare op e f) = .ok .true ∧
          ∀ other ∈ [ComparisonOp.before, .after, .overlaps], other ≠ op →
            evaluate entity (.compare other e f) = .ok .false) ∧
      evaluate entity (.compare .meets e f) = .ok .true ∧
      evaluate entity (.compare .overlaps e f) = .ok .false := by
  intro time stored moved entity e f
  have he : Denotes entity e (.interval stored) := rfl
  have hf : Denotes entity f (.interval moved) := by
    unfold f moved stored time
    rfl
  have hstored : Span.Extended (.interval stored) := by decide
  have hmoved : Span.Extended (.interval moved) := by decide
  have hmeets : evaluate entity (.compare .meets e f) = .ok .true := by
    unfold e f entity stored time
    rfl
  obtain ⟨hone, hmeet⟩ := before_after_overlaps_partition he hf hstored hmoved
  exact ⟨he, hf, hstored, hmoved, hone, hmeets, hmeet hmeets⟩

end Live

end LiveFilter
