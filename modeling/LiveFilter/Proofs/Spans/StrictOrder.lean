import LiveFilter.Proofs.Spans.Bounds

/-! # Before and after as orders

On instants and intervals whose bounds are in order, before and after are strict orders, and no
span is both before and after another.
-/

namespace LiveFilter

namespace Span

variable {x y z : Span}

theorem Before.irrefl (x : Span) : ¬x.Before x := fun h => Int.lt_irrefl _ h.2.1

theorem After.irrefl (x : Span) : ¬x.After x := fun h => Int.lt_irrefl _ h.2

theorem Before.trans (hy : y.Ordered) (h : x.Before y) (h' : y.Before z) : x.Before z := by
  obtain ⟨hfirst, hlast, hinstant⟩ := h
  obtain ⟨hfirst', hlast', _⟩ := h'
  have hlength := ordered_iff.1 hy
  refine ⟨by omega, by omega, fun hx => ?_⟩
  have hlt := hinstant hx
  omega

theorem After.trans (h : x.After y) (h' : y.After z) : x.After z := by
  obtain ⟨hlast, hfirst⟩ := h
  obtain ⟨hlast', hfirst'⟩ := h'
  exact ⟨by omega, by omega⟩

theorem Before.not_after (hx : x.Ordered) (h : x.Before y) : ¬x.After y := by
  rintro ⟨_, hfirst⟩
  have hlength := ordered_iff.1 hx
  have hlast := h.1
  omega

end Span

namespace Live

variable {entity : Entity} {op : ComparisonOp} {e f g : Expression} {x y z : Span}

/-- Before and after are strict orders and exclude each other, whatever the expressions take their
spans from: literals, properties of the entity or arithmetic. -/
theorem before_after_strict (hop : op = .before ∨ op = .after) (he : Denotes entity e x)
    (hf : Denotes entity f y) (hg : Denotes entity g z) (hx : x.Ordered) (hy : y.Ordered)
    (hz : z.Ordered) :
    evaluate entity (.compare op e e) = .ok .false ∧
    (evaluate entity (.compare op e f) = .ok .true →
      evaluate entity (.compare op f g) = .ok .true →
      evaluate entity (.compare op e g) = .ok .true) ∧
    ¬(evaluate entity (.compare .before e f) = .ok .true ∧
      evaluate entity (.compare .after e f) = .ok .true) ∧
    evaluate entity (.compare .lessThan e f) = evaluate entity (.compare .before e f) ∧
    evaluate entity (.compare .greaterThan e f) = evaluate entity (.compare .after e f) := by
  refine ⟨?_, ?_, ?_, he.lessThan hf, he.greaterThan hf⟩
  · obtain rfl | rfl := hop
    · exact (he.before he hx).eq_false_iff.2 (Span.Before.irrefl x)
    · exact (he.after he).eq_false_iff.2 (Span.After.irrefl x)
  · obtain rfl | rfl := hop
    · rw [(he.before hf hy).eq_true_iff, (hf.before hg hz).eq_true_iff,
        (he.before hg hz).eq_true_iff]
      exact Span.Before.trans hy
    · rw [(he.after hf).eq_true_iff, (hf.after hg).eq_true_iff, (he.after hg).eq_true_iff]
      exact Span.After.trans
  · rw [(he.before hf hy).eq_true_iff, (he.after hf).eq_true_iff]
    exact fun h => h.1.not_after hx h.2

/-- An instant at the end of a stored interval, which starts at the end of an interval that was
moved there. -/
theorem before_after_strict_touching :
    let time (seconds : Nat) (h : Timestamp.Valid 0 seconds 0) : Instant := .utc ⟨0, seconds, 0, h⟩
    let stored : Interval := ⟨time 10 (by decide), time 20 (by decide)⟩
    let moved : Interval := ⟨time 0 (by decide), time 10 (by decide)⟩
    let entity : Entity := { Entity.empty .observation with
      properties := fun p => if p = .phenomenonTime then some (.interval stored) else none }
    let e : Expression := .constant (.instant (time 20 (by decide)))
    let f : Expression := .property (.single (.entity .phenomenonTime))
    let g : Expression := .arithmetic .sub (.constant (.interval stored))
      (.constant (.duration ⟨10000000000, by decide⟩))
    Denotes entity e (.instant (time 20 (by decide))) ∧ Denotes entity f (.interval stored) ∧
      Denotes entity g (.interval moved) ∧ Span.Ordered (.interval stored) ∧
      Span.Ordered (.interval moved) ∧
      evaluate entity (.compare .after e f) = .ok .true ∧
      evaluate entity (.compare .after f g) = .ok .true ∧
      evaluate entity (.compare .after e g) = .ok .true := by
  intro time stored moved entity e f g
  have he : Denotes entity e (.instant (time 20 (by decide))) := rfl
  have hf : Denotes entity f (.interval stored) := rfl
  have hg : Denotes entity g (.interval moved) := by
    unfold g moved stored time
    rfl
  have hstored : Span.Ordered (.interval stored) := by decide
  have hmoved : Span.Ordered (.interval moved) := by decide
  have hef : evaluate entity (.compare .after e f) = .ok .true := by
    unfold e f entity stored time
    rfl
  have hfg : evaluate entity (.compare .after f g) = .ok .true := by
    unfold f g entity stored time
    rfl
  obtain ⟨_, htrans, _⟩ :=
    before_after_strict (.inr rfl) he hf hg (by decide) hstored hmoved
  exact ⟨he, hf, hg, hstored, hmoved, hef, hfg, htrans hef hfg⟩

end Live

end LiveFilter
