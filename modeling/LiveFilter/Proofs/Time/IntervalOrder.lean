import LiveFilter.Live.Evaluator
import LiveFilter.Proofs.Computed
import LiveFilter.Proofs.Time.Moves

/-! # The order of bounds

An interval is made from bounds in order, and stays in order when it is moved, unless the move takes
one bound past the other at a leap second. An evaluation moves intervals in the same way.
-/

namespace LiveFilter

open Outcome (bind_eq_ok map_eq_ok)

namespace Interval

variable {i j : Interval} {d : Duration}

theorem ordered_iff : i.Ordered ↔ i.start.time.position ≤ i.stop.time.position :=
  Int.compare_ne_gt

/-- The move takes one bound past the other. -/
def Overtaken (i : Interval) (d : Duration) : Prop :=
  Timestamp.Overtakes i.start.time i.stop.time d

instance (i : Interval) (d : Duration) : Decidable (i.Overtaken d) :=
  inferInstanceAs (Decidable (Timestamp.Overtakes _ _ _))

theorem shift?_eq_some : i.shift? d = some j ↔
    i.start.add? d = some j.start ∧ i.stop.add? d = some j.stop := by
  unfold shift?
  constructor
  · intro h
    split at h
    · rename_i hstart hstop
      cases h
      exact ⟨hstart, hstop⟩
    · cases h
  · rintro ⟨hstart, hstop⟩
    rw [hstart, hstop]

theorem ordered_shift?_iff (hi : i.Ordered) (h : i.shift? d = some j) :
    j.Ordered ↔ ¬i.Overtaken d := by
  obtain ⟨hstart, hstop⟩ := shift?_eq_some.1 h
  obtain ⟨hstart, _⟩ := Instant.add?_eq_some.1 hstart
  obtain ⟨hstop, _⟩ := Instant.add?_eq_some.1 hstop
  rw [ordered_iff, ← Int.not_lt]
  exact not_congr (Timestamp.position_lt_of_moved (ordered_iff.1 hi)
    (Timestamp.moved_of_add? hstart) (Timestamp.moved_of_add? hstop))

/-- Intervals that come from bounds or texts by moves of a certain kind. -/
inductive Obtained (allowed : Interval → Duration → Prop) : Interval → Prop
  | ofBounds {start stop : Instant} {i : Interval} (h : ofBounds start stop = .ok i) :
      Obtained allowed i
  | parse {text : String} {i : Interval} (h : parse text = .ok i) : Obtained allowed i
  | shift {i j : Interval} {d : Duration} (hi : Obtained allowed i) (hd : allowed i d)
      (h : i.shift? d = some j) : Obtained allowed j

theorem ordered_of_parse {text : String} (h : parse text = .ok i) : i.Ordered := by
  unfold parse at h
  dsimp only at h
  split at h
  · cases h
  · obtain ⟨start, _, h⟩ := bind_eq_ok.1 h
    obtain ⟨stop, _, h⟩ := bind_eq_ok.1 h
    exact (ofBounds_eq_ok_iff.1 h).2

theorem Obtained.ordered (h : Obtained (fun i d => ¬i.Overtaken d) i) : i.Ordered := by
  induction h with
  | ofBounds h => exact (ofBounds_eq_ok_iff.1 h).2
  | parse h => exact ordered_of_parse h
  | shift _ hd h ih => exact (ordered_shift?_iff ih h).2 hd

end Interval

def ArithmeticOp.signed : ArithmeticOp → Duration → Duration
  | .sub, d => d.neg
  | _, d => d

namespace Live

variable {op : ArithmeticOp} {i : Interval} {d : Duration} {s t v w : Value}

theorem eq_duration_of_widen (h : widen (normalize v) = .duration d) :
    v = .duration d := by
  unfold normalize at h
  split at h
  all_goals first | cases h | skip
  · split at h <;> cases h
  · unfold widen at h
    split at h <;> cases h
    rfl

theorem arithmetic_instant {a : Instant}
    (h : algebra.arithmetic op .instantDuration (.instant a) v = .ok w) :
    ((widen (normalize v)).isNull = true ∧ w = .null) ∨
      ∃ d b, v = .duration d ∧ a.add? (op.signed d) = some b ∧ w = .instant b := by
  change arithmetic op .instantDuration (.instant a) v = .ok w at h
  unfold arithmetic at h
  dsimp only at h
  split at h
  · rename_i hnull
    cases h
    exact .inl ⟨by simpa [normalize, widen, Value.isNull] using hnull, rfl⟩
  · right
    split at h
    · rename_i hsome
      cases h
      cases hv : widen (normalize v) with
      | duration d =>
          rw [hv] at hsome
          refine ⟨d, ?_⟩
          cases op with
          | add | sub =>
              obtain ⟨b, hb, rfl⟩ := Option.map_eq_some_iff.1 hsome
              exact ⟨b, eq_duration_of_widen hv, hb, rfl⟩
          | _ => cases hsome
      | _ =>
          rw [hv] at hsome
          cases hsome
    · cases h

/-- The bounds of an interval in order, or none because of a duration that is null. -/
inductive OrderedBounds : Value → Value → Prop
  | interval {i : Interval} (h : i.Ordered) : OrderedBounds (.instant i.start) (.instant i.stop)
  | null : OrderedBounds .null .null

theorem arithmetic_interval {o : Operand Value Truth}
    (h : Rules.arithmetic algebra op (operand (.interval i)) (operand (.duration d)) = .ok o) :
    ∃ j, i.shift? (op.signed d) = some j ∧ o = operand (.interval j) := by
  cases Rules.computed_of_arithmetic h with
  | null hnull => obtain hnull | hnull := hnull <;> cases hnull
  | joined _ hl _ _ _ _ => cases hl
  | moved hs he =>
      obtain ⟨hnull, _⟩ | ⟨_, start, hd, hstart, rfl⟩ := arithmetic_instant hs
      · cases hnull
      cases hd
      obtain ⟨hnull, _⟩ | ⟨_, stop, hd, hstop, rfl⟩ := arithmetic_instant he
      · cases hnull
      cases hd
      exact ⟨⟨start, stop⟩, Interval.shift?_eq_some.2 ⟨hstart, hstop⟩, rfl⟩

/-- What is started from is in order, and no move takes one bound of an interval past the other. -/
def Undisturbed (entity : Entity) : Expression → Prop
  | .constant c => ∀ i, c = .interval i → i.Ordered
  | .property path => ∀ i, property entity path = .ok (.interval i) → i.Ordered
  | .negate e | .not e => Undisturbed entity e
  | .arithmetic op l r => Undisturbed entity l ∧ Undisturbed entity r ∧
      ∀ i d, lower entity l = .ok (operand (.interval i)) →
        lower entity r = .ok (operand (.duration d)) → ¬i.Overtaken (op.signed d)
  | .compare _ l r | .logical _ l r => Undisturbed entity l ∧ Undisturbed entity r

theorem eq_interval_of_operand (h : operand v = .interval s t) :
    ∃ i, v = .interval i ∧ s = .instant i.start ∧ t = .instant i.stop := by
  unfold operand at h
  split at h <;> cases h
  exact ⟨_, rfl, rfl, rfl⟩

theorem orderedBounds_of_lower {entity : Entity} {e : Expression} (he : Undisturbed entity e)
    (h : lower entity e = .ok (.interval s t)) : OrderedBounds s t := by
  induction e generalizing s t with
  | constant c =>
      obtain ⟨i, hi, rfl, rfl⟩ := eq_interval_of_operand (Except.ok.inj h)
      refine .interval (he i ?_)
      cases c <;> cases hi
      rfl
  | property path =>
      obtain ⟨v, hv, h⟩ := map_eq_ok.1 h
      obtain ⟨i, rfl, rfl, rfl⟩ := eq_interval_of_operand h
      exact .interval (he i hv)
  | negate e _ =>
      obtain ⟨o, _, h⟩ := bind_eq_ok.1 h
      cases o with
      | scalar _ | duration _ =>
          obtain ⟨_, _, h⟩ := map_eq_ok.1 h
          cases h
      | _ => cases h
  | not e _ =>
      obtain ⟨_, _, h⟩ := bind_eq_ok.1 h
      obtain ⟨_, _, h⟩ := bind_eq_ok.1 h
      cases h
  | compare op l r _ _ =>
      obtain ⟨_, _, h⟩ := bind_eq_ok.1 h
      obtain ⟨_, _, h⟩ := bind_eq_ok.1 h
      obtain ⟨_, _, h⟩ := bind_eq_ok.1 h
      cases h
  | logical op l r _ _ =>
      obtain ⟨_, _, h⟩ := bind_eq_ok.1 h
      obtain ⟨_, _, h⟩ := bind_eq_ok.1 h
      obtain ⟨_, _, h⟩ := bind_eq_ok.1 h
      obtain ⟨_, _, h⟩ := bind_eq_ok.1 h
      cases h
  | arithmetic op l r ihl _ =>
      obtain ⟨a, ha, h⟩ := bind_eq_ok.1 h
      obtain ⟨b, hb, h⟩ := bind_eq_ok.1 h
      cases Rules.computed_of_arithmetic h with
      | joined _ _ _ ho _ _ => cases ho
      | moved hs he' =>
          cases ihl he.1 ha with
          | null =>
              cases hs
              cases he'
              exact .null
          | interval hi =>
              obtain ⟨hnull, rfl⟩ | ⟨d, start, rfl, hstart, rfl⟩ := arithmetic_instant hs
              · obtain ⟨_, rfl⟩ | ⟨d, _, rfl, _⟩ := arithmetic_instant he'
                · exact .null
                · cases hnull
              · obtain ⟨hnull, _⟩ | ⟨_, stop, hd, hstop, rfl⟩ := arithmetic_instant he'
                · cases hnull
                cases hd
                have hshift := Interval.shift?_eq_some (j := ⟨start, stop⟩).2 ⟨hstart, hstop⟩
                exact .interval ((Interval.ordered_shift?_iff hi hshift).2 (he.2.2 _ _ ha hb))

end Live

/-- The bounds of intervals that are made from bounds or texts and moved stay in order exactly as
long as no move takes one of them past the other at a leap second. The evaluator moves intervals in
the same way, so that this holds of all that it computes. -/
theorem Interval.ordered_of_moves (i : Interval) (entity : Entity) (e : Expression) :
    (Obtained (fun i d => ¬i.Overtaken d) i → i.Ordered) ∧
    (∀ j d, i.Ordered → i.shift? d = some j → (j.Ordered ↔ ¬i.Overtaken d)) ∧
    (∀ op d o,
      Rules.arithmetic Live.algebra op (Live.operand (.interval i)) (Live.operand (.duration d)) =
        .ok o → ∃ j, i.shift? (op.signed d) = some j ∧ o = Live.operand (.interval j)) ∧
    ∀ s t, Live.Undisturbed entity e → Live.lower entity e = .ok (.interval s t) →
      (s = .null ∧ t = .null) ∨
        ∃ j : Interval, j.Ordered ∧ s = .instant j.start ∧ t = .instant j.stop := by
  refine ⟨fun h => h.ordered, fun j d => ordered_shift?_iff,
    fun op d o => Live.arithmetic_interval, fun s t he h => ?_⟩
  cases Live.orderedBounds_of_lower he h with
  | null => exact .inl ⟨rfl, rfl⟩
  | interval hj => exact .inr ⟨_, hj, rfl, rfl⟩

/-- An interval that ends in a leap second is moved back by a second, and so is left in order. -/
theorem Interval.ordered_of_moves_back :
    let i : Interval := ⟨.utc ⟨17166, 86399, 900000000, by decide⟩,
      .utc ⟨17166, 86399, 1500000000, by decide⟩⟩
    let second : Duration := ⟨1000000000, by decide⟩
    let j : Interval := ⟨.utc ⟨17166, 86398, 900000000, by decide⟩,
      .utc ⟨17166, 86399, 500000000, by decide⟩⟩
    let e : Expression :=
      .arithmetic .sub (.constant (.interval i)) (.constant (.duration second))
    let entity := Entity.empty .observation
    Obtained (fun i d => ¬i.Overtaken d) j ∧ j.Ordered ∧
      i.shift? second.neg = some j ∧ ¬i.Overtaken second.neg ∧
      Live.Undisturbed entity e ∧
      Live.lower entity e = .ok (.interval (.instant j.start) (.instant j.stop)) ∧
      ∃ k : Interval, k.Ordered ∧ Value.instant j.start = .instant k.start ∧
        Value.instant j.stop = .instant k.stop := by
  intro i second j e entity
  obtain ⟨_, hmoved, _, hlower⟩ := ordered_of_moves i entity e
  have hi : i.Ordered := by decide
  have hclear : ¬i.Overtaken second.neg := by decide
  have hshift : i.shift? second.neg = some j := by
    have hstart : i.start.time.add? second.neg = some j.start.time := by decide
    have hstop : i.stop.time.add? second.neg = some j.stop.time := by decide
    exact shift?_eq_some.2 ⟨Option.map_eq_some_iff.2 ⟨_, hstart, rfl⟩,
      Option.map_eq_some_iff.2 ⟨_, hstop, rfl⟩⟩
  have hj : Obtained (fun i d => ¬i.Overtaken d) j :=
    .shift (.ofBounds (ofBounds_eq_ok_iff.2 ⟨rfl, hi⟩)) hclear hshift
  have he : Live.Undisturbed entity e := by
    refine ⟨?_, ?_, ?_⟩
    · intro k hk
      cases hk
      exact hi
    · intro k hk
      cases hk
    · intro k d hk hd
      cases hd
      obtain ⟨hstart, hstop⟩ := Operand.interval.inj (Except.ok.inj hk)
      rw [Overtaken, ← Value.instant.inj hstart, ← Value.instant.inj hstop]
      exact hclear
  have hvalue : Live.lower entity e = .ok (.interval (.instant j.start) (.instant j.stop)) := by
    dsimp only [e, i, j, second]
    rfl
  obtain ⟨hnull, _⟩ | hbounds := hlower _ _ he hvalue
  · cases hnull
  have hordered : j.Ordered := (ordered_of_moves j entity e).1 hj
  exact ⟨hj, hordered, hshift, (hmoved j _ hi hshift).1 hordered, he, hvalue, hbounds⟩

/-- A second later the interval of that text ends before it starts, so that an instant in between is
both before it and after it. -/
theorem Interval.shift?_disorders :
    let second : Duration := ⟨1000000000, by decide⟩
    let i : Interval := ⟨.utc ⟨17166, 86399, 900000000, by decide⟩,
      .utc ⟨17166, 86399, 1500000000, by decide⟩⟩
    let moved : Expression :=
      .arithmetic .add (.constant (.interval i)) (.constant (.duration second))
    let between : Expression := .constant (.instant (.utc ⟨17167, 0, 700000000, by decide⟩))
    (∃ i j, parse "2016-12-31T23:59:59.9Z/2016-12-31T23:59:60.5Z" = .ok i ∧
      i.shift? second = some j ∧ Obtained (fun _ _ => True) j ∧ ¬j.Ordered) ∧
    i.Ordered ∧ Live.evaluate (Entity.empty .observation)
      ((Expression.compare .greaterEqual moved between).and (.compare .lessThan moved between)) =
        .ok .true := by
  intro second i moved between
  refine ⟨?_, by decide, by dsimp only [moved, between, i, second]; rfl⟩
  have hmove : (parse "2016-12-31T23:59:59.9Z/2016-12-31T23:59:60.5Z").toOption.any
      (fun i => (i.shift? second).any fun j => decide ¬j.Ordered) = true := by decide +kernel
  obtain ⟨i, hparse, hmove⟩ := Outcome.exists_of_any hmove
  obtain ⟨j, hshift, hdisordered⟩ := (Option.any_eq_true _ _).1 hmove
  exact ⟨i, j, hparse, hshift, .shift (.parse hparse) trivial hshift, of_decide_eq_true hdisordered⟩

end LiveFilter
