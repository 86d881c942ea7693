import LiveFilter.Proofs.Evaluation
import LiveFilter.Proofs.Time.Differences

/-! # Differences in the other order

The correction for a leap second depends on which of two points is in one and on their times of day,
and changes its sign when the two change places. So does a difference, and a filter cannot tell the
difference of two instants from the negative of the opposite one.
-/

namespace LiveFilter

theorem Instant.since_swap (a b : Instant) : a.since b = (b.since a).neg :=
  Duration.eq_iff.2 (Timestamp.nanosSince_swap a.time b.time)

namespace Live

open Outcome (bind_eq_ok)

variable {entity : Entity} {x y : Expression} {a b : Instant} {d : Duration}

theorem lower_sub (hx : lower entity x = .ok (.instant (.instant a)))
    (hy : lower entity y = .ok (.instant (.instant b))) :
    lower entity (.arithmetic .sub x y) = .ok (.duration (.duration (a.since b))) :=
  bind_eq_ok.2 ⟨_, hx, bind_eq_ok.2 ⟨_, hy, rfl⟩⟩

theorem lower_negate_duration (hx : lower entity x = .ok (.duration (.duration d))) :
    lower entity (.negate x) = .ok (.duration (.duration d.neg)) :=
  bind_eq_ok.2 ⟨_, hx, rfl⟩

theorem evaluate_equal_durations {e : Duration}
    (hx : lower entity x = .ok (.duration (.duration d)))
    (hy : lower entity y = .ok (.duration (.duration e))) :
    evaluate entity (x.equal y) = .ok (.ofBool (d.compare e == .eq)) :=
  evaluate_compare_of_lower hx hy .equal

/-- The difference of two instants is the negative of the opposite difference, also with leap
seconds, and a filter on any entity finds the two equal, whatever expressions it has the instants
from. -/
theorem evaluate_sub_eq_negate_sub :
    (∀ a b : Instant, a.since b = (b.since a).neg) ∧
    ∀ (entity : Entity) (x y : Expression) (a b : Instant),
      lower entity x = .ok (.instant (.instant a)) →
      lower entity y = .ok (.instant (.instant b)) →
      evaluate entity (.equal (.arithmetic .sub x y) (.negate (.arithmetic .sub y x))) =
        .ok .true := by
  refine ⟨Instant.since_swap, fun entity x y a b hx hy => ?_⟩
  have hleft := lower_sub hx hy
  have hright := lower_negate_duration (lower_sub hy hx)
  rw [← Instant.since_swap] at hright
  rw [evaluate_equal_durations hleft hright, Duration.compare, Int.compare_eq_eq.2 rfl]
  rfl

/-- A result time in the leap second at the end of 2016, and a moved literal from the first second
of that day on another clock. -/
theorem evaluate_sub_eq_negate_sub_leapSecond :
    let a : Instant := .utc ⟨17166, 86399, 1500000000, by decide⟩
    let b : Instant := ⟨⟨17166, 0, 0, by decide⟩, some ⟨3600, by decide⟩⟩
    let d : Duration := ⟨1000000000, by decide⟩
    let moved : Instant := ⟨⟨17166, 1, 0, by decide⟩, some ⟨3600, by decide⟩⟩
    let entity := (Entity.empty .observation).set .resultTime (.instant a)
    let x : Expression := .property (.single (.entity .resultTime))
    let y : Expression := .arithmetic .add (.constant (.instant b)) (.constant (.duration d))
    a.time.InLeapSecond ∧ lower entity x = .ok (.instant (.instant a)) ∧
      lower entity y = .ok (.instant (.instant moved)) ∧ a.since moved = (moved.since a).neg ∧
      evaluate entity (.equal (.arithmetic .sub x y) (.negate (.arithmetic .sub y x))) =
        .ok .true := by
  intro a b d moved entity x y
  have hx : lower entity x = .ok (.instant (.instant a)) := rfl
  have hy : lower entity y = .ok (.instant (.instant moved)) := by
    dsimp only [y, moved, b, d]
    rfl
  obtain ⟨hswap, hequal⟩ := evaluate_sub_eq_negate_sub
  exact ⟨by decide, hx, hy, hswap a moved, hequal entity x y a moved hx hy⟩

end Live

end LiveFilter
