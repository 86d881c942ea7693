import LiveFilter.Proofs.Outcome
import LiveFilter.Subscription.Basic

/-! # Which events a subscription matches

A subscription first compares what it is about with the event. A filter is then evaluated on the
entity, and the store is asked only if the filter leaves the entity; without a store such a filter
does not match.
-/

namespace LiveFilter.Subscription

/-- The event is about what the subscription is about. -/
structure Concerns (s : Subscription) (event : Event) : Prop where
  type : event.entity.type = s.entityType
  id : ∀ id, s.kind.id? = some id → event.entity.id = some id
  changed : ∀ p id, s.kind = .property p id →
    ∃ changed, event.changed = some changed ∧ .entity p ∈ changed

/-- The event leads to this question to the store. -/
structure Asks (s : Subscription) (event : Event) (call : StoreCall) : Prop where
  concerns : s.Concerns event
  type : call.type = s.entityType
  id : event.entity.id = some call.id
  filter : s.filter = some call.filter
  leaves : ∃ path, Live.evaluate event.entity call.filter = .error (.requiresStore path)

inductive Matches (s : Subscription) (store : Option Store) (event : Event) : Prop
  | unfiltered (h : s.Concerns event) (hfilter : s.filter = none)
  | satisfied (h : s.Concerns event) {filter : Expression} (hfilter : s.filter = some filter)
      (htrue : Live.evaluate event.entity filter = .ok .true)
  | confirmed {call : StoreCall} (h : s.Asks event call) {answer : Store}
      (hstore : store = some answer) (htrue : answer call.type call.id call.filter = .ok true)

variable {s : Subscription} {event : Event} {store : Option Store} {call : StoreCall}

theorem accepts_iff : s.accepts event = true ↔ s.Concerns event := by
  unfold accepts
  rw [Bool.and_eq_true, Bool.and_eq_true, decide_eq_true_eq]
  constructor
  · rintro ⟨⟨htype, hid⟩, hchanged⟩
    refine ⟨htype, fun id hs => ?_, fun p id hs => ?_⟩
    · rw [hs] at hid
      exact of_decide_eq_true hid
    · rw [hs] at hchanged
      dsimp only at hchanged
      split at hchanged
      · rename_i changed hevent
        exact ⟨changed, hevent, List.contains_iff_mem.1 hchanged⟩
      · cases hchanged
  · rintro ⟨htype, hid, hchanged⟩
    refine ⟨⟨htype, ?_⟩, ?_⟩
    · split
      · rename_i id hs
        exact decide_eq_true (hid id hs)
      · rfl
    · split
      · rename_i p id hs
        obtain ⟨changed, hevent, hmem⟩ := hchanged p id hs
        rw [hevent]
        exact List.contains_iff_mem.2 hmem
      · rfl
      · rfl

theorem verdict_eq_ask_iff : s.verdict event = .ask call ↔ s.Asks event call := by
  constructor
  · intro h
    unfold verdict at h
    split at h
    · rename_i haccepts
      split at h
      · cases h
      · rename_i filter hfilter
        split at h
        · cases h
        · cases h
        · rename_i path hleaves
          split at h
          · rename_i id hid
            cases h
            exact ⟨accepts_iff.1 haccepts, rfl, hid, hfilter, path, Outcome.map_eq_error.1 hleaves⟩
          · cases h
        · cases h
    · cases h
  · rintro ⟨hconcerns, htype, hid, hfilter, path, hleaves⟩
    have hsatisfied : Live.isSatisfied event.entity call.filter = .error (.requiresStore path) :=
      Outcome.map_eq_error.2 hleaves
    simp only [verdict, accepts_iff.2 hconcerns, if_true, hfilter, hsatisfied, hid, ← htype]

theorem verdict_eq_matched_iff : s.verdict event = .matched ↔ s.Concerns event ∧
    ∀ filter, s.filter = some filter → Live.evaluate event.entity filter = .ok .true := by
  constructor
  · intro h
    unfold verdict at h
    split at h
    · rename_i haccepts
      refine ⟨accepts_iff.1 haccepts, fun filter hfilter => ?_⟩
      rw [hfilter] at h
      dsimp only at h
      split at h
      · rename_i hsatisfied
        obtain ⟨t, ht, htrue⟩ := Outcome.map_eq_ok.1 hsatisfied
        rwa [Truth.isTrue_iff.1 htrue] at ht
      · cases h
      · split at h <;> cases h
      · cases h
    · cases h
  · rintro ⟨hconcerns, htrue⟩
    unfold verdict
    rw [if_pos (accepts_iff.2 hconcerns)]
    cases hfilter : s.filter with
    | none => rfl
    | some filter =>
        have hsatisfied : Live.isSatisfied event.entity filter = .ok true :=
          Outcome.map_eq_ok.2 ⟨_, htrue filter hfilter, rfl⟩
        simp only [hsatisfied]

theorem storeCall?_eq_some_iff : s.storeCall? event = some call ↔ s.Asks event call := by
  rw [← verdict_eq_ask_iff, storeCall?]
  cases s.verdict event <;> simp

/-- The store is asked the one question, or none. -/
theorem calls_matching (s : Subscription) (store : Store) (event : Event) :
    (s.matching store event).2 = (s.storeCall? event).toList := by
  unfold matching storeCall?
  cases s.verdict event with
  | matched | unmatched => rfl
  | ask call =>
      dsimp only
      split <;> rfl

theorem isMatch_iff :
    s.isMatch (store.getD Store.unavailable) event = true ↔ s.Matches store event := by
  constructor
  · intro h
    unfold isMatch matching at h
    split at h
    · rename_i hverdict
      obtain ⟨hconcerns, hfilter⟩ := verdict_eq_matched_iff.1 hverdict
      cases hs : s.filter with
      | none => exact .unfiltered hconcerns hs
      | some filter => exact .satisfied hconcerns hs (hfilter filter hs)
    · cases h
    · rename_i call hverdict
      split at h
      · rename_i answer hanswer
        cases store with
        | none => cases hanswer
        | some _ => exact .confirmed (verdict_eq_ask_iff.1 hverdict) rfl (h ▸ hanswer)
      · cases h
  · intro h
    cases h with
    | unfiltered hconcerns hfilter =>
        have hverdict : s.verdict event = .matched :=
          verdict_eq_matched_iff.2 ⟨hconcerns, by simp [hfilter]⟩
        rw [isMatch, matching, hverdict]
    | satisfied hconcerns hfilter htrue =>
        have hverdict : s.verdict event = .matched :=
          verdict_eq_matched_iff.2 ⟨hconcerns, by simpa [hfilter] using htrue⟩
        rw [isMatch, matching, hverdict]
    | confirmed hasks hstore htrue =>
        simp only [isMatch, matching, verdict_eq_ask_iff.2 hasks, hstore, Option.getD_some, htrue]

theorem Matches.concerns (h : s.Matches store event) : s.Concerns event := by
  cases h with
  | unfiltered hconcerns _ | satisfied hconcerns _ _ => exact hconcerns
  | confirmed hasks _ _ => exact hasks.concerns

/-- A filter that leaves the entity matches only by the word of the store. -/
theorem Matches.answered (h : s.Matches store event) {filter : Expression} {path : String}
    (hfilter : s.filter = some filter)
    (hleaves : Live.evaluate event.entity filter = .error (.requiresStore path)) :
    ∃ answer call, store = some answer ∧ s.Asks event call ∧
      answer call.type call.id call.filter = .ok true := by
  cases h with
  | unfiltered _ hnone => cases hfilter.symm.trans hnone
  | satisfied _ hsome htrue =>
      cases hfilter.symm.trans hsome
      cases hleaves.symm.trans htrue
  | confirmed hasks hstore htrue => exact ⟨_, _, hstore, hasks, htrue⟩

theorem matches_iff_of_evaluate (hconcerns : s.Concerns event) {filter : Expression} {truth : Truth}
    (hfilter : s.filter = some filter) (h : Live.evaluate event.entity filter = .ok truth) :
    s.Matches store event ↔ truth = .true := by
  constructor
  · intro hmatches
    cases hmatches with
    | unfiltered _ hnone => cases hfilter.symm.trans hnone
    | satisfied _ hsome htrue =>
        cases hfilter.symm.trans hsome
        exact Except.ok.inj (h.symm.trans htrue)
    | confirmed hasks _ _ =>
        cases hfilter.symm.trans hasks.filter
        obtain ⟨path, hleaves⟩ := hasks.leaves
        cases h.symm.trans hleaves
  · rintro rfl
    exact .satisfied hconcerns hfilter h

theorem storeCall?_eq_none_of_evaluate {filter : Expression} {truth : Truth}
    (hfilter : s.filter = some filter) (h : Live.evaluate event.entity filter = .ok truth) :
    s.storeCall? event = none := by
  refine Option.eq_none_iff_forall_ne_some.2 fun call hcall => ?_
  have hasks := storeCall?_eq_some_iff.1 hcall
  cases hfilter.symm.trans hasks.filter
  obtain ⟨path, hleaves⟩ := hasks.leaves
  cases h.symm.trans hleaves

end LiveFilter.Subscription
