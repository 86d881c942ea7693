import LiveFilter.Proofs.Registry.Account

/-! # Questions to the store

In a dispatch every registered subscription whose filter leaves the entity has one question, and
these are all the questions there are. The answers decide about these subscriptions and about no
others.
-/

namespace LiveFilter

/-- A missing store, made explicit as the one that refuses every question. -/
def Services.filled (services : Services) : Services :=
  { services with store := some (services.store.getD Store.unavailable) }

namespace Registry

variable {r : Registry} {s : Subscription} {event : Event} {call : StoreCall}

theorem callsTo_eq (s : Subscription) (store : Option Store) (event : Event) :
    s.callsTo store event = (if store.isSome then s.storeCall? event else none).toList := by
  cases store with
  | none => rfl
  | some store => exact s.calls_matching store event

theorem fallback_isSome_iff {services : Services} : (r.fallback services).isSome = true ↔
    r.config.storeFallback = true ∧ services.store.isSome = true := by
  unfold fallback
  split <;> simp [*]

theorem fallback_filled (r : Registry) (services : Services) :
    (r.fallback services.filled).getD Store.unavailable =
      (r.fallback services).getD Store.unavailable := by
  unfold fallback
  split <;> rfl

/-- That a store is missing shows in the questions only. -/
theorem report_filled (r : Registry) (services : String → Services) (event : Event) :
    (r.notifyEach (fun topic => (services topic).filled) event).report =
      (r.notifyEach services event).report := by
  have houtcome : r.outcome (fun topic => (services topic).filled) event =
      r.outcome services event := by
    funext s
    simp only [outcome, Subscription.outcome, fallback_filled]
    rfl
  rw [report_notifyEach, report_notifyEach, houtcome]

theorem Indexed.calls_notifyEach (hr : r.Indexed) (services : String → Services) (event : Event) :
    ∃ asked : List (String × StoreCall), (asked.map Prod.fst).Pairwise (· < ·) ∧
      (∀ topic call, (topic, call) ∈ asked ↔ (r.fallback (services topic)).isSome = true ∧
        ∃ s, r.Registers topic s ∧ s.Asks event call) ∧
      (r.notifyEach services event).calls = asked.map Prod.snd := by
  obtain ⟨asked, hsorted, hmem, hasked⟩ := hr.exists_chosen event.entity.type fun s =>
    if (r.fallback (services s.topic)).isSome then s.storeCall? event else none
  refine ⟨asked, hsorted, fun topic call => ?_, ?_⟩
  · rw [hmem]
    constructor
    · rintro ⟨s, hregisters, _, h⟩
      obtain rfl := hr.topic_of_registers hregisters
      obtain ⟨hstore, hcall⟩ := Option.ite_none_right_eq_some.1 h
      exact ⟨hstore, s, hregisters, Subscription.storeCall?_eq_some_iff.1 hcall⟩
    · rintro ⟨hstore, s, hregisters, hasks⟩
      obtain rfl := hr.topic_of_registers hregisters
      refine ⟨s, hregisters, hasks.concerns.type.symm, ?_⟩
      rw [if_pos hstore]
      exact Subscription.storeCall?_eq_some_iff.2 hasks
  · rw [hasked, notifyEach, calls_dispatch, List.nil_append, List.filterMap_eq_flatMap_toList]
    simp only [callsTo_eq]

theorem Indexed.matched_notifyEach (hr : r.Indexed) (services : String → Services)
    (event : Event) :
    ∃ matched : List String, matched.Pairwise (· < ·) ∧
      (∀ topic, topic ∈ matched ↔
        ∃ s, r.Registers topic s ∧ s.Matches (r.fallback (services topic)) event) ∧
      (r.notifyEach services event).report.matched = matched.length := by
  obtain ⟨matched, hsorted, hmem, hlength⟩ := hr.exists_counted event.entity.type fun s =>
    (r.outcome services event s).isMatched
  refine ⟨matched, hsorted, fun topic => ?_, ?_⟩
  · rw [hmem]
    constructor
    · rintro ⟨s, hregisters, _, h⟩
      obtain rfl := hr.topic_of_registers hregisters
      exact ⟨s, hregisters, isMatched_outcome_iff.1 h⟩
    · rintro ⟨s, hregisters, h⟩
      obtain rfl := hr.topic_of_registers hregisters
      exact ⟨s, hregisters, h.concerns.type.symm, isMatched_outcome_iff.2 h⟩
  · rw [report_notifyEach, hlength]

/-- A dispatch puts exactly these questions to the store, in the order of topics: one for every
registered subscription that the event concerns, whose filter leaves the entity, if the entity has
an identifier. It counts as matched what the event concerns and what has no filter, a filter that is
true on the entity, or the word of the store. Without fallback nothing is asked, and no filter that
leaves the entity matches. The store may answer for each topic as it likes. -/
theorem Reachable.notifyEach_asks (h : r.Reachable) (services : String → Services)
    (event : Event) :
    ∃ (asked : List (String × StoreCall)) (matched : List String),
      (asked.map Prod.fst).Pairwise (· < ·) ∧ matched.Pairwise (· < ·) ∧
      (∀ topic call, (topic, call) ∈ asked ↔
        r.config.storeFallback = true ∧ (services topic).store.isSome = true ∧
          ∃ s, r.Registers topic s ∧ s.Asks event call) ∧
      (∀ topic, topic ∈ matched ↔
        ∃ s, r.Registers topic s ∧ s.Matches (r.fallback (services topic)) event) ∧
      (r.notifyEach services event).calls = asked.map Prod.snd ∧
      (r.notifyEach services event).report.matched = matched.length ∧
      (r.notifyEach (fun topic => (services topic).filled) event).report =
        (r.notifyEach services event).report ∧
      (r.config.storeFallback = false → (r.notifyEach services event).calls = [] ∧
        ∀ topic s filter path, r.Registers topic s → s.filter = some filter →
          Live.evaluate event.entity filter = .error (.requiresStore path) → topic ∉ matched) := by
  have hr := h.indexed
  obtain ⟨asked, hasked, hmemAsked, hcalls⟩ := hr.calls_notifyEach services event
  obtain ⟨matched, hmatched, hmemMatched, hcount⟩ := hr.matched_notifyEach services event
  simp only [fallback_isSome_iff, and_assoc] at hmemAsked
  refine ⟨asked, matched, hasked, hmatched, hmemAsked, hmemMatched, hcalls, hcount,
    report_filled r services event, fun hoff => ⟨?_, ?_⟩⟩
  · have hnil : asked = [] := by
      refine List.eq_nil_iff_forall_not_mem.2 fun entry hentry => ?_
      have hon := ((hmemAsked entry.1 entry.2).1 hentry).1
      rw [hoff] at hon
      cases hon
    rw [hcalls, hnil, List.map_nil]
  · intro topic s filter path hregisters hfilter hleaves hmem
    obtain ⟨s', hregisters', hmatches⟩ := (hmemMatched topic).1 hmem
    obtain ⟨_, hs⟩ := hr.registers_iff.1 hregisters
    obtain ⟨_, hs'⟩ := hr.registers_iff.1 hregisters'
    cases hs.symm.trans hs'
    obtain ⟨_, _, hstore, _⟩ := hmatches.answered hfilter hleaves
    rw [fallback, hoff] at hstore
    cases hstore

/-- Of a datastream without links the store is asked whether it belongs to the thing. -/
theorem notifyEach_asks_datastreams :
    let datastreams : ResourcePath := ⟨[.entitySet .datastream]⟩
    let ofThing : ResourcePath := ⟨[.entity .thing (some (.long 1)), .entitySet .datastream]⟩
    let event : Event := ⟨(Entity.empty .datastream).withId (.long 7), none⟩
    let r := ((empty Config.default ⟨fun _ _ _ => .ok "", some fun _ _ _ => .ok true⟩).run
      [.subscribe "Datastreams" datastreams "" none,
        .subscribe "Things(1)/Datastreams" ofThing "" none]).1
    r.Reachable ∧ (r.notify event).calls.map StoreCall.id = [.long 7] ∧
      ∃ (asked : List (String × StoreCall)) (matched : List String),
        (r.notify event).calls = asked.map Prod.snd ∧ matched.length = 2 ∧
        ∀ topic call, (topic, call) ∈ asked ↔
          r.config.storeFallback = true ∧ r.services.store.isSome = true ∧
            ∃ s, r.Registers topic s ∧ s.Asks event call := by
  intro datastreams ofThing event r
  have h : r.Reachable := reachable_of_create Config.default _ rfl (by decide) _
  have hcount : (r.notify event).report.matched = 2 := by decide
  obtain ⟨asked, matched, _, _, hmem, _, hcalls, hmatched, _⟩ :=
    h.notifyEach_asks (fun _ => r.services) event
  exact ⟨h, by decide, asked, matched, hcalls, hmatched.symm.trans hcount, hmem⟩

end Registry

end LiveFilter
