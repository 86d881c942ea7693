import LiveFilter.Proofs.Registry.Account

/-! # Failures in a dispatch

Writing a notification may fail for any topic, and so may the store. Such a failure is counted,
changes nothing that is registered, and is of no consequence for other topics.
-/

namespace LiveFilter

namespace Subscription

variable {s : Subscription} {event : Event} {formatter formatter' : Formatter}
  {store store' : Option Store}

/-- The calls that an event makes for the subscription have the same results. -/
structure SameResults (s : Subscription) (event : Event) (formatter : Formatter)
    (store : Option Store) (formatter' : Formatter) (store' : Option Store) : Prop where
  answer : ∀ call, s.Asks event call →
    store.getD Store.unavailable call.type call.id call.filter =
      store'.getD Store.unavailable call.type call.id call.filter
  message : s.Matches store event →
    s.message formatter event.entity = s.message formatter' event.entity

theorem SameResults.outcome_eq (h : s.SameResults event formatter store formatter' store') :
    s.outcome formatter store event = s.outcome formatter' store' event := by
  have hmatch : s.isMatch (store.getD Store.unavailable) event =
      s.isMatch (store'.getD Store.unavailable) event := by
    unfold isMatch matching
    cases hverdict : s.verdict event with
    | matched | unmatched => rfl
    | ask call => simp only [h.answer call (verdict_eq_ask_iff.1 hverdict)]
  unfold outcome
  rw [← hmatch]
  split
  · rename_i hmatched
    rw [h.message (isMatch_iff.1 hmatched)]
  · rfl

end Subscription

theorem Outcome.delivered_add_failed_le (outcome : Outcome) (received : Bool) :
    ((if (outcome.isWritten && received) = true then 1 else 0) +
      if outcome.isFailed = true then 1 else 0) ≤ if outcome.isMatched = true then 1 else 0 := by
  cases outcome with
  | unmatched | failed => exact Nat.le_refl _
  | written payload =>
      cases received with
      | false => exact Nat.zero_le 1
      | true => exact Nat.le_refl 1

namespace Registry

variable {r : Registry} {event : Event} {topic : String} {handle : Nat} {g : Registration}

theorem delivered_add_failed_le (r : Registry) (services : String → Services) (event : Event) :
    (r.notifyEach services event).report.delivered + (r.notifyEach services event).report.failed ≤
      (r.notifyEach services event).report.matched := by
  rw [report_notifyEach]
  generalize r.targets event.entity.type = targets
  induction targets with
  | nil => exact Nat.le_refl 0
  | cons target targets ih =>
      have hone := (r.outcome services event target.2).delivered_add_failed_le
        (r.delivers target.1)
      simp only [List.countP_cons] at ih ⊢
      omega

theorem Indexed.failed_notifyEach (hr : r.Indexed) (services : String → Services)
    (event : Event) :
    ∃ failed : List String, failed.Pairwise (· < ·) ∧
      (∀ topic, topic ∈ failed ↔ ∃ s, r.Registers topic s ∧
        s.Matches (r.fallback (services topic)) event ∧
        ∃ cause, s.message (services topic).formatter event.entity = .error cause) ∧
      (r.notifyEach services event).report.failed = failed.length := by
  obtain ⟨failed, hsorted, hmem, hlength⟩ := hr.exists_counted event.entity.type fun s =>
    (r.outcome services event s).isFailed
  refine ⟨failed, hsorted, fun topic => ?_, ?_⟩
  · rw [hmem]
    constructor
    · rintro ⟨s, hregisters, _, h⟩
      obtain rfl := hr.topic_of_registers hregisters
      exact ⟨s, hregisters, isFailed_outcome_iff.1 h⟩
    · rintro ⟨s, hregisters, hmatches, hmessage⟩
      obtain rfl := hr.topic_of_registers hregisters
      exact ⟨s, hregisters, hmatches.concerns.type.symm,
        isFailed_outcome_iff.2 ⟨hmatches, hmessage⟩⟩
  · rw [report_notifyEach, hlength]

/-- What is sent on a topic depends on the calls for that topic alone. -/
theorem Indexed.registration?_notifyEach_congr (hr : r.Indexed)
    (hg : r.registration? handle = some g) {services services' : String → Services}
    (h : g.subscription.SameResults event
      (services g.subscription.topic).formatter (r.fallback (services g.subscription.topic))
      (services' g.subscription.topic).formatter (r.fallback (services' g.subscription.topic))) :
    (r.notifyEach services event).registry.registration? handle =
      (r.notifyEach services' event).registry.registration? handle := by
  rw [hr.registration?_notifyEach hg, hr.registration?_notifyEach hg,
    Subscription.notification?, Subscription.notification?, h.outcome_eq]

/-- Whatever fails in a dispatch, all that is registered stays as it is, with its subscribers and
its state; the failures in the report are the subscriptions that matched and could not be written;
and a topic is sent the same, whatever the calls for other topics come to. -/
theorem Reachable.notifyEach_contains_failures (h : r.Reachable) (services : String → Services)
    (event : Event) :
    (r.notifyEach services event).registry.topics = r.topics ∧
      (r.notifyEach services event).registry.byType = r.byType ∧
      (∀ handle, (r.notifyEach services event).registry.status? handle = r.status? handle) ∧
      (r.notifyEach services event).report.delivered +
          (r.notifyEach services event).report.failed ≤
        (r.notifyEach services event).report.matched ∧
      (∃ failed : List String, failed.Pairwise (· < ·) ∧
        (∀ topic, topic ∈ failed ↔ ∃ s, r.Registers topic s ∧
          s.Matches (r.fallback (services topic)) event ∧
          ∃ cause, s.message (services topic).formatter event.entity = .error cause) ∧
        (r.notifyEach services event).report.failed = failed.length) ∧
      ∀ topic handle g, r.handle? topic = some handle → r.registration? handle = some g →
        ∃ sent, (r.notifyEach services event).registry.registration? handle =
            some (g.sendAll sent) ∧
          ∀ services' : String → Services,
            g.subscription.SameResults event
              (services topic).formatter (r.fallback (services topic))
              (services' topic).formatter (r.fallback (services' topic)) →
            (r.notifyEach services' event).registry.registration? handle =
              some (g.sendAll sent) := by
  have hr := h.indexed
  have hmove := unmoved_notifyEach r services event
  refine ⟨hmove.topics, hmove.byType, hmove.status?, delivered_add_failed_le r services event,
    hr.failed_notifyEach services event, fun topic handle g hhandle hg => ?_⟩
  obtain rfl := hr.topic_of_handle? hg hhandle
  refine ⟨_, hr.registration?_notifyEach hg services event, fun services' hsame => ?_⟩
  rw [← hr.registration?_notifyEach_congr hg hsame]
  exact hr.registration?_notifyEach hg services event

/-- The payload for one of two topics cannot be written, and the other topic gets its own. -/
theorem notifyEach_contains_failures_things :
    let things : ResourcePath := ⟨[.entitySet .thing]⟩
    let event : Event := ⟨Entity.empty .thing, none⟩
    let services : String → Services := fun topic =>
      ⟨fun _ _ _ => if topic = "A" then .error (.serialization "disk full") else .ok "{}", none⟩
    let sound : String → Services := fun _ => ⟨fun _ _ _ => .ok "{}", none⟩
    let r := ((empty Config.default ⟨fun _ _ _ => .ok "", none⟩).run
      [.subscribe "A" things "" none, .subscribe "B" things "" none]).1
    r.Reachable ∧ r.handle? "B" = some 1 ∧
      (r.notifyEach services event).report = ⟨2, 1, 1⟩ ∧
      (r.notifyEach services event).registry.topics = r.topics ∧
      ∃ g sent, r.registration? 1 = some g ∧
        g.subscription.SameResults event (services "B").formatter (r.fallback (services "B"))
          (sound "B").formatter (r.fallback (sound "B")) ∧
        (r.notifyEach services event).registry.registration? 1 = some (g.sendAll sent) ∧
        (r.notifyEach sound event).registry.registration? 1 = some (g.sendAll sent) := by
  intro things event services sound r
  have h : r.Reachable := reachable_of_create Config.default _ rfl (by decide) _
  have hhandle : r.handle? "B" = some 1 := by decide
  obtain ⟨g, hg, _⟩ := h.indexed.exists_registration hhandle
  obtain ⟨htopics, _, _, _, _, hsends⟩ := h.notifyEach_contains_failures services event
  obtain ⟨sent, hsent, hsame⟩ := hsends "B" 1 g hhandle hg
  have hresults : g.subscription.SameResults event (services "B").formatter
      (r.fallback (services "B")) (sound "B").formatter (r.fallback (sound "B")) :=
    ⟨fun _ _ => rfl, fun _ => rfl⟩
  exact ⟨h, hhandle, by decide, htopics, g, sent, hg, hresults, hsent, hsame sound hresults⟩

end Registry

end LiveFilter
