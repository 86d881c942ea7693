import LiveFilter.Proofs.Registry.Scan
import LiveFilter.Proofs.Subscription.Matching

/-! # What a dispatch adds up to

The report and the questions of a dispatch are sums over its targets. The targets are the
registered subscriptions on the type of the entity, each once and in the order of their topics.
-/

namespace LiveFilter

namespace Outcome

def isMatched : Outcome → Bool
  | .unmatched => false
  | .failed | .written _ => true

def isFailed : Outcome → Bool
  | .failed => true
  | .unmatched | .written _ => false

def isWritten : Outcome → Bool
  | .written _ => true
  | .unmatched | .failed => false

end Outcome

namespace Registry

variable {r : Registry} {s : Subscription} {topic : String} {type : EntityType} {event : Event}
  {services : String → Services}

def outcome (r : Registry) (services : String → Services) (event : Event) (s : Subscription) :
    Outcome :=
  s.outcome (services s.topic).formatter (r.fallback (services s.topic)) event

theorem isMatched_outcome_iff : (r.outcome services event s).isMatched = true ↔
    s.Matches (r.fallback (services s.topic)) event := by
  rw [← Subscription.isMatch_iff, outcome, Subscription.outcome]
  split
  · rename_i hmatch
    simp only [hmatch, iff_true]
    split <;> rfl
  · rename_i hmatch
    simp [hmatch, Outcome.isMatched]

theorem isFailed_outcome_iff : (r.outcome services event s).isFailed = true ↔
    s.Matches (r.fallback (services s.topic)) event ∧
      ∃ cause, s.message (services s.topic).formatter event.entity = .error cause := by
  rw [← Subscription.isMatch_iff, outcome, Subscription.outcome]
  split
  · rename_i hmatch
    simp only [hmatch, true_and]
    cases s.message (services s.topic).formatter event.entity <;> simp [Outcome.isFailed]
  · rename_i hmatch
    simp [hmatch, Outcome.isFailed]

theorem report_record (d : Dispatch) (handle : Nat) (topic : String) (outcome : Outcome) :
    (d.record handle topic outcome).report =
      ⟨d.report.matched + outcome.isMatched.toNat,
        d.report.delivered + (outcome.isWritten && d.registry.delivers handle).toNat,
        d.report.failed + outcome.isFailed.toNat⟩ := by
  cases outcome with
  | unmatched | failed => rfl
  | written payload =>
      rw [Dispatch.record, Outcome.isWritten, Bool.true_and]
      split
      · rename_i hdelivers
        rw [hdelivers]
        rfl
      · rename_i hdelivers
        rw [Bool.eq_false_iff.2 hdelivers]
        rfl

theorem calls_record (d : Dispatch) (handle : Nat) (topic : String) (outcome : Outcome) :
    (d.record handle topic outcome).calls = d.calls := by
  cases outcome with
  | unmatched | failed => rfl
  | written payload =>
      rw [Dispatch.record]
      split <;> rfl

theorem outcome_dispatchOne (services : String → Services) (event : Event) (d : Dispatch)
    (target : Nat × Subscription) :
    (dispatchOne services event d target).registry.outcome services event =
      d.registry.outcome services event := by
  funext s
  rw [outcome, fallback_dispatchOne, outcome]

theorem report_dispatch (services : String → Services) (event : Event)
    (targets : List (Nat × Subscription)) (d : Dispatch) :
    (targets.foldl (dispatchOne services event) d).report =
      ⟨d.report.matched +
          targets.countP fun t => (d.registry.outcome services event t.2).isMatched,
        d.report.delivered + targets.countP fun t =>
          (d.registry.outcome services event t.2).isWritten && d.registry.delivers t.1,
        d.report.failed +
          targets.countP fun t => (d.registry.outcome services event t.2).isFailed⟩ := by
  induction targets generalizing d with
  | nil => rfl
  | cons target targets ih =>
      have hone : (dispatchOne services event d target).report = _ :=
        report_record d target.1 _ (d.registry.outcome services event target.2)
      rw [List.foldl_cons, ih, outcome_dispatchOne, delivers_dispatchOne, hone]
      simp only [List.countP_cons, Bool.toNat, Bool.cond_eq_ite, Nat.add_assoc, Nat.add_comm]

theorem report_notifyEach (r : Registry) (services : String → Services) (event : Event) :
    (r.notifyEach services event).report =
      ⟨(r.targets event.entity.type).countP fun t => (r.outcome services event t.2).isMatched,
        (r.targets event.entity.type).countP fun t =>
          (r.outcome services event t.2).isWritten && r.delivers t.1,
        (r.targets event.entity.type).countP fun t => (r.outcome services event t.2).isFailed⟩ := by
  rw [notifyEach, report_dispatch]
  simp only [Nat.zero_add]

theorem calls_dispatch (services : String → Services) (event : Event)
    (targets : List (Nat × Subscription)) (d : Dispatch) :
    (targets.foldl (dispatchOne services event) d).calls = d.calls ++ targets.flatMap fun t =>
      t.2.callsTo (d.registry.fallback (services t.2.topic)) event := by
  induction targets generalizing d with
  | nil => exact (List.append_nil _).symm
  | cons target targets ih =>
      have hone : (dispatchOne services event d target).calls = d.calls ++
          target.2.callsTo (d.registry.fallback (services target.2.topic)) event :=
        congrArg (· ++ _) (calls_record d target.1 _ _)
      rw [List.foldl_cons, ih, fallback_dispatchOne, hone, List.append_assoc, List.flatMap_cons]

theorem Indexed.topic_of_registers (hr : r.Indexed) (h : r.Registers topic s) :
    s.topic = topic := by
  obtain ⟨handle, htarget⟩ := hr.registers_iff.1 h
  obtain ⟨hhandle, g, hg, rfl⟩ := target?_eq_some_iff.1 htarget
  exact hr.topic_of_handle? hg hhandle

theorem Indexed.map_topic_targets (hr : r.Indexed) (type : EntityType) :
    (r.targets type).map (·.2.topic) = r.topicsOfType type := by
  have hone (topic : String) (hmem : topic ∈ r.topicsOfType type) :
      ((r.target? topic).map (·.2.topic)) = some topic := by
    rw [mem_topicsOfType hr.form, hr.listed] at hmem
    obtain ⟨s, hregisters, _⟩ := hmem
    obtain ⟨handle, htarget⟩ := hr.registers_iff.1 hregisters
    rw [htarget, Option.map_some, hr.topic_of_registers hregisters]
  rw [targets_eq, List.map_filterMap, List.filterMap_congr hone, List.filterMap_some]

theorem Indexed.exists_mem_targets_iff (hr : r.Indexed) :
    (∃ handle, (handle, s) ∈ r.targets type) ↔ r.Registers s.topic s ∧ s.entityType = type := by
  simp only [targets_eq, List.mem_filterMap, mem_topicsOfType hr.form, hr.listed]
  constructor
  · rintro ⟨handle, topic, ⟨s', hregisters, htype⟩, htarget⟩
    obtain ⟨handle', htarget'⟩ := hr.registers_iff.1 hregisters
    cases htarget.symm.trans htarget'
    exact ⟨(hr.topic_of_registers hregisters).symm ▸ hregisters, htype⟩
  · rintro ⟨hregisters, htype⟩
    obtain ⟨handle, htarget⟩ := hr.registers_iff.1 hregisters
    exact ⟨handle, s.topic, ⟨s, hregisters, htype⟩, htarget⟩

/-- What is taken from the targets, one by one, comes from registered topics in their order. -/
theorem Indexed.exists_chosen {β : Type} (hr : r.Indexed) (type : EntityType)
    (f : Subscription → Option β) :
    ∃ chosen : List (String × β), (chosen.map Prod.fst).Pairwise (· < ·) ∧
      (∀ topic b, (topic, b) ∈ chosen ↔
        ∃ s, r.Registers topic s ∧ s.entityType = type ∧ f s = some b) ∧
      chosen.map Prod.snd = (r.targets type).filterMap fun t => f t.2 := by
  refine ⟨(r.targets type).filterMap fun t => (f t.2).map (t.2.topic, ·), ?_, ?_, ?_⟩
  · have hsub : (((r.targets type).filterMap fun t => (f t.2).map (t.2.topic, ·)).map Prod.fst)
        |>.Sublist ((r.targets type).map (·.2.topic)) := by
      generalize r.targets type = targets
      induction targets with
      | nil => exact .refl _
      | cons target targets ih =>
          rw [List.filterMap_cons, List.map_cons]
          cases f target.2 with
          | none => exact ih.cons _
          | some b => exact ih.cons_cons _
    rw [hr.map_topic_targets] at hsub
    exact (sorted_topicsOfType hr.form).sublist hsub
  · intro topic b
    rw [List.mem_filterMap]
    constructor
    · rintro ⟨⟨handle, s⟩, hmem, h⟩
      obtain ⟨b', hb, h⟩ := Option.map_eq_some_iff.1 h
      cases h
      obtain ⟨hregisters, htype⟩ := hr.exists_mem_targets_iff.1 ⟨handle, hmem⟩
      exact ⟨s, hregisters, htype, hb⟩
    · rintro ⟨s, hregisters, htype, hb⟩
      obtain rfl := hr.topic_of_registers hregisters
      obtain ⟨handle, hmem⟩ := hr.exists_mem_targets_iff.2 ⟨hregisters, htype⟩
      exact ⟨(handle, s), hmem, by rw [hb, Option.map_some]⟩
  · rw [List.map_filterMap]
    congr 1
    funext t
    rw [Option.map_map]
    exact Option.map_id'

theorem Indexed.exists_counted (hr : r.Indexed) (type : EntityType) (p : Subscription → Bool) :
    ∃ topics : List String, topics.Pairwise (· < ·) ∧
      (∀ topic, topic ∈ topics ↔ ∃ s, r.Registers topic s ∧ s.entityType = type ∧ p s = true) ∧
      (r.targets type).countP (fun t => p t.2) = topics.length := by
  obtain ⟨chosen, hsorted, hmem, hchosen⟩ := hr.exists_chosen type fun s =>
    if p s then some () else none
  refine ⟨chosen.map Prod.fst, hsorted, fun topic => ?_, ?_⟩
  · simp only [List.mem_map, Prod.exists, exists_and_right, exists_eq_right, hmem]
    simp
  · have hlength := congrArg List.length hchosen
    rw [List.length_map, List.length_filterMap_eq_countP] at hlength
    rw [List.length_map, hlength]
    congr 1
    funext t
    cases p t.2 <;> rfl

end Registry

end LiveFilter
