import LiveFilter.Proofs.Registry.Publications
import Mathlib.Data.List.Sort

/-! # Dispatch without the index

The index by type only saves work: an event does the same if it is put to every registered topic, in
the order of the topics, and each subscription is left to turn down what is not of its type.
-/

namespace LiveFilter

namespace Subscription

variable {s : Subscription} {event : Event}

theorem isMatch_of_ne_type (h : event.entity.type ≠ s.entityType) (store : Store) :
    s.isMatch store event = false := by
  simp [isMatch, matching, verdict, accepts, h]

theorem callsTo_of_ne_type (h : event.entity.type ≠ s.entityType) (store : Option Store) :
    s.callsTo store event = [] := by
  cases store <;> simp [callsTo, matching, verdict, accepts, h]

end Subscription

namespace Registry

/-- One topic of a scan: the store is asked what it alone knows, and a subscription that the event
concerns writes it and sends it, once. -/
def scanTopic (event : Event) (d : Dispatch) (topic : String) : Dispatch :=
  match d.registry.target? topic with
  | none => d
  | some (handle, s) =>
      let store := d.registry.fallback d.registry.services
      let calls := d.calls ++ s.callsTo store event
      if s.isMatch (store.getD Store.unavailable) event then
        let report := { d.report with matched := d.report.matched + 1 }
        match s.message d.registry.services.formatter event.entity with
        | .error _ => ⟨d.registry, { report with failed := report.failed + 1 }, calls⟩
        | .ok payload =>
            if d.registry.hasReceiver handle then
              ⟨d.registry.send handle ⟨s.topic, payload⟩,
                { report with delivered := report.delivered + 1 }, calls⟩
            else ⟨d.registry, report, calls⟩
      else ⟨d.registry, d.report, calls⟩

/-- An event that is put to all registered topics. -/
def scan (r : Registry) (event : Event) : Dispatch :=
  r.topicNames.foldl (scanTopic event) ⟨r, ⟨0, 0, 0⟩, []⟩

variable {r : Registry} {d : Dispatch} {event : Event} {topic : String} {type : EntityType}

theorem dispatchOne_eq (event : Event) (d : Dispatch) (handle : Nat) (s : Subscription)
    (hr : d.registry.Indexed) (h : d.registry.target? topic = some (handle, s)) :
    dispatchOne (fun _ => d.registry.services) event d (handle, s) = scanTopic event d topic := by
  have hactive : d.registry.delivers handle = d.registry.hasReceiver handle :=
    hr.delivers_eq (target?_eq_some_iff.1 h).1
  simp only [scanTopic, h, dispatchOne, Subscription.outcome]
  split
  · cases s.message d.registry.services.formatter event.entity with
    | error cause => rfl
    | ok payload =>
        simp only [Dispatch.record, hactive]
        split <;> rfl
  · rfl

theorem scanTopic_of_ne_type {target : Nat × Subscription}
    (htarget : d.registry.target? topic = some target)
    (h : event.entity.type ≠ target.2.entityType) : scanTopic event d topic = d := by
  simp only [scanTopic, htarget, Subscription.isMatch_of_ne_type h, Subscription.callsTo_of_ne_type h,
    List.append_nil]
  rfl

theorem Indexed.registers_iff (hr : r.Indexed) {s : Subscription} :
    r.Registers topic s ↔ ∃ handle, r.target? topic = some (handle, s) := by
  constructor
  · rintro ⟨entry, hentry, hs⟩
    obtain ⟨g, hg, hstatus⟩ := Option.map_eq_some_iff.1 hs
    obtain ⟨rfl, _⟩ := Prod.mk.inj hstatus
    exact ⟨entry.handle, target?_eq_some_iff.2 ⟨handle?_of_find? hentry, g, hg, rfl⟩⟩
  · rintro ⟨handle, h⟩
    obtain ⟨hhandle, g, hg, rfl⟩ := target?_eq_some_iff.1 h
    obtain ⟨g', hg', _, hregisters⟩ := hr.exists_registration hhandle
    rw [hg] at hg'
    cases hg'
    exact hregisters

theorem mem_topicNames_of_target? {handle : Nat} {s : Subscription}
    (h : r.target? topic = some (handle, s)) : topic ∈ r.topicNames := by
  obtain ⟨hhandle, _⟩ := target?_eq_some_iff.1 h
  obtain ⟨entry, hentry, _⟩ := Option.map_eq_some_iff.1 hhandle
  obtain ⟨found, hfind, _⟩ := Option.map_eq_some_iff.1 hentry
  have htopic : found.1 = topic := by simpa using List.find?_some hfind
  exact List.mem_map.2 ⟨found, List.mem_of_find?_eq_some hfind, htopic⟩

def isOfType (r : Registry) (type : EntityType) (topic : String) : Bool :=
  (r.target? topic).any fun target => target.2.entityType = type

theorem Indexed.topicsOfType_eq (hr : r.Indexed) (type : EntityType) :
    r.topicsOfType type = r.topicNames.filter (r.isOfType type) := by
  refine (sorted_topicsOfType hr.form).eq_of_mem_iff (hr.sorted.filter _) fun topic => ?_
  rw [mem_topicsOfType hr.form, hr.listed, List.mem_filter]
  simp only [hr.registers_iff, isOfType, Option.any_eq_true]
  constructor
  · rintro ⟨s, ⟨handle, h⟩, htype⟩
    exact ⟨mem_topicNames_of_target? h, _, h, decide_eq_true htype⟩
  · rintro ⟨_, ⟨handle, s⟩, h, htype⟩
    exact ⟨s, ⟨handle, h⟩, of_decide_eq_true htype⟩

/-- Since the dispatch began there was nothing but sends. -/
structure Sends (r r' : Registry) : Prop where
  unmoved : Unmoved r r'
  config : r'.config = r.config
  services : r'.services = r.services

theorem Sends.target? {r' : Registry} (h : Sends r r') (topic : String) :
    r'.target? topic = r.target? topic := by
  have hhandle : r'.handle? topic = r.handle? topic := by
    rw [handle?, find?, h.unmoved.topics, ← find?, ← handle?]
  have hstatus (r : Registry) (handle : Nat) :
      ((r.registration? handle).map fun g => (handle, g.subscription)) =
        (r.status? handle).map fun p => (handle, p.1) := by
    rw [status?, Option.map_map]
    rfl
  unfold Registry.target?
  simp only [hhandle, hstatus, h.unmoved.status?]

theorem Sends.dispatchOne {services : String → Services} (h : Sends r d.registry)
    (target : Nat × Subscription) : Sends r (dispatchOne services event d target).registry where
  unmoved := h.unmoved.trans (unmoved_record d _ _ _)
  config := (congrArg Registry.config (registry_record d _ _ _)).trans h.config
  services := (congrArg Registry.services (registry_record d _ _ _)).trans h.services

/-- What the index leaves out of a dispatch changes nothing in it. -/
theorem scanTopic_eq (hr : r.Indexed) (h : Sends r d.registry) (topic : String) :
    scanTopic event d topic =
      match if r.isOfType event.entity.type topic then r.target? topic else none with
      | some target => dispatchOne (fun _ => r.services) event d target
      | none => d := by
  cases htarget : r.target? topic with
  | none =>
      rw [ite_self]
      simp only [scanTopic, h.target?, htarget]
  | some target =>
      have htarget' := (h.target? topic).trans htarget
      by_cases htype : target.2.entityType = event.entity.type
      · have : r.isOfType event.entity.type topic := by simp [isOfType, htarget, htype]
        rw [if_pos this, ← h.services]
        exact (dispatchOne_eq event d _ _ (hr.of_unmoved h.unmoved) htarget').symm
      · have : ¬r.isOfType event.entity.type topic := by simp [isOfType, htarget, htype]
        rw [if_neg this]
        exact scanTopic_of_ne_type htarget' (Ne.symm htype)

theorem Sends.scanTopic (hr : r.Indexed) (h : Sends r d.registry) (topic : String) :
    Sends r (scanTopic event d topic).registry := by
  rw [scanTopic_eq hr h]
  split
  · exact h.dispatchOne _
  · exact h

theorem foldl_scanTopic (hr : r.Indexed) (h : Sends r d.registry) (topics : List String) :
    topics.foldl (scanTopic event) d =
      (topics.filterMap fun topic =>
        if r.isOfType event.entity.type topic then r.target? topic else none).foldl
          (dispatchOne (fun _ => r.services) event) d := by
  induction topics generalizing d with
  | nil => rfl
  | cons topic topics ih =>
      -- a topic of another type is not among the targets, and its step does nothing
      rw [List.foldl_cons, ih (h.scanTopic hr topic), scanTopic_eq hr h, List.filterMap_cons]
      generalize (if r.isOfType event.entity.type topic then r.target? topic else none) = target
      cases target <;> rfl

theorem sends_refl (r : Registry) : Sends r r := ⟨.refl r, rfl, rfl⟩

theorem Indexed.notify_eq_scan (hr : r.Indexed) (event : Event) :
    r.notify event = r.scan event := by
  rw [scan, foldl_scanTopic hr (sends_refl r), notify, notifyEach, targets_eq, hr.topicsOfType_eq,
    List.filterMap_filter]

def concerns (r : Registry) (event : Event) (topic : String) : Bool :=
  (r.target? topic).any fun target =>
    target.2.isMatch ((r.fallback r.services).getD Store.unavailable) event

theorem matched_scanTopic (event : Event) (d : Dispatch) (topic : String) :
    (scanTopic event d topic).report.matched =
      d.report.matched + if d.registry.concerns event topic then 1 else 0 := by
  unfold scanTopic concerns
  cases d.registry.target? topic with
  | none => rfl
  | some target =>
      obtain ⟨handle, s⟩ := target
      rw [Option.any_some]
      by_cases hmatch : s.isMatch ((d.registry.fallback d.registry.services).getD
          Store.unavailable) event
      · simp only [hmatch, if_true]
        split
        · rfl
        · split <;> rfl
      · simp [hmatch]

theorem matched_foldl_scanTopic (hr : r.Indexed) (h : Sends r d.registry) (topics : List String) :
    (topics.foldl (scanTopic event) d).report.matched =
      d.report.matched + topics.countP (r.concerns event) := by
  induction topics generalizing d with
  | nil => rfl
  | cons topic topics ih =>
      have hconcerns : d.registry.concerns event topic = r.concerns event topic := by
        simp only [concerns, h.target?, fallback, h.config, h.services]
      rw [List.foldl_cons, ih (h.scanTopic hr topic), matched_scanTopic, hconcerns, List.countP_cons]
      omega

/-- An event does what it does when it is put to all registered topics in their order. Each of them
that it concerns counts once and is sent its notification once, if it writes one and someone is
there to receive it; nothing is sent on a registration that is not the one of its topic. -/
theorem Reachable.notify_eq_scan_once (h : r.Reachable) (event : Event) :
    r.notify event = r.scan event ∧
      r.topicNames.Pairwise (· < ·) ∧
      (r.notify event).report.matched = r.topicNames.countP (r.concerns event) ∧
      ∀ handle g, r.registration? handle = some g →
        (r.notify event).registry.registration? handle = some (g.sendAll
          (if r.handle? g.subscription.topic = some handle ∧ r.hasReceiver handle then
            (g.subscription.notification? r.services.formatter (r.fallback r.services)
              event).toList
          else [])) := by
  have hr := h.indexed
  have hscan := hr.notify_eq_scan event
  refine ⟨hscan, hr.sorted, ?_, fun handle g hg => ?_⟩
  · rw [hscan, scan, matched_foldl_scanTopic hr (sends_refl r), Nat.zero_add]
  · rw [hr.registration?_notify hg, published?, hg, Option.bind_some]
    by_cases hhandle : r.handle? g.subscription.topic = some handle
    · simp only [hhandle, if_true, true_and]
    · simp only [hhandle, if_false, false_and, Option.toList_none, ite_self]

/-- Topics on two types, of which one was given up. -/
theorem notify_eq_scan_once_thing :
    let things : ResourcePath := ⟨[.entitySet .thing]⟩
    let sensors : ResourcePath := ⟨[.entitySet .sensor]⟩
    let event : Event := ⟨Entity.empty .thing, none⟩
    let r := ((empty Config.default ⟨fun _ _ _ => .ok "", none⟩).run
      [.subscribe "Things" things "" none, .subscribe "Sensors" sensors "" none,
        .subscribe "All" things "" none, .subscribe "Old" things "" none, .unsubscribe "Old"]).1
    r.Reachable ∧ r.topicNames = ["All", "Sensors", "Things"] ∧
      r.notify event = r.scan event ∧ (r.notify event).report = ⟨2, 2, 0⟩ ∧
      r.topicNames.countP (r.concerns event) = 2 := by
  intro things sensors event r
  have h : r.Reachable := reachable_of_create Config.default _ rfl (by decide) _
  have hreport : (r.notify event).report = ⟨2, 2, 0⟩ := by decide
  obtain ⟨hscan, _, hmatched, _⟩ := h.notify_eq_scan_once event
  exact ⟨h, by decide, hscan, hreport, hmatched.symm.trans (congrArg DispatchReport.matched hreport)⟩

end Registry

end LiveFilter
