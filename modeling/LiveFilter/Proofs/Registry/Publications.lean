import LiveFilter.Proofs.Registry.Backlog
import LiveFilter.Proofs.Registry.Changes

/-! # What is sent on a registration

An event is put to the topics of its type, and each of these has a registration of its own. So a
registration that is the one of its topic gets an event once, and any other does not get it; its
channel changes by what its subscription writes for the event, and by nothing else.
-/

namespace LiveFilter

def Outcome.notification? (topic : String) : Outcome → Option Notification
  | .written payload => some ⟨topic, payload⟩
  | .unmatched | .failed => none

namespace Subscription

/-- The notification of an event that the subscription matches and writes. -/
def notification? (s : Subscription) (formatter : Formatter) (store : Option Store)
    (event : Event) : Option Notification :=
  (s.outcome formatter store event).notification? s.topic

variable {s : Subscription} {event : Event}

theorem topic_of_notification? {formatter : Formatter} {store : Option Store} {m : Notification}
    (h : s.notification? formatter store event = some m) : m.topic = s.topic := by
  unfold notification? Outcome.notification? at h
  split at h <;> cases h
  rfl

theorem notification?_of_ne_type (h : event.entity.type ≠ s.entityType) (formatter : Formatter)
    (store : Option Store) : s.notification? formatter store event = none := by
  simp [notification?, Outcome.notification?, outcome, isMatch, matching, verdict, accepts, h]

end Subscription

namespace Registration

/-- The one registration is the other one after these messages were sent on it. -/
structure Becomes (g g' : Registration) (sent : List Notification) : Prop where
  subscription : g'.subscription = g.subscription
  capacity : g'.channel.capacity = g.channel.capacity
  carries : ∀ log, g.channel.Carries log → g'.channel.Carries (log ++ sent)

variable {g g' g'' : Registration} {sent sent' : List Notification}

theorem Becomes.refl (g : Registration) : g.Becomes g [] :=
  ⟨rfl, rfl, fun log h => (List.append_nil log).symm ▸ h⟩

theorem Becomes.trans (h : g.Becomes g' sent) (h' : g'.Becomes g'' sent') :
    g.Becomes g'' (sent ++ sent') where
  subscription := h'.subscription.trans h.subscription
  capacity := h'.capacity.trans h.capacity
  carries log hlog := by
    rw [← List.append_assoc]
    exact h'.carries _ (h.carries log hlog)

theorem becomes_closed (g : Registration) :
    g.Becomes { g with active := false, channel := g.channel.close } [] :=
  ⟨rfl, rfl, fun log h => (List.append_nil log).symm ▸ h.close⟩

def sendAll (g : Registration) (ms : List Notification) : Registration :=
  { g with channel := ms.foldl Channel.send g.channel }

theorem sendAll_append (g : Registration) (ms ms' : List Notification) :
    g.sendAll (ms ++ ms') = (g.sendAll ms).sendAll ms' := by
  simp only [sendAll, List.foldl_append]

theorem becomes_sendAll (g : Registration) (ms : List Notification) :
    g.Becomes (g.sendAll ms) ms := by
  induction ms generalizing g with
  | nil => exact .refl g
  | cons m ms ih =>
      have hone : g.Becomes (g.sendAll [m]) [m] := ⟨rfl, rfl, fun _ h => h.send m⟩
      exact hone.trans (ih (g.sendAll [m]))

end Registration

namespace Registry

variable {r : Registry} {topic topic' : String} {handle : Nat} {type : EntityType}
  {g : Registration}

/-- What a command publishes on a registration, as long as that is the registration of its topic. -/
def published? (handle : Nat) (r : Registry) : Command → Option Notification
  | .notify event => (r.registration? handle).bind fun g =>
      if r.handle? g.subscription.topic = some handle then
        g.subscription.notification? r.services.formatter (r.fallback r.services) event
      else none
  | _ => none

theorem Indexed.exists_registration (hr : r.Indexed) (h : r.handle? topic = some handle) :
    ∃ g, r.registration? handle = some g ∧ g.subscription.topic = topic ∧
      r.Registers topic g.subscription := by
  obtain ⟨entry, hentry, rfl⟩ := Option.map_eq_some_iff.1 h
  obtain ⟨_, s, hs, htopic⟩ := hr.registered topic entry hentry
  obtain ⟨g, hg, hstatus⟩ := Option.map_eq_some_iff.1 hs
  obtain ⟨rfl, _⟩ := Prod.mk.inj hstatus
  exact ⟨g, hg, htopic, entry, hentry, hs⟩

theorem Indexed.topic_of_handle? (hr : r.Indexed) (hg : r.registration? handle = some g)
    (h : r.handle? topic = some handle) : g.subscription.topic = topic := by
  obtain ⟨g', hg', htopic, _⟩ := hr.exists_registration h
  rw [hg] at hg'
  cases hg'
  exact htopic

theorem Indexed.topic_unique (hr : r.Indexed) (h : r.handle? topic = some handle)
    (h' : r.handle? topic' = some handle) : topic = topic' := by
  obtain ⟨g, hg, htopic, _⟩ := hr.exists_registration h
  exact htopic.symm.trans (hr.topic_of_handle? hg h')

theorem topicsOfType_of_mem (h : IndexForm r.byType) {topics : List String}
    (hmem : (type, topics) ∈ r.byType) : r.topicsOfType type = topics := by
  have hfind : r.byType.find? (·.1 = type) = some (type, topics) := by
    have htypes := h.types
    generalize r.byType = byType at hmem htypes
    induction byType with
    | nil => cases hmem
    | cons entry rest ih =>
        rw [List.map_cons, List.nodup_cons] at htypes
        obtain rfl | hmem := List.mem_cons.1 hmem
        · exact List.find?_cons_of_pos (decide_eq_true rfl)
        · rw [List.find?_cons_of_neg]
          · exact ih hmem htypes.2
          · intro heq
            refine htypes.1 (List.mem_map.2 ⟨_, hmem, ?_⟩)
            exact (of_decide_eq_true heq).symm
  rw [topicsOfType, hfind]
  rfl

theorem topicsOfType_mem_or_nil (r : Registry) (type : EntityType) :
    (type, r.topicsOfType type) ∈ r.byType ∨ r.topicsOfType type = [] := by
  unfold topicsOfType
  cases hfind : r.byType.find? (·.1 = type) with
  | none => exact .inr rfl
  | some entry =>
      obtain ⟨t, topics⟩ := entry
      have ht := List.find?_some hfind
      obtain rfl := of_decide_eq_true ht
      exact .inl (List.mem_of_find?_eq_some hfind)

theorem mem_topicsOfType (h : IndexForm r.byType) :
    topic ∈ r.topicsOfType type ↔ Lists r.byType type topic := by
  constructor
  · intro htopic
    obtain hmem | hnil := topicsOfType_mem_or_nil r type
    · exact ⟨_, hmem, htopic⟩
    · rw [hnil] at htopic
      cases htopic
  · rintro ⟨topics, hmem, htopic⟩
    rwa [topicsOfType_of_mem h hmem]

theorem sorted_topicsOfType (h : IndexForm r.byType) :
    (r.topicsOfType type).Pairwise (· < ·) := by
  obtain hmem | hnil := topicsOfType_mem_or_nil r type
  · exact h.sorted _ _ hmem
  · rw [hnil]
    exact List.Pairwise.nil

theorem nodup_topicsOfType (h : IndexForm r.byType) : (r.topicsOfType type).Nodup := by
  refine (sorted_topicsOfType h).imp ?_
  rintro s _ hlt rfl
  exact String.lt_irrefl s hlt

theorem filterMap_if_eq {β : Type} {topics : List String} (h : topics.Nodup) (x : Option β) :
    topics.filterMap (fun t => if t = topic then x else none) =
      if topic ∈ topics then x.toList else [] := by
  induction topics with
  | nil => rfl
  | cons t rest ih =>
      rw [List.nodup_cons] at h
      by_cases ht : t = topic
      · subst ht
        cases x <;> simp [ih h.2, h.1]
      · simp [ih h.2, ht, Ne.symm ht]

def target? (r : Registry) (topic : String) : Option (Nat × Subscription) :=
  (r.handle? topic).bind fun handle =>
    (r.registration? handle).map fun g => (handle, g.subscription)

theorem target?_eq_some_iff {s : Subscription} : r.target? topic = some (handle, s) ↔
    r.handle? topic = some handle ∧ ∃ g, r.registration? handle = some g ∧ g.subscription = s := by
  rw [target?, Option.bind_eq_some_iff]
  constructor
  · rintro ⟨handle', hhandle, h⟩
    obtain ⟨g, hg, heq⟩ := Option.map_eq_some_iff.1 h
    cases heq
    exact ⟨hhandle, g, hg, rfl⟩
  · rintro ⟨hhandle, g, hg, rfl⟩
    exact ⟨handle, hhandle, Option.map_eq_some_iff.2 ⟨g, hg, rfl⟩⟩

theorem targets_eq (r : Registry) (type : EntityType) :
    r.targets type = (r.topicsOfType type).filterMap r.target? := by
  unfold targets
  congr 1
  funext topic
  unfold target?
  cases r.handle? topic <;> rfl

/-- What a registration makes of an event that is put to these targets. -/
def heard (handle : Nat) (f : Subscription → Option Notification)
    (targets : List (Nat × Subscription)) : List Notification :=
  targets.filterMap fun target => if target.1 = handle then f target.2 else none

/-- Among the targets of an event a registration is once, or not at all. -/
theorem Indexed.heard_targets (hr : r.Indexed) (hg : r.registration? handle = some g)
    {f : Subscription → Option Notification}
    (hf : type ≠ g.subscription.entityType → f g.subscription = none) :
    heard handle f (r.targets type) =
      (if r.handle? g.subscription.topic = some handle then f g.subscription else none).toList := by
  generalize hx : (if r.handle? g.subscription.topic = some handle then f g.subscription
    else none) = x
  have hone (t : String) : ((r.target? t).bind
      fun target => if target.1 = handle then f target.2 else none) =
        if t = g.subscription.topic then x else none := by
    unfold target?
    by_cases hhandle : r.handle? t = some handle
    · have htopic := hr.topic_of_handle? hg hhandle
      rw [← hx, htopic, if_pos rfl, if_pos hhandle, hhandle]
      simp [hg]
    · have hnone : (if t = g.subscription.topic then x else none) = none := by
        split
        · rename_i ht
          rw [← hx, ← ht, if_neg hhandle]
        · rfl
      rw [hnone]
      cases hother : r.handle? t with
      | none => rfl
      | some other =>
          have hne : other ≠ handle := fun heq => hhandle (hother.trans (congrArg some heq))
          rw [Option.bind_some]
          cases r.registration? other with
          | none => rfl
          | some g' => exact if_neg hne
  rw [heard, targets_eq, List.filterMap_filterMap]
  refine (congrArg (fun F => List.filterMap F _) (funext hone)).trans ?_
  rw [filterMap_if_eq (nodup_topicsOfType hr.form)]
  split
  · rfl
  · rename_i hmem
    -- a topic that has the registration is left out for its type only
    rw [mem_topicsOfType hr.form, hr.listed] at hmem
    suffices x = none by rw [this]; rfl
    rw [← hx]
    split
    · rename_i hhandle
      obtain ⟨g', hg', _, hregisters⟩ := hr.exists_registration hhandle
      rw [hg] at hg'
      cases hg'
      exact hf fun htype => hmem ⟨g.subscription, hregisters, htype.symm⟩
    · rfl

theorem getElem?_modify_registration (hg : r.registration? handle = some g) (other : Nat)
    (f : Registration → Registration) :
    (r.registrations.modify other f)[handle]? = some (if other = handle then f g else g) := by
  have hlookup : r.registrations[handle]? = some g := hg
  rw [List.getElem?_modify, hlookup]
  rfl

theorem registration?_record {d : Dispatch} (hg : d.registry.registration? handle = some g)
    (other : Nat) (topic : String) (outcome : Outcome) :
    (d.record other topic outcome).registry.registration? handle =
      some (g.sendAll (if d.registry.delivers handle ∧ other = handle then
        (outcome.notification? topic).toList else [])) := by
  cases outcome with
  | unmatched | failed =>
      rw [Outcome.notification?, Option.toList_none, ite_self]
      exact hg
  | written payload =>
      have hrecord : (d.record other topic (.written payload)).registry =
          if d.registry.delivers other then d.registry.send other ⟨topic, payload⟩
          else d.registry := by
        simp only [Dispatch.record]
        split <;> rfl
      rw [hrecord]
      by_cases hdelivers : d.registry.delivers other
      · rw [if_pos hdelivers]
        refine (getElem?_modify_registration hg other _).trans ?_
        by_cases hother : other = handle
        · subst hother
          rw [if_pos rfl, if_pos ⟨hdelivers, rfl⟩]
          rfl
        · rw [if_neg hother, if_neg fun h => hother h.2]
          rfl
      · have hnot : ¬(d.registry.delivers handle ∧ other = handle) := by
          rintro ⟨h, rfl⟩
          exact hdelivers h
        rw [if_neg hdelivers, if_neg hnot]
        exact hg

theorem heard_cons (handle : Nat) (f : Subscription → Option Notification)
    (target : Nat × Subscription) (targets : List (Nat × Subscription)) :
    heard handle f (target :: targets) =
      (if target.1 = handle then (f target.2).toList else []) ++ heard handle f targets := by
  unfold heard
  by_cases h : target.1 = handle
  · cases hf : f target.2 <;> simp [h, hf]
  · simp [h]

/-! A target that follows meets the same receivers and the same configuration. -/

theorem isActive_eq (r : Registry) (handle : Nat) :
    r.isActive handle = (r.status? handle).any Prod.snd := by
  rw [isActive, status?, Option.any_map]

theorem delivers_dispatchOne (services : String → Services) (event : Event) (d : Dispatch)
    (target : Nat × Subscription) :
    (dispatchOne services event d target).registry.delivers = d.registry.delivers := by
  have hmove : Unmoved d.registry (dispatchOne services event d target).registry :=
    unmoved_record d _ _ _
  have hone : (dispatchOne services event d target).registry = { d.registry with
      registrations := (dispatchOne services event d target).registry.registrations } :=
    registry_record d _ _ _
  funext handle
  rw [delivers, delivers, isActive_eq, hmove.status?, ← isActive_eq, hone]
  rfl

theorem fallback_dispatchOne (services : String → Services) (event : Event) (d : Dispatch)
    (target : Nat × Subscription) :
    (dispatchOne services event d target).registry.fallback = d.registry.fallback := by
  have hone : (dispatchOne services event d target).registry = { d.registry with
      registrations := (dispatchOne services event d target).registry.registrations } :=
    registry_record d _ _ _
  rw [hone]
  rfl

theorem registration?_dispatch (services : String → Services) (event : Event)
    (targets : List (Nat × Subscription)) {d : Dispatch}
    (hg : d.registry.registration? handle = some g) :
    (targets.foldl (dispatchOne services event) d).registry.registration? handle =
      some (g.sendAll (if d.registry.delivers handle then
        heard handle (fun s => s.notification? (services s.topic).formatter
          (d.registry.fallback (services s.topic)) event) targets else [])) := by
  induction targets generalizing d g with
  | nil =>
      rw [heard, List.filterMap_nil, ite_self]
      exact hg
  | cons target targets ih =>
      obtain ⟨other, s⟩ := target
      have hg₁ := registration?_record hg other s.topic
        (s.outcome (services s.topic).formatter (d.registry.fallback (services s.topic)) event)
      refine (ih (d := dispatchOne services event d (other, s)) hg₁).trans ?_
      rw [delivers_dispatchOne, fallback_dispatchOne, ← Registration.sendAll_append]
      by_cases h : d.registry.delivers handle
      · simp only [h, true_and, if_true]
        rw [heard_cons]
        rfl
      · simp only [h, false_and, if_false, Bool.false_eq_true]
        rfl

theorem Indexed.delivers_eq (hr : r.Indexed) (h : r.handle? topic = some handle) :
    r.delivers handle = r.hasReceiver handle := by
  obtain ⟨entry, hentry, rfl⟩ := Option.map_eq_some_iff.1 h
  obtain ⟨_, s, hs, _⟩ := hr.registered topic entry hentry
  rw [delivers, isActive_eq, hs]
  exact Bool.true_and _

/-- An event sends on a registration what its subscription writes, provided that it is the
registration of its topic and somebody receives there. -/
theorem Indexed.registration?_notifyEach (hr : r.Indexed) (hg : r.registration? handle = some g)
    (services : String → Services) (event : Event) :
    (r.notifyEach services event).registry.registration? handle = some (g.sendAll
      (if r.hasReceiver handle then
        (if r.handle? g.subscription.topic = some handle then
          g.subscription.notification? (services g.subscription.topic).formatter
            (r.fallback (services g.subscription.topic)) event
        else none).toList
      else [])) := by
  have hheard := hr.heard_targets hg
    (f := fun s => s.notification? (services s.topic).formatter (r.fallback (services s.topic)) event)
    fun (htype : event.entity.type ≠ _) => Subscription.notification?_of_ne_type htype _ _
  refine (registration?_dispatch services event _ (d := ⟨r, _, _⟩) hg).trans ?_
  rw [hheard]
  by_cases hhandle : r.handle? g.subscription.topic = some handle
  · rw [hr.delivers_eq hhandle]
  · rw [if_neg hhandle, Option.toList_none, ite_self, ite_self]

/-- An event sends on a registration what is published there, unless nobody receives it. -/
theorem Indexed.registration?_notify (hr : r.Indexed) (hg : r.registration? handle = some g)
    (event : Event) :
    (r.notify event).registry.registration? handle = some (g.sendAll
      (if r.hasReceiver handle then (r.published? handle (.notify event)).toList else [])) := by
  have hpublished : r.published? handle (.notify event) =
      if r.handle? g.subscription.topic = some handle then
        g.subscription.notification? r.services.formatter (r.fallback r.services) event
      else none := by
    rw [published?, hg]
    rfl
  rw [hpublished]
  exact hr.registration?_notifyEach hg _ event

theorem Indexed.registrations_notify (hr : r.Indexed) (event : Event) :
    (r.notify event).registry.registrations = r.registrations.mapIdx fun handle g => g.sendAll
      (if r.hasReceiver handle then (r.published? handle (.notify event)).toList else []) := by
  apply List.ext_getElem?
  intro handle
  rw [List.getElem?_mapIdx]
  cases hg : r.registrations[handle]? with
  | none =>
      have hstatus := (unmoved_notify r event).status? handle
      rw [status?, status?, registration?, registration?, hg] at hstatus
      exact Option.map_eq_none_iff.1 hstatus
  | some g => exact hr.registration?_notify hg event

/-- A command sends on a registration what it publishes there, unless nobody receives it, and
changes nothing else but whether the registration is open. -/
theorem Indexed.becomes_step (hr : r.Indexed) (hg : r.registration? handle = some g)
    (c : Command) :
    ∃ g', (r.step c).1.registration? handle = some g' ∧
      g.Becomes g' (if r.hasReceiver handle then (r.published? handle c).toList else []) := by
  have hsame (hc : r.published? handle c = none) {r' : Registry}
      (hr' : r'.registration? handle = some g) : ∃ g', r'.registration? handle = some g' ∧
        g.Becomes g' (if r.hasReceiver handle then (r.published? handle c).toList else []) := by
    refine ⟨g, hr', ?_⟩
    rw [hc, Option.toList_none, ite_self]
    exact .refl g
  have hchange := change_step r c
  generalize (r.step c).1 = r' at hchange
  cases hchange with
  | refused | joined | unknown | left | absent | received | dropped => exact hsame rfl hg
  | opened hfree =>
      refine hsame rfl ?_
      exact (List.getElem?_append_left (List.getElem?_eq_some_iff.1 hg).1).trans hg
  | @removed topic entry hentry =>
      refine ⟨_, getElem?_modify_registration hg entry.handle _, ?_⟩
      change g.Becomes _ (if r.hasReceiver handle then [] else [])
      rw [ite_self]
      split
      · exact g.becomes_closed
      · exact .refl g
  | notified event => exact ⟨_, hr.registration?_notify hg event, g.becomes_sendAll _⟩

end Registry

end LiveFilter
