import LiveFilter.Proofs.Outcome
import LiveFilter.Proofs.Registry.ByType
import LiveFilter.Registry.Run

/-! # Topics and index in step

The topics of a registry, the index by type, the counts of subscribers and the registrations are
changed by different commands. The invariant ties them together; commands that only send or
receive leave all of it alone.
-/

namespace LiveFilter

namespace Subscription

theorem topic_of_create {topic root : String} {path : ResourcePath} {s : Subscription}
    (h : create topic path root = .ok s) : s.topic = topic := by
  unfold create at h
  split at h
  · cases h
  · obtain ⟨⟨type, kind⟩, _, h⟩ := Outcome.bind_eq_ok.1 h
    obtain ⟨filter, _, h⟩ := Outcome.bind_eq_ok.1 h
    cases h
    rfl

theorem topic_of_createWith {topic root : String} {path : ResourcePath}
    {query : Option Expression} {s : Subscription}
    (h : createWith topic path root query = .ok s) : s.topic = topic := by
  obtain ⟨created, hcreated, h⟩ := Outcome.bind_eq_ok.1 h
  rw [← topic_of_create hcreated]
  cases query with
  | none => cases h; rfl
  | some query =>
      simp only [withFilter] at h
      split at h
      · cases h; rfl
      · cases h

end Subscription

namespace Registry

/-- The subscription of a registration, and whether it is active. -/
def status? (r : Registry) (handle : Nat) : Option (Subscription × Bool) :=
  (r.registration? handle).map fun g => (g.subscription, g.active)

def Registers (r : Registry) (topic : String) (s : Subscription) : Prop :=
  ∃ entry, r.find? topic = some entry ∧ r.status? entry.handle = some (s, true)

/-- Topics, index and registrations agree. -/
structure Indexed (r : Registry) : Prop where
  form : IndexForm r.byType
  sorted : (r.topics.map Prod.fst).Pairwise (· < ·)
  registered : ∀ topic entry, r.find? topic = some entry →
    1 ≤ entry.subscribers ∧ ∃ s, r.status? entry.handle = some (s, true) ∧ s.topic = topic
  listed : ∀ type topic, Lists r.byType type topic ↔
    ∃ s, r.Registers topic s ∧ s.entityType = type

variable {r r' : Registry} {topic : String} {entry : TopicEntry}

theorem indexed_empty (config : Config) (services : Services) :
    (empty config services).Indexed where
  form := ⟨List.nodup_nil, by simp [empty], by simp [empty]⟩
  sorted := List.Pairwise.nil
  registered topic entry h := by cases h
  listed type topic := by
    simp [Lists, empty, Registers, find?, Keyed.find?]

/-- Between the two states nothing is registered, removed or counted. -/
structure Unmoved (r r' : Registry) : Prop where
  topics : r'.topics = r.topics
  byType : r'.byType = r.byType
  status? : ∀ handle, r'.status? handle = r.status? handle

theorem Unmoved.refl (r : Registry) : Unmoved r r := ⟨rfl, rfl, fun _ => rfl⟩

theorem Unmoved.trans {r'' : Registry} (h : Unmoved r r') (h' : Unmoved r' r'') :
    Unmoved r r'' :=
  ⟨h'.topics.trans h.topics, h'.byType.trans h.byType,
    fun handle => (h'.status? handle).trans (h.status? handle)⟩

theorem Indexed.of_unmoved (h : r.Indexed) (hmove : Unmoved r r') : r'.Indexed := by
  have hentry (t : String) : r'.find? t = r.find? t := by rw [find?, hmove.topics, find?]
  constructor
  · exact hmove.byType ▸ h.form
  · exact hmove.topics ▸ h.sorted
  · intro t e he
    rw [hentry] at he
    rw [hmove.status?]
    exact h.registered t e he
  · intro type t
    simp only [Registers, hmove.byType, hentry, hmove.status?]
    exact h.listed type t

theorem unmoved_send (r : Registry) (handle : Nat) (notification : Notification) :
    Unmoved r (r.send handle notification) := by
  refine ⟨rfl, rfl, fun other => ?_⟩
  simp only [status?, registration?, send, List.getElem?_modify]
  cases r.registrations[other]? with
  | none => rfl
  | some g => by_cases h : handle = other <;> simp [h]

theorem unmoved_record (d : Dispatch) (handle : Nat) (topic : String) (outcome : Outcome) :
    Unmoved d.registry (d.record handle topic outcome).registry := by
  cases outcome with
  | unmatched | failed => exact .refl _
  | written payload =>
      simp only [Dispatch.record]
      split
      · exact unmoved_send _ _ _
      · exact .refl _

theorem unmoved_notifyEach (r : Registry) (services : String → Services) (event : Event) :
    Unmoved r (r.notifyEach services event).registry := by
  unfold notifyEach
  generalize r.targets event.entity.type = targets
  suffices h : ∀ d : Dispatch,
      Unmoved d.registry (targets.foldl (dispatchOne services event) d).registry from
    h ⟨r, _, _⟩
  induction targets with
  | nil => exact fun d => .refl _
  | cons target targets ih =>
      intro d
      exact (unmoved_record d target.1 _ _).trans (ih (dispatchOne _ event d target))

theorem unmoved_notify (r : Registry) (event : Event) : Unmoved r (r.notify event).registry :=
  unmoved_notifyEach r _ event

theorem unmoved_receive {receiver : Nat} {reception : Reception Notification}
    (h : r.receive receiver = some (r', reception)) : Unmoved r r' := by
  simp only [receive, Option.bind_eq_bind, Option.bind_eq_some_iff] at h
  obtain ⟨_, _, _, _, h⟩ := h
  cases h
  exact ⟨rfl, rfl, fun _ => rfl⟩

def recount (r : Registry) (topic : String) (entry : TopicEntry) (subscribers : Nat) : Registry :=
  { r with topics := Keyed.insert topic { entry with subscribers } r.topics }

theorem find?_recount (r : Registry) (topic t : String) (entry : TopicEntry) (n : Nat) :
    (r.recount topic entry n).find? t =
      if t = topic then some { entry with subscribers := n } else r.find? t :=
  Keyed.find?_insert t topic _ _

theorem Indexed.recount (h : r.Indexed) (hentry : r.find? topic = some entry) {n : Nat}
    (hn : 1 ≤ n) : (r.recount topic entry n).Indexed := by
  have hregisters (t : String) (s : Subscription) :
      (r.recount topic entry n).Registers t s ↔ r.Registers t s := by
    unfold Registers
    rw [find?_recount]
    by_cases ht : t = topic
    · subst ht
      simp [hentry]
      rfl
    · rw [if_neg ht]
      rfl
  refine ⟨h.form, ?_, ?_, ?_⟩
  · unfold Registry.recount
    rw [Keyed.map_fst_insert]
    exact Keyed.sorted_insertText _ h.sorted
  · intro t e he
    rw [find?_recount] at he
    split at he
    · rename_i ht
      cases he
      exact ⟨hn, ht ▸ (h.registered topic entry hentry).2⟩
    · exact h.registered t e he
  · intro type t
    simp only [hregisters]
    exact h.listed type t

theorem find?_insert (r : Registry) (topic t : String) (s : Subscription) :
    (r.insert topic s).1.find? t =
      if t = topic then some ⟨r.registrations.length, 1⟩ else r.find? t :=
  Keyed.find?_insert t topic _ _

theorem status?_insert_new (r : Registry) (topic : String) (s : Subscription) :
    (r.insert topic s).1.status? r.registrations.length = some (s, true) := by
  simp [insert, addReceiver, status?, registration?]

theorem status?_insert_old {s : Subscription} {handle : Nat} {p : Subscription × Bool}
    (h : r.status? handle = some p) : (r.insert topic s).1.status? handle = some p := by
  obtain ⟨g, hg, hp⟩ := Option.map_eq_some_iff.1 h
  obtain ⟨hlt, _⟩ := List.getElem?_eq_some_iff.1 hg
  refine Option.map_eq_some_iff.2 ⟨g, ?_, hp⟩
  exact (List.getElem?_append_left hlt).trans hg

theorem Indexed.insert (h : r.Indexed) (hfree : r.find? topic = none) {s : Subscription}
    (hs : s.topic = topic) : (r.insert topic s).1.Indexed := by
  have hregisters (t : String) (s' : Subscription) :
      (r.insert topic s).1.Registers t s' ↔ (t = topic ∧ s' = s) ∨ r.Registers t s' := by
    unfold Registers
    rw [find?_insert]
    by_cases ht : t = topic
    · subst ht
      simp [hfree, status?_insert_new, eq_comm]
    · simp only [ht, false_and, false_or]
      constructor
      · rintro ⟨e, he, hstatus⟩
        obtain ⟨s₀, hs₀, _⟩ := (h.registered t e he).2
        have hsame : (r.insert topic s).1.status? e.handle = some _ := status?_insert_old hs₀
        rw [hstatus] at hsame
        exact ⟨e, he, hs₀.trans hsame.symm⟩
      · rintro ⟨e, he, hstatus⟩
        exact ⟨e, he, status?_insert_old hstatus⟩
  refine ⟨h.form.index, ?_, ?_, ?_⟩
  · change ((Keyed.insert topic _ r.topics).map Prod.fst).Pairwise _
    rw [Keyed.map_fst_insert]
    exact Keyed.sorted_insertText _ h.sorted
  · intro t e he
    rw [find?_insert] at he
    split at he
    · rename_i ht
      cases he
      exact ⟨Nat.le_refl 1, s, status?_insert_new r topic s, hs.trans ht.symm⟩
    · obtain ⟨hcount, s₀, hs₀, htopic⟩ := h.registered t e he
      exact ⟨hcount, s₀, status?_insert_old hs₀, htopic⟩
  · intro type t
    refine lists_index.trans ?_
    rw [h.listed type t]
    simp only [hregisters]
    constructor
    · rintro (⟨rfl, rfl⟩ | ⟨s', hs', rfl⟩)
      · exact ⟨s, .inl ⟨rfl, rfl⟩, rfl⟩
      · exact ⟨s', .inr hs', rfl⟩
    · rintro ⟨s', ⟨rfl, rfl⟩ | hs', rfl⟩
      · exact .inl ⟨rfl, rfl⟩
      · exact .inr ⟨s', hs', rfl⟩

theorem find?_remove (r : Registry) (topic t : String) (entry : TopicEntry) :
    (r.remove topic entry).find? t = if t = topic then none else r.find? t :=
  Keyed.find?_erase t topic r.topics

theorem status?_remove_of_ne (r : Registry) (topic : String) {handle : Nat}
    (h : handle ≠ entry.handle) :
    (r.remove topic entry).status? handle = r.status? handle := by
  simp [remove, retire, status?, registration?, h.symm]

theorem Indexed.remove (h : r.Indexed) (hentry : r.find? topic = some entry) :
    (r.remove topic entry).Indexed := by
  obtain ⟨_, removed, hremoved, htopic⟩ := h.registered topic entry hentry
  -- A registration knows its topic, so no other topic can hold the handle that is retired.
  have hhandle {t : String} {e : TopicEntry} (ht : t ≠ topic) (he : r.find? t = some e) :
      e.handle ≠ entry.handle := by
    intro heq
    obtain ⟨_, s, hs, hst⟩ := h.registered t e he
    rw [heq, hremoved] at hs
    cases hs
    exact ht (hst.symm.trans htopic)
  have hregisters (t : String) (s : Subscription) :
      (r.remove topic entry).Registers t s ↔ r.Registers t s ∧ t ≠ topic := by
    unfold Registers
    rw [find?_remove]
    by_cases ht : t = topic
    · simp [ht]
    · simp only [ne_eq, ht, not_false_eq_true, and_true]
      constructor
      · rintro ⟨e, he, hstatus⟩
        exact ⟨e, he, (status?_remove_of_ne r topic (hhandle ht he)).symm.trans hstatus⟩
      · rintro ⟨e, he, hstatus⟩
        exact ⟨e, he, (status?_remove_of_ne r topic (hhandle ht he)).trans hstatus⟩
  have hbyType : (r.remove topic entry).byType = unindex removed.entityType topic r.byType := by
    obtain ⟨g, hg, hp⟩ := Option.map_eq_some_iff.1 hremoved
    rw [← (Prod.mk.inj hp).1]
    simp [Registry.remove, hg]
  refine ⟨?_, ?_, ?_, ?_⟩
  · rw [hbyType]
    exact h.form.unindex
  · change ((Keyed.erase topic r.topics).map Prod.fst).Pairwise _
    rw [Keyed.map_fst_erase]
    exact h.sorted.filter _
  · intro t e he
    rw [find?_remove] at he
    split at he
    · cases he
    · rename_i ht
      rw [status?_remove_of_ne r topic (hhandle ht he)]
      exact h.registered t e he
  · intro type t
    rw [hbyType, lists_unindex, h.listed type t]
    simp only [hregisters]
    constructor
    · rintro ⟨⟨s, hs, rfl⟩, hne⟩
      refine ⟨s, ⟨hs, fun ht => hne ⟨?_, ht⟩⟩, rfl⟩
      obtain ⟨e, he, hstatus⟩ := hs
      rw [ht, hentry] at he
      cases he
      rw [hremoved] at hstatus
      cases hstatus
      rfl
    · rintro ⟨s, ⟨hs, ht⟩, rfl⟩
      exact ⟨⟨s, hs, rfl⟩, fun hne => ht hne.2⟩

theorem Indexed.subscribe (h : r.Indexed) {path : ResourcePath} {root : String}
    {query : Option Expression} {receiver : Nat}
    (hsub : r.subscribe topic path root query = .ok (r', receiver)) : r'.Indexed := by
  unfold Registry.subscribe register at hsub
  split at hsub
  · rename_i entry hentry
    cases hsub
    exact (h.recount hentry (Nat.le_add_left 1 _)).of_unmoved ⟨rfl, rfl, fun _ => rfl⟩
  · rename_i hfree
    obtain ⟨s, hs, hinsert⟩ := Outcome.map_eq_ok.1 hsub
    have := h.insert hfree (Subscription.topic_of_createWith hs)
    rwa [hinsert] at this

theorem Indexed.unsubscribe (h : r.Indexed) (topic : String) :
    (r.unsubscribe topic).1.Indexed := by
  unfold Registry.unsubscribe
  split
  · exact h
  · rename_i entry hentry
    split
    · rename_i hmore
      exact h.recount hentry (Nat.le_sub_one_of_lt hmore)
    · exact h.remove hentry

theorem Indexed.step (h : r.Indexed) (c : Command) : (r.step c).1.Indexed := by
  cases c with
  | subscribe topic path root query =>
      simp only [Registry.step]
      split
      · rename_i r' receiver hsub
        exact h.subscribe hsub
      · exact h
  | unsubscribe topic => exact h.unsubscribe topic
  | notify event => exact h.of_unmoved (unmoved_notify r event)
  | receive receiver =>
      simp only [Registry.step]
      split
      · rename_i r' reception hreceive
        exact h.of_unmoved (unmoved_receive hreceive)
      · exact h
  | drop receiver => exact h.of_unmoved ⟨rfl, rfl, fun _ => rfl⟩

theorem Indexed.run (h : r.Indexed) (commands : List Command) : (r.run commands).1.Indexed := by
  induction commands generalizing r with
  | nil => exact h
  | cons c cs ih => exact ih (h.step c)

theorem Reachable.indexed (h : r.Reachable) : r.Indexed := by
  obtain ⟨config, services, commands, -, rfl⟩ := h
  exact (indexed_empty config services).run commands

/-- Every type has one set. A topic is registered exactly if it is in the set of its subscription's
type, and then in no other; no set is empty; what is registered is active, has subscribers and bears
its topic. -/
theorem Reachable.topics_match_index (h : r.Reachable) :
    (r.byType.map Prod.fst).Nodup ∧
    (∀ type topic, (∃ topics, (type, topics) ∈ r.byType ∧ topic ∈ topics) ↔
      ∃ entry g, r.find? topic = some entry ∧ r.registration? entry.handle = some g ∧
        g.subscription.entityType = type) ∧
    (∀ type topics, (type, topics) ∈ r.byType → topics ≠ []) ∧
    (∀ topic entry, r.find? topic = some entry → 1 ≤ entry.subscribers ∧
      ∃ g, r.registration? entry.handle = some g ∧ g.active = true ∧
        g.subscription.topic = topic) := by
  have hr := h.indexed
  have hregistered (topic : String) (entry : TopicEntry) (he : r.find? topic = some entry) :
      1 ≤ entry.subscribers ∧ ∃ g, r.registration? entry.handle = some g ∧ g.active = true ∧
        g.subscription.topic = topic := by
    obtain ⟨hcount, s, hs, htopic⟩ := hr.registered topic entry he
    obtain ⟨g, hg, hp⟩ := Option.map_eq_some_iff.1 hs
    obtain ⟨rfl, hactive⟩ := Prod.mk.inj hp
    exact ⟨hcount, g, hg, hactive, htopic⟩
  refine ⟨hr.form.types, fun type topic => (hr.listed type topic).trans ?_, hr.form.nonempty,
    hregistered⟩
  constructor
  · rintro ⟨s, ⟨entry, he, hs⟩, rfl⟩
    obtain ⟨g, hg, hp⟩ := Option.map_eq_some_iff.1 hs
    exact ⟨entry, g, he, hg, congrArg Subscription.entityType (Prod.mk.inj hp).1⟩
  · rintro ⟨entry, g, he, hg, rfl⟩
    obtain ⟨_, g', hg', hactive, _⟩ := hregistered topic entry he
    rw [hg] at hg'
    cases hg'
    exact ⟨g.subscription, ⟨entry, he, by rw [status?, hg, Option.map_some, hactive]⟩, rfl⟩

/-- Two subscribers of one topic, of which one leaves, and a topic that comes and goes. -/
theorem topics_match_index_shared :
    let things : ResourcePath := ⟨[.entitySet .thing]⟩
    let sensors : ResourcePath := ⟨[.entitySet .sensor]⟩
    let r := ((empty Config.default ⟨fun _ _ _ => .ok "", none⟩).run
      [.subscribe "Things" things "" none, .subscribe "Sensors" sensors "" none,
        .subscribe "Things" things "" none, .unsubscribe "Sensors", .unsubscribe "Things"]).1
    r.Reachable ∧ ∃ topics, (.thing, topics) ∈ r.byType ∧ "Things" ∈ topics := by
  intro things sensors r
  have h : r.Reachable := reachable_of_create Config.default _ rfl (by decide) _
  have hentry : r.find? "Things" = some ⟨0, 1⟩ := by decide
  have hregistration : (r.registration? 0).map (·.subscription.entityType) = some .thing := by
    decide
  obtain ⟨g, hg, htype⟩ := Option.map_eq_some_iff.1 hregistration
  exact ⟨h, (h.topics_match_index.2.1 .thing "Things").2 ⟨⟨0, 1⟩, g, hentry, hg, htype⟩⟩

end Registry

end LiveFilter
