import LiveFilter.Proofs.Registry.Index

/-! # What a command changes

All that one command can do to a registry, by its way through the code. Registrations and receivers
are never taken out of their lists, so that a handle and the number of a receiver keep their meaning
for good.
-/

namespace LiveFilter.Registry

/-- The registry after a command, case by case. -/
inductive Change (r : Registry) : Command → Registry → Prop where
  | refused (topic : String) (path : ResourcePath) (root : String) (query : Option Expression) :
      Change r (.subscribe topic path root query) r
  | joined {topic : String} {path : ResourcePath} {root : String} {query : Option Expression}
      {entry : TopicEntry} (hentry : r.find? topic = some entry) (position : Nat) :
      Change r (.subscribe topic path root query)
        ((r.recount topic entry (entry.subscribers + 1)).addReceiver entry.handle position).1
  | opened {topic : String} {path : ResourcePath} {root : String} {query : Option Expression}
      {s : Subscription} (hfree : r.find? topic = none) :
      Change r (.subscribe topic path root query) (r.insert topic s).1
  | unknown (topic : String) : Change r (.unsubscribe topic) r
  | left {topic : String} {entry : TopicEntry} (hentry : r.find? topic = some entry) (n : Nat) :
      Change r (.unsubscribe topic) (r.recount topic entry n)
  | removed {topic : String} {entry : TopicEntry} (hentry : r.find? topic = some entry) :
      Change r (.unsubscribe topic) (r.remove topic entry)
  | notified (event : Event) :
      Change r (.notify event) { r with registrations := (r.notify event).registry.registrations }
  | absent (n : Nat) : Change r (.receive n) r
  | received {n : Nat} {receiver : Receiver} (hn : r.receiver? n = some receiver)
      (position : Nat) :
      Change r (.receive n)
        { r with receivers := r.receivers.set n (some { receiver with position }) }
  | dropped (n : Nat) : Change r (.drop n) (r.dropReceiver n)

variable {r r' : Registry} {c : Command} {topic : String} {handle n : Nat}

theorem registry_record (d : Dispatch) (handle : Nat) (topic : String) (outcome : Outcome) :
    (d.record handle topic outcome).registry = { d.registry with
      registrations := (d.record handle topic outcome).registry.registrations } := by
  cases outcome with
  | unmatched | failed => rfl
  | written payload =>
      simp only [Dispatch.record]
      split <;> rfl

theorem registry_dispatch (services : String → Services) (event : Event)
    (targets : List (Nat × Subscription)) (d : Dispatch) :
    (targets.foldl (dispatchOne services event) d).registry =
      { d.registry with registrations :=
          (targets.foldl (dispatchOne services event) d).registry.registrations } := by
  induction targets generalizing d with
  | nil => rfl
  | cons target targets ih =>
      have hone : (dispatchOne services event d target).registry = { d.registry with
          registrations := (dispatchOne services event d target).registry.registrations } :=
        registry_record d _ _ _
      rw [List.foldl_cons, ih, hone]

section

variable (path : ResourcePath) (root : String) (query : Option Expression)

theorem step_joined {entry : TopicEntry} (h : r.find? topic = some entry) :
    r.step (.subscribe topic path root query) =
      (((r.recount topic entry (entry.subscribers + 1)).addReceiver entry.handle
        (((r.registration? entry.handle).map (·.channel.sent)).getD 0)).1,
        .subscribed r.receivers.length) := by
  simp only [step, subscribe, register, h]
  rfl

theorem step_opened {s : Subscription} (h : r.find? topic = none)
    (hs : Subscription.createWith topic path root query = .ok s) :
    r.step (.subscribe topic path root query) =
      ((r.insert topic s).1, .subscribed r.receivers.length) := by
  simp only [step, subscribe, register, h, hs]
  rfl

theorem step_refused {cause : FilterError} (h : r.find? topic = none)
    (hs : Subscription.createWith topic path root query = .error cause) :
    r.step (.subscribe topic path root query) = (r, .refused cause) := by
  simp only [step, subscribe, register, h, hs]
  rfl

end

theorem subscribe_cases {path : ResourcePath} {root : String} {query : Option Expression}
    (h : r.subscribe topic path root query = .ok (r', n)) : n = r.receivers.length ∧
      ((∃ entry, r.find? topic = some entry ∧
          r' = ((r.recount topic entry (entry.subscribers + 1)).addReceiver entry.handle
            (((r.registration? entry.handle).map (·.channel.sent)).getD 0)).1) ∨
        r.find? topic = none ∧ ∃ s, s.topic = topic ∧ r' = (r.insert topic s).1) := by
  unfold subscribe register at h
  split at h
  · rename_i entry hentry
    cases h
    exact ⟨rfl, .inl ⟨entry, hentry, rfl⟩⟩
  · rename_i hfree
    obtain ⟨s, hs, hinsert⟩ := Outcome.map_eq_ok.1 h
    cases hinsert
    exact ⟨rfl, .inr ⟨hfree, s, Subscription.topic_of_createWith hs, rfl⟩⟩

theorem change_step (r : Registry) (c : Command) : r.Change c (r.step c).1 := by
  cases c with
  | subscribe topic path root query =>
      simp only [step]
      split
      · rename_i r' n h
        obtain ⟨_, ⟨entry, hentry, rfl⟩ | ⟨hfree, s, _, rfl⟩⟩ := subscribe_cases h
        · exact .joined hentry _
        · exact .opened hfree
      · exact .refused topic path root query
  | unsubscribe topic =>
      change r.Change _ (r.unsubscribe topic).1
      unfold unsubscribe
      split
      · exact .unknown topic
      · rename_i entry hentry
        split
        · exact .left hentry _
        · exact .removed hentry
  | notify event =>
      have hnotify : (r.notify event).registry =
          { r with registrations := (r.notify event).registry.registrations } :=
        registry_dispatch _ event _ _
      change r.Change _ (r.notify event).registry
      rw [hnotify]
      exact .notified event
  | receive n =>
      simp only [step]
      split
      · rename_i r' reception h
        simp only [receive, Option.bind_eq_bind, Option.bind_eq_some_iff] at h
        obtain ⟨receiver, hn, g, _, h⟩ := h
        cases h
        exact .received hn _
      · exact .absent n
  | drop n => exact .dropped n

theorem receive_eq {x : Receiver} {g : Registration} (hx : r.receiver? n = some x)
    (hg : r.registration? x.handle = some g) :
    r.receive n = some ({ r with
      receivers := r.receivers.set n (some { x with position := (g.channel.receive x.position).2 }) },
      (g.channel.receive x.position).1) := by
  simp [receive, hx, hg]

theorem config_step (r : Registry) (c : Command) : (r.step c).1.config = r.config := by
  have hchange := change_step r c
  generalize (r.step c).1 = r' at hchange
  cases hchange <;> rfl

theorem lt_of_receiver? {x : Receiver} (h : r.receiver? n = some x) : n < r.receivers.length :=
  (List.getElem?_eq_some_iff.1 (Option.join_eq_some_iff.1 h)).1

theorem receiver?_set (r : Registry) (m : Nat) (x : Option Receiver) (hne : m ≠ n) :
    ({ r with receivers := r.receivers.set m x } : Registry).receiver? n = r.receiver? n :=
  congrArg Option.join (List.getElem?_set_ne hne)

theorem receiver?_addReceiver {x : Receiver} (h : r.receiver? n = some x) (position : Nat) :
    (r.addReceiver handle position).1.receiver? n = some x := by
  rw [← h]
  exact congrArg Option.join (List.getElem?_append_left (lt_of_receiver? h))

/-- Only its own receptions move a receiver. -/
theorem receiver?_step {x : Receiver} (h : r.receiver? n = some x) (hreceive : c ≠ .receive n)
    (hdrop : c ≠ .drop n) : (r.step c).1.receiver? n = some x := by
  have hchange := change_step r c
  generalize (r.step c).1 = r' at hchange
  cases hchange with
  | refused | left | removed | unknown | notified | absent => exact h
  | joined hentry position => exact receiver?_addReceiver (r := r.recount _ _ _) h position
  | opened hfree => exact receiver?_addReceiver (r := { r with .. }) h 0
  | @received m receiver _ position =>
      rw [receiver?_set r m _ (fun heq => hreceive (heq ▸ rfl))]
      exact h
  | dropped m =>
      rw [dropReceiver, receiver?_set r m _ (fun heq => hdrop (heq ▸ rfl))]
      exact h

/-- The number of a dropped receiver is not given to another one. -/
theorem dropped_step (h : r.receivers[n]? = some none) (c : Command) :
    (r.step c).1.receivers[n]? = some none := by
  have hlt := (List.getElem?_eq_some_iff.1 h).1
  have hadd (receiver : Receiver) : (r.receivers ++ [some receiver])[n]? = some none := by
    rw [List.getElem?_append_left hlt, h]
  have hchange := change_step r c
  generalize (r.step c).1 = r' at hchange
  cases hchange with
  | refused | left | removed | unknown | notified | absent => exact h
  | joined hentry position => exact hadd _
  | opened hfree => exact hadd _
  | @received m receiver hm position =>
      have hne : m ≠ n := by
        rintro rfl
        rw [receiver?, h] at hm
        cases hm
      exact (List.getElem?_set_ne hne).trans h
  | dropped m =>
      by_cases hm : m = n
      · rw [hm]
        exact List.getElem?_set_self hlt
      · exact (List.getElem?_set_ne hm).trans h

theorem handle?_of_find? {entry : TopicEntry} (h : r.find? topic = some entry) :
    r.handle? topic = some entry.handle := by
  rw [handle?, h, Option.map_some]

theorem handle?_recount {entry : TopicEntry} (hentry : r.find? topic = some entry) (n : Nat)
    (t : String) : (r.recount topic entry n).handle? t = r.handle? t := by
  unfold handle?
  rw [find?_recount]
  by_cases ht : t = topic
  · rw [if_pos ht, ht, hentry]
    rfl
  · rw [if_neg ht]

theorem handle?_step (h : (r.step c).1.handle? topic = some handle) :
    r.handle? topic = some handle ∨ handle = r.registrations.length ∧
      ∃ s, (r.step c).1.registration? handle =
        some ⟨s, true, Channel.ofCapacity r.config.notificationBuffer.toNat⟩ := by
  have hchange := change_step r c
  generalize (r.step c).1 = r' at hchange h
  cases hchange with
  | refused | unknown | notified | absent | received | dropped => exact .inl h
  | joined hentry position =>
      left
      rwa [← handle?_recount hentry (_ + 1)]
  | left hentry n =>
      left
      rwa [← handle?_recount hentry n]
  | @opened t _ _ _ s hfree =>
      have hnew : (r.insert t s).1.handle? topic = some handle := h
      unfold handle? at hnew
      rw [find?_insert] at hnew
      split at hnew
      · cases hnew
        exact .inr ⟨rfl, s, List.getElem?_concat_length⟩
      · exact .inl hnew
  | @removed t entry hentry =>
      unfold handle? at h
      rw [find?_remove] at h
      split at h
      · cases h
      · exact .inl h

end LiveFilter.Registry
