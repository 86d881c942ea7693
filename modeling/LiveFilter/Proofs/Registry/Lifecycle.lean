import LiveFilter.Proofs.Registry.Publications

/-! # The life of a subscription

The commands that a registry was given and its replies tell how many subscribers a topic has. While
there is one, the topic has one subscription, which is active; when the last one leaves, the
subscription is removed for good, and the next subscriber gets another one.
-/

namespace LiveFilter.Registry

/-- The count of subscribers of a topic after a command that got this reply. -/
def tally (topic : String) (n : Nat) : Command × Reply → Nat
  | (.subscribe t _ _ _, .subscribed _) => if t = topic then n + 1 else n
  | (.unsubscribe t, _) => if t = topic then n - 1 else n
  | _ => n

def history (r : Registry) (commands : List Command) : List (Command × Reply) :=
  commands.zip (r.run commands).2

/-- The count of subscribers of a topic after these commands and replies, from none. -/
def counter (topic : String) (history : List (Command × Reply)) : Nat :=
  history.foldl (tally topic) 0

def subscribers (r : Registry) (topic : String) : Nat :=
  ((r.find? topic).map TopicEntry.subscribers).getD 0

variable {r r' : Registry} {c : Command} {topic : String} {handle : Nat} {s : Subscription}

theorem subscribers_of_find? {entry : TopicEntry} (h : r.find? topic = some entry) :
    r.subscribers topic = entry.subscribers := by
  rw [subscribers, h]
  rfl

theorem subscribers_eq_zero_of_find? (h : r.find? topic = none) : r.subscribers topic = 0 := by
  rw [subscribers, h]
  rfl

theorem subscribers_of_find?_eq {t : String} {value : Option TopicEntry}
    (h : r'.find? topic = if topic = t then value else r.find? topic) :
    r'.subscribers topic =
      if t = topic then (value.map TopicEntry.subscribers).getD 0 else r.subscribers topic := by
  rw [subscribers, h]
  by_cases ht : t = topic
  · rw [if_pos ht, if_pos ht.symm]
  · rw [if_neg ht, if_neg (Ne.symm ht)]
    rfl

theorem subscribers_recount (r : Registry) (t topic : String) (entry : TopicEntry) (n : Nat) :
    (r.recount t entry n).subscribers topic = if t = topic then n else r.subscribers topic :=
  subscribers_of_find?_eq (find?_recount r t topic entry n)

theorem subscribers_insert (r : Registry) (t topic : String) (s : Subscription) :
    (r.insert t s).1.subscribers topic = if t = topic then 1 else r.subscribers topic :=
  subscribers_of_find?_eq (find?_insert r t topic s)

theorem subscribers_remove (r : Registry) (t topic : String) (entry : TopicEntry) :
    (r.remove t entry).subscribers topic = if t = topic then 0 else r.subscribers topic :=
  subscribers_of_find?_eq (find?_remove r t topic entry)

theorem Unmoved.subscribers (h : Unmoved r r') (topic : String) :
    r'.subscribers topic = r.subscribers topic := by
  rw [Registry.subscribers, find?, h.topics]
  rfl

inductive Command.Quiet : Command → Prop where
  | notify (event : Event) : Quiet (.notify event)
  | receive (n : Nat) : Quiet (.receive n)
  | drop (n : Nat) : Quiet (.drop n)

theorem Command.Quiet.unmoved (h : c.Quiet) (r : Registry) : Unmoved r (r.step c).1 := by
  cases h with
  | notify event => exact unmoved_notify r event
  | receive n =>
      simp only [Registry.step]
      split
      · rename_i r' reception hreceive
        exact unmoved_receive hreceive
      · exact .refl r
  | drop n => exact ⟨rfl, rfl, fun _ => rfl⟩

/-- The registry counts as its replies say. -/
theorem subscribers_step (r : Registry) (c : Command) (topic : String) :
    (r.step c).1.subscribers topic = tally topic (r.subscribers topic) (c, (r.step c).2) := by
  cases c with
  | subscribe t path root query =>
      cases hentry : r.find? t with
      | some entry =>
          rw [step_joined path root query hentry, tally]
          refine (subscribers_recount r t topic entry _).trans ?_
          by_cases ht : t = topic
          · rw [if_pos ht, if_pos ht, ← ht, subscribers_of_find? hentry]
          · rw [if_neg ht, if_neg ht]
      | none =>
          cases hs : Subscription.createWith t path root query with
          | ok s =>
              rw [step_opened path root query hentry hs, tally, subscribers_insert]
              by_cases ht : t = topic
              · rw [if_pos ht, if_pos ht, ← ht, subscribers_eq_zero_of_find? hentry]
              · rw [if_neg ht, if_neg ht]
          | error cause =>
              rw [step_refused path root query hentry hs]
              rfl
  | unsubscribe t =>
      change (r.unsubscribe t).1.subscribers topic = if t = topic then _ else _
      unfold unsubscribe
      cases hentry : r.find? t with
      | none =>
          by_cases ht : t = topic
          · rw [if_pos ht, ← ht, subscribers_eq_zero_of_find? hentry]
          · rw [if_neg ht]
      | some entry =>
          dsimp only
          split
          · refine (subscribers_recount r t topic entry _).trans ?_
            by_cases ht : t = topic
            · rw [if_pos ht, if_pos ht, ← ht, subscribers_of_find? hentry]
            · rw [if_neg ht, if_neg ht]
          · rw [subscribers_remove]
            by_cases ht : t = topic
            · rw [if_pos ht, if_pos ht, ← ht, subscribers_of_find? hentry]
              omega
            · rw [if_neg ht, if_neg ht]
  | notify event => exact ((Command.Quiet.notify event).unmoved r).subscribers topic
  | receive n => exact ((Command.Quiet.receive n).unmoved r).subscribers topic
  | drop n => exact ((Command.Quiet.drop n).unmoved r).subscribers topic

theorem subscribers_run (r : Registry) (commands : List Command) (topic : String) :
    (r.run commands).1.subscribers topic =
      (r.history commands).foldl (tally topic) (r.subscribers topic) := by
  induction commands generalizing r with
  | nil => rfl
  | cons c cs ih =>
      refine (ih (r.step c).1).trans ?_
      rw [subscribers_step]
      rfl

theorem subscribers_eq_counter (config : Config) (services : Services) (topic : String)
    (commands : List Command) : ((empty config services).run commands).1.subscribers topic =
      counter topic ((empty config services).history commands) :=
  subscribers_run (empty config services) commands topic

theorem Indexed.subscribers_pos_iff (hr : r.Indexed) :
    0 < r.subscribers topic ↔ r.contains topic = true := by
  unfold contains
  cases hfind : r.find? topic with
  | none => simp [subscribers_eq_zero_of_find? hfind]
  | some entry =>
      rw [subscribers_of_find? hfind]
      exact iff_of_true (hr.registered topic entry hfind).1 rfl

theorem contains_iff_handle? : r.contains topic = true ↔ ∃ handle, r.handle? topic = some handle := by
  unfold contains handle?
  cases r.find? topic <;> simp

theorem unsubscribe_found (r : Registry) (topic : String) :
    (r.unsubscribe topic).2 = r.contains topic := by
  unfold unsubscribe contains
  cases r.find? topic with
  | none => rfl
  | some entry =>
      dsimp only
      split <;> rfl

/-- The topic has the subscription with this handle, and it is active. -/
structure Serves (r : Registry) (topic : String) (handle : Nat) (s : Subscription) : Prop where
  handle? : r.handle? topic = some handle
  status? : r.status? handle = some (s, true)

/-- The subscription with this handle is removed, and the topic does not have it any more. -/
structure Retired (r : Registry) (topic : String) (handle : Nat) (s : Subscription) : Prop where
  handle? : r.handle? topic ≠ some handle
  status? : r.status? handle = some (s, false)

theorem status?_remove_self {entry : TopicEntry} {active : Bool}
    (h : r.status? entry.handle = some (s, active)) (topic : String) :
    (r.remove topic entry).status? entry.handle = some (s, false) := by
  obtain ⟨g, hg, hstatus⟩ := Option.map_eq_some_iff.1 h
  have hlookup : r.registrations[entry.handle]? = some g := hg
  obtain ⟨rfl, _⟩ := Prod.mk.inj hstatus
  simp [remove, retire, status?, registration?, hlookup]

theorem lt_of_status? {p : Subscription × Bool} (h : r.status? handle = some p) :
    handle < r.registrations.length := by
  obtain ⟨g, hg, _⟩ := Option.map_eq_some_iff.1 h
  exact (List.getElem?_eq_some_iff.1 hg).1

/-- A removed subscription is not taken up again, not even by its topic. -/
theorem Retired.step (h : r.Retired topic handle s) (c : Command) :
    (r.step c).1.Retired topic handle s where
  handle? hhandle := by
    obtain hold | ⟨hnew, _⟩ := handle?_step hhandle
    · exact h.handle? hold
    · exact Nat.ne_of_lt (lt_of_status? h.status?) hnew
  status? := by
    have hnotify (event : Event) := (unmoved_notify r event).status? handle
    have hchange := change_step r c
    generalize (r.step c).1 = r' at hchange
    cases hchange with
    | refused | joined | unknown | left | absent | received | dropped => exact h.status?
    | opened hfree => exact status?_insert_old h.status?
    | @removed t entry hentry =>
        by_cases hhandle : handle = entry.handle
        · subst hhandle
          exact status?_remove_self h.status? t
        · exact (status?_remove_of_ne r t hhandle).trans h.status?
    | notified event => exact (hnotify event).trans h.status?

theorem Retired.run (h : r.Retired topic handle s) (commands : List Command) :
    (r.run commands).1.Retired topic handle s := by
  induction commands generalizing r with
  | nil => exact h
  | cons c cs ih => exact ih (h.step c)

/-- The subscription of a topic stays, or the topic lost its last subscriber. -/
theorem Serves.step (hr : r.Indexed) (h : r.Serves topic handle s) (c : Command) :
    (r.step c).1.Serves topic handle s ∨
      (r.step c).1.contains topic = false ∧ (r.step c).1.Retired topic handle s := by
  have hnotify (event : Event) := (unmoved_notify r event).status? handle
  have hchange := change_step r c
  generalize (r.step c).1 = r' at hchange
  cases hchange with
  | refused | unknown | absent | received | dropped => exact .inl ⟨h.handle?, h.status?⟩
  | joined hentry position =>
      exact .inl ⟨(handle?_recount hentry _ topic).trans h.handle?, h.status?⟩
  | left hentry n => exact .inl ⟨(handle?_recount hentry n topic).trans h.handle?, h.status?⟩
  | @opened t _ _ _ s' hfree =>
      have hne : topic ≠ t := by
        rintro rfl
        have hhandle := h.handle?
        rw [Registry.handle?, hfree] at hhandle
        cases hhandle
      refine .inl ⟨?_, status?_insert_old h.status?⟩
      rw [Registry.handle?, find?_insert, if_neg hne]
      exact h.handle?
  | @removed t entry hentry =>
      by_cases ht : topic = t
      · subst ht
        cases h.handle?.symm.trans (handle?_of_find? hentry)
        have hnone : (r.remove topic entry).find? topic = none := by
          rw [find?_remove, if_pos rfl]
        refine .inr ⟨?_, ?_, status?_remove_self h.status? topic⟩
        · rw [contains, hnone]
          rfl
        · intro hhandle
          rw [Registry.handle?, hnone] at hhandle
          cases hhandle
      -- the removal of another topic retires a registration of that topic
      · have hne : handle ≠ entry.handle := by
          rintro rfl
          exact ht (hr.topic_unique h.handle? (handle?_of_find? hentry))
        refine .inl ⟨?_, (status?_remove_of_ne r t hne).trans h.status?⟩
        rw [Registry.handle?, find?_remove, if_neg ht]
        exact h.handle?
  | notified event => exact .inl ⟨h.handle?, (hnotify event).trans h.status?⟩

theorem Serves.contains (h : r.Serves topic handle s) : r.contains topic = true :=
  contains_iff_handle?.2 ⟨handle, h.handle?⟩

theorem Serves.run (hr : r.Indexed) (h : r.Serves topic handle s) (commands : List Command) :
    ((∀ soFar, soFar <+: commands → (r.run soFar).1.contains topic = true) →
        (r.run commands).1.Serves topic handle s) ∧
      ((∃ soFar, soFar <+: commands ∧ (r.run soFar).1.contains topic = false) →
        (r.run commands).1.Retired topic handle s) := by
  induction commands generalizing r with
  | nil =>
      refine ⟨fun _ => h, ?_⟩
      rintro ⟨soFar, hprefix, hcontains⟩
      rw [List.prefix_nil.1 hprefix] at hcontains
      cases h.contains.symm.trans hcontains
  | cons c cs ih =>
      obtain hnext | ⟨hleft, hretired⟩ := h.step hr c
      · obtain ⟨hstays, hgoes⟩ := ih (hr.step c) hnext
        refine ⟨fun hall => hstays fun soFar hprefix => ?_, ?_⟩
        · exact hall (c :: soFar) (List.prefix_cons_iff.2 (.inr ⟨soFar, rfl, hprefix⟩))
        · rintro ⟨soFar, hprefix, hcontains⟩
          obtain rfl | ⟨rest, rfl, hrest⟩ := List.prefix_cons_iff.1 hprefix
          · cases h.contains.symm.trans hcontains
          · exact hgoes ⟨rest, hrest, hcontains⟩
      · refine ⟨fun hall => ?_, fun _ => hretired.run cs⟩
        have hone := hall [c] (List.prefix_cons_iff.2 (.inr ⟨[], rfl, List.nil_prefix⟩))
        cases hone.symm.trans hleft

theorem Indexed.serves_of_opened (hr : r.Indexed) (hfree : r.contains topic = false) (c : Command)
    (hcontains : (r.step c).1.contains topic = true) :
    ∃ handle s, s.topic = topic ∧ r.registration? handle = none ∧
      (r.step c).1.Serves topic handle s := by
  obtain ⟨handle, hhandle⟩ := contains_iff_handle?.1 hcontains
  obtain hold | ⟨rfl, s, hs⟩ := handle?_step hhandle
  · cases hfree.symm.trans (contains_iff_handle?.2 ⟨handle, hold⟩)
  · have htopic := (hr.step c).topic_of_handle? hs hhandle
    refine ⟨_, s, htopic, List.getElem?_eq_none (Nat.le_refl _), hhandle, ?_⟩
    rw [status?, hs]
    rfl

theorem run_append (r : Registry) (commands later : List Command) :
    (r.run (commands ++ later)).1 = ((r.run commands).1.run later).1 := by
  induction commands generalizing r with
  | nil => rfl
  | cons c cs ih => exact ih (r.step c).1

/-- The count of subscribers by the replies says whether a topic is registered and what its next
removal answers. From the command that makes it positive to the one that makes it zero the topic
has one subscription, a new one, which is active then and removed ever after. Other commands than
subscriptions and removals do nothing to this. -/
theorem run_follows_counter (config : Config) (services : Services) (topic : String)
    (commands : List Command) :
    let count (commands : List Command) : Nat :=
      counter topic ((empty config services).history commands)
    let r := ((empty config services).run commands).1
    (r.contains topic = true ↔ 0 < count commands) ∧
    (r.step (.unsubscribe topic)).2 = .unsubscribed (decide (0 < count commands)) ∧
    (∀ c, count commands = 0 → 0 < count (commands ++ [c]) →
      ∃ handle s, s.topic = topic ∧ r.registration? handle = none ∧ ∀ later,
        let now := ((empty config services).run (commands ++ c :: later)).1
        ((∀ soFar, soFar <+: later → 0 < count (commands ++ c :: soFar)) →
          now.handle? topic = some handle ∧ now.status? handle = some (s, true)) ∧
        ((∃ soFar, soFar <+: later ∧ count (commands ++ c :: soFar) = 0) →
          now.handle? topic ≠ some handle ∧ now.status? handle = some (s, false))) ∧
    (∀ c : Command, c.Quiet →
      count (commands ++ [c]) = count commands ∧ Unmoved r (r.step c).1) := by
  intro count r
  have hr : r.Indexed := (indexed_empty config services).run commands
  have hcount (later : List Command) :
      count (commands ++ later) = (r.run later).1.subscribers topic := by
    rw [← run_append]
    exact (subscribers_eq_counter config services topic (commands ++ later)).symm
  have hpos (later : List Command) :
      0 < count (commands ++ later) ↔ (r.run later).1.contains topic = true := by
    rw [hcount]
    exact (hr.run later).subscribers_pos_iff
  have hzero (later : List Command) :
      count (commands ++ later) = 0 ↔ (r.run later).1.contains topic = false := by
    rw [← Bool.not_eq_true, ← hpos]
    omega
  have hnow : 0 < count commands ↔ r.contains topic = true := by
    have := hpos []
    rwa [List.append_nil] at this
  refine ⟨hnow.symm, ?_, ?_, ?_⟩
  · change Reply.unsubscribed (r.unsubscribe topic).2 = _
    simp only [unsubscribe_found, hnow, Bool.decide_eq_true]
  · intro c hbefore hafter
    have hfree : r.contains topic = false := by simpa [hbefore] using hnow
    obtain ⟨handle, s, htopic, hnew, hserves⟩ := hr.serves_of_opened hfree c ((hpos [c]).1 hafter)
    refine ⟨handle, s, htopic, hnew, fun later => ?_⟩
    obtain ⟨hstays, hgoes⟩ := hserves.run (hr.step c) later
    rw [run_append]
    constructor
    · intro hall
      have := hstays fun soFar hprefix => (hpos (c :: soFar)).1 (hall soFar hprefix)
      exact ⟨this.handle?, this.status?⟩
    · rintro ⟨soFar, hprefix, hnone⟩
      have := hgoes ⟨soFar, hprefix, (hzero (c :: soFar)).1 hnone⟩
      exact ⟨this.handle?, this.status?⟩
  · intro c hquiet
    have hmove := hquiet.unmoved r
    refine ⟨?_, hmove⟩
    have hsame := hcount []
    rw [List.append_nil] at hsame
    rw [hcount, hsame]
    exact hmove.subscribers topic

/-- Two subscribers come and go before a third one comes. -/
theorem run_follows_counter_again :
    let join : Command := .subscribe "Things" ⟨[.entitySet .thing]⟩ "" none
    let leave : Command := .unsubscribe "Things"
    let start := empty Config.default ⟨fun _ _ _ => .ok "", none⟩
    let count (commands : List Command) : Nat := counter "Things" (start.history commands)
    count [] = 0 ∧ 0 < count [join] ∧ count [join, join, leave, leave] = 0 ∧
      0 < count [join, join, leave, leave, join] ∧ ∃ handle s,
        let now := (start.run [join, join, leave, leave, join]).1
        now.contains "Things" = true ∧ now.handle? "Things" ≠ some handle ∧
          now.status? handle = some (s, false) := by
  intro join leave start count
  have hnone : count [] = 0 := rfl
  have hone : 0 < count [join] := by decide
  have hleft : count [join, join, leave, leave] = 0 := by decide
  have hagain : 0 < count [join, join, leave, leave, join] := by decide
  obtain ⟨_, _, hspan, _⟩ := run_follows_counter start.config start.services "Things" []
  obtain ⟨handle, s, _, _, hlater⟩ := hspan join hnone hone
  obtain ⟨hcontains, _⟩ := run_follows_counter start.config start.services "Things"
    [join, join, leave, leave, join]
  have hprefix : [join, leave, leave] <+: [join, leave, leave, join] := List.prefix_append _ [join]
  have hgone := (hlater [join, leave, leave, join]).2 ⟨_, hprefix, hleft⟩
  exact ⟨hnone, hone, hleft, hagain, handle, s, hcontains.2 hagain, hgone⟩

end LiveFilter.Registry
