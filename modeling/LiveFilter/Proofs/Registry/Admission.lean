import LiveFilter.Proofs.Registry.Lifecycle
import Mathlib.Data.List.Induction

/-! # Admission of subscribers

A call for a topic without a subscription is judged by its own path and filter, and changes nothing
if these are refused. A call for a topic that has one joins it without being judged: the
subscription stays the one that was made from the path and filter of the call that registered the
topic.
-/

namespace LiveFilter.Registry

variable {r : Registry} {c : Command} {topic root : String} {path : ResourcePath}
  {query : Option Expression} {s : Subscription} {handle : Nat}

/-- The command returns a receiver of this subscription, which is the topic's. -/
def Admits (r : Registry) (c : Command) (topic : String) (handle : Nat) (s : Subscription) : Prop :=
  ∃ n, (r.step c).2 = .subscribed n ∧
    ((r.step c).1.receiver? n).map Receiver.handle = some handle ∧
    (r.step c).1.Serves topic handle s

/-- Of these commands this one registered the topic, which has been registered ever since. -/
def OpenedBy (r : Registry) (commands : List Command) (topic : String) (c : Command) : Prop :=
  ∃ before after, commands = before ++ c :: after ∧ (r.run before).1.contains topic = false ∧
    ∀ soFar, soFar <+: after → (r.run (before ++ c :: soFar)).1.contains topic = true

theorem find?_eq_none_of_contains (h : r.contains topic = false) : r.find? topic = none := by
  simpa [contains] using h

theorem receiver?_addReceiver_new (r : Registry) (handle position : Nat) :
    (r.addReceiver handle position).1.receiver? r.receivers.length = some ⟨handle, position⟩ :=
  congrArg Option.join List.getElem?_concat_length

theorem serves_insert (r : Registry) (topic : String) (s : Subscription) :
    (r.insert topic s).1.Serves topic r.registrations.length s where
  handle? := by
    rw [handle?, find?_insert, if_pos rfl]
    rfl
  status? := status?_insert_new r topic s

theorem admits_of_free (hfree : r.contains topic = false)
    (hs : Subscription.createWith topic path root query = .ok s) :
    r.Admits (.subscribe topic path root query) topic r.registrations.length s := by
  refine ⟨r.receivers.length, ?_⟩
  rw [step_opened path root query (find?_eq_none_of_contains hfree) hs]
  refine ⟨rfl, ?_, serves_insert r topic s⟩
  exact congrArg (Option.map Receiver.handle) (receiver?_addReceiver_new { r with .. } _ 0)

theorem Serves.admits (h : r.Serves topic handle s) (path : ResourcePath) (root : String)
    (query : Option Expression) :
    r.Admits (.subscribe topic path root query) topic handle s := by
  obtain ⟨entry, hentry, rfl⟩ := Option.map_eq_some_iff.1 h.handle?
  refine ⟨r.receivers.length, ?_⟩
  rw [step_joined path root query hentry]
  refine ⟨rfl, ?_, (handle?_recount hentry _ topic).trans h.handle?, h.status?⟩
  exact congrArg (Option.map Receiver.handle) (receiver?_addReceiver_new (r.recount _ _ _) _ _)

theorem Indexed.exists_subscribe_of_contains (hr : r.Indexed) (hfree : r.contains topic = false)
    (hcontains : (r.step c).1.contains topic = true) :
    ∃ path root query s, c = .subscribe topic path root query ∧
      Subscription.createWith topic path root query = .ok s := by
  have hnone := find?_eq_none_of_contains hfree
  have hcount := (hr.step c).subscribers_pos_iff.2 hcontains
  rw [subscribers_step, subscribers_eq_zero_of_find? hnone] at hcount
  cases c with
  | subscribe t path root query =>
      by_cases ht : t = topic
      · subst ht
        cases hs : Subscription.createWith t path root query with
        | ok s => exact ⟨path, root, query, s, rfl, hs⟩
        | error cause =>
            rw [step_refused path root query hnone hs] at hcount
            cases hcount
      · cases hreply : (r.step (.subscribe t path root query)).2 <;>
          simp [hreply, tally, ht] at hcount
  | unsubscribe t => simp [tally] at hcount
  | notify | receive | drop => exact absurd hcount (Nat.lt_irrefl 0)

/-- A topic with a subscription was registered by some call, and the subscription is the one that
was made from what this call brought. -/
theorem Indexed.exists_openedBy (hr : r.Indexed) (hfree : r.contains topic = false)
    (commands : List Command) (hcontains : (r.run commands).1.contains topic = true) :
    ∃ path root query handle s, r.OpenedBy commands topic (.subscribe topic path root query) ∧
      Subscription.createWith topic path root query = .ok s ∧
      (r.run commands).1.Serves topic handle s := by
  induction commands using List.reverseRecOn with
  | nil => cases hfree.symm.trans hcontains
  | append_singleton commands c ih =>
      have hlast : (r.run (commands ++ [c])).1 = ((r.run commands).1.step c).1 :=
        run_append r commands [c]
      have hnow := hr.run commands
      cases hbefore : (r.run commands).1.contains topic with
      | false =>
          have hstep := hcontains
          rw [hlast] at hstep
          obtain ⟨path, root, query, s, rfl, hs⟩ := hnow.exists_subscribe_of_contains hbefore hstep
          obtain ⟨_, _, _, hserves⟩ := admits_of_free hbefore hs
          refine ⟨path, root, query, _, s, ⟨commands, [], rfl, hbefore, ?_⟩, hs, hlast ▸ hserves⟩
          intro soFar hprefix
          rwa [List.prefix_nil.1 hprefix]
      | true =>
          obtain ⟨path, root, query, handle, s, hopened, hs, hserves⟩ := ih hbefore
          obtain hserves | ⟨hleft, _⟩ := hserves.step hnow c
          · obtain ⟨before, after, rfl, hnone, hsince⟩ := hopened
            refine ⟨path, root, query, handle, s, ⟨before, after ++ [c], by simp, hnone, ?_⟩, hs,
              hlast ▸ hserves⟩
            intro soFar hprefix
            obtain rfl | hprefix := List.prefix_concat_iff.1 hprefix
            · rwa [List.append_assoc, List.cons_append] at hcontains
            · exact hsince soFar hprefix
          · rw [← hlast] at hleft
            cases hleft.symm.trans hcontains

/-- A call for a free topic is accepted exactly if its path and filter are, and registers the
subscription made from them; a refused call changes nothing. A call for a topic that has a
subscription is accepted whatever its path and filter are, and joins that subscription, which was
made from those of the call that registered the topic. -/
theorem run_subscribe_validates (config : Config) (services : Services) (commands : List Command)
    (topic : String) (path : ResourcePath) (root : String) (query : Option Expression) :
    let start := empty config services
    let r := (start.run commands).1
    let c : Command := .subscribe topic path root query
    (r.contains topic = false →
      (∀ s, Subscription.createWith topic path root query = .ok s →
        ∃ handle, r.registration? handle = none ∧ r.Admits c topic handle s) ∧
      (∀ cause, Subscription.createWith topic path root query = .error cause →
        r.step c = (r, .refused cause))) ∧
    (r.contains topic = true →
      ∃ path₀ root₀ query₀ handle s,
        start.OpenedBy commands topic (.subscribe topic path₀ root₀ query₀) ∧
        Subscription.createWith topic path₀ root₀ query₀ = .ok s ∧
        r.Serves topic handle s ∧ r.Admits c topic handle s) := by
  intro start r c
  refine ⟨fun hfree => ⟨fun s hs => ?_, fun cause hcause => ?_⟩, fun hheld => ?_⟩
  · exact ⟨_, List.getElem?_eq_none (Nat.le_refl _), admits_of_free hfree hs⟩
  · exact step_refused path root query (find?_eq_none_of_contains hfree) hcause
  · obtain ⟨path₀, root₀, query₀, handle, s, hopened, hs, hserves⟩ :=
      (indexed_empty config services).exists_openedBy rfl commands hheld
    exact ⟨path₀, root₀, query₀, handle, s, hopened, hs, hserves, hserves.admits path root query⟩

/-- A call that would be refused joins the subscription of the things, and one on another topic is
refused. -/
theorem run_subscribe_validates_held :
    let start := empty Config.default ⟨fun _ _ _ => .ok "", none⟩
    let things : ResourcePath := ⟨[.entitySet .thing]⟩
    let commands : List Command := [.subscribe "Things" things "" none]
    let r := (start.run commands).1
    r.contains "Things" = true ∧ r.contains "Sensors" = false ∧
      (∃ handle s, r.Serves "Things" handle s ∧
        r.Admits (.subscribe "Things" ⟨[]⟩ "" none) "Things" handle s) ∧
      r.step (.subscribe "Sensors" ⟨[]⟩ "" none) =
        (r, .refused (.invalidTopic "Sensors" "empty resource path")) := by
  intro start things commands r
  have hheld : r.contains "Things" = true := by decide
  have hfree : r.contains "Sensors" = false := by decide
  obtain ⟨_, _, _, handle, s, _, _, hserves, hadmits⟩ :=
    (run_subscribe_validates start.config start.services commands "Things" ⟨[]⟩ "" none).2 hheld
  have hrefused :=
    (run_subscribe_validates start.config start.services commands "Sensors" ⟨[]⟩ "" none).1 hfree
  exact ⟨hheld, hfree, ⟨handle, s, hserves, hadmits⟩, hrefused.2 _ rfl⟩

/-- A filter is refused on an entity, but not if someone subscribed to the entity before. -/
theorem admits_refused_filter :
    let path : ResourcePath := ⟨[.entity .thing (some (.long 1))]⟩
    let query : Expression := .equal (.property (.single (.entity .name))) (.constant (.text "a"))
    let r := ((empty Config.default ⟨fun _ _ _ => .ok "", none⟩).run
      [.subscribe "Things(1)" path "" none]).1
    r.Reachable ∧ (r.step (.subscribe "Things(1)" path "" (some query))).2 = .subscribed 1 ∧
      ∀ s, Subscription.createWith "Things(1)" path "" (some query) ≠ .ok s := by
  intro path query r
  have hrefused : Subscription.createWith "Things(1)" path "" (some query) =
      .error (.invalidTopic "Things(1)" "query options not allowed for entity subscriptions") := rfl
  refine ⟨reachable_of_create Config.default _ rfl (by decide) _, rfl, fun s hs => ?_⟩
  cases hrefused.symm.trans hs

end LiveFilter.Registry
