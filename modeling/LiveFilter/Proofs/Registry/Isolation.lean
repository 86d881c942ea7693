import LiveFilter.Proofs.Registry.Delivery
import LiveFilter.Proofs.Registry.Lifecycle
import LiveFilter.Proofs.Registry.View

/-! # Topics by themselves

A run without the commands that concern only other topics does the same to a topic and gives the
same to its receivers, although topics share the index, the dispatch and the store. Handles and
numbers of receivers are counted among those of the topic then.
-/

namespace LiveFilter.Registry

open Selection (pick rank)

/-- Which receivers are of the topic, after a command that got this reply. -/
def enlist (topic : String) (mine : List Bool) : Command × Reply → List Bool
  | (.subscribe t _ _ _, .subscribed _) => mine ++ [decide (t = topic)]
  | _ => mine

/-- The command if it concerns the topic, with the number its receiver has then. -/
def own? (topic : String) (mine : List Bool) : Command → Option Command
  | .subscribe t path root query =>
      if t = topic then some (.subscribe t path root query) else none
  | .unsubscribe t => if t = topic then some (.unsubscribe t) else none
  | .notify event => some (.notify event)
  | .receive n => if mine[n]? = some false then none else some (.receive (rank mine n))
  | .drop n => if mine[n]? = some false then none else some (.drop (rank mine n))

/-- The commands that are left when those for other topics only are erased. -/
def erase (topic : String) (mine : List Bool) : List (Command × Reply) → List Command
  | [] => []
  | entry :: rest =>
      (own? topic mine entry.1).toList ++ erase topic (enlist topic mine entry) rest

variable {r r' : Registry} {topic t : String} {mine : List Bool} {handle n : Nat}

namespace View

theorem step_subscribe (hr : r.Indexed) (h : View topic mine r r')
    (path : ResourcePath) (root : String) (query : Option Expression) :
    View topic (enlist topic mine (.subscribe topic path root query,
        (r.step (.subscribe topic path root query)).2))
      (r.step (.subscribe topic path root query)).1
      (r'.step (.subscribe topic path root query)).1 := by
  have hentry' := h.entry
  cases hentry : r.find? topic with
  | some entry =>
      rw [hentry, Option.map_some] at hentry'
      have howns := hr.getElem?_owns topic (handle?_of_find? hentry)
      rw [decide_eq_true rfl] at howns
      rw [step_joined path root query hentry, step_joined path root query hentry', enlist,
        decide_eq_true rfl, h.registration? howns]
      exact (h.insertTopic _ _ _).addReceiver howns _
  | none =>
      rw [hentry, Option.map_none] at hentry'
      cases hs : Subscription.createWith topic path root query with
      | ok s =>
          rw [step_opened path root query hentry hs, step_opened path root query hentry' hs, enlist,
            decide_eq_true rfl]
          exact h.insert hr (Subscription.topic_of_createWith hs)
      | error cause =>
          rw [step_refused path root query hentry hs, step_refused path root query hentry' hs]
          exact h

theorem step_subscribe_of_ne (hr : r.Indexed) (h : View topic mine r r') (ht : topic ≠ t)
    (path : ResourcePath) (root : String) (query : Option Expression) :
    View topic (enlist topic mine (.subscribe t path root query,
      (r.step (.subscribe t path root query)).2)) (r.step (.subscribe t path root query)).1 r' := by
  cases hentry : r.find? t with
  | some entry =>
      have howns := hr.getElem?_owns topic (handle?_of_find? hentry)
      rw [decide_eq_false (Ne.symm ht)] at howns
      rw [step_joined path root query hentry, enlist, decide_eq_false (Ne.symm ht)]
      exact (h.insertTopic_of_ne ht _ _).addReceiver_of_ne howns _
  | none =>
      cases hs : Subscription.createWith t path root query with
      | ok s =>
          rw [step_opened path root query hentry hs, enlist, decide_eq_false (Ne.symm ht)]
          exact h.insert_of_ne hr ht (Subscription.topic_of_createWith hs)
      | error cause =>
          rw [step_refused path root query hentry hs]
          exact h

theorem unsubscribe (hr : r.Indexed) (h : View topic mine r r') :
    View topic mine (r.unsubscribe topic).1 (r'.unsubscribe topic).1 := by
  unfold Registry.unsubscribe
  rw [h.entry]
  cases hentry : r.find? topic with
  | none => exact h
  | some entry =>
      simp only [Option.map_some]
      split
      · exact h.insertTopic _ _ _
      · exact h.remove hr hentry

theorem unsubscribe_of_ne (hr : r.Indexed) (h : View topic mine r r') (ht : topic ≠ t) :
    View topic mine (r.unsubscribe t).1 r' := by
  unfold Registry.unsubscribe
  cases hentry : r.find? t with
  | none => exact h
  | some entry =>
      dsimp only
      split
      · exact h.insertTopic_of_ne ht _ _
      · exact h.remove_of_ne hr ht hentry

theorem published? (hr : r.Indexed) (h : View topic mine r r')
    (howns : (r.owns topic)[handle]? = some true) (event : Event) :
    r'.published? (rank (r.owns topic) handle) (.notify event) =
      r.published? handle (.notify event) := by
  have hfallback : r'.fallback r.services = r.fallback r.services := by
    rw [fallback, fallback, h.config]
  rw [Registry.published?, Registry.published?, h.registration? howns, h.services, hfallback]
  cases hg : r.registration? handle with
  | none => rfl
  | some g =>
      have htopic : g.subscription.topic = topic := by
        rw [Registry.getElem?_owns topic hg] at howns
        exact of_decide_eq_true (Option.some.inj howns)
      simp only [Option.bind_some, htopic, h.handle?_iff hr howns]

/-- An event does to the registrations of a topic what it does to them alone. -/
theorem notify (hr : r.Indexed) (hr' : r'.Indexed) (h : View topic mine r r') (event : Event) :
    View topic mine (r.notify event).registry (r'.notify event).registry := by
  have hsame (r : Registry) : (r.notify event).registry =
      { r with registrations := (r.notify event).registry.registrations } :=
    registry_dispatch _ event _ _
  rw [hsame r, hsame r']
  refine h.setRegistrations _ _ ?_ ?_
  · rw [← hsame r]
    exact (unmoved_notify r event).owns topic
  · rw [hr.registrations_notify, hr'.registrations_notify, h.registrations]
    refine (Selection.pick_mapIdx ?_).symm
    intro handle g howns _
    rw [h.hasReceiver howns, h.published? hr howns]

theorem receiver? (h : View topic mine r r') (hn : mine[n]? = some true) :
    r'.receiver? (rank mine n) = (r.receiver? n).map (Receiver.renumber (r.owns topic)) := by
  rw [Registry.receiver?, h.receivers, List.getElem?_map, Selection.getElem?_pick hn,
    Registry.receiver?]
  cases r.receivers[n]? with
  | none => rfl
  | some x => rfl

theorem receivers_of_none (h : View topic mine r r') (hn : mine[n]? = none) :
    r.receivers.length ≤ n ∧ r'.receivers.length ≤ rank mine n := by
  have hle := List.getElem?_eq_none_iff.1 hn
  refine ⟨h.length ▸ hle, ?_⟩
  rw [h.receivers, List.length_map, Selection.length_pick h.length]
  exact Selection.rank_le_rank mine hle

theorem receive (h : View topic mine r r') (hn : mine[n]? = some true) :
    (r'.receive (rank mine n)).map Prod.snd = (r.receive n).map Prod.snd ∧
      View topic mine (r.step (.receive n)).1 (r'.step (.receive (rank mine n))).1 := by
  have hreceiver := h.receiver? hn
  cases hx : r.receiver? n with
  | none =>
      rw [hx] at hreceiver
      simpa [step, Registry.receive, hx, hreceiver] using h
  | some x =>
      rw [hx, Option.map_some] at hreceiver
      have hplaced := h.placed n x (Option.join_eq_some_iff.1 hx)
      have howns := hplaced.symm.trans hn
      obtain ⟨g, hg, _⟩ := exists_of_owns howns
      have hg' := (h.registration? howns).trans hg
      have hreceive := receive_eq hx hg
      have hreceive' := receive_eq hreceiver hg'
      simp only [step, hreceive, hreceive']
      refine ⟨rfl, h.setReceiver hn fun y hy => ?_⟩
      cases hy
      exact hplaced

theorem receive_of_ne (h : View topic mine r r') (hn : mine[n]? = some false) :
    View topic mine (r.step (.receive n)).1 r' := by
  simp only [step]
  split
  · rename_i r₁ reception hreceive
    simp only [Registry.receive, Option.bind_eq_bind, Option.bind_eq_some_iff] at hreceive
    obtain ⟨x, hx, g, _, hreceive⟩ := hreceive
    cases hreceive
    refine h.setReceiver_of_ne hn fun y hy => ?_
    cases hy
    exact h.placed n x (Option.join_eq_some_iff.1 hx)
  · exact h

theorem receive_of_none (h : View topic mine r r') (hn : mine[n]? = none) :
    r.receive n = none ∧ r'.receive (rank mine n) = none := by
  obtain ⟨hle, hle'⟩ := h.receivers_of_none hn
  constructor
  · simp [Registry.receive, Registry.receiver?, List.getElem?_eq_none hle]
  · simp [Registry.receive, Registry.receiver?, List.getElem?_eq_none hle']

theorem dropReceiver (h : View topic mine r r') (hn : mine[n]? ≠ some false) :
    View topic mine (r.dropReceiver n) (r'.dropReceiver (rank mine n)) := by
  cases hmine : mine[n]? with
  | none =>
      obtain ⟨hle, hle'⟩ := h.receivers_of_none hmine
      rw [Registry.dropReceiver, Registry.dropReceiver, List.set_eq_of_length_le hle,
        List.set_eq_of_length_le hle']
      exact h
  | some flag =>
      cases flag with
      | false => exact absurd hmine hn
      | true => exact h.setReceiver hmine fun y hy => by cases hy

theorem dropReceiver_of_ne (h : View topic mine r r') (hn : mine[n]? = some false) :
    View topic mine (r.dropReceiver n) r' :=
  h.setReceiver_of_ne hn fun y hy => by cases hy

theorem step (hr : r.Indexed) (hr' : r'.Indexed) (h : View topic mine r r') (c : Command) :
    View topic (enlist topic mine (c, (r.step c).2)) (r.step c).1
      (r'.run (own? topic mine c).toList).1 := by
  cases c with
  | subscribe t path root query =>
      by_cases ht : topic = t
      · subst ht
        rw [own?, if_pos rfl]
        exact h.step_subscribe hr path root query
      · rw [own?, if_neg (Ne.symm ht)]
        exact h.step_subscribe_of_ne hr ht path root query
  | unsubscribe t =>
      by_cases ht : topic = t
      · subst ht
        rw [own?, if_pos rfl]
        exact h.unsubscribe hr
      · rw [own?, if_neg (Ne.symm ht)]
        exact h.unsubscribe_of_ne hr ht
  | notify event => exact h.notify hr hr' event
  | receive n =>
      by_cases hn : mine[n]? = some false
      · rw [own?, if_pos hn]
        exact h.receive_of_ne hn
      · rw [own?, if_neg hn]
        cases hmine : mine[n]? with
        | none =>
            obtain ⟨hreceive, hreceive'⟩ := h.receive_of_none hmine
            simpa [run, Registry.step, enlist, hreceive, hreceive'] using h
        | some flag =>
            cases flag with
            | false => exact absurd hmine hn
            | true => exact (h.receive hmine).2
  | drop n =>
      by_cases hn : mine[n]? = some false
      · rw [own?, if_pos hn]
        exact h.dropReceiver_of_ne hn
      · rw [own?, if_neg hn]
        exact h.dropReceiver hn

end View

theorem history_cons (r : Registry) (c : Command) (cs : List Command) :
    r.history (c :: cs) = (c, (r.step c).2) :: (r.step c).1.history cs := rfl

theorem View.run (hr : r.Indexed) (hr' : r'.Indexed) (h : View topic mine r r')
    (cs : List Command) :
    View topic ((r.history cs).foldl (enlist topic) mine) (r.run cs).1
      (r'.run (erase topic mine (r.history cs))).1 := by
  induction cs generalizing r r' mine with
  | nil => exact h
  | cons c cs ih =>
      rw [history_cons, erase, run_append]
      exact ih (hr.step c) (hr'.run _) (h.step hr hr' c)

theorem observe_append {β : Type} (note : Registry → Command → Option β) (r : Registry)
    (cs later : List Command) :
    r.observe note (cs ++ later) = r.observe note cs ++ (r.run cs).1.observe note later := by
  induction cs generalizing r with
  | nil => rfl
  | cons c cs ih =>
      rw [List.cons_append, observe, ih, observe, List.append_assoc]
      rfl

theorem prefix_foldl_enlist (topic : String) (mine : List Bool) (entries : List (Command × Reply)) :
    mine <+: entries.foldl (enlist topic) mine := by
  induction entries generalizing mine with
  | nil => exact List.prefix_rfl
  | cons entry rest ih =>
      refine List.IsPrefix.trans ?_ (ih (enlist topic mine entry))
      unfold enlist
      split
      · exact List.prefix_append _ _
      · exact List.prefix_rfl

theorem received?_of_none {m : Nat} (h : r.receive m = none) (n : Nat) :
    r.received? n (.receive m) = none := by
  by_cases hmn : m = n
  · subst hmn
    rw [received?, if_pos rfl, h, Option.map_none]
  · rw [received?, if_neg hmn]

theorem View.received? (h : View topic mine r r') {final : List Bool} (hfinal : mine <+: final)
    (hn : final[n]? = some true) (c : Command) :
    r'.observe (Registry.received? (rank final n)) (own? topic mine c).toList =
      (r.received? n c).toList := by
  obtain ⟨more, rfl⟩ := hfinal
  have hkeep {m : Nat} {flag : Bool} (hm : mine[m]? = some flag) : (mine ++ more)[m]? = some flag := by
    rw [List.getElem?_append_left (List.getElem?_eq_some_iff.1 hm).1, hm]
  have hrank {m : Nat} (hm : mine[m]? = some true) : rank (mine ++ more) m = rank mine m :=
    Selection.rank_append (Nat.le_of_lt (List.getElem?_eq_some_iff.1 hm).1) more
  cases c with
  | subscribe t _ _ _ | unsubscribe t =>
      rw [own?]
      split <;> rfl
  | notify event => rfl
  | drop m =>
      rw [own?]
      split <;> rfl
  | receive m =>
      rw [own?]
      cases hm : mine[m]? with
      -- a number that was not given to a receiver yet is beyond all of them in both runs
      | none =>
          obtain ⟨hreceive, hreceive'⟩ := h.receive_of_none hm
          rw [if_neg (by simp), received?_of_none hreceive]
          change (r'.received? _ _).toList ++ [] = _
          rw [received?_of_none hreceive']
          rfl
      | some flag =>
          cases flag with
          | false =>
              have hne : m ≠ n := by
                rintro rfl
                rw [hkeep hm] at hn
                cases hn
              rw [if_pos rfl, Registry.received?, if_neg hne]
              rfl
          | true =>
              rw [if_neg (by simp)]
              change (r'.received? _ _).toList ++ [] = _
              rw [List.append_nil, ← hrank hm]
              by_cases hmn : m = n
              · subst hmn
                rw [Registry.received?, Registry.received?, if_pos rfl, if_pos rfl, hrank hm,
                  (h.receive hm).1]
              · have hne : rank (mine ++ more) m ≠ rank (mine ++ more) n :=
                  fun heq => hmn (Selection.eq_of_rank_eq (hkeep hm) hn heq)
                rw [Registry.received?, Registry.received?, if_neg hmn, if_neg hne]

theorem View.observe (hr : r.Indexed) (hr' : r'.Indexed) (h : View topic mine r r')
    (cs : List Command) (hn : ((r.history cs).foldl (enlist topic) mine)[n]? = some true) :
    r'.observe (Registry.received? (rank ((r.history cs).foldl (enlist topic) mine) n))
        (erase topic mine (r.history cs)) =
      r.observe (Registry.received? n) cs := by
  induction cs generalizing r r' mine with
  | nil => rfl
  | cons c cs ih =>
      rw [history_cons, List.foldl_cons] at hn ⊢
      -- flags are only added, so that the rank at the end is the rank at the reception
      have hfinal : mine <+: ((r.step c).1.history cs).foldl (enlist topic)
          (enlist topic mine (c, (r.step c).2)) :=
        prefix_foldl_enlist topic mine ((c, (r.step c).2) :: (r.step c).1.history cs)
      rw [erase, observe_append, h.received? hfinal hn c,
        ih (hr.step c) (hr'.run _) (h.step hr hr' c) hn, Registry.observe]

theorem history_append (r : Registry) (before later : List Command) :
    r.history (before ++ later) = r.history before ++ (r.run before).1.history later := by
  induction before generalizing r with
  | nil => rfl
  | cons c cs ih =>
      rw [List.cons_append, history_cons, ih, history_cons, List.cons_append]
      rfl

theorem erase_append (topic : String) (mine : List Bool) (before later : List (Command × Reply)) :
    erase topic mine (before ++ later) =
      erase topic mine before ++ erase topic (before.foldl (enlist topic) mine) later := by
  induction before generalizing mine with
  | nil => rfl
  | cons entry rest ih => rw [List.cons_append, erase, ih, erase, List.append_assoc, List.foldl_cons]

/-- At every point of a run, a topic has the subscriptions, with their states and all that was sent
on them, the handle and the number of subscribers that it has when the commands for other topics
only are erased from the run, and each of its receivers was given the same. Places are counted among
the registrations and the receivers of the topic. -/
theorem run_erase (config : Config) (services : Services) (topic : String)
    (before later : List Command) :
    let start := empty config services
    let erased (commands : List Command) : List Command := erase topic [] (start.history commands)
    let mine := (start.history before).foldl (enlist topic) []
    let r := (start.run before).1
    let r' := (start.run (erased before)).1
    erased before <+: erased (before ++ later) ∧
    r'.registrations = r.registrations.filter (·.subscription.topic = topic) ∧
    (∀ handle g, r.registration? handle = some g → g.subscription.topic = topic →
      r'.registration? (rank (r.owns topic) handle) = some g) ∧
    r'.handle? topic = (r.handle? topic).map (rank (r.owns topic)) ∧
    r'.subscribers topic = r.subscribers topic ∧
    ∀ n, mine[n]? = some true →
      start.observe (received? (rank mine n)) (erased before) =
        start.observe (received? n) before := by
  intro start erased mine r r'
  have hstart := indexed_empty config services
  have hview : View topic mine r r' := (view_empty config services topic).run hstart hstart before
  refine ⟨?_, ?_, fun handle g hg htopic => ?_, hview.handle?, ?_, fun n hn => ?_⟩
  · change erase topic [] (start.history before) <+: erase topic [] (start.history (before ++ later))
    rw [history_append, erase_append]
    exact List.prefix_append _ _
  · rw [hview.registrations, owns, Selection.pick_map_eq_filter]
  · have howns := getElem?_owns topic hg
    rw [decide_eq_true htopic] at howns
    rw [hview.registration? howns, hg]
  · rw [subscribers, hview.entry, subscribers]
    cases r.find? topic <;> rfl
  · exact (view_empty config services topic).observe hstart hstart before hn

/-- The second receiver is of the topic, and the first one and the other topic are left out. -/
theorem run_erase_interleaved :
    let sensors : Command := .subscribe "Sensors" ⟨[.entitySet .sensor]⟩ "" none
    let things : Command := .subscribe "Things" ⟨[.entitySet .thing]⟩ "" none
    let event : Command := .notify ⟨Entity.empty .thing, none⟩
    let start := empty Config.default ⟨fun _ _ _ => .ok "", none⟩
    let commands := [sensors, things, event, .receive 0, .unsubscribe "Sensors", .receive 1]
    let erased := erase "Things" [] (start.history commands)
    erased = [things, event, .receive 0] ∧
      start.observe (received? 1) commands = [.message ⟨"Things", ""⟩] ∧
      start.observe (received? 0) erased = [.message ⟨"Things", ""⟩] := by
  intro sensors things event start commands erased
  have hgiven : start.observe (received? 1) commands = [.message ⟨"Things", ""⟩] := by
    dsimp only [commands, start, event, things, sensors]
    rfl
  have hleft : erased = [things, event, .receive 0] := by
    dsimp only [erased, commands, start, event, things, sensors]
    rfl
  obtain ⟨_, _, _, _, _, hsame⟩ := run_erase start.config start.services "Things" commands []
  have hone := hsame 1 (by dsimp only [commands, start, event, things, sensors]; rfl)
  exact ⟨hleft, hgiven, hone.trans hgiven⟩

end LiveFilter.Registry
