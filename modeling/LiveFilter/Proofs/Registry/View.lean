import LiveFilter.Proofs.Registry.Publications
import LiveFilter.Proofs.Registry.Selection

/-! # One topic of a registry

What one registry has for a topic another one may have for it alone: the same registrations and
receivers in the same order, with their places counted among those of the topic. Every change of
the one keeps this relation if the other is changed likewise, or not at all when the change is none
of the topic's business.
-/

namespace LiveFilter

def Registration.retired (g : Registration) : Registration :=
  { g with active := false, channel := g.channel.close }

namespace Registry

open Selection (pick rank)

/-- Which registrations are of the topic. -/
def owns (topic : String) (r : Registry) : List Bool :=
  r.registrations.map fun g => g.subscription.topic = topic

/-- A receiver with the handle as it is among the registrations of one topic. -/
def Receiver.renumber (owned : List Bool) (x : Receiver) : Receiver :=
  { x with handle := rank owned x.handle }

/-- The second registry has what the first one has for the topic; the flags tell which receivers of
the first one are of the topic. -/
structure View (topic : String) (mine : List Bool) (r r' : Registry) : Prop where
  config : r'.config = r.config
  services : r'.services = r.services
  registrations : r'.registrations = pick (r.owns topic) r.registrations
  entry : r'.find? topic = (r.find? topic).map fun entry =>
    { entry with handle := rank (r.owns topic) entry.handle }
  length : mine.length = r.receivers.length
  receivers : r'.receivers = (pick mine r.receivers).map
    (Option.map (Receiver.renumber (r.owns topic)))
  placed : ∀ (n : Nat) x, r.receivers[n]? = some (some x) → mine[n]? = (r.owns topic)[x.handle]?

variable {r r' : Registry} {topic t : String} {mine : List Bool} {handle n : Nat} {flag : Bool}

theorem view_empty (config : Config) (services : Services) (topic : String) :
    View topic [] (empty config services) (empty config services) :=
  ⟨rfl, rfl, rfl, rfl, rfl, rfl, fun n x h => by cases h⟩

theorem length_owns (topic : String) (r : Registry) :
    (r.owns topic).length = r.registrations.length := List.length_map _

theorem getElem?_owns (topic : String) {g : Registration} (hg : r.registration? handle = some g) :
    (r.owns topic)[handle]? = some (decide (g.subscription.topic = topic)) := by
  have hlookup : r.registrations[handle]? = some g := hg
  rw [owns, List.getElem?_map, hlookup]
  rfl

theorem exists_of_owns (h : (r.owns topic)[handle]? = some flag) :
    ∃ g, r.registration? handle = some g ∧ decide (g.subscription.topic = topic) = flag := by
  rw [owns, List.getElem?_map] at h
  exact Option.map_eq_some_iff.1 h

theorem Indexed.getElem?_owns (hr : r.Indexed) (topic : String) (h : r.handle? t = some handle) :
    (r.owns topic)[handle]? = some (decide (t = topic)) := by
  obtain ⟨g, hg, htopic, _⟩ := hr.exists_registration h
  rw [Registry.getElem?_owns topic hg, htopic]

theorem Unmoved.owns (h : Unmoved r r') (topic : String) : r'.owns topic = r.owns topic := by
  have hstatus (r : Registry) (handle : Nat) : (r.owns topic)[handle]? =
      (r.status? handle).map fun p => decide (p.1.topic = topic) := by
    rw [Registry.owns, List.getElem?_map, Registry.status?, Option.map_map]
    rfl
  apply List.ext_getElem?
  intro handle
  rw [hstatus, hstatus, h.status?]

theorem owns_modify (topic : String) (r : Registry) (handle : Nat) {f : Registration → Registration}
    (hf : ∀ g, (f g).subscription = g.subscription) :
    ({ r with registrations := r.registrations.modify handle f } : Registry).owns topic =
      r.owns topic := by
  apply List.ext_getElem?
  intro other
  simp only [owns, List.getElem?_map, List.getElem?_modify]
  cases r.registrations[other]? with
  | none => rfl
  | some g => by_cases h : handle = other <;> simp [h, hf]

def push (r : Registry) (g : Registration) : Registry :=
  { r with registrations := r.registrations ++ [g] }

theorem owns_push (topic : String) (r : Registry) (g : Registration) :
    (r.push g).owns topic = r.owns topic ++ [decide (g.subscription.topic = topic)] :=
  List.map_append

theorem getElem?_owns_push (topic : String) (r : Registry) (g : Registration) :
    ((r.push g).owns topic)[r.registrations.length]? =
      some (decide (g.subscription.topic = topic)) := by
  rw [owns_push, ← length_owns topic r]
  exact List.getElem?_concat_length

namespace View

theorem registration? (h : View topic mine r r') (howns : (r.owns topic)[handle]? = some true) :
    r'.registration? (rank (r.owns topic) handle) = r.registration? handle := by
  rw [Registry.registration?, h.registrations, Selection.getElem?_pick howns, Registry.registration?]

theorem handle? (h : View topic mine r r') :
    r'.handle? topic = (r.handle? topic).map (rank (r.owns topic)) := by
  unfold Registry.handle?
  rw [h.entry]
  cases r.find? topic <;> rfl

theorem handle?_iff (hr : r.Indexed) (h : View topic mine r r')
    (howns : (r.owns topic)[handle]? = some true) :
    r'.handle? topic = some (rank (r.owns topic) handle) ↔ r.handle? topic = some handle := by
  rw [h.handle?, Option.map_eq_some_iff]
  constructor
  · rintro ⟨other, hother, hrank⟩
    have hown := hr.getElem?_owns topic hother
    rw [decide_eq_true rfl] at hown
    rw [hother, Selection.eq_of_rank_eq hown howns hrank]
  · intro hhandle
    exact ⟨handle, hhandle, rfl⟩

theorem hasReceiver (h : View topic mine r r') (howns : (r.owns topic)[handle]? = some true) :
    r'.hasReceiver (rank (r.owns topic) handle) = r.hasReceiver handle := by
  unfold Registry.hasReceiver
  rw [h.receivers, List.any_map]
  -- ranks tell handles of the topic apart, and receivers with other handles are not picked
  refine Selection.any_pick h.length ?_ ?_
  · intro n x hn hx
    cases x with
    | none => rfl
    | some x =>
        have hown := (h.placed n x hx).symm.trans hn
        change (rank (r.owns topic) x.handle == rank (r.owns topic) handle) = (x.handle == handle)
        rw [Bool.eq_iff_iff, beq_iff_eq, beq_iff_eq]
        exact ⟨Selection.eq_of_rank_eq hown howns, congrArg _⟩
  · intro n x hn hx
    cases x with
    | none => rfl
    | some x =>
        have hown := (h.placed n x hx).symm.trans hn
        refine beq_eq_false_iff_ne.2 fun heq => ?_
        rw [heq, howns] at hown
        cases hown

theorem handle_lt (h : View topic mine r r') {x : Receiver}
    (hx : r.receivers[n]? = some (some x)) : x.handle < (r.owns topic).length := by
  have hn : n < mine.length := by
    rw [h.length]
    exact (List.getElem?_eq_some_iff.1 hx).1
  have hplaced := h.placed n x hx
  rw [List.getElem?_eq_getElem hn, eq_comm] at hplaced
  exact (List.getElem?_eq_some_iff.1 hplaced).1

theorem setTopics (h : View topic mine r r') (topics topics' : List (String × TopicEntry))
    (byType byType' : List (EntityType × List String))
    (hentry : Keyed.find? topic topics' = (Keyed.find? topic topics).map fun entry =>
      { entry with handle := rank (r.owns topic) entry.handle }) :
    View topic mine { r with topics, byType }
      { r' with topics := topics', byType := byType' } where
  config := h.config
  services := h.services
  registrations := h.registrations
  entry := hentry
  length := h.length
  receivers := h.receivers
  placed := h.placed

theorem insertTopic (h : View topic mine r r') (entry : TopicEntry)
    (byType byType' : List (EntityType × List String)) :
    View topic mine { r with topics := Keyed.insert topic entry r.topics, byType }
      { r' with
        topics := Keyed.insert topic { entry with handle := rank (r.owns topic) entry.handle }
          r'.topics
        byType := byType' } := by
  refine h.setTopics _ _ byType byType' ?_
  rw [Keyed.find?_insert, Keyed.find?_insert, if_pos rfl, if_pos rfl, Option.map_some]

theorem insertTopic_of_ne (h : View topic mine r r') (ht : topic ≠ t) (entry : TopicEntry)
    (byType : List (EntityType × List String)) :
    View topic mine { r with topics := Keyed.insert t entry r.topics, byType } r' := by
  refine h.setTopics _ r'.topics byType r'.byType ?_
  rw [Keyed.find?_insert, if_neg ht]
  exact h.entry

theorem eraseTopic (h : View topic mine r r') (byType byType' : List (EntityType × List String)) :
    View topic mine { r with topics := Keyed.erase topic r.topics, byType }
      { r' with topics := Keyed.erase topic r'.topics, byType := byType' } := by
  refine h.setTopics _ _ byType byType' ?_
  rw [Keyed.find?_erase, Keyed.find?_erase, if_pos rfl, if_pos rfl, Option.map_none]

theorem eraseTopic_of_ne (h : View topic mine r r') (ht : topic ≠ t)
    (byType : List (EntityType × List String)) :
    View topic mine { r with topics := Keyed.erase t r.topics, byType } r' := by
  refine h.setTopics _ r'.topics byType r'.byType ?_
  rw [Keyed.find?_erase, if_neg ht]
  exact h.entry

theorem setRegistrations (h : View topic mine r r') (registrations registrations' : List Registration)
    (howns : ({ r with registrations } : Registry).owns topic = r.owns topic)
    (hpick : registrations' = pick (r.owns topic) registrations) :
    View topic mine { r with registrations } { r' with registrations := registrations' } := by
  constructor
  · exact h.config
  · exact h.services
  · rwa [howns]
  · rw [howns]
    exact h.entry
  · exact h.length
  · rw [howns]
    exact h.receivers
  · rw [howns]
    exact h.placed

theorem modify (h : View topic mine r r') (hhandle : (r.owns topic)[handle]? = some true)
    {f : Registration → Registration} (hf : ∀ g, (f g).subscription = g.subscription) :
    View topic mine { r with registrations := r.registrations.modify handle f }
      { r' with registrations := r'.registrations.modify (rank (r.owns topic) handle) f } := by
  refine h.setRegistrations _ _ (owns_modify topic r handle hf) ?_
  rw [h.registrations, Selection.pick_modify hhandle]

theorem modify_of_ne (h : View topic mine r r') (hhandle : (r.owns topic)[handle]? = some false)
    {f : Registration → Registration} (hf : ∀ g, (f g).subscription = g.subscription) :
    View topic mine { r with registrations := r.registrations.modify handle f } r' := by
  refine h.setRegistrations _ r'.registrations (owns_modify topic r handle hf) ?_
  rw [h.registrations, Selection.pick_modify_of_dropped hhandle]

theorem append (hr : r.Indexed) (h : View topic mine r r') (g : Registration) :
    View topic mine (r.push g) { r' with registrations := r'.registrations ++
      if g.subscription.topic = topic then [g] else [] } := by
  -- the handles there were keep their places
  have hrank {handle : Nat} (hlt : handle < (r.owns topic).length) :
      rank ((r.push g).owns topic) handle = rank (r.owns topic) handle := by
    rw [owns_push]
    exact Selection.rank_append (Nat.le_of_lt hlt) _
  constructor
  · exact h.config
  · exact h.services
  · rw [owns_push, h.registrations, push, Selection.pick_append (length_owns topic r)]
    simp only [decide_eq_true_eq]
  · refine h.entry.trans ?_
    change _ = (r.find? topic).map _
    cases hfind : r.find? topic with
    | none => rfl
    | some entry =>
        have howns := hr.getElem?_owns topic (handle?_of_find? hfind)
        have hlt := (List.getElem?_eq_some_iff.1 howns).1
        simp only [Option.map_some, hrank hlt]
  · exact h.length
  · rw [h.receivers, ← Selection.pick_map, ← Selection.pick_map]
    congr 1
    apply List.map_congr_left
    intro x hx
    cases x with
    | none => rfl
    | some x =>
        obtain ⟨n, hn⟩ := List.getElem?_of_mem hx
        simp only [Option.map_some, Receiver.renumber, hrank (h.handle_lt hn)]
  · intro n x hx
    rw [owns_push, List.getElem?_append_left (h.handle_lt hx)]
    exact h.placed n x hx

theorem push (hr : r.Indexed) (h : View topic mine r r') {g : Registration}
    (hg : g.subscription.topic = topic) : View topic mine (r.push g) (r'.push g) := by
  have hview := h.append hr g
  rwa [if_pos hg] at hview

theorem push_of_ne (hr : r.Indexed) (h : View topic mine r r') {g : Registration}
    (hg : g.subscription.topic ≠ topic) : View topic mine (r.push g) r' := by
  have hview := h.append hr g
  rwa [if_neg hg, List.append_nil] at hview

theorem appendReceiver (h : View topic mine r r') (hhandle : (r.owns topic)[handle]? = some flag)
    (position : Nat) : View topic (mine ++ [flag]) (r.addReceiver handle position).1
      { r' with receivers := r'.receivers ++
          if flag then [some ⟨rank (r.owns topic) handle, position⟩] else [] } where
  config := h.config
  services := h.services
  registrations := h.registrations
  entry := h.entry
  length := by simp [Registry.addReceiver, h.length]
  receivers := by
    change r'.receivers ++ _ = (pick (mine ++ [flag]) (r.receivers ++ [some ⟨handle, position⟩])).map
      (Option.map (Receiver.renumber (r.owns topic)))
    rw [Selection.pick_append h.length, List.map_append, ← h.receivers]
    cases flag <;> rfl
  placed := by
    intro n x hx
    change (r.receivers ++ [some ⟨handle, position⟩])[n]? = some (some x) at hx
    change (mine ++ [flag])[n]? = (r.owns topic)[x.handle]?
    obtain hlt | heq | hgt := Nat.lt_trichotomy n r.receivers.length
    · rw [List.getElem?_append_left hlt] at hx
      rw [List.getElem?_append_left (h.length ▸ hlt)]
      exact h.placed n x hx
    · rw [heq, List.getElem?_concat_length] at hx
      cases hx
      rw [heq, ← h.length, List.getElem?_concat_length, hhandle]
    · rw [List.getElem?_eq_none (by simpa using Nat.succ_le_of_lt hgt)] at hx
      cases hx

theorem addReceiver (h : View topic mine r r') (hhandle : (r.owns topic)[handle]? = some true)
    (position : Nat) : View topic (mine ++ [true]) (r.addReceiver handle position).1
      (r'.addReceiver (rank (r.owns topic) handle) position).1 :=
  h.appendReceiver hhandle position

theorem addReceiver_of_ne (h : View topic mine r r')
    (hhandle : (r.owns topic)[handle]? = some false) (position : Nat) :
    View topic (mine ++ [false]) (r.addReceiver handle position).1 r' := by
  simpa using h.appendReceiver hhandle position

theorem placed_set (h : View topic mine r r') {x : Option Receiver}
    (hx : ∀ y, x = some y → mine[n]? = (r.owns topic)[y.handle]?) (m : Nat) (y : Receiver)
    (hy : (r.receivers.set n x)[m]? = some (some y)) : mine[m]? = (r.owns topic)[y.handle]? := by
  rw [List.getElem?_set] at hy
  split at hy
  · rename_i hm
    subst hm
    split at hy
    · exact hx y (Option.some.inj hy)
    · cases hy
  · exact h.placed m y hy

theorem setReceiver (h : View topic mine r r') (hn : mine[n]? = some true) {x : Option Receiver}
    (hx : ∀ y, x = some y → mine[n]? = (r.owns topic)[y.handle]?) :
    View topic mine { r with receivers := r.receivers.set n x }
      { r' with receivers :=
          r'.receivers.set (rank mine n) (x.map (Receiver.renumber (r.owns topic))) } where
  config := h.config
  services := h.services
  registrations := h.registrations
  entry := h.entry
  length := h.length.trans List.length_set.symm
  receivers := by
    change r'.receivers.set _ _ = (pick mine (r.receivers.set n x)).map _
    rw [h.receivers, Selection.pick_set hn, List.map_set]
    rfl
  placed := h.placed_set hx

theorem setReceiver_of_ne (h : View topic mine r r') (hn : mine[n]? = some false)
    {x : Option Receiver} (hx : ∀ y, x = some y → mine[n]? = (r.owns topic)[y.handle]?) :
    View topic mine { r with receivers := r.receivers.set n x } r' where
  config := h.config
  services := h.services
  registrations := h.registrations
  entry := h.entry
  length := h.length.trans List.length_set.symm
  receivers := by
    change _ = (pick mine (r.receivers.set n x)).map _
    rw [Selection.pick_set_of_dropped hn]
    exact h.receivers
  placed := h.placed_set hx

theorem insert (hr : r.Indexed) (h : View topic mine r r') {s : Subscription}
    (hs : s.topic = topic) :
    View topic (mine ++ [true]) (r.insert topic s).1 (r'.insert topic s).1 := by
  let g : Registration := ⟨s, true, Channel.ofCapacity r.config.notificationBuffer.toNat⟩
  have howns := getElem?_owns_push topic r g
  rw [decide_eq_true (show g.subscription.topic = topic from hs)] at howns
  have hplace : rank ((r.push g).owns topic) r.registrations.length = r'.registrations.length := by
    rw [h.registrations, Selection.length_pick (length_owns topic r), owns_push,
      ← length_owns topic r]
    exact Selection.rank_append (Nat.le_refl _) _
  have hview := ((h.push hr (g := g) hs).insertTopic ⟨r.registrations.length, 1⟩
    (index s.entityType topic r.byType) (index s.entityType topic r'.byType)).addReceiver howns 0
  change View _ _ _ (Registry.addReceiver { r'.push g with
    topics := Keyed.insert topic ⟨rank ((r.push g).owns topic) r.registrations.length, 1⟩ _
    byType := _ } (rank ((r.push g).owns topic) r.registrations.length) 0).1 at hview
  rw [hplace] at hview
  have hsame : (⟨s, true, Channel.ofCapacity r'.config.notificationBuffer.toNat⟩ : Registration) =
      g := by rw [h.config]
  simp only [Registry.insert, hsame]
  exact hview

theorem insert_of_ne (hr : r.Indexed) (h : View topic mine r r') {s : Subscription}
    (ht : topic ≠ t) (hs : s.topic = t) : View topic (mine ++ [false]) (r.insert t s).1 r' := by
  let g : Registration := ⟨s, true, Channel.ofCapacity r.config.notificationBuffer.toNat⟩
  have hg : g.subscription.topic ≠ topic := fun heq => ht (heq.symm.trans hs)
  have howns := getElem?_owns_push topic r g
  rw [decide_eq_false hg] at howns
  exact ((h.push_of_ne hr hg).insertTopic_of_ne ht ⟨r.registrations.length, 1⟩
    (index s.entityType t r.byType)).addReceiver_of_ne howns 0

theorem remove (hr : r.Indexed) (h : View topic mine r r') {entry : TopicEntry}
    (hentry : r.find? topic = some entry) :
    View topic mine (r.remove topic entry)
      (r'.remove topic { entry with handle := rank (r.owns topic) entry.handle }) := by
  have howns := hr.getElem?_owns topic (handle?_of_find? hentry)
  rw [decide_eq_true rfl] at howns
  exact (h.modify howns (f := Registration.retired) fun _ => rfl).eraseTopic _ _

theorem remove_of_ne (hr : r.Indexed) (h : View topic mine r r') (ht : topic ≠ t)
    {entry : TopicEntry} (hentry : r.find? t = some entry) :
    View topic mine (r.remove t entry) r' := by
  have howns := hr.getElem?_owns topic (handle?_of_find? hentry)
  rw [decide_eq_false (Ne.symm ht)] at howns
  exact (h.modify_of_ne howns (f := Registration.retired) fun _ => rfl).eraseTopic_of_ne ht _

end View

end Registry

end LiveFilter
