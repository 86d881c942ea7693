import LiveFilter.Proofs.Registry.Publications

/-! # Delivery

Whatever is published on the registration of a receiver while the receiver is there lies before it
until it is given it, or is told that it was lost. The invariant says so for one command, with the
position of the receiver as the number of messages behind it; the account of a run is put together
from those of its commands.
-/

namespace LiveFilter.Registry

open Channel (backlog)

/-- What is noted at the commands of a run. -/
def observe {β : Type} (note : Registry → Command → Option β) (r : Registry) :
    List Command → List β
  | [] => []
  | c :: cs => (note r c).toList ++ observe note (r.step c).1 cs

def received? (n : Nat) (r : Registry) : Command → Option (Reception Notification)
  | .receive m => if m = n then (r.receive n).map Prod.snd else none
  | _ => none

variable {r r' : Registry} {c : Command} {topic : String} {handle n : Nat} {g : Registration}
  {read unread taken left : List Notification}

theorem received?_of_ne (h : c ≠ .receive n) : r.received? n c = none := by
  cases c with
  | receive m =>
      refine if_neg fun heq => h ?_
      rw [heq]
  | _ => rfl

def capacity (r : Registry) : Nat := roundUpToPower r.config.notificationBuffer.toNat

theorem capacity_step (r : Registry) (c : Command) : (r.step c).1.capacity = r.capacity := by
  rw [capacity, config_step, capacity]

/-- The channel of every registered topic carries what was sent on it. -/
def Carrying (r : Registry) : Prop :=
  ∀ topic handle g, r.handle? topic = some handle → r.registration? handle = some g →
    g.channel.capacity = r.capacity ∧ ∃ log, g.channel.Carries log

theorem Carrying.step (hr : r.Indexed) (h : r.Carrying) (c : Command) : (r.step c).1.Carrying := by
  intro topic handle g' hhandle hg'
  rw [capacity_step]
  -- the registration was there before, or it has just been opened with an empty channel
  obtain hold | ⟨_, s, hnew⟩ := handle?_step hhandle
  · obtain ⟨g, hg, _⟩ := hr.exists_registration hold
    obtain ⟨hcapacity, log, hlog⟩ := h topic handle g hold hg
    obtain ⟨g₁, hg₁, hbecomes⟩ := hr.becomes_step hg c
    rw [hg'] at hg₁
    cases hg₁
    exact ⟨hbecomes.capacity.trans hcapacity, _, hbecomes.carries log hlog⟩
  · rw [hg'] at hnew
    cases hnew
    exact ⟨rfl, [], Channel.carries_ofCapacity _⟩

theorem Carrying.run (hr : r.Indexed) (h : r.Carrying) (commands : List Command) :
    (r.run commands).1.Carrying := by
  induction commands generalizing r with
  | nil => exact h
  | cons c cs ih => exact ih (hr.step c) (h.step hr c)

theorem Reachable.carrying (h : r.Reachable) : r.Carrying := by
  obtain ⟨config, services, commands, -, rfl⟩ := h
  refine Carrying.run (indexed_empty config services) ?_ commands
  intro topic handle g hhandle
  obtain ⟨entry, hentry, _⟩ := Option.map_eq_some_iff.1 hhandle
  cases hentry

/-- The receiver is on the registration, whose messages lie behind it and before it. -/
structure Reads (r : Registry) (n handle : Nat) (g : Registration)
    (read unread : List Notification) : Prop where
  registration : r.registration? handle = some g
  receiver : r.receiver? n = some ⟨handle, read.length⟩
  carries : g.channel.Carries (read ++ unread)
  capacity : g.channel.capacity = r.capacity

def Awaits (r : Registry) (n handle : Nat) (unread : List Notification) : Prop :=
  ∃ g read, r.Reads n handle g read unread

theorem Reads.hasReceiver (h : r.Reads n handle g read unread) : r.hasReceiver handle = true := by
  have hmem := List.mem_of_getElem? (Option.join_eq_some_iff.1 h.receiver)
  exact List.any_eq_true.2 ⟨_, hmem, beq_self_eq_true handle⟩

theorem awaits_of_subscribe (hr : r.Indexed) (hcarrying : r.Carrying) {path : ResourcePath}
    {root : String} {query : Option Expression}
    (h : r.subscribe topic path root query = .ok (r', n)) :
    ∃ handle, r'.handle? topic = some handle ∧ r'.Awaits n handle [] := by
  obtain ⟨rfl, ⟨entry, hentry, rfl⟩ | ⟨hfree, s, hs, rfl⟩⟩ := subscribe_cases h
  · have hhandle := handle?_of_find? hentry
    refine ⟨entry.handle, (handle?_recount hentry _ topic).trans hhandle, ?_⟩
    obtain ⟨g, hg, _⟩ := hr.exists_registration hhandle
    obtain ⟨hcapacity, log, hlog⟩ := hcarrying topic _ g hhandle hg
    refine ⟨g, log, hg, ?_, ?_, hcapacity⟩
    · rw [hg, Option.map_some, Option.getD_some, hlog.sent]
      exact congrArg Option.join List.getElem?_concat_length
    · rwa [List.append_nil]
  · refine ⟨r.registrations.length, ?_, ⟨s, true, _⟩, [], List.getElem?_concat_length, ?_,
      Channel.carries_ofCapacity _, rfl⟩
    · have hfind := find?_insert r topic topic s
      rw [if_pos rfl] at hfind
      exact handle?_of_find? hfind
    · exact congrArg Option.join List.getElem?_concat_length

theorem Awaits.step_of_ne (hr : r.Indexed) (h : r.Awaits n handle unread)
    (hreceive : c ≠ .receive n) (hdrop : c ≠ .drop n) :
    (r.step c).1.Awaits n handle (unread ++ (r.published? handle c).toList) := by
  obtain ⟨g, read, h⟩ := h
  obtain ⟨g', hg', hbecomes⟩ := hr.becomes_step h.registration c
  rw [if_pos h.hasReceiver] at hbecomes
  refine ⟨g', read, hg', receiver?_step h.receiver hreceive hdrop, ?_, ?_⟩
  · rw [← List.append_assoc]
    exact hbecomes.carries _ h.carries
  · rw [capacity_step]
    exact hbecomes.capacity.trans h.capacity

theorem Awaits.receive (h : r.Awaits n handle unread) :
    ∃ given taken left, r.received? n (.receive n) = some given ∧ unread = taken ++ left ∧
      Channel.Gives r.capacity given taken left ∧
      (r.step (.receive n)).1.Awaits n handle left := by
  obtain ⟨g, read, h⟩ := h
  obtain ⟨given, taken, left, hreceive, rfl, hgives⟩ := h.carries.gives
  have heq := receive_eq h.receiver h.registration
  rw [hreceive] at heq
  have hstep : (r.step (.receive n)).1 = { r with
      receivers := r.receivers.set n (some ⟨handle, read.length + taken.length⟩) } := by
    simp only [step, heq]
  rw [h.capacity] at hgives
  refine ⟨given, taken, left, ?_, rfl, hgives, ?_⟩
  · rw [received?, if_pos rfl, heq, Option.map_some]
  · rw [hstep]
    refine ⟨g, read ++ taken, h.registration, ?_, ?_, h.capacity⟩
    · rw [List.length_append]
      exact congrArg Option.join (List.getElem?_set_self (lt_of_receiver? h.receiver))
    · rw [List.append_assoc]
      exact h.carries

/-- What a command gives a receiver accounts for what it puts behind it. -/
theorem Awaits.step (hr : r.Indexed) (h : r.Awaits n handle unread) (hdrop : c ≠ .drop n) :
    ∃ taken left, unread ++ (r.published? handle c).toList = taken ++ left ∧
      Accounts (r.received? n c).toList taken ∧ (r.step c).1.Awaits n handle left := by
  by_cases hreceive : c = .receive n
  · subst hreceive
    obtain ⟨given, taken, left, hgiven, rfl, hgives, hleft⟩ := h.receive
    refine ⟨taken, left, List.append_nil _, ?_, hleft⟩
    rw [hgiven]
    exact hgives.accounts
  · refine ⟨[], _, rfl, ?_, h.step_of_ne hr hreceive hdrop⟩
    rw [received?_of_ne hreceive]
    exact .nil

theorem observe_dropped (h : r.receivers[n]? = some none) (cs : List Command) :
    r.observe (received? n) cs = [] := by
  induction cs generalizing r with
  | nil => rfl
  | cons c cs ih =>
      have hnone : r.received? n c = none := by
        by_cases hc : c = .receive n
        · subst hc
          simp [received?, receive, receiver?, h]
        · exact received?_of_ne hc
      rw [observe, hnone, ih (dropped_step h c)]
      rfl

theorem Awaits.run (hr : r.Indexed) (h : r.Awaits n handle unread) (cs : List Command) :
    ∃ taken left, unread ++ r.observe (published? handle) cs = taken ++ left ∧
      Accounts (r.observe (received? n) cs) taken ∧
      (.drop n ∉ cs → (r.run cs).1.Awaits n handle left) := by
  induction cs generalizing r unread with
  | nil => exact ⟨[], unread, List.append_nil _, .nil, fun _ => h⟩
  | cons c cs ih =>
      by_cases hdrop : c = .drop n
      -- a receiver that was dropped is given nothing more, whatever is published
      · subst hdrop
        obtain ⟨g, read, hreads⟩ := h
        have hdropped : (r.step (.drop n)).1.receivers[n]? = some none :=
          List.getElem?_set_self (lt_of_receiver? hreads.receiver)
        refine ⟨[], _, rfl, ?_, fun hn => absurd List.mem_cons_self hn⟩
        rw [observe, observe_dropped hdropped cs]
        exact .nil
      · obtain ⟨taken, left, hsplit, haccounts, hleft⟩ := h.step hr hdrop
        obtain ⟨taken', left', hsplit', haccounts', hrun⟩ := ih (hr.step c) hleft
        refine ⟨taken ++ taken', left', ?_, haccounts.append haccounts',
          fun hn => hrun fun hmem => hn (List.mem_cons_of_mem c hmem)⟩
        rw [observe, ← List.append_assoc, hsplit, List.append_assoc, hsplit', List.append_assoc]

/-- The backlog comes reception by reception, and nothing after it. -/
theorem Awaits.drain (h : r.Awaits n handle unread) :
    ∃ last, (last = .empty ∨ last = .closed) ∧
      r.observe (received? n)
          (List.replicate ((backlog r.capacity unread).length + 1) (.receive n)) =
        backlog r.capacity unread ++ [last] := by
  generalize hrest : backlog r.capacity unread = rest
  induction rest generalizing r unread with
  | nil =>
      obtain ⟨last, taken, left, hgiven, rfl, hgives, _⟩ := h.receive
      obtain hnext | ⟨_, hlast⟩ := hgives.backlog
      · rw [hrest] at hnext
        cases hnext
      · refine ⟨last, hlast, ?_⟩
        change (r.received? n (.receive n)).toList ++ [] = [last]
        rw [hgiven]
        rfl
  | cons x rest ih =>
      obtain ⟨given, taken, left, hgiven, rfl, hgives, hleft⟩ := h.receive
      obtain hnext | ⟨hnil, _⟩ := hgives.backlog
      · rw [hrest] at hnext
        obtain ⟨rfl, hrest⟩ := List.cons.inj hnext
        rw [← capacity_step r (.receive n)] at hrest
        obtain ⟨last, hlast, hobserve⟩ := ih hleft hrest.symm
        refine ⟨last, hlast, ?_⟩
        rw [List.length_cons, List.replicate_succ, observe, hgiven, hobserve]
        rfl
      · rw [hnil] at hrest
        cases hrest

theorem topic_of_published? (hg : r.registration? handle = some g)
    {m : Notification} (h : r.published? handle c = some m) : m.topic = g.subscription.topic := by
  cases c with
  | notify event =>
      rw [published?, hg, Option.bind_some] at h
      split at h
      · exact Subscription.topic_of_notification? h
      · cases h
  | _ => cases h

theorem topic_of_mem_observe (hr : r.Indexed) (hg : r.registration? handle = some g)
    (cs : List Command) :
    ∀ m ∈ r.observe (published? handle) cs, m.topic = g.subscription.topic := by
  induction cs generalizing r g with
  | nil => exact nofun
  | cons c cs ih =>
      intro m hm
      obtain ⟨g', hg', hbecomes⟩ := hr.becomes_step hg c
      obtain hm | hm := List.mem_append.1 hm
      · exact topic_of_published? hg (Option.mem_toList.1 hm)
      · rw [← hbecomes.subscription]
        exact ih (hr.step c) hg' m hm

theorem subscription_run (hr : r.Indexed) (hg : r.registration? handle = some g)
    (cs : List Command) : ∃ g', (r.run cs).1.registration? handle = some g' ∧
      g'.subscription = g.subscription := by
  induction cs generalizing r g with
  | nil => exact ⟨g, hg, rfl⟩
  | cons c cs ih =>
      obtain ⟨g₁, hg₁, hbecomes⟩ := hr.becomes_step hg c
      obtain ⟨g', hg', hsame⟩ := ih (hr.step c) hg₁
      exact ⟨g', hg', hsame.trans hbecomes.subscription⟩

/-- A registration that is not that of its topic any more is never again. -/
theorem observe_published_of_ne (hr : r.Indexed) (hg : r.registration? handle = some g)
    (h : r.handle? g.subscription.topic ≠ some handle) (cs : List Command) :
    r.observe (published? handle) cs = [] := by
  induction cs generalizing r g with
  | nil => rfl
  | cons c cs ih =>
      obtain ⟨g', hg', hbecomes⟩ := hr.becomes_step hg c
      have hnext : (r.step c).1.handle? g'.subscription.topic ≠ some handle := by
        rw [hbecomes.subscription]
        intro hhandle
        obtain hold | ⟨hnew, _⟩ := handle?_step hhandle
        · exact h hold
        · exact Nat.ne_of_lt (List.getElem?_eq_some_iff.1 hg).1 hnew
      have hnone : r.published? handle c = none := by
        cases c with
        | notify event =>
            rw [published?, hg, Option.bind_some, if_neg h]
        | _ => rfl
      rw [observe, hnone, ih (hr.step c) hg' hnext]
      rfl

theorem capacity_run (r : Registry) (cs : List Command) : (r.run cs).1.capacity = r.capacity := by
  induction cs generalizing r with
  | nil => rfl
  | cons c cs ih => exact (ih (r.step c).1).trans (capacity_step r c)

/-- What is published for a receiver is for its topic, and ends with its registration. What it was
given accounts for the first part of that; the rest is there for it to be given, without a loss
unless it is more than the buffer that was asked for. -/
theorem Reachable.delivery_accounts (hr : r.Reachable) {path : ResourcePath} {root : String}
    {query : Option Expression} (hsub : r.subscribe topic path root query = .ok (r', n)) :
    ∃ handle, r'.handle? topic = some handle ∧ ∀ cs : List Command,
      let sent := r'.observe (published? handle) cs
      let given := r'.observe (received? n) cs
      let now := (r'.run cs).1
      (∀ m ∈ sent, m.topic = topic) ∧
      (now.handle? topic ≠ some handle →
        ∀ later, now.observe (published? handle) later = []) ∧
      ∃ read unread, sent = read ++ unread ∧ Accounts given read ∧
        (.drop n ∉ cs → ∃ rest last, Accounts rest unread ∧
          (last = .empty ∨ last = .closed) ∧
          now.observe (received? n) (List.replicate (rest.length + 1) (.receive n)) =
            rest ++ [last] ∧
          (unread.length ≤ r.config.notificationBuffer.toNat → rest = unread.map .message)) := by
  have hindexed := hr.indexed.subscribe hsub
  obtain ⟨handle, hhandle, hawaits⟩ := awaits_of_subscribe hr.indexed hr.carrying hsub
  refine ⟨handle, hhandle, fun cs => ?_⟩
  have ⟨g, _, hreads⟩ := hawaits
  have hg := hreads.registration
  have htopic := hindexed.topic_of_handle? hg hhandle
  refine ⟨?_, ?_, ?_⟩
  · rw [← htopic]
    exact topic_of_mem_observe hindexed hg cs
  · intro hleft
    obtain ⟨g', hg', hsame⟩ := subscription_run hindexed hg cs
    refine observe_published_of_ne (hindexed.run cs) hg' ?_
    rwa [hsame, htopic]
  · obtain ⟨read, unread, hsplit, haccounts, hrun⟩ := hawaits.run hindexed cs
    rw [List.nil_append] at hsplit
    refine ⟨read, unread, hsplit, haccounts, fun hn => ?_⟩
    obtain ⟨last, hlast, hdrain⟩ := (hrun hn).drain
    refine ⟨_, last, Channel.accounts_backlog _ unread, hlast, hdrain, fun hle => ?_⟩
    have hstep : (r.step (.subscribe topic path root query)).1 = r' := by simp only [step, hsub]
    have hcapacity : (r'.run cs).1.capacity = r.capacity := by
      rw [capacity_run, ← hstep, capacity_step]
    apply Channel.backlog_of_le
    rw [hcapacity]
    exact Nat.le_trans hle (le_roundUpToPower _)

/-- Two receivers of a topic with room for two notifications. The first one reads after three
events, and again after the topic was given up and taken up again. -/
theorem delivery_accounts_lagging :
    let things : ResourcePath := ⟨[.entitySet .thing]⟩
    let thing (name : String) : Command :=
      .notify ⟨{ Entity.empty .thing with id := some (.text name) }, none⟩
    let formatter : Formatter := fun e _ _ => match e.id with
      | some (.text name) => .ok name
      | _ => .ok ""
    let r := empty { Config.default with notificationBuffer := 2 } ⟨formatter, none⟩
    let r' := (r.step (.subscribe "Things" things "" none)).1
    let cs : List Command := [.subscribe "Things" things "" none, thing "a", thing "b", thing "c",
      .receive 0, .unsubscribe "Things", .unsubscribe "Things",
      .subscribe "Things" things "" none, thing "d", .receive 0]
    r.Reachable ∧ r.subscribe "Things" things "" none = .ok (r', 0) ∧
      r'.observe (published? 0) cs = [⟨"Things", "a"⟩, ⟨"Things", "b"⟩, ⟨"Things", "c"⟩] ∧
      r'.observe (received? 0) cs = [.lagged 1, .message ⟨"Things", "b"⟩] ∧
      .drop 0 ∉ cs ∧ ∃ read unread rest last, r'.observe (published? 0) cs = read ++ unread ∧
        Accounts (r'.observe (received? 0) cs) read ∧ Accounts rest unread ∧
        (r'.run cs).1.observe (received? 0) (List.replicate (rest.length + 1) (.receive 0)) =
          rest ++ [last] := by
  intro things thing formatter r r' cs
  have hr : r.Reachable := reachable_of_create r.config r.services rfl (by decide) []
  have hsub : r.subscribe "Things" things "" none = .ok (r', 0) := rfl
  have hpublished : r'.observe (published? 0) cs =
      [⟨"Things", "a"⟩, ⟨"Things", "b"⟩, ⟨"Things", "c"⟩] := by
    dsimp only [cs, r', r, formatter, thing, things]
    rfl
  have hreceived : r'.observe (received? 0) cs = [.lagged 1, .message ⟨"Things", "b"⟩] := by
    dsimp only [cs, r', r, formatter, thing, things]
    rfl
  obtain ⟨handle, hhandle, hdelivery⟩ := hr.delivery_accounts hsub
  have hzero : r'.handle? "Things" = some 0 := rfl
  obtain rfl : handle = 0 := Option.some.inj (hhandle.symm.trans hzero)
  obtain ⟨read, unread, hsplit, haccounts, hrest⟩ := (hdelivery cs).2.2
  have hdrop : .drop 0 ∉ cs := by simp [cs, thing]
  obtain ⟨rest, last, hunread, _, hdrain, _⟩ := hrest hdrop
  exact ⟨hr, hsub, hpublished, hreceived, hdrop, read, unread, rest, last, hsplit, haccounts,
    hunread, hdrain⟩

end LiveFilter.Registry
