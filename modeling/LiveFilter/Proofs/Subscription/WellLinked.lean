import LiveFilter.Proofs.Subscription.Ancestry

/-! # Paths whose elements are linked

In a well-linked path every entity or entity set has a link to the one before it, and a property
stands only at the end, after an entity that has it. A subscription is refused unless the end of its
path is well linked, from the nearest identifier above the subscribed entity on; what stands before
that identifier is not looked at.
-/

namespace LiveFilter

namespace PathElement

/-- If both are entities or entity sets, the later one has a link to the earlier one. -/
def LinksBack (earlier later : PathElement) : Prop :=
  ∀ parent child, earlier.entityType? = some parent → later.entityType? = some child →
    child.HasLinkTo parent

theorem linksBack_property (earlier : PathElement) (p : EntityProperty) :
    earlier.LinksBack (.property p) := nofun

end PathElement

open PathElement (LinksBack linksBack_property)

namespace ResourcePath

structure WellLinked (path : ResourcePath) : Prop where
  nonempty : path.elements ≠ []
  property_last : ∀ before p after, path.elements = before ++ .property p :: after →
    after = [] ∧ ∃ type id, before.getLast? = some (.entity type id) ∧ type.hasProperty p = true
  linked : path.elements.IsChain LinksBack

end ResourcePath

variable {type : EntityType} {kind : SubscriptionKind} {before subject : List PathElement}
  {element : PathElement}

/-- Going back from an element, there are links to all elements before it exactly if these are
entities or entity sets, each with a link to the one before. -/
theorem exists_leads_iff (helement : element.entityType? = some type) :
    (∃ links, Leads type links before) ↔
      (∀ e ∈ before, ∃ t, e.entityType? = some t) ∧
        (element :: before).IsChain fun later earlier => LinksBack earlier later := by
  induction before generalizing type element with
  | nil => exact iff_of_true ⟨[], .nil type⟩ ⟨by simp, .singleton _⟩
  | cons parent rest ih =>
      rw [List.isChain_cons_cons, List.forall_mem_cons]
      constructor
      · rintro ⟨_, hleads⟩
        cases hleads with
        | cons hlink hparent hlinks =>
            obtain ⟨htypes, hchain⟩ := (ih hparent).1 ⟨_, hlinks⟩
            refine ⟨⟨⟨_, hparent⟩, htypes⟩, ?_, hchain⟩
            intro t child ht hchild
            cases hparent.symm.trans ht
            cases helement.symm.trans hchild
            exact ⟨_, hlink, rfl⟩
      · rintro ⟨⟨⟨t, ht⟩, htypes⟩, hlink, hchain⟩
        obtain ⟨links, hlinks⟩ := (ih ht).2 ⟨htypes, hchain⟩
        obtain ⟨link, hmem, rfl⟩ := hlink t type ht helement
        exact ⟨link :: links, .cons hmem ht hlinks⟩

theorem exists_leads_reverse_iff (element : PathElement)
    (helement : element.entityType? = some type) :
    (∃ links, Leads type links before.reverse) ↔
      (∀ e ∈ before, ∃ t, e.entityType? = some t) ∧ (before ++ [element]).IsChain LinksBack := by
  have hreverse :
      (element :: before.reverse).IsChain (fun later earlier => LinksBack earlier later) ↔
        (before ++ [element]).IsChain LinksBack := by
    rw [← List.isChain_reverse, List.reverse_cons, List.reverse_reverse]
  simp only [exists_leads_iff helement, List.mem_reverse, hreverse]

theorem eq_of_append_property {after : List PathElement} {front : List PathElement}
    {p : EntityProperty} (htypes : ∀ e ∈ front, ∃ t, e.entityType? = some t)
    (h : front ++ [element] = before ++ .property p :: after) :
    after = [] ∧ before = front ∧ element = .property p := by
  obtain rfl | ⟨after, last, rfl⟩ := List.eq_nil_or_concat after
  · obtain ⟨rfl, hlast⟩ := List.append_inj' h rfl
    exact ⟨rfl, rfl, List.singleton_inj.1 hlast⟩
  · rw [List.concat_eq_append, ← List.cons_append, ← List.append_assoc] at h
    obtain ⟨rfl, _⟩ := List.append_inj' h rfl
    obtain ⟨t, ht⟩ := htypes (.property p) (by simp)
    cases ht

namespace ResourcePath

theorem WellLinked.of_leads {path : ResourcePath} {links : List NavigationProperty}
    (helements : path.elements = before ++ [element]) (helement : element.entityType? = some type)
    (hlinks : Leads type links before.reverse) : path.WellLinked := by
  obtain ⟨htypes, hchain⟩ := (exists_leads_reverse_iff _ helement).1 ⟨links, hlinks⟩
  refine ⟨?_, ?_, helements ▸ hchain⟩
  · rw [helements]
    exact List.concat_ne_nil _ _
  · intro front p after h
    obtain ⟨_, _, rfl⟩ := eq_of_append_property htypes (helements.symm.trans h)
    cases helement

theorem WellLinked.concat_property {t : EntityType} {id : Option Id} {p : EntityProperty}
    (h : WellLinked ⟨before ++ [.entity t id]⟩)
    (htypes : ∀ e ∈ before ++ [.entity t id], ∃ t, e.entityType? = some t)
    (hproperty : t.hasProperty p = true) :
    WellLinked ⟨before ++ [.entity t id] ++ [.property p]⟩ := by
  refine ⟨List.concat_ne_nil _ _, ?_, ?_⟩
  · intro front q after hfront
    obtain ⟨rfl, rfl, hq⟩ := eq_of_append_property htypes hfront
    cases hq
    exact ⟨rfl, t, id, List.getLast?_concat, hproperty⟩
  · refine h.linked.append (.singleton _) ?_
    rintro earlier _ later hlater
    cases hlater
    exact linksBack_property earlier p

theorem WellLinked.of_subject {path : ResourcePath} {links : List NavigationProperty}
    (helements : path.elements = before ++ subject) (hsubject : Subject subject type kind)
    (hlinks : Leads type links before.reverse) : path.WellLinked := by
  cases hsubject with
  | entitySet type => exact .of_leads helements rfl hlinks
  | entity type id => exact .of_leads helements rfl hlinks
  | @property type p id hproperty =>
      obtain ⟨elements⟩ := path
      obtain rfl : elements = before ++ [.entity type id] ++ [.property p] := by
        simpa using helements
      have htypes := ((exists_leads_reverse_iff (.entity type id) rfl).1 ⟨links, hlinks⟩).1
      refine (WellLinked.of_leads rfl rfl hlinks).concat_property ?_ hproperty
      exact List.forall_mem_append.2 ⟨htypes, List.forall_mem_singleton.2 ⟨type, rfl⟩⟩

theorem WellLinked.exists_subject {path : ResourcePath} (h : path.WellLinked) :
    ∃ before subject type kind links, path.elements = before ++ subject ∧
      Subject subject type kind ∧ Leads type links before.reverse := by
  obtain hnil | ⟨front, last, hlast⟩ := List.eq_nil_or_concat path.elements
  · exact absurd hnil h.nonempty
  rw [List.concat_eq_append] at hlast
  have hlinked := h.linked
  rw [hlast] at hlinked ⊢
  have htypes : ∀ e ∈ front, ∃ t, e.entityType? = some t := by
    intro e he
    cases e with
    | entitySet t | entity t id => exact ⟨t, rfl⟩
    | property p =>
        obtain ⟨before, after, rfl⟩ := List.append_of_mem he
        have hafter := (h.property_last before p (after ++ [last]) (by rw [hlast]; simp)).1
        exact absurd hafter (List.concat_ne_nil _ _)
  cases last with
  | entitySet t =>
      obtain ⟨links, hlinks⟩ := (exists_leads_reverse_iff _ rfl).2 ⟨htypes, hlinked⟩
      exact ⟨front, _, t, _, links, rfl, .entitySet t, hlinks⟩
  | entity t id =>
      obtain ⟨links, hlinks⟩ := (exists_leads_reverse_iff _ rfl).2 ⟨htypes, hlinked⟩
      exact ⟨front, _, t, _, links, rfl, .entity t id, hlinks⟩
  | property p =>
      obtain ⟨_, t, id, howner, hproperty⟩ := h.property_last front p [] hlast
      have hfront := List.dropLast_append_getLast? _ howner
      rw [← hfront] at htypes hlinked ⊢
      obtain ⟨links, hlinks⟩ := (exists_leads_reverse_iff (.entity t id) rfl).2
        ⟨fun e he => htypes e (List.mem_append_left _ he), hlinked.left_of_append⟩
      exact ⟨_, _, t, _, links, List.append_assoc _ _ _, .property id hproperty, hlinks⟩

end ResourcePath

namespace Subscription

theorem last?_eq_entitySet_iff {path : ResourcePath} (helements : path.elements = before ++ subject)
    (hsubject : Subject subject type kind) :
    (∃ t, path.last? = some (.entitySet t)) ↔ kind = .entitySet := by
  unfold ResourcePath.last?
  rw [helements]
  cases hsubject <;> simp

/-- What stands before the nearest identifier above the subscribed entity may be anything. -/
theorem exists_create_of_leads {topic : String} (root : String) {path : ResourcePath}
    {far : List PathElement} {links : List NavigationProperty}
    (helements : path.elements = far ++ before ++ subject) (hsubject : Subject subject type kind)
    (hquery : kind = .entitySet ∨ queryChars topic = []) (hlinks : Leads type links before.reverse)
    (hfar : far = [] ∨ ∃ element ∈ before, element.id? ≠ none) :
    ∃ s, create topic path root = .ok s := by
  obtain ⟨scope, hscope⟩ : ∃ scope, Scope.ofAncestors topic type (far ++ before) = .ok scope := by
    refine Scope.search_isOk_iff.2 ⟨_, _, links, List.reverse_append, hlinks, ?_⟩
    simpa using hfar
  exact ⟨⟨topic, type, kind, scope, root⟩, create_eq_ok_iff.2
    ⟨far ++ before, subject, helements, hsubject, hquery, hscope, rfl, rfl⟩⟩

/-- A subscription needs a topic without query options, unless it is on an entity set, and a path
whose end is well linked: from the start, or from some identifier above the subscribed entity. -/
theorem create_isOk_iff (topic root : String) (path : ResourcePath) :
    (∃ s, create topic path root = .ok s) ↔
      (queryChars topic = [] ∨ ∃ type, path.last? = some (.entitySet type)) ∧
      ∃ far near, path.elements = far ++ near ∧ ResourcePath.WellLinked ⟨near⟩ ∧
        (far = [] ∨
          ∃ element ∈ near.take (ResourcePath.subjectIndex ⟨near⟩), element.id? ≠ none) := by
  constructor
  · rintro ⟨s, h⟩
    obtain ⟨before, subject, helements, hsubject, hquery, hscope, _⟩ := create_eq_ok_iff.1 h
    obtain ⟨near, far, links, hbefore, hlinks, hfar⟩ := Scope.search_isOk_iff.1 ⟨_, hscope⟩
    obtain rfl : before = far.reverse ++ near.reverse := by
      rw [← List.reverse_append, ← hbefore, List.reverse_reverse]
    rw [List.append_assoc] at helements
    refine ⟨?_, far.reverse, near.reverse ++ subject, helements, ?_, ?_⟩
    · rw [← List.append_assoc] at helements
      rw [last?_eq_entitySet_iff helements hsubject]
      exact hquery.symm
    · rw [← List.reverse_reverse near] at hlinks
      exact .of_subject rfl hsubject hlinks
    · rw [ResourcePath.subjectIndex_eq hsubject, List.take_left]
      simpa using hfar
  · rintro ⟨hquery, far, near, helements, hnear, hfar⟩
    obtain ⟨before, subject, type, kind, links, rfl, hsubject, hlinks⟩ := hnear.exists_subject
    rw [ResourcePath.subjectIndex_eq hsubject, List.take_left] at hfar
    rw [← List.append_assoc] at helements
    rw [last?_eq_entitySet_iff helements hsubject] at hquery
    exact exists_create_of_leads root helements hsubject hquery.symm hlinks hfar

/-- The sensor above the thing is not looked at, and things have no link to sensors. -/
theorem create_of_unlinked_sensor :
    let path : ResourcePath := ⟨[.entity .sensor (some (.long 1)), .entity .thing (some (.long 2)),
      .entitySet .datastream]⟩
    (∃ s, create "Sensors(1)/Things(2)/Datastreams" path "" = .ok s) ∧ ¬ path.WellLinked := by
  intro path
  refine ⟨⟨_, rfl⟩, fun h => ?_⟩
  have hlink := (List.isChain_cons_cons.1 h.linked).1 .sensor .thing rfl rfl
  revert hlink
  simp [EntityType.HasLinkTo, EntityType.navigation, NavigationProperty.target]

end Subscription

end LiveFilter
