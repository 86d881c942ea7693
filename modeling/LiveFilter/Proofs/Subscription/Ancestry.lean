import LiveFilter.Proofs.Outcome
import LiveFilter.Subscription.Basic
import Mathlib.Data.List.Chain

/-! # The ancestors of a subscription

The elements before the subscribed entity are searched from the nearest one on, link by link, up to
the first that has an identifier. What the search finds is the scope: that identifier, and the links
that lead to it.
-/

namespace LiveFilter

open Outcome (bind_eq_ok)

namespace EntityType

def HasLinkTo (source target : EntityType) : Prop :=
  ∃ link ∈ source.navigation, link.target = target

theorem mem_navigation_of_navigationTo? {source target : EntityType} {link : NavigationProperty}
    (h : source.navigationTo? target = some link) :
    link ∈ source.navigation ∧ link.target = target :=
  ⟨List.mem_of_find?_eq_some h, by simpa using List.find?_some h⟩

theorem hasLinkTo_iff {source target : EntityType} :
    source.HasLinkTo target ↔ ∃ link, source.navigationTo? target = some link := by
  simp [HasLinkTo, navigationTo?, ← Option.isSome_iff_exists]

end EntityType

theorem PathElement.id?_eq_some_iff {element : PathElement} {id : Id} :
    element.id? = some id ↔ ∃ type, element = .entity type (some id) := by
  cases element <;> simp [id?]

/-- From an entity of that type the links lead to the elements, one after the other. -/
inductive Leads : EntityType → List NavigationProperty → List PathElement → Prop where
  | nil (type : EntityType) : Leads type [] []
  | cons {type : EntityType} {link : NavigationProperty} {links : List NavigationProperty}
      {element : PathElement} {elements : List PathElement} (hlink : link ∈ type.navigation)
      (helement : element.entityType? = some link.target)
      (h : Leads link.target links elements) : Leads type (link :: links) (element :: elements)

namespace Leads

variable {type : EntityType} {links : List NavigationProperty} {elements : List PathElement}

theorem map_target (h : Leads type links elements) :
    elements.map PathElement.entityType? = links.map fun link => some link.target := by
  induction h with
  | nil type => rfl
  | cons hlink helement h ih => rw [List.map_cons, List.map_cons, helement, ih]

theorem length_eq (h : Leads type links elements) : elements.length = links.length := by
  simpa using congrArg List.length h.map_target

theorem mem_navigation (h : Leads type links elements) {link : NavigationProperty}
    (hlink : links.head? = some link) : link ∈ type.navigation := by
  cases h with
  | nil => cases hlink
  | cons hmem helement h =>
      cases hlink
      exact hmem

theorem isChain (h : Leads type links elements) :
    links.IsChain fun link next => next ∈ link.target.navigation := by
  induction h with
  | nil type => exact .nil
  | cons hlink helement h ih => exact ih.cons fun next hnext => h.mem_navigation hnext

end Leads

namespace Scope

variable {topic : String} {child : EntityType} {links : List NavigationProperty}
  {ancestors : List PathElement} {scope : Option Expression}

/-- Either no ancestor has an identifier, and links lead to all of them, or links lead to the
nearest ancestor that has one. -/
theorem search_cases (h : search topic child links ancestors = .ok scope) :
    (scope = none ∧ (∀ element ∈ ancestors, element.id? = none) ∧
        ∃ hops, Leads child hops ancestors) ∨
      ∃ near type id far hops, ancestors = near ++ .entity type (some id) :: far ∧
        (∀ element ∈ near, element.id? = none) ∧
        Leads child hops (near ++ [.entity type (some id)]) ∧
        scope = some (reaches (links ++ hops) id) := by
  -- the search goes on from the parent, with one more link behind it
  induction ancestors generalizing child links with
  | nil =>
      cases h
      exact .inl ⟨rfl, by simp, [], .nil child⟩
  | cons element rest ih =>
      unfold search at h
      split at h
      · cases h
      rename_i parent hparent
      split at h
      · cases h
      rename_i link hlink
      obtain ⟨hmem, rfl⟩ := EntityType.mem_navigation_of_navigationTo? hlink
      split at h
      · rename_i id hid
        cases h
        obtain ⟨type, rfl⟩ := PathElement.id?_eq_some_iff.1 hid
        exact .inr ⟨[], type, id, rest, [link], rfl, by simp, .cons hmem hparent (.nil _), rfl⟩
      · rename_i hid
        obtain ⟨rfl, hnone, hops, hhops⟩ |
          ⟨near, type, id, far, hops, rfl, hnone, hhops, rfl⟩ := ih h
        · exact .inl ⟨rfl, List.forall_mem_cons.2 ⟨hid, hnone⟩, link :: hops,
            .cons hmem hparent hhops⟩
        · refine .inr ⟨element :: near, type, id, far, link :: hops, rfl,
            List.forall_mem_cons.2 ⟨hid, hnone⟩, .cons hmem hparent hhops, ?_⟩
          rw [List.append_assoc, List.singleton_append]

/-- The search needs links up to the nearest identifier, and to all ancestors if there is none. It
does not look at what is farther. -/
theorem search_isOk_iff : (∃ scope, search topic child links ancestors = .ok scope) ↔
    ∃ near far hops, ancestors = near ++ far ∧ Leads child hops near ∧
      (far = [] ∨ ∃ element ∈ near, element.id? ≠ none) := by
  constructor
  · rintro ⟨scope, h⟩
    obtain ⟨_, _, hops, hhops⟩ | ⟨near, type, id, far, hops, rfl, _, hhops, _⟩ := search_cases h
    · exact ⟨ancestors, [], hops, (List.append_nil _).symm, hhops, .inl rfl⟩
    · exact ⟨near ++ [.entity type (some id)], far, hops, by simp, hhops,
        .inr ⟨_, List.mem_concat_self, by simp [PathElement.id?]⟩⟩
  · rintro ⟨near, far, hops, rfl, hhops, hfar⟩
    induction hhops generalizing links with
    | nil type =>
        obtain rfl | ⟨_, hmem, _⟩ := hfar
        · exact ⟨none, rfl⟩
        · cases hmem
    | @cons type link hops element near hlink helement hhops ih =>
        obtain ⟨found, hfound⟩ := EntityType.hasLinkTo_iff.1 ⟨link, hlink, rfl⟩
        rw [List.cons_append, search, helement]
        simp only [hfound]
        -- an identifier nearer than the one that is promised ends the search as well
        cases hid : element.id? with
        | some id => exact ⟨_, rfl⟩
        | none =>
            refine ih (hfar.imp_right ?_)
            rintro ⟨other, hother, hsome⟩
            obtain rfl | hother := List.mem_cons.1 hother
            · exact absurd hid hsome
            · exact ⟨other, hother, hsome⟩

end Scope

/-- The end of a path that a subscription is on: an entity set, an entity, or an entity and one of
its properties. -/
inductive Subject : List PathElement → EntityType → SubscriptionKind → Prop where
  | entitySet (type : EntityType) : Subject [.entitySet type] type .entitySet
  | entity (type : EntityType) (id : Option Id) : Subject [.entity type id] type (.entity id)
  | property {type : EntityType} {p : EntityProperty} (id : Option Id)
      (h : type.hasProperty p = true) :
      Subject [.entity type id, .property p] type (.property p id)

theorem Subject.entityType {subject : List PathElement} {type : EntityType}
    {kind : SubscriptionKind} (h : Subject subject type kind) :
    (subject[0]?).bind PathElement.entityType? = some type := by
  cases h <;> rfl

namespace ResourcePath

/-- The place of the subscribed entity or entity set: the last one, or the one before the property
at the end. -/
def subjectIndex (path : ResourcePath) : Nat :=
  match path.last? with
  | some (.property _) => path.elements.length - 2
  | _ => path.elements.length - 1

variable {ancestors subject : List PathElement} {type : EntityType} {kind : SubscriptionKind}

theorem subjectIndex_eq (h : Subject subject type kind) :
    subjectIndex ⟨ancestors ++ subject⟩ = ancestors.length := by
  cases h <;> simp [subjectIndex, last?]

theorem identified?_eq_some {elements near far : List PathElement} {id : Id}
    (h : elements.reverse = near ++ .entity type (some id) :: far)
    (hnear : ∀ element ∈ near, element.id? = none) :
    identified? ⟨elements⟩ = some (type, id) := by
  refine List.findSome?_eq_some_iff.2 ⟨near, .entity type (some id), far, h, rfl, ?_⟩
  intro element helement
  have hnone := hnear element helement
  cases element with
  | entity t i =>
      rw [show i = none from hnone]
  | entitySet t | property p => rfl

end ResourcePath

namespace Subscription

variable {topic root : String} {path : ResourcePath} {s : Subscription}

theorem subject_of_classify {before : List PathElement} {last : PathElement} {type : EntityType}
    {kind : SubscriptionKind} (h : classify topic before last = .ok (type, kind)) :
    (kind = .entitySet ∨ queryChars topic = []) ∧ ∃ subject, Subject subject type kind ∧
      before ++ [last] = ancestors before kind ++ subject := by
  unfold classify at h
  cases last with
  | entitySet =>
      cases h
      exact ⟨.inl rfl, _, .entitySet _, rfl⟩
  | entity =>
      dsimp only at h
      split at h
      · cases h
      · rename_i hquery
        cases h
        exact ⟨.inr (not_not.1 hquery), _, .entity _ _, rfl⟩
  | property p =>
      dsimp only at h
      split at h
      · cases h
      rename_i hquery
      unfold propertyKind at h
      split at h
      · cases h
      · rename_i t id hlast
        split at h
        · rename_i hproperty
          cases h
          refine ⟨.inr (not_not.1 hquery), _, .property id hproperty, ?_⟩
          have hbefore := List.dropLast_append_getLast? _ hlast
          change before ++ [_] = before.dropLast ++ ([_] ++ [_])
          rw [← List.append_assoc, hbefore]
        · cases h
      · cases h

theorem classify_of_subject (before : List PathElement) {subject : List PathElement}
    {type : EntityType} {kind : SubscriptionKind} (h : Subject subject type kind)
    (hquery : kind = .entitySet ∨ queryChars topic = []) :
    ∃ last, (before ++ subject).getLast? = some last ∧
      classify topic (before ++ subject).dropLast last = .ok (type, kind) ∧
      ancestors (before ++ subject).dropLast kind = before := by
  cases h with
  | entitySet type => exact ⟨_, List.getLast?_concat, rfl, List.dropLast_concat⟩
  | entity type id =>
      refine ⟨_, List.getLast?_concat, ?_, List.dropLast_concat⟩
      simp [classify, hquery.resolve_left nofun]
  | @property type p id h =>
      have hdrop : (before ++ [PathElement.entity type id, .property p]).dropLast =
          before ++ [.entity type id] := by simp
      refine ⟨.property p, by simp, ?_, ?_⟩
      · simp [classify, propertyKind, hdrop, h, hquery.resolve_left nofun]
      · rw [hdrop]
        exact List.dropLast_concat

theorem create_eq_ok_iff : create topic path root = .ok s ↔
    ∃ before subject, path.elements = before ++ subject ∧ Subject subject s.entityType s.kind ∧
      (s.kind = .entitySet ∨ queryChars topic = []) ∧
      Scope.ofAncestors topic s.entityType before = .ok s.filter ∧
      s.topic = topic ∧ s.root = root := by
  constructor
  · intro h
    unfold create at h
    split at h
    · cases h
    rename_i last hlast
    obtain ⟨⟨type, kind⟩, hclass, h⟩ := bind_eq_ok.1 h
    obtain ⟨filter, hscope, h⟩ := bind_eq_ok.1 h
    cases h
    obtain ⟨hquery, subject, hsubject, hends⟩ := subject_of_classify hclass
    refine ⟨_, subject, ?_, hsubject, hquery, hscope, rfl, rfl⟩
    rw [← hends]
    exact (List.dropLast_append_getLast? last hlast).symm
  · rintro ⟨before, subject, helements, hsubject, hquery, hscope, rfl, rfl⟩
    obtain ⟨last, hlast, hclass, hbefore⟩ := classify_of_subject before hsubject hquery
    unfold create ResourcePath.last?
    rw [helements, hlast]
    refine bind_eq_ok.2 ⟨_, hclass, bind_eq_ok.2 ⟨s.filter, ?_, rfl⟩⟩
    rw [hbefore]
    exact hscope

end Subscription

/-- From an entity of type `child` at place `k` of a path, the links lead back, element by element,
to the nearest one that has an identifier. -/
structure LeadsBack (path : ResourcePath) (k : Nat) (child : EntityType)
    (links : List NavigationProperty) (type : EntityType) (id : Id) : Prop where
  identified : ResourcePath.identified? ⟨path.elements.take k⟩ = some (type, id)
  length_le : links.length ≤ k
  ancestor : path.elements[k - links.length]? = some (.entity type (some id))
  unidentified : ∀ i element, k - links.length < i → i < k → path.elements[i]? = some element →
    element.id? = none
  first : ∀ link, links.head? = some link → link ∈ child.navigation
  next : links.IsChain fun link next => next ∈ link.target.navigation
  targets : ∀ i link, links[i]? = some link →
    (path.elements[k - (i + 1)]?).bind PathElement.entityType? = some link.target
  last : links.getLast?.map NavigationProperty.target = some type

theorem leadsBack_of_leads {before subject near far : List PathElement} {child type : EntityType}
    {links : List NavigationProperty} {id : Id}
    (hbefore : before.reverse = near ++ .entity type (some id) :: far)
    (hnear : ∀ element ∈ near, element.id? = none)
    (hlinks : Leads child links (near ++ [.entity type (some id)])) :
    LeadsBack ⟨before ++ subject⟩ before.length child links type id := by
  have hlength : before.length = near.length + (far.length + 1) := by
    simpa using congrArg List.length hbefore
  have hcount : links.length = near.length + 1 := by simpa using hlinks.length_eq.symm
  -- the place `k - (i + 1)` of the path is the place `i` on the way back
  have hback (i : Nat) (hi : i < before.length) : (before ++ subject)[before.length - (i + 1)]? =
      (near ++ .entity type (some id) :: far)[i]? := by
    rw [List.getElem?_append_left (by omega), ← hbefore, List.getElem?_reverse hi]
    congr 1
    omega
  refine ⟨?_, by omega, ?_, ?_, fun link => hlinks.mem_navigation, hlinks.isChain, ?_, ?_⟩
  · rw [List.take_left]
    exact ResourcePath.identified?_eq_some hbefore hnear
  · rw [hcount, hback _ (by omega), List.getElem?_append_right (Nat.le_refl _), Nat.sub_self]
    rfl
  · intro i element hlow hhigh helement
    have hplace := (hback (before.length - (i + 1)) (by omega)).symm
    rw [List.getElem?_append_left (by omega),
      show before.length - (before.length - (i + 1) + 1) = i by omega] at hplace
    exact hnear element (List.mem_of_getElem? (hplace.trans helement))
  · intro i link hlink
    have hi : i < near.length + 1 := by
      rw [← hcount]
      exact (List.getElem?_eq_some_iff.1 hlink).1
    have htarget := congrArg (·[i]?) hlinks.map_target
    simp only [List.getElem?_map, hlink, Option.map_some, Option.map_eq_some_iff] at htarget
    obtain ⟨element, helement, htype⟩ := htarget
    rw [hback i (by omega), List.append_cons, List.getElem?_append_left (by simpa using hi),
      helement, Option.bind_some, htype]
  · have hlast := congrArg List.getLast? hlinks.map_target
    rw [List.map_append, List.map_singleton, List.getLast?_concat, List.getLast?_map] at hlast
    obtain ⟨link, hlink, htarget⟩ := Option.map_eq_some_iff.1 hlast.symm
    rw [hlink, Option.map_some]
    exact htarget

namespace Subscription

/-- A subscription is on the entity at the place `k`, the last entity or entity set of the path. It
has a scope exactly if an element before that has an identifier; then the scope asks for the
identifier of the nearest such element, at the end of links that lead back to it. -/
theorem create_scope {topic root : String} {path : ResourcePath} {s : Subscription}
    (h : create topic path root = .ok s) :
    let k := path.subjectIndex
    (path.elements[k]?).bind PathElement.entityType? = some s.entityType ∧
    (s.filter = none ↔ ∀ element ∈ path.elements.take k, element.id? = none) ∧
    ∀ filter, s.filter = some filter → ∃ links type id,
      filter = .equal (.property (.ofLinks links .id)) (.constant (.ofId id)) ∧
      LeadsBack path k s.entityType links type id := by
  obtain ⟨before, subject, helements, hsubject, _, hscope, _⟩ := create_eq_ok_iff.1 h
  obtain ⟨elements⟩ := path
  obtain rfl : elements = before ++ subject := helements
  dsimp only
  rw [ResourcePath.subjectIndex_eq hsubject, List.take_left]
  refine ⟨?_, ?_⟩
  · rw [List.getElem?_append_right (Nat.le_refl _), Nat.sub_self]
    exact hsubject.entityType
  obtain ⟨hnone, hids, _⟩ | ⟨near, type, id, far, links, hbefore, hnear, hlinks, hsome⟩ :=
    Scope.search_cases hscope
  · refine ⟨iff_of_true hnone fun element hmem => hids element (List.mem_reverse.2 hmem), ?_⟩
    intro filter hfilter
    cases hnone.symm.trans hfilter
  · have hmem : .entity type (some id) ∈ before := by
      rw [← List.mem_reverse, hbefore]
      exact List.mem_append_right _ List.mem_cons_self
    refine ⟨iff_of_false ?_ fun hids => Option.some_ne_none id (hids _ hmem), ?_⟩
    · rw [hsome]
      exact nofun
    · intro filter hfilter
      cases hsome.symm.trans hfilter
      exact ⟨links, type, id, rfl, leadsBack_of_leads hbefore hnear hlinks⟩

/-- The nearer of two things is two links away from the observations. -/
theorem create_scope_observations :
    let path : ResourcePath := ⟨[.entity .thing (some (.text "far")), .entity .location none,
      .entity .thing (some (.long 1)), .entitySet .datastream, .entitySet .observation]⟩
    let s : Subscription := ⟨"Observations", .observation, .entitySet,
      some (Scope.reaches [.datastream, .thing] (.long 1)), ""⟩
    create "Observations" path "" = .ok s ∧ ∃ links type id,
      s.filter = some (.equal (.property (.ofLinks links .id)) (.constant (.ofId id))) ∧
      LeadsBack path 4 .observation links type id := by
  intro path s
  have h : create "Observations" path "" = .ok s := rfl
  obtain ⟨_, _, hscope⟩ := create_scope h
  obtain ⟨links, type, id, hfilter, hleads⟩ := hscope _ rfl
  exact ⟨h, links, type, id, congrArg some hfilter, hleads⟩

end Subscription

end LiveFilter
