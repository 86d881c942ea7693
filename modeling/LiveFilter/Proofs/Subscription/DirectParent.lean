import LiveFilter.Proofs.Identifiers
import LiveFilter.Proofs.Subscription.Ancestry
import LiveFilter.Proofs.Subscription.Matching
import Mathlib.Data.List.Nodup

/-! # Children of one parent

An identifier goes from a path into a filter, and from a link of an entity to the operand that the
filter compares it with. Nothing on either way rounds it or turns a number into a text, so that the
comparison is equality of identifiers.
-/

namespace LiveFilter

namespace EntityType

theorem target_injOn {type : EntityType} {link other : NavigationProperty}
    (hlink : link ∈ type.navigation) (hother : other ∈ type.navigation)
    (h : link.target = other.target) : link = other := by
  have hnodup : (type.navigation.map NavigationProperty.target).Nodup := by
    cases type <;> decide
  exact List.inj_on_of_nodup_map hnodup hlink hother h

theorem navigationTo?_target {type : EntityType} {link : NavigationProperty}
    (h : link ∈ type.navigation) : type.navigationTo? link.target = some link := by
  obtain ⟨found, hfound⟩ := hasLinkTo_iff.1 ⟨link, h, rfl⟩
  obtain ⟨hmem, htarget⟩ := mem_navigation_of_navigationTo? hfound
  rw [hfound, target_injOn hmem h htarget]

end EntityType

namespace Live

variable {entity : Entity} {i j : Id}

theorem evaluate_reaches {link : NavigationProperty} (hsingle : link.isSet = false)
    (h : entity.links link = some j) :
    evaluate entity (Scope.reaches [link] i) = .ok (compare .eq (.ofId j) (.ofId i)) := by
  refine evaluate_equal_ofId ?_
  simp [property, PropertyPath.ofLinks, hsingle, h]

end Live

namespace Subscription

variable {child : EntityType} {link : NavigationProperty}

theorem create_children (hlink : link ∈ child.navigation) (i : Id) (topic root : String) :
    create topic ⟨[.entity link.target (some i), .entitySet child]⟩ root =
      .ok ⟨topic, child, .entitySet, some (Scope.reaches [link] i), root⟩ := by
  have hscope : Scope.ofAncestors topic child [.entity link.target (some i)] =
      .ok (some (Scope.reaches [link] i)) := by
    simp [Scope.ofAncestors, Scope.search, PathElement.entityType?, PathElement.id?,
      EntityType.navigationTo?_target hlink]
  exact create_eq_ok_iff.2 ⟨_, _, rfl, .entitySet child, .inl rfl, hscope, rfl, rfl⟩

/-- Under a parent that is identified, a subscription on its children matches those whose link is
that very identifier, without a store. A filter on the identifier of an entity itself is as exact.
-/
theorem isMatch_children_iff (hlink : link ∈ child.navigation) (hsingle : link.isSet = false)
    (i j : Id) (topic root : String) {event : Event} (htype : event.entity.type = child)
    (hparent : event.entity.links link = some j) (store : Store) (entity : Entity) :
    (∃ s, create topic ⟨[.entity link.target (some i), .entitySet child]⟩ root = .ok s ∧
      (s.isMatch store event = true ↔ i = j) ∧ s.storeCall? event = none) ∧
    ∃ truth,
      Live.evaluate entity (.equal (.property (.single (.entity .id))) (.constant (.ofId i))) =
        .ok truth ∧ (truth = .true ↔ entity.id = some i) := by
  refine ⟨⟨_, create_children hlink i topic root, ?_, ?_⟩, Live.evaluate_own_id entity i⟩
  · have hconcerns : Concerns ⟨topic, child, .entitySet, some (Scope.reaches [link] i), root⟩ event :=
      ⟨htype, fun _ h => (Option.some_ne_none _ h.symm).elim, fun _ _ h => by cases h⟩
    have hscope := Live.evaluate_reaches (i := i) hsingle hparent
    rw [← Option.getD_some (a := store) (b := Store.unavailable), isMatch_iff,
      matches_iff_of_evaluate hconcerns rfl hscope, Live.compare_ofId, eq_comm]
  · exact storeCall?_eq_none_of_evaluate rfl (Live.evaluate_reaches hsingle hparent)

/-- Neighbouring numbers beyond the integers that a real can tell apart, and a number facing the
text of its digits. -/
theorem isMatch_children_iff_neighbours :
    let i : Id := .long 9007199254740993
    let event (j : Id) : Event := ⟨(Entity.empty .observation).withLink .datastream j, none⟩
    ∃ s, create "Observations" ⟨[.entity .datastream (some i), .entitySet .observation]⟩ "" = .ok s ∧
      s.isMatch Store.unavailable (event i) = true ∧
      s.isMatch Store.unavailable (event (.long 9007199254740992)) = false ∧
      s.isMatch Store.unavailable (event (.text "9007199254740993")) = false := by
  intro i event
  have hlink : .datastream ∈ EntityType.observation.navigation := by decide
  have htype (j : Id) : (event j).entity.type = .observation := rfl
  have hparent (j : Id) : (event j).entity.links .datastream = some j := by
    simp [event, Entity.withLink]
  have h (j : Id) := (isMatch_children_iff hlink rfl i j "Observations" "" (htype j) (hparent j)
    Store.unavailable (Entity.empty .observation)).1
  obtain ⟨s, hs, hown, _⟩ := h i
  have hother (j : Id) (hne : i ≠ j) : s.isMatch Store.unavailable (event j) = false := by
    obtain ⟨s', hs', hmatch, _⟩ := h j
    cases hs.symm.trans hs'
    rw [Bool.eq_false_iff, ne_eq, hmatch]
    exact hne
  exact ⟨s, hs, hown.2 rfl, hother _ (by decide), hother _ (by decide)⟩

end Subscription

end LiveFilter
