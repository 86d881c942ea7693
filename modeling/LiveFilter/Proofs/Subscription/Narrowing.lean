import LiveFilter.Proofs.Evaluation
import LiveFilter.Proofs.Subscription.Matching

/-! # Filters narrow

A filter that is added to a subscription stands to the right of its scope. The entity decides the
two together only if it decides both; otherwise the store is asked about the two together, although
the entity may decide the scope. So with and without the filter a subscription can be decided by
different means.
-/

namespace LiveFilter

open Outcome (bind_eq_ok)

namespace Live

variable {entity : Entity} {l r : Expression}

theorem left_of_evaluate_and (h : evaluate entity (l.and r) = .ok .true) :
    evaluate entity l = .ok .true := by
  rw [evaluate_and] at h
  obtain ⟨left, hleft, h⟩ := bind_eq_ok.1 h
  obtain ⟨right, _, h⟩ := bind_eq_ok.1 h
  rw [hleft]
  cases left <;> cases right <;> first | rfl | cases h

theorem left_of_evaluate_and_error {path : String}
    (h : evaluate entity (l.and r) = .error (.requiresStore path)) :
    evaluate entity l = .error (.requiresStore path) ∨ ∃ truth, evaluate entity l = .ok truth := by
  rw [evaluate_and] at h
  cases hleft : evaluate entity l with
  | error err =>
      rw [hleft] at h
      cases h
      exact .inl rfl
  | ok truth => exact .inr ⟨truth, rfl⟩

end Live

namespace Store

/-- The store says yes to a conjunction only if it says yes to the left side. -/
def KeepsLeft (store : Store) : Prop :=
  ∀ type id l r, store type id (l.and r) = .ok true → store type id l = .ok true

/-- Where the entity decides the filter, the store decides it in the same way. -/
def AgreesOn (store : Store) (entity : Entity) (filter : Expression) : Prop :=
  ∀ id answer, entity.id = some id → Live.isSatisfied entity filter = .ok answer →
    store entity.type id filter = .ok answer

end Store

namespace Subscription

variable {s narrowed : Subscription} {query scope : Expression} {event : Event} {store : Store}

theorem withFilter_eq_ok_iff : s.withFilter query = .ok narrowed ↔ s.kind = .entitySet ∧
    narrowed = { s with filter := some (s.filter.elim query (·.and query)) } := by
  unfold withFilter
  split
  · rename_i hkind
    rw [and_iff_right hkind, Except.ok.injEq, eq_comm]
    cases s.filter <;> rfl
  · rename_i hkind
    exact iff_of_false nofun fun h => hkind h.1

/-- What matches with a filter beside the scope is within the scope, by the word of the entity or by
that of the store. -/
theorem Matches.of_and (hscope : s.filter = some scope) (hkeeps : store.KeepsLeft)
    (hagrees : store.AgreesOn event.entity scope)
    (h : Matches { s with filter := some (scope.and query) } (some store) event) :
    s.Matches (some store) event := by
  have hconcerns : s.Concerns event := ⟨h.concerns.type, h.concerns.id, h.concerns.changed⟩
  cases h with
  | unfiltered _ hnone => cases hnone
  | satisfied _ hsome htrue =>
      cases hsome
      exact .satisfied hconcerns hscope (Live.left_of_evaluate_and htrue)
  | @confirmed call hasks _ hstore htrue =>
      obtain ⟨type, id, filter⟩ := call
      obtain ⟨_, rfl, hid, hfilter, path, hleaves⟩ := hasks
      cases hstore
      cases hfilter
      have hyes : store s.entityType id scope = .ok true := hkeeps _ _ _ _ htrue
      obtain hout | ⟨truth, hin⟩ := Live.left_of_evaluate_and_error hleaves
      · have hasks : s.Asks event ⟨s.entityType, id, scope⟩ :=
          ⟨hconcerns, rfl, hid, hscope, path, hout⟩
        exact .confirmed hasks rfl hyes
      · -- the store was asked because of the filter alone, and has spoken for the entity as well
        have hsame := hagrees id truth.isTrue hid (Outcome.map_eq_ok.2 ⟨truth, hin, rfl⟩)
        rw [hconcerns.type, hyes] at hsame
        obtain rfl := Truth.isTrue_iff.1 (Except.ok.inj hsame).symm
        exact .satisfied hconcerns hscope hin

theorem Matches.of_withFilter (h : s.withFilter query = .ok narrowed) (hkeeps : store.KeepsLeft)
    (hagrees : ∀ scope, s.filter = some scope → store.AgreesOn event.entity scope)
    (hmatches : narrowed.Matches (some store) event) : s.Matches (some store) event := by
  obtain ⟨_, rfl⟩ := withFilter_eq_ok_iff.1 h
  cases hscope : s.filter with
  | none =>
      have hconcerns := hmatches.concerns
      exact .unfiltered ⟨hconcerns.type, hconcerns.id, hconcerns.changed⟩ hscope
  | some scope =>
      rw [hscope] at hmatches
      exact hmatches.of_and hscope hkeeps (hagrees scope hscope)

theorem kind_of_create_entitySet {topic root : String} {path : ResourcePath} {type : EntityType}
    (hlast : path.last? = some (.entitySet type)) (h : create topic path root = .ok s) :
    s.kind = .entitySet := by
  unfold create at h
  rw [hlast] at h
  obtain ⟨⟨_, kind⟩, hclass, h⟩ := bind_eq_ok.1 h
  obtain ⟨_, _, h⟩ := bind_eq_ok.1 h
  cases hclass
  cases h
  rfl

/-- The subscription on an entity set takes any filter, and then matches nothing that it would not
match without. -/
theorem isMatch_of_createWith {topic root : String} {path : ResourcePath} {type : EntityType}
    (query : Expression) (hlast : path.last? = some (.entitySet type))
    (h : create topic path root = .ok s) (hkeeps : store.KeepsLeft)
    (hagrees : ∀ scope, s.filter = some scope → store.AgreesOn event.entity scope) :
    ∃ narrowed, createWith topic path root (some query) = .ok narrowed ∧
      (narrowed.isMatch store event = true → s.isMatch store event = true) := by
  obtain ⟨narrowed, hnarrowed⟩ : ∃ narrowed, s.withFilter query = .ok narrowed :=
    ⟨_, withFilter_eq_ok_iff.2 ⟨kind_of_create_entitySet hlast h, rfl⟩⟩
  refine ⟨narrowed, bind_eq_ok.2 ⟨s, h, hnarrowed⟩, fun hmatch => ?_⟩
  exact isMatch_iff.2 ((isMatch_iff.1 hmatch).of_withFilter hnarrowed hkeeps hagrees)

/-- The store alone knows the observations of the datastream, while the entity says which thing it
belongs to. -/
theorem isMatch_of_createWith_observations :
    let path : ResourcePath := ⟨[.entity .thing (some (.long 1)), .entitySet .datastream]⟩
    let scope := Scope.reaches [.thing] (.long 1)
    let query := Scope.reaches [.observations] (.long 3)
    let s : Subscription := ⟨"Datastreams", .datastream, .entitySet, some scope, ""⟩
    let event : Event := ⟨((Entity.empty .datastream).withId (.long 7)).withLink .thing (.long 1), none⟩
    let store : Store := fun type id _ => .ok (decide (type = .datastream ∧ id = .long 7))
    path.last? = some (.entitySet .datastream) ∧ create "Datastreams" path "" = .ok s ∧
      store.KeepsLeft ∧ store.AgreesOn event.entity scope ∧
      ∃ narrowed, createWith "Datastreams" path "" (some query) = .ok narrowed ∧
        narrowed.storeCall? event = some ⟨.datastream, .long 7, scope.and query⟩ ∧
        narrowed.isMatch store event = true ∧ s.storeCall? event = none ∧
        s.isMatch store event = true := by
  intro path scope query s event store
  have hcreate : create "Datastreams" path "" = .ok s := rfl
  have hkeeps : store.KeepsLeft := fun _ _ _ _ h => h
  have hagrees : store.AgreesOn event.entity scope := by
    intro id answer hid hanswer
    cases hid
    cases hanswer
    rfl
  refine ⟨rfl, hcreate, hkeeps, hagrees, ?_⟩
  obtain ⟨narrowed, hnarrowed, himp⟩ := isMatch_of_createWith query rfl hcreate hkeeps (by
    intro _ h
    cases h
    exact hagrees)
  cases hnarrowed
  exact ⟨_, rfl, rfl, rfl, rfl, himp rfl⟩

end Subscription

end LiveFilter
