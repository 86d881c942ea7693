import LiveFilter.Proofs.Keyed
import LiveFilter.Registry.Basic

/-! # The index of topics by type

What putting a topic into the index and taking it out again do to the sets of topics, and the form
that both keep: one set for a type, no set empty, every set in the order of the topics.
-/

namespace LiveFilter

namespace Registry

def Lists (byType : List (EntityType × List String)) (type : EntityType) (topic : String) : Prop :=
  ∃ topics, (type, topics) ∈ byType ∧ topic ∈ topics

structure IndexForm (byType : List (EntityType × List String)) : Prop where
  types : (byType.map Prod.fst).Nodup
  nonempty : ∀ type topics, (type, topics) ∈ byType → topics ≠ []
  sorted : ∀ type topics, (type, topics) ∈ byType → topics.Pairwise (· < ·)

variable {byType : List (EntityType × List String)} {type type' : EntityType}
  {topic topic' : String}

theorem lists_cons {t : EntityType} {topics : List String} :
    Lists ((t, topics) :: byType) type topic ↔
      (type = t ∧ topic ∈ topics) ∨ Lists byType type topic := by
  simp only [Lists, List.mem_cons, Prod.mk.injEq]
  constructor
  · rintro ⟨s, ⟨rfl, rfl⟩ | hs, ht⟩
    · exact .inl ⟨rfl, ht⟩
    · exact .inr ⟨s, hs, ht⟩
  · rintro (⟨rfl, ht⟩ | ⟨s, hs, ht⟩)
    · exact ⟨topics, .inl ⟨rfl, rfl⟩, ht⟩
    · exact ⟨s, .inr hs, ht⟩

theorem lists_index : Lists (index type topic byType) type' topic' ↔
    (type' = type ∧ topic' = topic) ∨ Lists byType type' topic' := by
  induction byType with
  | nil =>
      rw [index, lists_cons, List.mem_singleton]
  | cons entry rest ih =>
      obtain ⟨t, topics⟩ := entry
      unfold index
      split
      · rename_i h
        subst h
        rw [lists_cons, lists_cons, Keyed.mem_insertText, and_or_left, or_assoc]
      · rw [lists_cons, lists_cons, ih, or_left_comm]

theorem map_fst_index : (index type topic byType).map Prod.fst =
    if type ∈ byType.map Prod.fst then byType.map Prod.fst else byType.map Prod.fst ++ [type] := by
  induction byType with
  | nil => simp [index]
  | cons entry rest ih =>
      obtain ⟨t, topics⟩ := entry
      unfold index
      by_cases h : t = type
      · simp [h]
      · rw [if_neg h, List.map_cons, ih]
        by_cases hmem : type ∈ rest.map Prod.fst
        · rw [if_pos hmem, if_pos (by simpa using .inr (by simpa using hmem))]
          rfl
        · rw [if_neg hmem, if_neg (by simpa [Ne.symm h] using hmem)]
          rfl

/-- A set after a topic was put into the index is an old one, or the one the topic was put into. -/
theorem mem_index {topics : List String} (h : (type', topics) ∈ index type topic byType) :
    (type', topics) ∈ byType ∨ topics = [topic] ∨
      ∃ old, (type', old) ∈ byType ∧ topics = Keyed.insertText topic old := by
  induction byType with
  | nil =>
      simp only [index, List.mem_singleton, Prod.mk.injEq] at h
      exact .inr (.inl h.2)
  | cons entry rest ih =>
      obtain ⟨t, old⟩ := entry
      unfold index at h
      split at h
      · rcases List.mem_cons.1 h with h | h
        · obtain ⟨rfl, rfl⟩ := Prod.mk.inj h
          exact .inr (.inr ⟨old, List.mem_cons_self, rfl⟩)
        · exact .inl (List.mem_cons_of_mem _ h)
      · rcases List.mem_cons.1 h with h | h
        · exact .inl (h ▸ List.mem_cons_self)
        · rcases ih h with h | h | ⟨old, hold, rfl⟩
          · exact .inl (List.mem_cons_of_mem _ h)
          · exact .inr (.inl h)
          · exact .inr (.inr ⟨old, List.mem_cons_of_mem _ hold, rfl⟩)

theorem IndexForm.index (h : IndexForm byType) : IndexForm (index type topic byType) where
  types := by
    rw [map_fst_index]
    split
    · exact h.types
    · rename_i hnew
      exact List.nodup_append.2 ⟨h.types, List.pairwise_singleton _ _, by
        intro t ht t' ht' heq
        exact hnew (List.mem_singleton.1 ht' ▸ heq ▸ ht)⟩
  nonempty t topics hmem := by
    rcases mem_index hmem with hmem | rfl | ⟨old, _, rfl⟩
    · exact h.nonempty t topics hmem
    · exact List.cons_ne_nil _ _
    · exact List.ne_nil_of_mem (Keyed.mem_insertText.2 (.inl rfl))
  sorted t topics hmem := by
    rcases mem_index hmem with hmem | rfl | ⟨old, hold, rfl⟩
    · exact h.sorted t topics hmem
    · exact List.pairwise_singleton _ _
    · exact Keyed.sorted_insertText _ (h.sorted t old hold)

theorem mem_unindex {topics : List String} : (type', topics) ∈ unindex type topic byType ↔
    ∃ old, (type', old) ∈ byType ∧
      topics = (if type' = type then old.filter (· ≠ topic) else old) ∧
      (type' = type → topics ≠ []) := by
  simp only [unindex, List.mem_filter, List.mem_map]
  constructor
  · rintro ⟨⟨⟨t, old⟩, hold, heq⟩, hkeep⟩
    obtain ⟨rfl, rfl⟩ := Prod.mk.inj heq
    refine ⟨old, hold, rfl, fun ht => ?_⟩
    subst ht
    simpa using hkeep
  · rintro ⟨old, hold, rfl, hkeep⟩
    refine ⟨⟨(type', old), hold, rfl⟩, ?_⟩
    by_cases ht : type' = type
    · simpa [ht] using hkeep ht
    · simp [ht]

theorem lists_unindex : Lists (unindex type topic byType) type' topic' ↔
    Lists byType type' topic' ∧ ¬(type' = type ∧ topic' = topic) := by
  simp only [Lists, mem_unindex]
  constructor
  · rintro ⟨topics, ⟨old, hold, rfl, _⟩, htopic⟩
    split at htopic
    · rw [List.mem_filter, decide_eq_true_eq] at htopic
      exact ⟨⟨old, hold, htopic.1⟩, fun h => htopic.2 h.2⟩
    · rename_i ht
      exact ⟨⟨old, hold, htopic⟩, fun h => ht h.1⟩
  · rintro ⟨⟨old, hold, htopic⟩, hother⟩
    have hmem : topic' ∈ if type' = type then old.filter (· ≠ topic) else old := by
      split
      · rename_i ht
        exact List.mem_filter.2 ⟨htopic, decide_eq_true fun h => hother ⟨ht, h⟩⟩
      · exact htopic
    exact ⟨_, ⟨old, hold, rfl, fun _ => List.ne_nil_of_mem hmem⟩, hmem⟩

theorem IndexForm.unindex (h : IndexForm byType) : IndexForm (unindex type topic byType) where
  types := by
    have hsub : (Registry.unindex type topic byType).map Prod.fst |>.Sublist
        (byType.map Prod.fst) := by
      refine (List.filter_sublist.map _).trans ?_
      rw [List.map_map]
      exact List.Sublist.refl _
    exact h.types.sublist hsub
  nonempty t topics hmem := by
    obtain ⟨old, hold, rfl, hkeep⟩ := mem_unindex.1 hmem
    by_cases ht : t = type
    · exact hkeep ht
    · rw [if_neg ht]
      exact h.nonempty t old hold
  sorted t topics hmem := by
    obtain ⟨old, hold, rfl, _⟩ := mem_unindex.1 hmem
    split
    · exact (h.sorted t old hold).filter _
    · exact h.sorted t old hold

end Registry

end LiveFilter
