import LiveFilter.Proofs.Subscription.WellLinked
import LiveFilter.Proofs.Text.Quoted

/-! # Subscribing to a path under its own text

The query options of a topic begin with its first question mark. Of the text of a path only the
texts of identifiers can hold one, and there it is as good as any other.
-/

namespace LiveFilter

theorem Json.question_notMem_intText (n : Int) : '?' ∉ (Json.intText n).toList := by
  have hdigits (k : Nat) : '?' ∉ k.repr.toList := by
    rw [Nat.toList_repr]
    intro hmem
    have hdigit := Nat.isDigit_of_mem_toDigits (by decide) (by decide) hmem
    revert hdigit
    decide
  unfold Json.intText
  split
  · rw [String.toList_append, List.mem_append]
    exact not_or.2 ⟨by decide, hdigits _⟩
  · exact hdigits _

namespace PathElement

theorem question_mem_display {e : PathElement} : '?' ∈ e.display.toList ↔
    ∃ type text, e = .entity type (some (.text text)) ∧ '?' ∈ text.toList := by
  have hplural (t : EntityType) : '?' ∉ t.plural.toList := by cases t <;> simp [EntityType.plural]
  have hname (t : EntityType) : '?' ∉ t.name.toList := by cases t <;> simp [EntityType.name]
  have hwire (p : EntityProperty) : '?' ∉ p.wireName.toList := by
    cases p <;> simp [EntityProperty.wireName]
  match e with
  | .entitySet t => simp [display, hplural]
  | .entity t none => simp [display, hname]
  | .property p => simp [display, hwire]
  | .entity t (some (.long n)) =>
      simp [display, hplural, Id.display, Json.question_notMem_intText]
  | .entity t (some (.text text)) =>
      simp [display, hplural, Id.display, Quoted.wrapChars, Quoted.mem_double]

theorem exists_getLast?_display (e : PathElement) :
    ∃ last, e.display.toList.getLast? = some last ∧ last ≠ '?' := by
  match e with
  | .entitySet t => cases t <;> simp [display, EntityType.plural]
  | .entity t none => cases t <;> simp [display, EntityType.name]
  | .entity t (some id) =>
      refine ⟨')', ?_, by decide⟩
      rw [display, String.toList_append]
      exact List.getLast?_concat
  | .property p => cases p <;> simp [display, EntityProperty.wireName]

end PathElement

namespace ResourcePath

theorem mem_joinSlash {c : Char} (hc : c ≠ '/') {texts : List String} :
    c ∈ (joinSlash texts).toList ↔ ∃ text ∈ texts, c ∈ text.toList := by
  induction texts with
  | nil => simp [joinSlash]
  | cons text rest ih =>
      by_cases hrest : rest = []
      · simp [hrest, joinSlash]
      · simp [joinSlash_cons text hrest, hc, ih]

theorem exists_joinSlash_concat (texts : List String) (last : String) :
    ∃ front, (joinSlash (texts ++ [last])).toList = front ++ last.toList := by
  induction texts with
  | nil => exact ⟨[], rfl⟩
  | cons text rest ih =>
      obtain ⟨front, hfront⟩ := ih
      refine ⟨text.toList ++ '/' :: front, ?_⟩
      rw [List.cons_append, joinSlash_cons text (List.concat_ne_nil _ _), String.toList_append,
        String.toList_append, hfront]
      simp

theorem question_mem_display {path : ResourcePath} : '?' ∈ path.display.toList ↔
    ∃ type text, .entity type (some (.text text)) ∈ path.elements ∧ '?' ∈ text.toList := by
  rw [display, mem_joinSlash (by decide)]
  constructor
  · rintro ⟨_, hmem, hquestion⟩
    obtain ⟨e, he, rfl⟩ := List.mem_map.1 hmem
    obtain ⟨type, text, rfl, htext⟩ := PathElement.question_mem_display.1 hquestion
    exact ⟨type, text, he, htext⟩
  · rintro ⟨type, text, he, htext⟩
    exact ⟨_, List.mem_map_of_mem he,
      PathElement.question_mem_display.2 ⟨type, text, rfl, htext⟩⟩

theorem getLast?_display_ne {path : ResourcePath} (h : path.elements ≠ []) :
    path.display.toList.getLast? ≠ some '?' := by
  obtain hnil | ⟨front, e, hlast⟩ := List.eq_nil_or_concat path.elements
  · exact absurd hnil h
  obtain ⟨last, hdisplay, hne⟩ := e.exists_getLast?_display
  obtain ⟨chars, hchars⟩ := exists_joinSlash_concat (front.map PathElement.display) e.display
  rw [display, hlast, List.concat_eq_append, List.map_append, List.map_singleton, hchars,
    List.getLast?_append, hdisplay]
  exact fun heq => hne (Option.some.inj heq)

end ResourcePath

namespace Subscription

/-- A topic has query options exactly if a question mark stands before its last character. -/
theorem queryChars_eq_nil_iff {topic : String} :
    queryChars topic = [] ↔ '?' ∉ topic.toList.dropLast := by
  unfold queryChars
  induction topic.toList with
  | nil => simp
  | cons c cs ih =>
      by_cases hc : c = '?'
      · subst hc
        cases cs <;> simp
      · rw [List.dropWhile_cons_of_pos (by simpa using hc), ih]
        cases cs with
        | nil => simp
        | cons d ds => simp [Ne.symm hc]

theorem queryChars_display {path : ResourcePath} (h : path.elements ≠ []) :
    queryChars path.display = [] ↔
      ∀ type text, .entity type (some (.text text)) ∈ path.elements → '?' ∉ text.toList := by
  have hdrop : '?' ∈ path.display.toList.dropLast ↔ '?' ∈ path.display.toList := by
    have hlast := ResourcePath.getLast?_display_ne h
    obtain hnil | ⟨front, last, hconcat⟩ := List.eq_nil_or_concat path.display.toList
    · rw [hnil, List.dropLast_nil]
    · rw [hconcat, List.concat_eq_append] at hlast ⊢
      have hne : '?' ≠ last := fun heq => hlast (heq ▸ List.getLast?_concat)
      simp [hne]
  rw [queryChars_eq_nil_iff, hdrop, ResourcePath.question_mem_display]
  simp only [not_exists, not_and]

/-- A well-linked path can be subscribed to under its own text, unless it ends with an entity or a
property and the text of some identifier has a question mark, which begins a query there. -/
theorem create_display_isOk_iff {path : ResourcePath} (h : path.WellLinked) (root : String) :
    (∃ s, create path.display path root = .ok s) ↔
      (∃ type, path.last? = some (.entitySet type)) ∨
        ∀ type text, .entity type (some (.text text)) ∈ path.elements → '?' ∉ text.toList := by
  rw [← queryChars_display h.nonempty]
  constructor
  · rintro ⟨s, hs⟩
    obtain ⟨before, subject, helements, hsubject, hquery, _⟩ := create_eq_ok_iff.1 hs
    rwa [last?_eq_entitySet_iff helements hsubject]
  · intro hquery
    obtain ⟨before, subject, type, kind, links, helements, hsubject, hlinks⟩ := h.exists_subject
    rw [last?_eq_entitySet_iff helements hsubject] at hquery
    exact exists_create_of_leads root helements hsubject hquery hlinks (.inl rfl)

/-- A question mark in an identifier above an entity set does no harm. -/
theorem create_display_isOk_iff_set :
    let path : ResourcePath := ⟨[.entity .thing (some (.text "a?'b")), .entitySet .datastream]⟩
    path.WellLinked ∧ ∃ s, create path.display path "" = .ok s := by
  intro path
  have helements : path.elements =
      [.entity .thing (some (.text "a?'b"))] ++ [.entitySet .datastream] := rfl
  have hlink : NavigationProperty.thing ∈ EntityType.datastream.navigation := by decide
  have h : path.WellLinked := .of_subject helements (.entitySet _) (.cons hlink rfl (.nil _))
  exact ⟨h, (create_display_isOk_iff h "").2 (.inl ⟨.datastream, rfl⟩)⟩

/-- What follows the question mark in the identifier counts as query options. -/
theorem create_display_of_question :
    let path : ResourcePath := ⟨[.entity .thing (some (.text "a?b"))]⟩
    path.WellLinked ∧ path.display = "Things('a?b')" ∧
      create path.display path "" = .error (.invalidTopic "Things('a?b')"
        "query options not allowed for subscription on an entity") :=
  ⟨.of_leads (List.nil_append _).symm rfl (.nil _), rfl, rfl⟩

end Subscription

end LiveFilter
