import LiveFilter.Proofs.Subscription.Matching

/-! # Payloads of property subscriptions

The payload for one selected property has the property's field and nothing else, provided that the
entity has something to show for it: a stored value or, for the identifier and the entity's own
link, its identifier. An entity that has neither is written as an object without fields, although
the change of the property makes the subscription match.
-/

namespace LiveFilter

namespace EntityProperty

theorem wireName_injective {p q : EntityProperty} (h : p.wireName = q.wireName) : p = q := by
  have hfind : ∀ r ∈ all, all.find? (·.wireName = r.wireName) = some r := by decide +kernel
  have hp := hfind p p.mem_all
  rw [h, hfind q q.mem_all] at hp
  exact (Option.some.inj hp).symm

theorem filter_all_eq (p : EntityProperty) : all.filter (fun q => decide (q = p)) = [p] := by
  cases p <;> rfl

end EntityProperty

theorem NavigationProperty.name_ne_wireName (n : NavigationProperty) (p : EntityProperty) :
    n.name ≠ p.wireName := by
  have hne : ∀ n ∈ all, ∀ p ∈ EntityProperty.all, n.name ≠ p.wireName := by decide +kernel
  exact hne n n.mem_all p p.mem_all

theorem Entity.filter_storedProperties (e : Entity) (p : EntityProperty) :
    e.storedProperties.filter (fun x => decide (x.1 = p)) =
      (e.properties p).toList.map (p, ·) := by
  have hchoice : ∀ q, ((e.properties q).map (q, ·)).filter (fun x => decide (x.1 = p)) =
      if decide (q = p) then (e.properties q).map (q, ·) else none := by
    intro q
    cases e.properties q with
    | none => simp
    | some value => by_cases h : q = p <;> simp [h]
  rw [storedProperties, List.filter_filterMap]
  simp only [hchoice]
  rw [← List.filterMap_filter, EntityProperty.filter_all_eq]
  cases h : e.properties p <;> simp [h]

/-- The entity has a value to be served under the name of the property. Its identifier stands for
two properties, whether or not they are stored. -/
def Entity.Shows (e : Entity) (p : EntityProperty) : Prop :=
  (e.properties p).isSome ∨ (p = .id ∨ p = .selfLink) ∧ e.id.isSome

theorem Json.ofFields_same_key (key : String) (values : List Json) :
    ofFields (values.map (key, ·)) = object (values.getLast?.toList.map (key, ·)) := by
  have hfold (older : Option Json) :
      (values.map (key, ·)).foldl (fun sorted field => insertField field.1 field.2 sorted)
          (older.toList.map (key, ·)) = (values.getLast?.or older).toList.map (key, ·) := by
    induction values generalizing older with
    | nil => simp
    | cons value values ih =>
        have hinsert : insertField key value (older.toList.map (key, ·)) =
            (some value).toList.map (key, ·) := by
          cases older <;> simp [insertField]
        rw [List.map_cons, List.foldl_cons, hinsert, ih, List.getLast?_cons]
        cases values.getLast? <;> rfl
  rw [ofFields]
  exact congrArg object ((hfold none).trans (by rw [Option.or_none]))

namespace Payload

variable {e : Entity} {root : String} {p : EntityProperty}

/-- What an entity has to show for a property: the stored value or, for the identifier and the
entity's own link, what its identifier leads to. -/
def shown? (e : Entity) (root : String) (p : EntityProperty) : Option Json :=
  match e.properties p with
  | some value => some value.toJson
  | none =>
      match p with
      | .id => e.id.map Id.toJson
      | .selfLink => (selfLink? e root).map .string
      | _ => none

theorem isSelected_property (q : EntityProperty) (key : String) (value : Json) :
    isSelected (some [p.wireName]) ⟨q.wireName, key, value⟩ = decide (q = p) := by
  have hname : isSelected (some [p.wireName]) ⟨q.wireName, key, value⟩ =
      decide (q.wireName = p.wireName) := by simp [isSelected]
  rw [hname]
  exact decide_eq_decide.2 ⟨EntityProperty.wireName_injective, congrArg EntityProperty.wireName⟩

theorem filter_entries (q : EntityProperty) (values : List Json) :
    (values.map fun value => (⟨q.wireName, q.wireName, value⟩ : Entry)).filter
        (isSelected (some [p.wireName])) =
      if q = p then values.map fun value => ⟨p.wireName, p.wireName, value⟩ else [] := by
  rw [List.filter_map]
  simp only [Function.comp_def, isSelected_property]
  by_cases h : q = p
  · subst h
    rw [List.filter_eq_self.2 (by simp), if_pos rfl]
  · rw [List.filter_eq_nil_iff.2 (by simp [h]), if_neg h, List.map_nil]

theorem idEntries_eq : idEntries e = (e.id.toList.map Id.toJson).map fun value =>
    ⟨EntityProperty.id.wireName, EntityProperty.id.wireName, value⟩ := by
  unfold idEntries
  cases e.id <;> rfl

theorem selfLinkEntries_eq : selfLinkEntries e root =
    ((selfLink? e root).toList.map Json.string).map fun value =>
      ⟨EntityProperty.selfLink.wireName, EntityProperty.selfLink.wireName, value⟩ := by
  unfold selfLinkEntries
  cases selfLink? e root <;> rfl

theorem filter_propertyEntries : (propertyEntries e).filter (isSelected (some [p.wireName])) =
    ((e.properties p).toList.map Value.toJson).map fun value =>
      ⟨p.wireName, p.wireName, value⟩ := by
  rw [propertyEntries, List.filter_map]
  simp only [Function.comp_def, isSelected_property]
  rw [e.filter_storedProperties p, List.map_map, List.map_map]
  rfl

theorem filter_navigationEntries :
    (navigationEntries e root).filter (isSelected (some [p.wireName])) = [] := by
  rw [List.filter_eq_nil_iff]
  intro entry hentry
  unfold navigationEntries at hentry
  split at hentry
  · obtain ⟨n, _, rfl⟩ := List.mem_map.1 hentry
    simpa [isSelected] using n.name_ne_wireName p
  · cases hentry

/-- The values that are written for a property one over the other. -/
def written (e : Entity) (root : String) (p : EntityProperty) : List Json :=
  (if .id = p then e.id.toList.map Id.toJson else []) ++
    (if .selfLink = p then (selfLink? e root).toList.map .string else []) ++
    (e.properties p).toList.map Value.toJson

theorem filter_entries_eq : (entries e root).filter (isSelected (some [p.wireName])) =
    (written e root p).map fun value => ⟨p.wireName, p.wireName, value⟩ := by
  rw [entries, List.filter_append, List.filter_append, List.filter_append, idEntries_eq,
    selfLinkEntries_eq, filter_entries, filter_entries, filter_propertyEntries,
    filter_navigationEntries, List.append_nil, written, List.map_append, List.map_append]
  congr 1
  congr 1 <;> split <;> simp

theorem getLast?_written : (written e root p).getLast? = shown? e root p := by
  unfold written shown?
  -- a stored value comes after those drawn from the identifier, and replaces them
  cases e.properties p with
  | some value => simp
  | none => cases p <;> cases e.id <;> cases h : selfLink? e root <;> simp

theorem shown?_isSome_iff (root : String) : (shown? e root p).isSome ↔ e.Shows p := by
  unfold shown? Entity.Shows
  cases e.properties p with
  | some value => simp
  | none => cases p <;> simp [selfLink?]

theorem object_of_wireName : object e (some [p.wireName]) root =
    .object ((shown? e root p).toList.map (p.wireName, ·)) := by
  rw [object, filter_entries_eq, List.map_map, ← getLast?_written]
  exact Json.ofFields_same_key p.wireName (written e root p)

end Payload

namespace Subscription

variable {s : Subscription} {p : EntityProperty} {id : Option Id}

theorem message_eq_of_property (hkind : s.kind = .property p id) (e : Entity) :
    s.message Payload.compact e = .ok (Json.object
        ((Payload.shown? e s.root p).toList.map (p.wireName, ·))).compact ∧
      s.message Payload.pretty e = .ok (Json.object
        ((Payload.shown? e s.root p).toList.map (p.wireName, ·))).pretty := by
  have hselection : s.kind.selection? = some [p.wireName] := by rw [hkind]; rfl
  constructor
  · rw [message, hselection, Payload.compact, Payload.object_of_wireName]
  · rw [message, hselection, Payload.pretty, Payload.object_of_wireName]

theorem shows_of_isMatch (hkind : s.kind = .property p id) {store : Store} {event : Event}
    (hmatch : s.isMatch store event = true) (hid : id ≠ none) (hp : p = .id ∨ p = .selfLink) :
    event.entity.Shows p := by
  have hmatches : s.Matches (some store) event := isMatch_iff.1 hmatch
  obtain ⟨id, rfl⟩ := Option.ne_none_iff_exists'.1 hid
  have hentity : event.entity.id = some id := hmatches.concerns.id id (by rw [hkind]; rfl)
  exact .inr ⟨hp, by rw [hentity]; rfl⟩

/-- The notification of a change of a property is an object with one field, that of the property,
if the entity shows the property, and an object without fields otherwise. Only the identifier and
the own link of an entity that the path names are sure to be shown. -/
theorem message_of_isMatch (hkind : s.kind = .property p id) {store : Store} {event : Event}
    (hmatch : s.isMatch store event = true) :
    (event.entity.Shows p → ∃ value, Payload.shown? event.entity s.root p = some value ∧
      s.message Payload.compact event.entity = .ok (Json.object [(p.wireName, value)]).compact ∧
      s.message Payload.pretty event.entity = .ok (Json.object [(p.wireName, value)]).pretty) ∧
    (¬event.entity.Shows p →
      s.message Payload.compact event.entity = .ok "{}" ∧
      s.message Payload.pretty event.entity = .ok "{}") ∧
    (id ≠ none → p = .id ∨ p = .selfLink → event.entity.Shows p) := by
  obtain ⟨hcompact, hpretty⟩ := message_eq_of_property hkind event.entity
  refine ⟨fun hshows => ?_, fun hshows => ?_, shows_of_isMatch hkind hmatch⟩
  · obtain ⟨value, hvalue⟩ := Option.isSome_iff_exists.1
      ((Payload.shown?_isSome_iff s.root).2 hshows)
    rw [hvalue] at hcompact hpretty
    exact ⟨value, hvalue, hcompact, hpretty⟩
  · have hnone : Payload.shown? event.entity s.root p = none := by
      rwa [← Option.not_isSome_iff_eq_none, Payload.shown?_isSome_iff]
    rw [hnone] at hcompact hpretty
    exact ⟨hcompact, hpretty⟩

/-- The own link of an entity is in the notification although it is not stored. -/
theorem message_of_isMatch_selfLink :
    let s : Subscription := ⟨"Things(1)/@iot.selfLink", .thing,
      .property .selfLink (some (.long 1)), none, "http://example.org/"⟩
    let event : Event :=
      ⟨(Entity.empty .thing).withId (.long 1), some [.entity .name, .entity .selfLink]⟩
    s.kind = .property .selfLink (some (.long 1)) ∧
      s.isMatch Store.unavailable event = true ∧ event.entity.Shows .selfLink ∧
      s.message Payload.compact event.entity = .ok (Json.object
        [("@iot.selfLink", .string "http://example.org/Things(1)")]).compact := by
  intro s event
  have hmatch : s.isMatch Store.unavailable event = true := by decide
  obtain ⟨hmessage, _, hsure⟩ := message_of_isMatch (s := s) rfl hmatch
  have hshows : event.entity.Shows .selfLink := hsure (by decide) (.inr rfl)
  have hlink : Payload.selfLink? event.entity s.root = some "http://example.org/Things(1)" := by
    decide +kernel
  have hshown : Payload.shown? event.entity s.root .selfLink =
      (Payload.selfLink? event.entity s.root).map .string := rfl
  rw [hlink] at hshown
  obtain ⟨value, hvalue, hcompact, _⟩ := hmessage hshows
  cases Option.some.inj (hshown.symm.trans hvalue)
  exact ⟨rfl, hmatch, hshows, hcompact⟩

/-- A description that was taken away is announced by an object without fields. -/
theorem message_of_removed_description :
    let s : Subscription := ⟨"Things(1)/description", .thing,
      .property .description (some (.long 1)), none, ""⟩
    let event : Event :=
      ⟨(Entity.empty .thing).withId (.long 1), some [.entity .description]⟩
    create s.topic ⟨[.entity .thing (some (.long 1)), .property .description]⟩ s.root = .ok s ∧
      s.isMatch Store.unavailable event = true ∧
      s.message Payload.compact event.entity = .ok "{}" := by
  intro s event
  have hquery : queryChars s.topic = [] := by decide +kernel
  have hcreate : create s.topic ⟨[.entity .thing (some (.long 1)), .property .description]⟩ s.root =
      .ok s := by
    simp only [create, ResourcePath.last?, classify, hquery]
    rfl
  have hkind : s.kind = .property .description (some (.long 1)) := rfl
  exact ⟨hcreate, by decide, (message_eq_of_property hkind event.entity).1⟩

end Subscription

end LiveFilter
