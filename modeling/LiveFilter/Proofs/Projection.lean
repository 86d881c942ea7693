import LiveFilter.Payload
import LiveFilter.Proofs.Keyed

/-! # Selections as projections

Every entry of a payload is selected by a name that its key determines, so entries that overwrite
each other are selected together. A selection therefore takes fields out of the payload without a
selection and changes nothing in those that it leaves.
-/

namespace LiveFilter

open Keyed (Sorted)

namespace Json

theorem insertField_eq_insert (key : String) (value : Json) (fields : List (String × Json)) :
    insertField key value fields = Keyed.insert key value fields := by
  induction fields with
  | nil => rfl
  | cons field rest ih => rw [insertField, Keyed.insert, ih]

theorem ofFields_eq (fields : List (String × Json)) :
    ofFields fields = object (Keyed.ofList fields) := by
  simp only [ofFields, Keyed.ofList, insertField_eq_insert]

end Json

namespace Payload

variable {e : Entity} {root : String} {entry : Entry}

/-- The name by which the entry with a key is selected: that of the link for the address of a link,
and the key itself otherwise. -/
def nameOfKey (key : String) : String :=
  match NavigationProperty.all.find? (linkKey · = key) with
  | some n => n.name
  | none => key

theorem nameOfKey_linkKey (n : NavigationProperty) : nameOfKey (linkKey n) = n.name := by
  have h : ∀ n ∈ NavigationProperty.all, nameOfKey (linkKey n) = n.name := by decide +kernel
  exact h n n.mem_all

theorem nameOfKey_wireName (p : EntityProperty) : nameOfKey p.wireName = p.wireName := by
  have h : ∀ p ∈ EntityProperty.all, nameOfKey p.wireName = p.wireName := by decide +kernel
  exact h p p.mem_all

/-- All that an entry of a payload can be. -/
inductive Writes (e : Entity) (root : String) : Entry → Prop
  | id {id : Id} (h : e.id = some id) : Writes e root ⟨"@iot.id", "@iot.id", id.toJson⟩
  | selfLink {link : String} (h : selfLink? e root = some link) :
      Writes e root ⟨"@iot.selfLink", "@iot.selfLink", .string link⟩
  | property {p : EntityProperty} {value : Value} (h : e.properties p = some value) :
      Writes e root ⟨p.wireName, p.wireName, value.toJson⟩
  | link {link : String} {n : NavigationProperty} (h : selfLink? e root = some link)
      (hn : n ∈ e.type.navigation) :
      Writes e root ⟨n.name, linkKey n, .string (link ++ "/" ++ n.name)⟩

theorem writes_of_mem (h : entry ∈ entries e root) : Writes e root entry := by
  simp only [entries, List.mem_append] at h
  rcases h with ((h | h) | h) | h
  · unfold idEntries at h
    split at h
    · rename_i hid
      obtain rfl := List.mem_singleton.1 h
      exact .id hid
    · cases h
  · unfold selfLinkEntries at h
    split at h
    · rename_i hlink
      obtain rfl := List.mem_singleton.1 h
      exact .selfLink hlink
    · cases h
  · obtain ⟨⟨p, value⟩, hp, rfl⟩ := List.mem_map.1 h
    obtain ⟨q, _, hq⟩ := List.mem_filterMap.1 hp
    obtain ⟨v, hv, hpair⟩ := Option.map_eq_some_iff.1 hq
    cases hpair
    exact .property hv
  · unfold navigationEntries at h
    split at h
    · rename_i hlink
      obtain ⟨n, hn, rfl⟩ := List.mem_map.1 h
      exact .link hlink hn
    · cases h

theorem mem_of_writes (h : Writes e root entry) : entry ∈ entries e root := by
  simp only [entries, List.mem_append]
  cases h with
  | id h => exact .inl (.inl (.inl (by simp [idEntries, h])))
  | selfLink h => exact .inl (.inl (.inr (by simp [selfLinkEntries, h])))
  | @property p value h =>
      refine .inl (.inr (List.mem_map.2 ⟨(p, value), ?_, rfl⟩))
      exact List.mem_filterMap.2 ⟨p, p.mem_all, Option.map_eq_some_iff.2 ⟨value, h, rfl⟩⟩
  | @link link n h hn =>
      refine .inr ?_
      rw [navigationEntries, h]
      exact List.mem_map.2 ⟨n, hn, rfl⟩

theorem mem_entries : entry ∈ entries e root ↔ Writes e root entry :=
  ⟨writes_of_mem, mem_of_writes⟩

theorem Writes.nameOfKey_eq (h : Writes e root entry) : nameOfKey entry.key = entry.name := by
  cases h with
  | id h => exact nameOfKey_wireName .id
  | selfLink h => exact nameOfKey_wireName .selfLink
  | property h => exact nameOfKey_wireName _
  | link h hn => exact nameOfKey_linkKey _

theorem exists_selfLink?_iff : (∃ link, selfLink? e root = some link) ↔ e.id.isSome := by
  rw [← Option.isSome_iff_exists, selfLink?, Option.isSome_map]

inductive HasKey (e : Entity) : String → Prop
  | id (h : e.id.isSome) : HasKey e "@iot.id"
  | selfLink (h : e.id.isSome ∨ (e.properties .selfLink).isSome) : HasKey e "@iot.selfLink"
  | property {p : EntityProperty} (h : (e.properties p).isSome) : HasKey e p.wireName
  | link {n : NavigationProperty} (hid : e.id.isSome) (hn : n ∈ e.type.navigation) :
      HasKey e (linkKey n)

theorem Writes.hasKey (h : Writes e root entry) : HasKey e entry.key := by
  cases h with
  | id h => exact .id (Option.isSome_of_eq_some h)
  | selfLink h => exact .selfLink (.inl (exists_selfLink?_iff.1 ⟨_, h⟩))
  | property h => exact .property (Option.isSome_of_eq_some h)
  | link h hn => exact .link (exists_selfLink?_iff.1 ⟨_, h⟩) hn

theorem HasKey.writes (root : String) {key : String} (h : HasKey e key) :
    ∃ entry, Writes e root entry ∧ entry.key = key := by
  cases h with
  | id h =>
      obtain ⟨id, hid⟩ := Option.isSome_iff_exists.1 h
      exact ⟨_, .id hid, rfl⟩
  | selfLink h =>
      rcases h with h | h
      · obtain ⟨link, hlink⟩ := exists_selfLink?_iff.2 h
        exact ⟨_, .selfLink hlink, rfl⟩
      · obtain ⟨value, hvalue⟩ := Option.isSome_iff_exists.1 h
        exact ⟨_, .property hvalue, rfl⟩
  | property h =>
      obtain ⟨value, hvalue⟩ := Option.isSome_iff_exists.1 h
      exact ⟨_, .property hvalue, rfl⟩
  | link hid hn =>
      obtain ⟨link, hlink⟩ := exists_selfLink?_iff.2 hid
      exact ⟨_, .link hlink hn, rfl⟩

def fields (e : Entity) (root : String) : List (String × Json) :=
  Keyed.ofList ((entries e root).map fun entry => (entry.key, entry.value))

theorem mem_keys_fields {key : String} : key ∈ (fields e root).map Prod.fst ↔ HasKey e key := by
  rw [fields, Keyed.mem_keys_ofList, List.map_map, List.mem_map]
  constructor
  · rintro ⟨entry, hentry, rfl⟩
    exact (mem_entries.1 hentry).hasKey
  · intro h
    obtain ⟨entry, hentry, hkey⟩ := h.writes root
    exact ⟨entry, mem_entries.2 hentry, hkey⟩

theorem object_none (e : Entity) (root : String) : object e none root = .object (fields e root) := by
  have hselect : (entries e root).filter (isSelected none) = entries e root :=
    List.filter_eq_self.2 fun _ _ => rfl
  rw [object, Json.ofFields_eq, hselect, fields]

theorem object_some (e : Entity) (names : List String) (root : String) :
    object e (some names) root =
      .object ((fields e root).filter fun field => nameOfKey field.1 ∈ names) := by
  have hselect : (entries e root).filter (isSelected (some names)) =
      (entries e root).filter fun entry => nameOfKey entry.key ∈ names := by
    refine List.filter_congr fun entry hentry => ?_
    rw [isSelected, (mem_entries.1 hentry).nameOfKey_eq, List.contains_eq_mem]
  rw [object, Json.ofFields_eq, hselect, fields,
    ← Keyed.ofList_filter (fun key => nameOfKey key ∈ names), List.filter_map]
  rfl

/-- The payload without a selection has the keys that the entity calls for, each once and in order,
and a selection takes from its fields those whose names are selected. This holds in both layouts. -/
theorem object_of_selection (e : Entity) (root : String) :
    ∃ fields, object e none root = .object fields ∧ Sorted fields ∧
      (∀ key, key ∈ fields.map Prod.fst ↔ HasKey e key) ∧
      (∀ names, object e (some names) root =
        .object (fields.filter fun field => nameOfKey field.1 ∈ names)) ∧
      ∀ select, compact e select root = .ok (object e select root).compact ∧
        pretty e select root = .ok (object e select root).pretty :=
  ⟨fields e root, object_none e root, Keyed.sorted_ofList _, fun _ => mem_keys_fields,
    fun names => object_some e names root, fun _ => ⟨rfl, rfl⟩⟩

end Payload

end LiveFilter
