/-! # Lists sorted by text

Finite maps with texts as keys, and finite sets of texts, both as lists in the order of the texts.
-/

namespace LiveFilter.Keyed

variable {α : Type}

def insert (key : String) (value : α) : List (String × α) → List (String × α)
  | [] => [(key, value)]
  | (k, v) :: rest =>
      if key < k then (key, value) :: (k, v) :: rest
      else if k < key then (k, v) :: insert key value rest
      else (key, value) :: rest

def erase (key : String) (entries : List (String × α)) : List (String × α) :=
  entries.filter fun entry => entry.1 ≠ key

def find? (key : String) (entries : List (String × α)) : Option α :=
  (entries.find? fun entry => entry.1 = key).map Prod.snd

theorem find?_insert (q key : String) (value : α) (entries : List (String × α)) :
    find? q (insert key value entries) = if q = key then some value else find? q entries := by
  induction entries with
  | nil => by_cases h : q = key <;> simp [insert, find?, h, eq_comm]
  | cons entry rest ih =>
    obtain ⟨k, v⟩ := entry
    unfold insert
    split
    · by_cases h : q = key
      · simp [find?, h]
      · simp [find?, h, Ne.symm h]
    · split
      · rename_i _ hk
        have hne : key ≠ k := fun h => String.lt_irrefl k (h ▸ hk)
        by_cases hq : k = q
        · subst hq
          simp [find?, hne.symm]
        · simpa [find?, hq] using ih
      · rename_i h₁ h₂
        have hk : key = k := String.le_antisymm (String.not_lt.1 h₂) (String.not_lt.1 h₁)
        subst hk
        by_cases h : q = key
        · simp [find?, h]
        · simp [find?, h, Ne.symm h]

theorem find?_erase (q key : String) (entries : List (String × α)) :
    find? q (erase key entries) = if q = key then none else find? q entries := by
  induction entries with
  | nil => simp [erase, find?]
  | cons entry rest ih =>
    by_cases hk : entry.1 = key
    · by_cases hq : q = key
      · simp [erase, find?, hk, hq]
      · simpa [erase, find?, hk, hq, Ne.symm hq] using ih
    · by_cases hq : entry.1 = q
      · subst hq
        simp [erase, find?, hk]
      · simpa [erase, find?, hk, hq] using ih

def insertText (text : String) : List String → List String
  | [] => [text]
  | t :: rest =>
      if text < t then text :: t :: rest
      else if t < text then t :: insertText text rest
      else t :: rest

theorem mem_insertText {s text : String} {texts : List String} :
    s ∈ insertText text texts ↔ s = text ∨ s ∈ texts := by
  induction texts with
  | nil => simp [insertText]
  | cons t rest ih =>
    unfold insertText
    split
    · simp
    · split
      · simp only [List.mem_cons, ih]
        exact ⟨fun h => by rcases h with h | h | h <;> simp [h],
          fun h => by rcases h with h | h | h <;> simp [h]⟩
      · rename_i h₁ h₂
        have : text = t := String.le_antisymm (String.not_lt.1 h₂) (String.not_lt.1 h₁)
        simp [this]

end LiveFilter.Keyed
