import LiveFilter.Registry.Keyed
import Mathlib.Data.List.Induction

/-! # Laws of sorted lists

What putting an entry into a list sorted by key does to the keys, and to the entries of which some
keys are kept. A list made from entries of any order has them sorted, the last one of a key, and a
choice by keys may as well be made before.
-/

namespace LiveFilter.Keyed

variable {α : Type}

theorem map_fst_insert (key : String) (value : α) (entries : List (String × α)) :
    (insert key value entries).map Prod.fst = insertText key (entries.map Prod.fst) := by
  induction entries with
  | nil => rfl
  | cons entry rest ih =>
      obtain ⟨k, v⟩ := entry
      simp only [insert, List.map_cons, insertText]
      split
      · rfl
      · rename_i hlt
        split
        · rw [List.map_cons, ih]
        · rename_i hgt
          rw [List.map_cons, String.le_antisymm (String.not_lt.1 hgt) (String.not_lt.1 hlt)]

theorem map_fst_erase (key : String) (entries : List (String × α)) :
    (erase key entries).map Prod.fst = (entries.map Prod.fst).filter (· ≠ key) := by
  rw [erase, List.filter_map]
  rfl

theorem sorted_insertText {texts : List String} (text : String) (h : texts.Pairwise (· < ·)) :
    (insertText text texts).Pairwise (· < ·) := by
  induction texts with
  | nil => exact List.pairwise_singleton _ _
  | cons t rest ih =>
      obtain ⟨hhead, hrest⟩ := List.pairwise_cons.1 h
      unfold insertText
      split
      · rename_i hlt
        refine List.pairwise_cons.2 ⟨fun s hs => ?_, h⟩
        rcases List.mem_cons.1 hs with rfl | hs
        · exact hlt
        · exact String.lt_trans hlt (hhead s hs)
      · split
        · rename_i hgt
          refine List.pairwise_cons.2 ⟨fun s hs => ?_, ih hrest⟩
          rcases mem_insertText.1 hs with rfl | hs
          · exact hgt
          · exact hhead s hs
        · exact h

def Sorted (entries : List (String × α)) : Prop := (entries.map Prod.fst).Pairwise (· < ·)

theorem sorted_cons {entry : String × α} {entries : List (String × α)} :
    Sorted (entry :: entries) ↔ (∀ e ∈ entries, entry.1 < e.1) ∧ Sorted entries := by
  rw [Sorted, List.map_cons, List.pairwise_cons, List.forall_mem_map]
  rfl

theorem sorted_insert (key : String) (value : α) {entries : List (String × α)}
    (h : Sorted entries) : Sorted (insert key value entries) := by
  rw [Sorted, map_fst_insert]
  exact sorted_insertText key h

section

variable {key k : String} {value v : α} {entries : List (String × α)}

theorem insert_of_lt (h : ∀ e ∈ entries, key < e.1) :
    insert key value entries = (key, value) :: entries := by
  cases entries with
  | nil => rfl
  | cons entry rest => exact if_pos (h entry List.mem_cons_self)

theorem insert_cons_of_gt (h : k < key) :
    insert key value ((k, v) :: entries) = (k, v) :: insert key value entries := by
  rw [insert, if_neg fun hlt => String.lt_irrefl k (String.lt_trans h hlt), if_pos h]

theorem insert_cons_self :
    insert key value ((key, v) :: entries) = (key, value) :: entries := by
  rw [insert, if_neg (String.lt_irrefl key), if_neg (String.lt_irrefl key)]

theorem filter_insert (p : String → Bool) (h : Sorted entries) :
    (insert key value entries).filter (fun e => p e.1) =
      if p key then insert key value (entries.filter fun e => p e.1)
      else entries.filter fun e => p e.1 := by
  induction entries with
  | nil => by_cases hp : p key <;> simp [insert, hp]
  | cons entry rest ih =>
      obtain ⟨k, v⟩ := entry
      obtain ⟨hhead, hrest⟩ := sorted_cons.1 h
      by_cases hlt : key < k
      · -- the new entry comes before all others, hence also before those that are kept
        have hall : ∀ e ∈ (k, v) :: rest, key < e.1 :=
          List.forall_mem_cons.2 ⟨hlt, fun e he => String.lt_trans hlt (hhead e he)⟩
        rw [insert_of_lt hall, insert_of_lt fun e he => hall e (List.mem_filter.1 he).1,
          List.filter_cons]
      · by_cases hgt : k < key
        · rw [insert_cons_of_gt hgt, List.filter_cons, List.filter_cons, ih hrest]
          by_cases hk : p k
          · rw [if_pos hk, if_pos hk, insert_cons_of_gt hgt]
            split <;> rfl
          · rw [if_neg hk, if_neg hk]
        · obtain rfl : key = k := String.le_antisymm (String.not_lt.1 hgt) (String.not_lt.1 hlt)
          rw [insert_cons_self, List.filter_cons, List.filter_cons]
          by_cases hk : p key
          · rw [if_pos hk, if_pos hk, if_pos hk, insert_cons_self]
          · rw [if_neg hk, if_neg hk, if_neg hk]

end

/-- The entries in the order of their keys, with the last one of every key. -/
def ofList (entries : List (String × α)) : List (String × α) :=
  entries.foldl (fun sorted entry => insert entry.1 entry.2 sorted) []

theorem ofList_append (entries : List (String × α)) (entry : String × α) :
    ofList (entries ++ [entry]) = insert entry.1 entry.2 (ofList entries) := by
  simp [ofList]

theorem sorted_ofList (entries : List (String × α)) : Sorted (ofList entries) := by
  induction entries using List.reverseRecOn with
  | nil => exact .nil
  | append_singleton entries entry ih =>
      rw [ofList_append]
      exact sorted_insert _ _ ih

theorem mem_keys_ofList {key : String} {entries : List (String × α)} :
    key ∈ (ofList entries).map Prod.fst ↔ key ∈ entries.map Prod.fst := by
  induction entries using List.reverseRecOn with
  | nil => exact Iff.rfl
  | append_singleton entries entry ih =>
      rw [ofList_append, map_fst_insert, mem_insertText, ih, List.map_append, List.mem_append,
        List.map_singleton, List.mem_singleton, or_comm]

theorem ofList_filter (p : String → Bool) (entries : List (String × α)) :
    ofList (entries.filter fun e => p e.1) = (ofList entries).filter fun e => p e.1 := by
  induction entries using List.reverseRecOn with
  | nil => rfl
  | append_singleton entries entry ih =>
      rw [ofList_append, filter_insert p (sorted_ofList entries), List.filter_append,
        List.filter_cons, List.filter_nil, ← ih]
      split
      · exact ofList_append _ _
      · rw [List.append_nil]

end LiveFilter.Keyed
