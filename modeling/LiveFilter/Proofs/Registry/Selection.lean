import Mathlib.Data.List.Basic

/-! # Lists of which some entries are kept

Flags tell which entries of a list are kept. What is done to an entry that is kept can be done to
the kept ones alone, at its rank among them.
-/

namespace LiveFilter.Selection

variable {α β : Type}

def pick : List Bool → List α → List α
  | flag :: flags, x :: l => if flag then x :: pick flags l else pick flags l
  | _, _ => []

/-- The place among the kept entries; those beyond the flags are kept. -/
def rank : List Bool → Nat → Nat
  | [], n => n
  | _ :: _, 0 => 0
  | flag :: flags, n + 1 => rank flags n + flag.toNat

variable {flags : List Bool} {l : List α} {n m : Nat}

theorem pick_map_eq_filter (p : α → Bool) (l : List α) : pick (l.map p) l = l.filter p := by
  induction l with
  | nil => rfl
  | cons x l ih => rw [List.map_cons, pick, List.filter_cons, ih]

theorem pick_map (flags : List Bool) (f : α → β) (l : List α) :
    pick flags (l.map f) = (pick flags l).map f := by
  induction flags generalizing l with
  | nil => rfl
  | cons flag flags ih =>
      cases l with
      | nil => rfl
      | cons x l => cases flag <;> simp [pick, ih]

theorem pick_append (h : flags.length = l.length) (flag : Bool) (x : α) :
    pick (flags ++ [flag]) (l ++ [x]) = pick flags l ++ if flag then [x] else [] := by
  induction flags generalizing l with
  | nil =>
      rw [List.length_nil, eq_comm, List.length_eq_zero_iff] at h
      subst h
      cases flag <;> rfl
  | cons first flags ih =>
      cases l with
      | nil => cases h
      | cons y l => cases first <;> simp [pick, ih (Nat.succ.inj h)]

theorem length_pick (h : flags.length = l.length) :
    (pick flags l).length = rank flags flags.length := by
  induction flags generalizing l with
  | nil => rfl
  | cons flag flags ih =>
      cases l with
      | nil => cases h
      | cons x l =>
          have := ih (Nat.succ.inj h)
          cases flag <;> simp [pick, rank, this]

theorem rank_append (h : n ≤ flags.length) (more : List Bool) :
    rank (flags ++ more) n = rank flags n := by
  induction flags generalizing n with
  | nil =>
      obtain rfl := Nat.le_zero.1 h
      cases more <;> rfl
  | cons flag flags ih =>
      cases n with
      | zero => rfl
      | succ n => exact congrArg (· + flag.toNat) (ih (Nat.le_of_succ_le_succ h))

theorem rank_le_rank (flags : List Bool) (h : n ≤ m) : rank flags n ≤ rank flags m := by
  induction flags generalizing n m with
  | nil => exact h
  | cons flag flags ih =>
      cases n with
      | zero => exact Nat.zero_le _
      | succ n =>
          cases m with
          | zero => cases h
          | succ m => exact Nat.add_le_add_right (ih (Nat.le_of_succ_le_succ h)) _

theorem rank_lt_rank (hn : flags[n]? = some true) (h : n < m) : rank flags n < rank flags m := by
  induction flags generalizing n m with
  | nil => cases hn
  | cons flag flags ih =>
      cases m with
      | zero => cases h
      | succ m =>
          cases n with
          | zero =>
              cases hn
              exact Nat.succ_pos _
          | succ n => exact Nat.add_lt_add_right (ih hn (Nat.lt_of_succ_lt_succ h)) _

theorem eq_of_rank_eq (hn : flags[n]? = some true) (hm : flags[m]? = some true)
    (h : rank flags n = rank flags m) : n = m := by
  obtain hlt | heq | hlt := Nat.lt_trichotomy n m
  · exact absurd h (Nat.ne_of_lt (rank_lt_rank hn hlt))
  · exact heq
  · exact absurd h.symm (Nat.ne_of_lt (rank_lt_rank hm hlt))

theorem getElem?_pick (h : flags[n]? = some true) (l : List α) :
    (pick flags l)[rank flags n]? = l[n]? := by
  induction flags generalizing n l with
  | nil => cases h
  | cons flag flags ih =>
      cases l with
      | nil => rfl
      | cons x l =>
          cases n with
          | zero =>
              cases h
              rfl
          | succ n => cases flag <;> simpa [pick, rank] using ih h l

theorem pick_modify (h : flags[n]? = some true) (f : α → α) (l : List α) :
    pick flags (l.modify n f) = (pick flags l).modify (rank flags n) f := by
  induction flags generalizing n l with
  | nil => cases h
  | cons flag flags ih =>
      cases l with
      | nil => simp [pick]
      | cons x l =>
          cases n with
          | zero =>
              cases h
              rfl
          | succ n => cases flag <;> simp [pick, rank, ih h l]

theorem pick_modify_of_dropped (h : flags[n]? = some false) (f : α → α) (l : List α) :
    pick flags (l.modify n f) = pick flags l := by
  induction flags generalizing n l with
  | nil => cases h
  | cons flag flags ih =>
      cases l with
      | nil => simp
      | cons x l =>
          cases n with
          | zero =>
              cases h
              rfl
          | succ n => cases flag <;> simp [pick, ih h l]

theorem pick_set (h : flags[n]? = some true) (x : α) (l : List α) :
    pick flags (l.set n x) = (pick flags l).set (rank flags n) x := by
  rw [List.set_eq_modify, pick_modify h, ← List.set_eq_modify]

theorem pick_set_of_dropped (h : flags[n]? = some false) (x : α) (l : List α) :
    pick flags (l.set n x) = pick flags l := by
  rw [List.set_eq_modify, pick_modify_of_dropped h]

theorem pick_mapIdx {f g : Nat → α → β}
    (h : ∀ (n : Nat) (x : α), flags[n]? = some true → l[n]? = some x → f n x = g (rank flags n) x) :
    pick flags (l.mapIdx f) = (pick flags l).mapIdx g := by
  induction flags generalizing l f g with
  | nil => rfl
  | cons flag flags ih =>
      cases l with
      | nil => rfl
      | cons x l =>
          rw [List.mapIdx_cons]
          cases flag with
          | false =>
              exact ih fun n x hn hx => h (n + 1) x hn hx
          | true =>
              simp only [pick, if_true, List.mapIdx_cons]
              rw [h 0 x rfl rfl]
              congr 1
              exact ih fun n x hn hx => h (n + 1) x hn hx

theorem any_pick {p q : α → Bool} (hlength : flags.length = l.length)
    (hkept : ∀ (n : Nat) (x : α), flags[n]? = some true → l[n]? = some x → q x = p x)
    (hdropped : ∀ (n : Nat) (x : α), flags[n]? = some false → l[n]? = some x → p x = false) :
    (pick flags l).any q = l.any p := by
  induction flags generalizing l with
  | nil =>
      rw [List.length_nil, eq_comm, List.length_eq_zero_iff] at hlength
      subst hlength
      rfl
  | cons flag flags ih =>
      cases l with
      | nil => cases hlength
      | cons x l =>
          have hrest := ih (Nat.succ.inj hlength) (fun n x hn hx => hkept (n + 1) x hn hx)
            fun n x hn hx => hdropped (n + 1) x hn hx
          cases flag with
          | true => simp [pick, hrest, hkept 0 x rfl rfl]
          | false => simp [pick, hrest, hdropped 0 x rfl rfl]

end LiveFilter.Selection
