import LiveFilter.Registry.Channel

/-! # The backlog of a receiver

A channel is described by all the messages that were ever sent on it, and a receiver by how many of
them are behind it. What it gets next depends only on those before it: a count of the ones that
were lost, if they are more than the channel holds, and then the others one after the other.
-/

namespace LiveFilter

theorem le_roundUpToPower (n : Nat) : n ≤ roundUpToPower n := by
  unfold roundUpToPower
  split
  · assumption
  · have hlt : n - 1 < 2 ^ ((n - 1).log2 + 1) := Nat.lt_log2_self
    omega

variable {α : Type}

/-- What a receiver was given accounts for these messages: each of them was given to it in its
place, or was among those that were lost there and counted. -/
inductive Accounts : List (Reception α) → List α → Prop where
  | nil : Accounts [] []
  | message (m : α) {given : List (Reception α)} {ms : List α} (h : Accounts given ms) :
      Accounts (.message m :: given) (m :: ms)
  | lagged {missed : List α} (hmissed : missed ≠ []) {given : List (Reception α)} {ms : List α}
      (h : Accounts given ms) : Accounts (.lagged missed.length :: given) (missed ++ ms)
  | empty {given : List (Reception α)} {ms : List α} (h : Accounts given ms) :
      Accounts (.empty :: given) ms
  | closed {given : List (Reception α)} {ms : List α} (h : Accounts given ms) :
      Accounts (.closed :: given) ms

theorem Accounts.append {given given' : List (Reception α)} {ms ms' : List α}
    (h : Accounts given ms) (h' : Accounts given' ms') :
    Accounts (given ++ given') (ms ++ ms') := by
  induction h with
  | nil => exact h'
  | message m _ ih => exact .message m ih
  | lagged hmissed _ ih =>
      rw [List.append_assoc]
      exact .lagged hmissed ih
  | empty _ ih => exact .empty ih
  | closed _ ih => exact .closed ih

theorem accounts_messages (ms : List α) : Accounts (ms.map .message) ms := by
  induction ms with
  | nil => exact .nil
  | cons m ms ih => exact .message m ih

namespace Channel

/-- What a receiver that these messages are before can still be given. -/
def backlog (capacity : Nat) (unread : List α) : List (Reception α) :=
  if capacity < unread.length then
    .lagged (unread.length - capacity) ::
      (unread.drop (unread.length - capacity)).map .message
  else unread.map .message

theorem backlog_of_le {capacity : Nat} {unread : List α} (h : unread.length ≤ capacity) :
    backlog capacity unread = unread.map .message := if_neg (Nat.not_lt.2 h)

theorem accounts_backlog (capacity : Nat) (unread : List α) :
    Accounts (backlog capacity unread) unread := by
  unfold backlog
  split
  · have hlength : (unread.take (unread.length - capacity)).length = unread.length - capacity := by
      rw [List.length_take]
      omega
    have hmissed : unread.take (unread.length - capacity) ≠ [] := by
      rw [ne_eq, ← List.length_eq_zero_iff, hlength]
      omega
    have haccounts := Accounts.lagged hmissed
      (accounts_messages (unread.drop (unread.length - capacity)))
    rwa [List.take_append_drop, hlength] at haccounts
  · exact accounts_messages unread

/-- The channel after these messages were sent on it. -/
structure Carries (c : Channel α) (log : List α) : Prop where
  sent : c.sent = log.length
  retained : c.retained = log.drop (log.length - c.capacity)

variable {c : Channel α} {log read unread : List α} {m : α}

theorem carries_ofCapacity (capacity : Nat) : (ofCapacity capacity : Channel α).Carries [] :=
  ⟨rfl, List.drop_nil.symm⟩

theorem Carries.close (h : c.Carries log) : c.close.Carries log := ⟨h.sent, h.retained⟩

theorem Carries.send (h : c.Carries log) (m : α) : (c.send m).Carries (log ++ [m]) where
  sent := by
    rw [List.length_append, List.length_singleton, ← h.sent]
    rfl
  retained := by
    change (c.retained ++ [m]).drop ((c.retained ++ [m]).length - c.capacity) = _
    have hdrop : log.drop (log.length - c.capacity) ++ [m] =
        (log ++ [m]).drop (log.length - c.capacity) := by
      rw [List.drop_append_of_le_length (Nat.sub_le _ _)]
    rw [h.retained, hdrop, List.drop_drop]
    congr 1
    simp only [List.length_drop, List.length_append, List.length_singleton]
    change _ = log.length + 1 - c.capacity
    omega

theorem Carries.oldest_eq (h : c.Carries log) : c.oldest = log.length - c.capacity := by
  unfold oldest
  rw [h.sent, h.retained, List.length_drop]
  omega

/-- What a receiver is given, by the messages that this puts behind it and those that are left. -/
inductive Gives (capacity : Nat) : Reception α → List α → List α → Prop where
  | lagged {missed kept : List α} (hmissed : missed ≠ []) (hkept : kept.length = capacity) :
      Gives capacity (.lagged missed.length) missed kept
  | message (m : α) {rest : List α} (hrest : rest.length < capacity) :
      Gives capacity (.message m) [m] rest
  | empty : Gives capacity .empty [] []
  | closed : Gives capacity .closed [] []

theorem Carries.gives (h : c.Carries (read ++ unread)) :
    ∃ given taken left, c.receive read.length = (given, read.length + taken.length) ∧
      unread = taken ++ left ∧ Gives c.capacity given taken left := by
  have holdest := h.oldest_eq
  rw [List.length_append] at holdest
  unfold receive
  by_cases hlost : c.capacity < unread.length
  · have hlt : read.length < c.oldest := by omega
    have hmissed : (unread.take (unread.length - c.capacity)).length = c.oldest - read.length := by
      rw [List.length_take]
      omega
    have hkept : (unread.drop (unread.length - c.capacity)).length = c.capacity := by
      rw [List.length_drop]
      omega
    refine ⟨_, _, _, ?_, (List.take_append_drop (unread.length - c.capacity) unread).symm,
      .lagged ?_ hkept⟩
    · rw [if_pos hlt, hmissed, Nat.add_sub_cancel' (Nat.le_of_lt hlt)]
    · rw [ne_eq, ← List.length_eq_zero_iff, hmissed]
      omega
  · have hle : ¬read.length < c.oldest := by omega
    have hplace : c.oldest + (read.length - c.oldest) = read.length := by omega
    rw [if_neg hle, h.retained, List.getElem?_drop, List.length_append, ← holdest, hplace,
      List.getElem?_append_right (Nat.le_refl _), Nat.sub_self]
    cases unread with
    | nil =>
        cases hclosed : c.closed with
        | false => exact ⟨_, [], [], rfl, rfl, .empty⟩
        | true => exact ⟨_, [], [], rfl, rfl, .closed⟩
    | cons m rest => exact ⟨_, [m], rest, rfl, rfl, .message m (Nat.not_lt.1 hlost)⟩

variable {capacity : Nat} {given : Reception α} {taken left : List α}

theorem Gives.accounts (h : Gives capacity given taken left) : Accounts [given] taken := by
  cases h with
  | lagged hmissed hkept =>
      have haccounts := Accounts.lagged hmissed Accounts.nil
      rwa [List.append_nil] at haccounts
  | message m hrest => exact .message m .nil
  | empty => exact .empty .nil
  | closed => exact .closed .nil

theorem Gives.backlog (h : Gives capacity given taken left) :
    backlog capacity (taken ++ left) = given :: backlog capacity left ∨
      taken ++ left = [] ∧ (given = .empty ∨ given = .closed) := by
  cases h with
  | lagged hmissed hkept =>
      left
      have hpos := List.length_pos_iff.2 hmissed
      have hlength : (taken ++ left).length - capacity = taken.length := by
        rw [List.length_append]
        omega
      have hlost : capacity < (taken ++ left).length := by
        rw [List.length_append]
        omega
      rw [backlog_of_le (Nat.le_of_eq hkept)]
      unfold Channel.backlog
      rw [if_pos hlost, hlength, List.drop_left]
  | message m hrest =>
      left
      rw [backlog_of_le (Nat.le_of_lt hrest)]
      exact backlog_of_le hrest
  | empty => exact .inr ⟨rfl, .inl rfl⟩
  | closed => exact .inr ⟨rfl, .inr rfl⟩

end Channel

end LiveFilter
