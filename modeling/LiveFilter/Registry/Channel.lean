/-! # Broadcast channels

A channel counts the messages sent on it and retains the latest. Every receiver has a position of
its own, and learns how many messages it lost when it falls behind what is retained.
-/

namespace LiveFilter

attribute [local instance (high)] instPowNat

/-- The least power of two that is not below `n`, and one for zero. -/
def roundUpToPower (n : Nat) : Nat :=
  if n ≤ 1 then 1 else 2 ^ ((n - 1).log2 + 1)

structure Channel (α : Type) where
  capacity : Nat
  /-- How many messages were sent. -/
  sent : Nat
  /-- The latest messages, oldest first. -/
  retained : List α
  /-- No message follows those retained. -/
  closed : Bool

inductive Reception (α : Type) where
  | message (value : α)
  | lagged (count : Nat)
  | empty
  | closed

namespace Channel

variable {α : Type}

/-- Two to the power of 63. -/
def limit : Nat := 9223372036854775808

def Opens (capacity : Nat) : Prop := 0 < capacity ∧ capacity < limit

def ofCapacity (capacity : Nat) : Channel α := ⟨roundUpToPower capacity, 0, [], false⟩

/-- Sends a message, which takes the place of the oldest one when the channel is full. -/
def send (c : Channel α) (value : α) : Channel α :=
  let messages := c.retained ++ [value]
  { c with sent := c.sent + 1, retained := messages.drop (messages.length - c.capacity) }

def close (c : Channel α) : Channel α := { c with closed := true }

def oldest (c : Channel α) : Nat := c.sent - c.retained.length

def receive (c : Channel α) (position : Nat) : Reception α × Nat :=
  if position < c.oldest then (.lagged (c.oldest - position), c.oldest)
  else
    match c.retained[position - c.oldest]? with
    | some value => (.message value, position + 1)
    | none => (if c.closed then .closed else .empty, position)

end Channel

end LiveFilter
