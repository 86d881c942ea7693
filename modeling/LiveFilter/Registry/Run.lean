import LiveFilter.Registry.Dispatch

/-! # Histories of a registry

The commands that a registry is given, its reply to each, and the states that are reached from an
empty registry.
-/

namespace LiveFilter.Registry

inductive Command where
  | subscribe (topic : String) (path : ResourcePath) (root : String)
      (filter : Option Expression)
  | unsubscribe (topic : String)
  | notify (event : Event)
  | receive (receiver : Nat)
  | drop (receiver : Nat)

inductive Reply where
  /-- The number of the new receiver. -/
  | subscribed (receiver : Nat)
  | refused (cause : FilterError)
  /-- Whether the topic was registered. -/
  | unsubscribed (found : Bool)
  | notified (report : DispatchReport) (calls : List StoreCall)
  | received (reception : Reception Notification)
  | noReceiver
  /-- Whether there was that receiver. -/
  | dropped (found : Bool)

/-- One command. A refused subscription leaves the registry as it is. -/
def step (r : Registry) : Command → Registry × Reply
  | .subscribe topic path root filter =>
      match r.subscribe topic path root filter with
      | .ok (r, receiver) => (r, .subscribed receiver)
      | .error cause => (r, .refused cause)
  | .unsubscribe topic =>
      let (r, found) := r.unsubscribe topic
      (r, .unsubscribed found)
  | .notify event =>
      let d := r.notify event
      (d.registry, .notified d.report d.calls)
  | .receive receiver =>
      match r.receive receiver with
      | some (r, reception) => (r, .received reception)
      | none => (r, .noReceiver)
  | .drop receiver => (r.dropReceiver receiver, .dropped (r.receiver? receiver).isSome)

def run (r : Registry) : List Command → Registry × List Reply
  | [] => (r, [])
  | c :: cs =>
      let (r, reply) := r.step c
      let (r, replies) := run r cs
      (r, reply :: replies)

/-- The states that some commands lead to from an empty registry that can open its channels. -/
def Reachable (r : Registry) : Prop :=
  ∃ config services commands, Channel.Opens config.notificationBuffer.toNat ∧
    ((empty config services).run commands).1 = r

/-- A registry that was created as its configuration says can open channels, unless the buffer is
beyond what a channel can hold. -/
theorem reachable_of_create (config : Config) (services : Services) {r : Registry}
    (h : create config services = .ok r) (hroom : config.notificationBuffer.toNat < Channel.limit)
    (commands : List Command) : (r.run commands).1.Reachable := by
  unfold create Config.fault? at h
  split at h
  · cases h
  · rename_i hfault
    cases h
    refine ⟨config, services, commands, ⟨Nat.pos_of_ne_zero fun hzero => ?_, hroom⟩, rfl⟩
    have hbuffer : config.notificationBuffer = 0 := UInt64.toNat_inj.1 hzero
    rw [if_pos hbuffer] at hfault
    cases hfault

end LiveFilter.Registry
