import LiveFilter.Config
import LiveFilter.Registry.Channel
import LiveFilter.Registry.Keyed
import LiveFilter.Subscription.Basic

/-! # Registries of subscriptions

A registry shares one subscription among all subscribers of a topic, counts them, and removes the
subscription with its last subscriber. A subscription keeps its handle when it is removed, and
its receivers may still read what was sent before; a later subscription on the topic is another
one.
-/

namespace LiveFilter

structure Notification where
  topic : String
  payload : String
deriving DecidableEq

/-- What a registry needs from outside. -/
structure Services where
  formatter : Formatter
  store : Option Store

/-- A subscription that is or was registered, and the channel to its receivers. -/
structure Registration where
  subscription : Subscription
  active : Bool
  channel : Channel Notification

/-- The registration of a topic, by its handle, and the number of its subscribers. -/
structure TopicEntry where
  handle : Nat
  subscribers : Nat
deriving DecidableEq

structure Receiver where
  handle : Nat
  position : Nat
deriving DecidableEq

structure Registry where
  config : Config
  services : Services
  /-- All registrations there ever were; a handle is a place in this list. -/
  registrations : List Registration
  /-- The registered topics, sorted. -/
  topics : List (String × TopicEntry)
  /-- The registered topics by the type of their entities, sorted for each type. -/
  byType : List (EntityType × List String)
  /-- All receivers there ever were, by number; a dropped one is gone. -/
  receivers : List (Option Receiver)

namespace Registry

def empty (config : Config) (services : Services) : Registry := ⟨config, services, [], [], [], []⟩

def create (config : Config) (services : Services) : Except FilterError Registry :=
  match config.fault? with
  | some fault => .error (.invalidConfig fault)
  | none => .ok (empty config services)

def find? (r : Registry) (topic : String) : Option TopicEntry := Keyed.find? topic r.topics

def contains (r : Registry) (topic : String) : Bool := (r.find? topic).isSome

def handle? (r : Registry) (topic : String) : Option Nat :=
  (r.find? topic).map TopicEntry.handle

def registration? (r : Registry) (handle : Nat) : Option Registration := r.registrations[handle]?

def topicNames (r : Registry) : List String := r.topics.map Prod.fst

def size (r : Registry) : Nat := r.topics.length

def index (type : EntityType) (topic : String) :
    List (EntityType × List String) → List (EntityType × List String)
  | [] => [(type, [topic])]
  | (t, topics) :: rest =>
      if t = type then (t, Keyed.insertText topic topics) :: rest
      else (t, topics) :: index type topic rest

/-- Takes a topic out of the set of a type, and the set out of the index when that empties it. -/
def unindex (type : EntityType) (topic : String) (byType : List (EntityType × List String)) :
    List (EntityType × List String) :=
  (byType.map fun (t, topics) => (t, if t = type then topics.filter (· ≠ topic) else topics)).filter
    fun (t, topics) => t ≠ type || !topics.isEmpty

def topicsOfType (r : Registry) (type : EntityType) : List String :=
  ((r.byType.find? (·.1 = type)).map Prod.snd).getD []

/-- Adds a receiver that will see what is sent from now on, and returns its number. -/
def addReceiver (r : Registry) (handle position : Nat) : Registry × Nat :=
  ({ r with receivers := r.receivers ++ [some ⟨handle, position⟩] }, r.receivers.length)

def insert (r : Registry) (topic : String) (s : Subscription) : Registry × Nat :=
  let handle := r.registrations.length
  let channel := Channel.ofCapacity r.config.notificationBuffer.toNat
  addReceiver
    { r with
      registrations := r.registrations ++ [⟨s, true, channel⟩]
      topics := Keyed.insert topic ⟨handle, 1⟩ r.topics
      byType := index s.entityType topic r.byType }
    handle 0

/-- Subscribes to a topic. A registered topic has its subscription already; otherwise one is
made, and nothing is registered if that fails. -/
def register (r : Registry) (topic : String) (made : Except FilterError Subscription) :
    Except FilterError (Registry × Nat) :=
  match r.find? topic with
  | some entry =>
      let sent := ((r.registration? entry.handle).map (·.channel.sent)).getD 0
      let topics := Keyed.insert topic { entry with subscribers := entry.subscribers + 1 } r.topics
      .ok (addReceiver { r with topics } entry.handle sent)
  | none => made.map (r.insert topic)

/-- Subscribes to a topic with a path, narrowed if there is a filter. The number of the new
receiver is returned. -/
def subscribe (r : Registry) (topic : String) (path : ResourcePath) (root : String)
    (filter : Option Expression) : Except FilterError (Registry × Nat) :=
  r.register topic (Subscription.createWith topic path root filter)

def retire (registrations : List Registration) (handle : Nat) : List Registration :=
  registrations.modify handle fun g => { g with active := false, channel := g.channel.close }

def remove (r : Registry) (topic : String) (entry : TopicEntry) : Registry :=
  let type := (r.registration? entry.handle).map (·.subscription.entityType)
  { r with
    registrations := retire r.registrations entry.handle
    topics := Keyed.erase topic r.topics
    byType := match type with
      | some type => unindex type topic r.byType
      | none => r.byType }

/-- Takes one subscriber off a topic, and the topic out of the registry with its last one. The
answer is whether the topic was registered. -/
def unsubscribe (r : Registry) (topic : String) : Registry × Bool :=
  match r.find? topic with
  | none => (r, false)
  | some entry =>
      if 1 < entry.subscribers then
        let entry := { entry with subscribers := entry.subscribers - 1 }
        ({ r with topics := Keyed.insert topic entry r.topics }, true)
      else (r.remove topic entry, true)

def receiver? (r : Registry) (number : Nat) : Option Receiver := r.receivers[number]?.join

def receive (r : Registry) (number : Nat) : Option (Registry × Reception Notification) := do
  let receiver ← r.receiver? number
  let g ← r.registration? receiver.handle
  let (reception, position) := g.channel.receive receiver.position
  some ({ r with receivers := r.receivers.set number (some { receiver with position }) }, reception)

def dropReceiver (r : Registry) (number : Nat) : Registry :=
  { r with receivers := r.receivers.set number none }

/-- Whether a registration is there and has not been removed. -/
def isActive (r : Registry) (handle : Nat) : Bool :=
  (r.registration? handle).any Registration.active

def hasReceiver (r : Registry) (handle : Nat) : Bool :=
  r.receivers.any fun
    | some receiver => receiver.handle == handle
    | none => false

end Registry

end LiveFilter
