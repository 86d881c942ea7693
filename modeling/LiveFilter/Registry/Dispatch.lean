import LiveFilter.Registry.Basic

/-! # Dispatch of events

An event is put to the subscriptions on its entity type, in the order of their topics. What each
of them makes of it does not depend on the others.
-/

namespace LiveFilter

/-- How many subscriptions matched, how many of those reached a receiver, and how many could not
be written. -/
structure DispatchReport where
  matched : Nat
  delivered : Nat
  failed : Nat
deriving DecidableEq

inductive Outcome where
  | unmatched
  | failed
  | written (payload : String)
deriving DecidableEq

/-- The subscription's own part of a dispatch. -/
def Subscription.outcome (s : Subscription) (formatter : Formatter) (store : Option Store)
    (event : Event) : Outcome :=
  if s.isMatch (store.getD Store.unavailable) event then
    match s.message formatter event.entity with
    | .ok payload => .written payload
    | .error _ => .failed
  else .unmatched

/-- What the store is asked, if there is one. -/
def Subscription.callsTo (s : Subscription) (store : Option Store) (event : Event) :
    List StoreCall :=
  match store with
  | some store => (s.matching store event).2
  | none => []

namespace Registry

/-- A registry in the course of a dispatch, with what happened so far. -/
structure Dispatch where
  registry : Registry
  report : DispatchReport
  calls : List StoreCall

def send (r : Registry) (handle : Nat) (notification : Notification) : Registry :=
  { r with
    registrations := r.registrations.modify handle fun g =>
      { g with channel := g.channel.send notification } }

/-- Whether what is written for a registration reaches someone: the registration has not been
removed, and there is a receiver. -/
def delivers (r : Registry) (handle : Nat) : Bool := r.isActive handle && r.hasReceiver handle

def Dispatch.record (d : Dispatch) (handle : Nat) (topic : String) : Outcome → Dispatch
  | .unmatched => d
  | .failed =>
      { d with report :=
        { d.report with matched := d.report.matched + 1, failed := d.report.failed + 1 } }
  | .written payload =>
      if d.registry.delivers handle then
        { d with
          registry := d.registry.send handle ⟨topic, payload⟩
          report := { d.report with
            matched := d.report.matched + 1, delivered := d.report.delivered + 1 } }
      else { d with report := { d.report with matched := d.report.matched + 1 } }

/-- The store that dispatch may ask. -/
def fallback (r : Registry) (services : Services) : Option Store :=
  if r.config.storeFallback then services.store else none

/-- The registrations that an event of that type is put to, in the order of their topics. -/
def targets (r : Registry) (type : EntityType) : List (Nat × Subscription) :=
  (r.topicsOfType type).filterMap fun topic =>
    match r.handle? topic with
    | some handle => (r.registration? handle).map fun g => (handle, g.subscription)
    | none => none

def dispatchOne (services : String → Services) (event : Event) (d : Dispatch)
    (target : Nat × Subscription) : Dispatch :=
  let s := target.2
  let available := services s.topic
  let store := d.registry.fallback available
  let d := d.record target.1 s.topic (s.outcome available.formatter store event)
  { d with calls := d.calls ++ s.callsTo store event }

/-- Dispatches an event; each topic may have services of its own. -/
def notifyEach (r : Registry) (services : String → Services) (event : Event) : Dispatch :=
  (r.targets event.entity.type).foldl (dispatchOne services event) ⟨r, ⟨0, 0, 0⟩, []⟩

def notify (r : Registry) (event : Event) : Dispatch := r.notifyEach (fun _ => r.services) event

end Registry

end LiveFilter
