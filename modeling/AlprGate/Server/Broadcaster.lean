import Mathlib.Data.List.Pairwise
import Mathlib.Logic.Function.Basic
import AlprGate.Library.BoundedQueue

/-! # The event broadcaster

Publishing assigns the next event id, remembers the envelope in a ring and takes a
snapshot of the subscribers under one lock; each of them is then served under its own
lock, with other threads in between. Subscribing replays the ring into the new queue
and registers it under the broadcaster's lock.
-/
namespace AlprGate.Dash
open BoundedQueue

structure GateCommand where
  commandId : String
  gateId : String
  deriving DecidableEq, Repr

/-- The payload cases of a dashboard event. Only commands are read further. -/
inductive Payload where
  | notSet | decision | telemetry | fault | ota | command (c : GateCommand) | ack
  deriving DecidableEq, Repr

structure DashboardEvent where
  eventId : ℕ := 0
  payload : Payload := .notSet
  deriving DecidableEq, Repr

structure EventEnvelope where
  siteId : String
  gateId : String
  event : DashboardEvent
  deriving DecidableEq, Repr

structure DashboardSubscription where
  siteId : String := ""
  gateIds : List String := []
  includeDecisions : Bool := false
  includeTelemetry : Bool := false
  includeFaults : Bool := false
  includeOta : Bool := false
  sinceEventId : ℕ := 0
  deriving DecidableEq, Repr

/-- Scope first, then the kind flags. Guard actions pass any kind filter, and a
subscription without kind flags gets everything. -/
def filterMatches (filter : DashboardSubscription) (siteId gateId : String)
    (event : DashboardEvent) : Bool :=
  if filter.siteId ≠ "" ∧ filter.siteId ≠ siteId then false
  else if filter.gateIds ≠ [] ∧ gateId ∉ filter.gateIds then false
  else if (filter.includeDecisions || filter.includeTelemetry || filter.includeFaults ||
      filter.includeOta) = false then true
  else match event.payload with
    | .decision => filter.includeDecisions
    | .telemetry => filter.includeTelemetry
    | .fault => filter.includeFaults
    | .ota => filter.includeOta
    | .command _ | .ack => true
    | .notSet => false

/-- A subscription's shared state. `expired` says that its owner has let go of it. -/
structure Subscription where
  filter : DashboardSubscription := {}
  queue : List DashboardEvent := []
  capacity : ℕ := 1024
  dropped : ℕ := 0
  closed : Bool := false
  expired : Bool := false
  deriving DecidableEq, Repr

def Subscription.pushLocked (s : Subscription) (e : DashboardEvent) : Subscription :=
  { s with queue := pushDrop s.capacity s.queue e,
           dropped := if 0 < s.capacity ∧ s.capacity ≤ s.queue.length then s.dropped + 1
             else s.dropped }

/-- One envelope under the subscription's lock. -/
def Subscription.offer (s : Subscription) (env : EventEnvelope) : Subscription :=
  if s.closed = true then s
  else if filterMatches s.filter env.siteId env.gateId env.event = true then
    s.pushLocked env.event
  else s

structure Bus where
  ring : List EventEnvelope := []
  ringCapacity : ℕ := 4096
  perSubCapacity : ℕ := 1024
  nextEventId : ℕ := 1
  subs : List ℕ := []
  stopped : Bool := false
  sub : ℕ → Subscription := fun _ => {}

namespace Bus

/-- The envelope a publish call builds under the lock. -/
def envelope (b : Bus) (siteId gateId : String) (payload : Payload) : EventEnvelope :=
  ⟨siteId,gateId,b.nextEventId,payload⟩

/-- The subscribers that are still there. -/
def live (b : Bus) : List ℕ := b.subs.filter fun i => (b.sub i).expired = false

/-- The locked part of `publish`, which also forgets dead subscribers. -/
def assign (b : Bus) (siteId gateId : String) (payload : Payload) : Bus :=
  { b with
    nextEventId := b.nextEventId + 1
    ring := (if b.ring.length = b.ringCapacity then b.ring.tail else b.ring) ++
      [b.envelope siteId gateId payload]
    subs := b.live }

/-- Serving one target of a publish call. -/
def deliver (b : Bus) (env : EventEnvelope) (i : ℕ) : Bus :=
  { b with sub := Function.update b.sub i ((b.sub i).offer env) }

/-- The events of the ring that a new subscription is owed. -/
def owed (b : Bus) (filter : DashboardSubscription) : List DashboardEvent :=
  (b.ring.filter fun env => decide (filter.sinceEventId < env.event.eventId) &&
    filterMatches filter env.siteId env.gateId env.event).map EventEnvelope.event

/-- The locked part of `subscribe`. -/
def subscribe (b : Bus) (i : ℕ) (filter : DashboardSubscription) : Bus :=
  { b with
    subs := b.subs ++ [i]
    sub := Function.update b.sub i
      ((b.owed filter).foldl Subscription.pushLocked
        { filter := filter, capacity := b.perSubCapacity }) }

/-- `next` with a queued event; the caller handles an empty queue. -/
def pop (b : Bus) (i : ℕ) : Bus :=
  { b with sub := Function.update b.sub i { b.sub i with queue := (b.sub i).queue.tail } }

def close (b : Bus) (i : ℕ) : Bus :=
  { b with sub := Function.update b.sub i { b.sub i with closed := true } }

/-- The destructor closes and lets go. -/
def destroy (b : Bus) (i : ℕ) : Bus :=
  { b with sub := Function.update b.sub i { b.sub i with closed := true, expired := true } }

def stop (b : Bus) : Bus := { b with stopped := true }

/-- The rest of `stop`: the registered subscribers are closed and forgotten. -/
def closeAll (b : Bus) : Bus :=
  { b with
    subs := []
    sub := fun i => if i ∈ b.live then { b.sub i with closed := true } else b.sub i }

/-- The ids in the queue of a subscriber. -/
def queued (b : Bus) (i : ℕ) : List ℕ := (b.sub i).queue.map DashboardEvent.eventId

def ringIds (b : Bus) : List ℕ := b.ring.map fun env => env.event.eventId

end Bus

theorem offer_closed {s : Subscription} {env : EventEnvelope} (h : s.closed = true) :
    s.offer env = s := by
  simp only [Subscription.offer, h, ↓reduceIte]

theorem offer_queue_sublist (s : Subscription) (env : EventEnvelope) :
    (s.offer env).queue.Sublist (s.queue ++ [env.event]) := by
  unfold Subscription.offer
  split
  · exact List.sublist_append_left _ _
  · split
    · exact pushDrop_sublist _ _ _
    · exact List.sublist_append_left _ _

theorem offer_frame (s : Subscription) (env : EventEnvelope) :
    (s.offer env).closed = s.closed ∧ (s.offer env).expired = s.expired := by
  unfold Subscription.offer
  split
  · exact ⟨rfl,rfl⟩
  · split
    · exact ⟨rfl,rfl⟩
    · exact ⟨rfl,rfl⟩

theorem Bus.live_or_expired (b : Bus) {i : ℕ} (hi : i ∈ b.subs) :
    i ∈ b.live ∨ (b.sub i).expired = true := by
  cases hexpired : (b.sub i).expired with
  | false => exact Or.inl (List.mem_filter.mpr ⟨hi,decide_eq_true hexpired⟩)
  | true => exact Or.inr rfl

/-- Replay pushes what is owed, oldest first. -/
theorem foldl_pushLocked_queue (s : Subscription) (es : List DashboardEvent) :
    (es.foldl Subscription.pushLocked s).queue = es.foldl (pushDrop s.capacity) s.queue := by
  induction es generalizing s with
  | nil => rfl
  | cons e es ih => exact ih (s.pushLocked e)

theorem owed_sublist_ring (b : Bus) (filter : DashboardSubscription) :
    ((b.owed filter).map DashboardEvent.eventId).Sublist b.ringIds := by
  have hsub := List.filter_sublist (p:=fun env => decide (filter.sinceEventId < env.event.eventId) &&
    filterMatches filter env.siteId env.gateId env.event) (l:=b.ring)
  have hmap := hsub.map fun env => env.event.eventId
  rw [Bus.owed, List.map_map]
  exact hmap

/-- The queue of a new subscription holds all that the ring owes it exactly if that fits in the
queue. -/
theorem replay_complete_iff (b : Bus) (i : ℕ) (filter : DashboardSubscription) :
    (b.owed filter).Sublist ((b.subscribe i filter).sub i).queue ↔
      b.perSubCapacity = 0 ∨ (b.owed filter).length ≤ b.perSubCapacity := by
  simp only [Bus.subscribe, Function.update_self, foldl_pushLocked_queue]
  exact sublist_foldl_pushDrop_iff b.perSubCapacity (b.owed filter)

/-- Two events in the ring and a queue of one place: a subscriber that has seen nothing gets the
second event only. -/
theorem replay_drops_ring_event :
    let empty : Bus := { ringCapacity := 4, perSubCapacity := 1 }
    let b := (empty.assign "site" "gate" .fault).assign "site" "gate" .ack
    b.owed {} = [⟨1,.fault⟩, ⟨2,.ack⟩] ∧ ((b.subscribe 0 {}).sub 0).queue = [⟨2,.ack⟩] ∧
      ¬ (b.owed {}).Sublist ((b.subscribe 0 {}).sub 0).queue :=
  ⟨rfl,rfl,by decide⟩

theorem queued_subscribe (b : Bus) (i : ℕ) (filter : DashboardSubscription) :
    ((b.subscribe i filter).queued i).Sublist b.ringIds := by
  have hpush := foldl_pushDrop_sublist b.perSubCapacity [] (b.owed filter)
  have hqueue : (((b.subscribe i filter).sub i).queue).Sublist (b.owed filter) := by
    simp only [Bus.subscribe, Function.update_self, foldl_pushLocked_queue]
    exact hpush
  exact (hqueue.map DashboardEvent.eventId).trans (owed_sublist_ring b filter)

theorem queued_deliver (b : Bus) (env : EventEnvelope) (i : ℕ) :
    ((b.deliver env i).queued i).Sublist (b.queued i ++ [env.event.eventId]) := by
  have hoffer := (offer_queue_sublist (b.sub i) env).map DashboardEvent.eventId
  simp only [Bus.queued, Bus.deliver, Function.update_self]
  simpa using hoffer

end AlprGate.Dash
