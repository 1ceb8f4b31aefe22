import Anolis.Lib.Machine
import Anolis.Protocol

/-!
# The fan-out of events

`event_emitter.cpp`: an event gets its id and its subscribers under the emitter's mutex, and is then
pushed to each subscriber's queue under that queue's mutex. `emitterMachine` runs `emit`,
`subscribe`, `unsubscribe` and `pop` on any number of threads; a step is one of these sections. So
two threads that are both behind their first section push in any order.

The subscribers are an unordered map: the order of the pushes is the schedule's. A queue outlives
its subscription, since a thread that is pushing holds it too. Queues are known by the id of their
subscription.

The ids are natural numbers here; the source's have 64 bits. A queue of size zero is not modelled:
the source takes the front of an empty queue there.

Left out: of an event, what neither a filter nor a subscriber of the state reads (`other`); the
wait of `pop`, the names and the log.
-/

namespace Anolis.Events

open Lib Protocol

/-- `TypedValue`. A text and bytes are both a `std::string` there. -/
inductive TypedValue
  | double (d : Double)
  | int64 (i : Int64)
  | uint64 (u : UInt64)
  | bool (b : Bool)
  | string (s : List UInt8)
deriving DecidableEq

/-- `events::Quality`. -/
inductive Quality
  | ok | stale | unavailable | fault
deriving DecidableEq

/-- The event types. -/
inductive EventBody
  | stateUpdate (providerId deviceId signalId : String) (value : TypedValue) (quality : Quality)
  | qualityChange (providerId deviceId signalId : String) (old new : Quality)
  | deviceAvailability (providerId deviceId : String) (available : Bool)
  | deviceRemoved (providerId deviceId : String)
  | other
deriving DecidableEq

/-- `Event`. -/
structure Event where
  eventId : Nat
  body : EventBody
deriving DecidableEq

/-- `EventFilter`. -/
structure EventFilter where
  providerId : String := ""
  deviceId : String := ""
  signalId : String := ""
deriving DecidableEq

/-- Is an event with this field let through: an empty filter lets every event through. -/
def EventFilter.admits (wanted field : String) : Bool := wanted = "" || field = wanted

/-- `EventFilter::matches`. An event without the field is let through. -/
def EventFilter.matches (f : EventFilter) : EventBody → Bool
  | .stateUpdate p d s _ _ | .qualityChange p d s _ _ =>
    admits f.providerId p && admits f.deviceId d && admits f.signalId s
  | .deviceAvailability p d _ | .deviceRemoved p d =>
    admits f.providerId p && admits f.deviceId d
  | .other => true

/-- `EventFilter::all()`. -/
def EventFilter.all : EventFilter := {}

theorem EventFilter.matches_all (body : EventBody) : EventFilter.all.matches body = true := by
  cases body <;> rfl

/-- A subscription is known by its number. -/
abbrev SubscriptionId := Nat

/-- `SubscriberQueue`. The count is a `size_t` in the source. -/
structure SubscriberQueue where
  maxSize : Nat
  queue : List Event := []
  droppedCount : Nat := 0

/-- `SubscriberQueue::push`: a full queue loses its oldest event. -/
def SubscriberQueue.push (q : SubscriberQueue) (e : Event) : SubscriberQueue :=
  if q.maxSize ≤ q.queue.length then
    { q with queue := q.queue.drop 1 ++ [e], droppedCount := q.droppedCount + 1 }
  else { q with queue := q.queue ++ [e] }

/-- `EventEmitter`. The queues of past subscriptions stay. The two counters have 64 bits in the
source, which no run uses up. -/
structure Emitter where
  defaultQueueSize : Nat := 100
  maxSubscribers : Nat := 32
  nextSubscriptionId : SubscriptionId := 1
  nextEventId : Nat := 1
  subscribers : List (SubscriptionId × EventFilter) := []
  queues : SubscriptionId → SubscriberQueue := fun _ => ⟨100, [], 0⟩

/-- The subscribers that an event is for. -/
def Emitter.targets (em : Emitter) (body : EventBody) : List SubscriptionId :=
  (em.subscribers.filter fun sub => sub.2.matches body).map Prod.fst

/-- May one more subscribe. -/
def Emitter.atCapacity (em : Emitter) : Bool :=
  0 < em.maxSubscribers && em.maxSubscribers ≤ em.subscribers.length

/-- The effect of a step. `taken` is the first section of `emit`. -/
inductive EmitterEffect
  | silent
  | taken (body : EventBody) (targets : List SubscriptionId)
  | pushed (id : SubscriptionId) (event : Event)
  | subscribed (filter : EventFilter) (queueSize : Nat)
  | unsubscribed (id : SubscriptionId)
  | popped (id : SubscriptionId) (event : Event)
deriving DecidableEq

/-- What an effect does to the emitter. -/
def Emitter.apply (em : Emitter) : EmitterEffect → Emitter
  | .silent => em
  | .taken _ _ => { em with nextEventId := em.nextEventId + 1 }
  | .pushed id event =>
    { em with queues := Function.update em.queues id ((em.queues id).push event) }
  | .subscribed filter queueSize =>
    let size := if 0 < queueSize then queueSize else em.defaultQueueSize
    { em with
      nextSubscriptionId := em.nextSubscriptionId + 1
      subscribers := em.subscribers ++ [(em.nextSubscriptionId, filter)]
      queues := Function.update em.queues em.nextSubscriptionId ⟨size, [], 0⟩ }
  | .unsubscribed id => { em with subscribers := em.subscribers.filter fun sub => sub.1 ≠ id }
  | .popped id _ =>
    { em with
      queues := Function.update em.queues id
        { em.queues id with queue := (em.queues id).queue.drop 1 } }

/-- Where a thread is in an `emit`: the event with its id, and the queues it is still to be pushed
to. -/
inductive EmitPlace
  | idle
  | pushing (event : Event) (targets : List SubscriptionId)
deriving DecidableEq

/-- The place with these queues left. -/
def EmitPlace.left (event : Event) : List SubscriptionId → EmitPlace
  | [] => .idle
  | targets => .pushing event targets

/-- What the schedule supplies to a step. -/
inductive EmitterChoice
  | go
  | emit (body : EventBody) (order : List SubscriptionId)
  | subscribe (filter : EventFilter) (queueSize : Nat)
  | unsubscribe (id : SubscriptionId)
  | pop (id : SubscriptionId)

/-- The first section of `emit`. -/
def takeNext (em : Emitter) (body : EventBody) (order : List SubscriptionId) :
    Option (EmitterEffect × EmitPlace) :=
  if order.isPerm (em.targets body) then
    some (.taken body order, .left ⟨em.nextEventId, body⟩ order)
  else none

/-- A step of a thread. -/
def emitterNext (em : Emitter) : EmitPlace → EmitterChoice → Option (EmitterEffect × EmitPlace)
  | .pushing event (id :: rest), .go => some (.pushed id event, .left event rest)
  | .idle, .emit body order => takeNext em body order
  | .idle, .subscribe filter queueSize =>
    if em.atCapacity then some (.silent, .idle) else some (.subscribed filter queueSize, .idle)
  | .idle, .unsubscribe id => some (.unsubscribed id, .idle)
  | .idle, .pop id =>
    match (em.queues id).queue with
    | [] => some (.silent, .idle)
    | event :: _ => some (.popped id event, .idle)
  | _, _ => none

/-- The interleavings of the emitter's operations. -/
def emitterMachine : Machine Emitter EmitPlace EmitterEffect EmitterChoice where
  next em _ place c := emitterNext em place c
  apply em _ e := em.apply e

/-- A state of the emitter's threads. -/
abbrev EmitterState := Global Emitter EmitPlace

/-- A trace of the emitter's threads. -/
abbrev EmitterTrace := Trace EmitterState (ThreadId × EmitterEffect)

/-- An emitter that was just made: nobody has subscribed, and no event was emitted. -/
def EmitterStart (g : EmitterState) : Prop :=
  g.shared.subscribers = [] ∧ (∀ id, (g.shared.queues id).queue = []) ∧ ∀ t, g.thread t = .idle

/-- The event that an effect pops from a queue. -/
def EmitterEffect.popOf (id : SubscriptionId) : EmitterEffect → Option Event
  | .popped id' event => if id' = id then some event else none
  | _ => none

/-- The events that a subscriber popped, in order. -/
def poppedBy (id : SubscriptionId) (tr : EmitterTrace) : List Event :=
  tr.filterMap fun i => i.2.2.popOf id

/-! ### The queue with its end -/

/-- `SubscriberQueue` with its `closed_`. -/
structure ClosableQueue extends SubscriberQueue where
  closed : Bool := false

/-- An operation on a queue. A `pop` is its section after the wait. -/
inductive QueueOp
  | push (event : Event)
  | pop
  | tryPop
  | close

/-- What an operation answers. -/
inductive QueueAnswer
  | pushed (kept : Bool)
  | popped (event : Option Event)
  | closed

/-- `SubscriberQueue::pop` after its wait. -/
def ClosableQueue.pop (q : ClosableQueue) : ClosableQueue × QueueAnswer :=
  match q.queue with
  | [] => (q, .popped none)
  | event :: rest => ({ q with queue := rest }, .popped (some event))

/-- An operation: the queue after it, and its answer. -/
@[simp] def ClosableQueue.exec (q : ClosableQueue) : QueueOp → ClosableQueue × QueueAnswer
  | .push event =>
    ({ q with toSubscriberQueue := q.toSubscriberQueue.push event },
      .pushed (q.queue.length < q.maxSize))
  | .pop | .tryPop => q.pop
  | .close => ({ q with closed := true }, .closed)

end Anolis.Events
