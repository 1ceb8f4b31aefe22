import Anolis.Events.EventEmitter
import Anolis.Lib.Utf8
import Anolis.State.CacheMachine

/-!
# The cache and the subscribers of its state updates

`update_device_state` decides under the cache's mutex which values of a read have changed
(`value_changed`, `quality_changed`) and emits a state update for each of them after the mutex is
released. `feedMachine` runs the operations of the cache (`CacheMachine`) on threads that emit these
updates to the subscribers of an emitter (`EventEmitter`): a thread that has applied a read emits
its updates one after the other, and other threads' steps come between.

The protocol's doubles have no bits here, so of two doubles that are one value, NaNs or zeros, the
schedule says whether their bits differ.

The availability events, which the cache emits under its mutex, are left out: a subscriber tells
them from state updates. So are the events of other parts of the runtime.
-/

namespace Anolis.Protocol

/-- `double_value()`: the payload, or the default where another one is set. -/
def Value.doubleValue (v : Value) : Double :=
  match v.kind with
  | .double d => d
  | _ => .finite 0

/-- `int64_value()`. -/
def Value.int64Value (v : Value) : Int64 :=
  match v.kind with
  | .int64 i => i
  | _ => 0

/-- `uint64_value()`. -/
def Value.uint64Value (v : Value) : UInt64 :=
  match v.kind with
  | .uint64 u => u
  | _ => 0

/-- `bool_value()`. -/
def Value.boolValue (v : Value) : Bool :=
  match v.kind with
  | .bool b => b
  | _ => false

/-- `string_value()`, as its bytes. -/
def Value.stringValue (v : Value) : List UInt8 :=
  match v.kind with
  | .string s => s.toUTF8.toList
  | _ => []

/-- `bytes_value()`. -/
def Value.bytesValue (v : Value) : List UInt8 :=
  match v.kind with
  | .bytes bs => bs
  | _ => []

end Anolis.Protocol

namespace Anolis.State

open Anolis.Runtime Events Lib Protocol

/-! ### Changes -/

/-- The doubles that can be one value and have different bits. -/
def manyBits (d : Double) : Bool := d = .nan || d = .finite 0

/-- `value_changed`. -/
def valueChanged (bitsDiffer : Bool) (old new : Value) : Bool :=
  if old.type ≠ new.type then true
  else
    match old.type with
    | .double =>
      old.doubleValue ≠ new.doubleValue || (manyBits old.doubleValue && bitsDiffer)
    | .int64 => old.int64Value ≠ new.int64Value
    | .uint64 => old.uint64Value ≠ new.uint64Value
    | .bool => old.boolValue ≠ new.boolValue
    | .string => old.stringValue ≠ new.stringValue
    | .bytes => old.bytesValue ≠ new.bytesValue
    | _ => true

/-- `quality_changed`. -/
def qualityChanged (old new : Protocol.Quality) : Bool := old ≠ new

/-- The value of an event (`emit_state_update`). -/
def typedValue (v : Value) : TypedValue :=
  match v.type with
  | .double => .double v.doubleValue
  | .int64 => .int64 v.int64Value
  | .uint64 => .uint64 v.uint64Value
  | .bool => .bool v.boolValue
  | .string => .string v.stringValue
  | .bytes => .string v.bytesValue
  | _ => .string (ascii "<unknown>")

/-- The quality of an event. -/
def eventQuality : Protocol.Quality → Events.Quality
  | .ok => .ok
  | .stale => .stale
  | .fault => .fault
  | _ => .unavailable

theorem typedValue_of_unchanged {bitsDiffer : Bool} {old new : Value}
    (h : valueChanged bitsDiffer old new = false) : typedValue old = typedValue new := by
  unfold valueChanged at h
  split at h
  · cases h
  · rename_i htype
    have htype : new.type = old.type := by simpa using Eq.symm (not_not.mp htype)
    unfold typedValue
    rw [htype]
    split at h <;> simp_all

/-- Is a reading new, or has its value or its quality changed. -/
def readingChanged (bitsDiffer : Bool) (old : Option CachedSignalValue) (r : SignalReading) :
    Bool :=
  match old with
  | none => true
  | some c => valueChanged bitsDiffer c.value r.value || qualityChanged c.quality r.quality

/-- The update of a reading. -/
def updateOf (config : PollConfig) (r : SignalReading) : EventBody :=
  .stateUpdate config.providerId config.deviceId r.signalId (typedValue r.value)
    (eventQuality r.quality)

/-- The pending events of `update_device_state`. A reading is compared with what the readings before
it left. `bits` says for each reading in turn whether its bits differ. -/
def pendingUpdates (config : PollConfig) (now : Int64) :
    List Bool → List SignalReading → (String → Option CachedSignalValue) → List EventBody
  | _, [], _ => []
  | bits, r :: rest, signals =>
    let later := pendingUpdates config now bits.tail rest
      (Function.update signals r.signalId (some (r.cached now)))
    if readingChanged (bits.headD false) (signals r.signalId) r then updateOf config r :: later
    else later

/-! ### The machine -/

/-- What the threads share. -/
structure FeedWorld where
  world : CacheWorld := {}
  emitter : Emitter := {}

/-- A thread: the sections it still has to run, the poll that it is in, the updates it still has to
emit, and where it is in an `emit`. -/
structure FeedThread where
  sections : List Section := []
  polled : PollConfig := ⟨"", "", []⟩
  pending : List EventBody := []
  place : EmitPlace := .idle

/-- What the schedule supplies to a step. -/
inductive FeedChoice
  | cache (c : CacheChoice) (bits : List Bool)
  | emit (order : List SubscriptionId)
  | emitter (c : EmitterChoice)

/-- The effect of a step. -/
inductive FeedEffect
  | cache (e : CacheEffect)
  | emitter (e : EmitterEffect)

/-- What an effect does to the shared state. -/
def FeedWorld.apply (w : FeedWorld) : FeedEffect → FeedWorld
  | .cache e => { w with world := w.world.apply e }
  | .emitter e => { w with emitter := w.emitter.apply e }

/-- The poll that a thread is in behind its next section. -/
def FeedThread.polls (th : FeedThread) : PollConfig :=
  match th.sections with
  | .readSignals config :: _ => config
  | _ => th.polled

/-- The updates that a section leaves to be emitted. -/
def updatesOf (w : CacheWorld) (config : PollConfig) (bits : List Bool) : CacheEffect →
    List EventBody
  | .readApplied handle readings =>
    match w.cache.deviceStates handle with
    | some st => pendingUpdates config w.clock.system bits readings st.signals
    | none => []
  | _ => []

section
variable (status : StopChainStatus) (staleAfterMs : Int)

/-- A step of a thread. It emits what it has to emit before its next section. -/
def feedNext (w : FeedWorld) (t : ThreadId) (th : FeedThread) : FeedChoice →
    Option (FeedEffect × FeedThread)
  | .cache c bits =>
    if th.place = .idle ∧ th.pending = [] then
      ((cacheMachine status staleAfterMs).next w.world t th.sections c).map fun r =>
        (.cache r.1, { th with
            sections := r.2
            polled := th.polls
            pending := updatesOf w.world th.polled bits r.1 })
    else none
  | .emit order =>
    match th.place, th.pending with
    | .idle, body :: rest =>
      (takeNext w.emitter body order).map fun r =>
        (.emitter r.1, { th with pending := rest, place := r.2 })
    | _, _ => none
  | .emitter c =>
    match th.place, c with
    | .pushing _ _, .go =>
      (emitterNext w.emitter th.place c).map fun r => (.emitter r.1, { th with place := r.2 })
    -- no thread emits anything but its updates
    | .idle, .subscribe _ _ | .idle, .unsubscribe _ | .idle, .pop _ =>
      if th.pending = [] ∧ th.sections = [] then
        (emitterNext w.emitter .idle c).map fun r => (.emitter r.1, { th with place := r.2 })
      else none
    | _, _ => none

/-- The interleavings of polls, rebuilds and subscribers. -/
def feedMachine : Machine FeedWorld FeedThread FeedEffect FeedChoice where
  next := feedNext status staleAfterMs
  apply w _ e := w.apply e

end

/-- A state of the threads. -/
abbrev FeedState := Global FeedWorld FeedThread

/-- A trace of the threads. -/
abbrev FeedTrace := Trace FeedState (ThreadId × FeedEffect)

/-- The runtime before `initialize`, with subscribers that have seen nothing yet. Each of them has
an id of its own. -/
structure FeedStart (g : FeedState) : Prop where
  empty : ∀ h, g.shared.world.cache.deviceStates h = none
  unseen : ∀ id, (g.shared.emitter.queues id).queue = []
  distinct : (g.shared.emitter.subscribers.map Prod.fst).Nodup
  numbered : ∀ sub ∈ g.shared.emitter.subscribers, sub.1 < g.shared.emitter.nextSubscriptionId
  idle : ∀ t, g.thread t = {}

/-- The event that an effect pops from a queue. -/
def FeedEffect.popOf (id : SubscriptionId) : FeedEffect → Option Event
  | .emitter e => e.popOf id
  | .cache _ => none

/-- What was delivered to a subscriber: what it popped, and what waits in its queue. -/
def deliveredTo (id : SubscriptionId) (tr : FeedTrace) (g : FeedState) : List Event :=
  tr.filterMap (fun i => i.2.2.popOf id) ++ (g.shared.emitter.queues id).queue

/-- What an event says of a signal of a device. -/
def saysOf (handle signalId : String) : EventBody → Option (TypedValue × Events.Quality)
  | .stateUpdate p d s v q => if p ++ "/" ++ d = handle ∧ s = signalId then some (v, q) else none
  | _ => none

/-- The last state update of a signal. -/
def lastUpdate (handle signalId : String) (events : List EventBody) :
    Option (TypedValue × Events.Quality) :=
  (events.filterMap (saysOf handle signalId)).getLast?

/-- What a thread has decided to emit and not pushed to all subscribers yet. -/
def FeedThread.unsent (th : FeedThread) : List EventBody :=
  match th.place with
  | .pushing event _ => event.body :: th.pending
  | .idle => th.pending

end Anolis.State
