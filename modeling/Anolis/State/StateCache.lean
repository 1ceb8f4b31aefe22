import Anolis.Control.DeviceLossLatch
import Anolis.Lib.Machine
import Anolis.Registry.DeviceRegistry

/-!
# The polled state cache

`state_cache.cpp`: the cached values, the poll plan, and what each section under the cache's
mutex does to them. `CacheMachine` runs the cache's operations on any number of threads. One
step of a thread is one section under the mutex, or one read of what lies outside the cache:
the registry, a provider's availability, a `ReadSignals`, a clock. So its runs are the
interleavings of `initialize`, `rebuild_poll_configs`, `poll_once`, `poll_device_now` and
the stop status' `classify`.

Times of the system clock are in nanoseconds since the epoch, in 64 bits. A signed overflow is
undefined in the source; here it wraps.

The reachability edges are numbered under the mutex, in the section that decides them
(`lossEdge?`, `returnEdge?`), and handed to the sink outside it. The counter of the numbers is
one of natural numbers here; the source's has 64 bits.

Left out: the events, the outage log state and `last_poll_time`. Nothing here reads them.
-/

namespace Anolis.State

open Control Protocol Registry

/-! ### Cached values -/

/-- `CachedSignalValue`. -/
structure CachedSignalValue where
  value : Value
  timestamp : Int64
  quality : Quality
deriving DecidableEq

/-- `age`, in milliseconds: zero for a timestamp after the clock, and cut to whole
milliseconds. -/
def CachedSignalValue.age (c : CachedSignalValue) (now : Int64) : Int :=
  if now < c.timestamp then 0 else (now - c.timestamp).toInt.tdiv 1000000

/-- `is_stale`. -/
def CachedSignalValue.isStale (c : CachedSignalValue) (timeoutMs : Int) (now : Int64) : Bool :=
  if c.quality = .stale ∨ c.quality = .fault ∨ c.quality = .unknown then true
  else timeoutMs < c.age now

/-- `SignalValue`: one value of a `ReadSignals` response. The timestamp is seconds and
nanoseconds, where the provider gives one. -/
structure SignalReading where
  signalId : String
  value : Value
  quality : Quality
  timestamp : Option (Int × Int) := none
deriving DecidableEq

/-- The value the cache keeps of a reading. -/
def SignalReading.cached (r : SignalReading) (now : Int64) : CachedSignalValue where
  value := r.value
  quality := r.quality
  timestamp :=
    match r.timestamp with
    | some (seconds, nanos) => Int64.ofInt (seconds * 1000000000 + nanos)
    | none => now

/-- `DeviceState`. -/
structure DeviceState where
  signals : String → Option CachedSignalValue := fun _ => none
  providerAvailable : Bool := true
  lossReported : Bool := false
  unavailableEmitted : Bool := false

/-- `CarriedReachability`: what a rebuild carries from a device's old state to its new one. -/
structure CarriedReachability where
  providerAvailable : Bool := true
  lossReported : Bool := false
  unavailableEmitted : Bool := false

/-- `PollConfig`. -/
structure PollConfig where
  providerId : String
  deviceId : String
  signalIds : List String
deriving DecidableEq

/-- The handle a poll configuration is for. -/
def PollConfig.handle (c : PollConfig) : String := c.providerId ++ "/" ++ c.deviceId

/-- The state the cache's mutex guards. `sinkSet` says whether a reachability sink is
attached, which happens before polling starts. `edgeSeq` has 64 bits in the source. -/
structure Cache where
  initialized : Bool := false
  pollConfigs : List PollConfig := []
  deviceStates : String → Option DeviceState := fun _ => none
  departed : String → Option CarriedReachability := fun _ => none
  sinkSet : Bool := true
  edgeSeq : Nat := 0

/-- `get_signal_value`. It does not look at `provider_available`. -/
def Cache.getSignalValue (c : Cache) (handle signalId : String) : Option CachedSignalValue :=
  (c.deviceStates handle).bind fun st => st.signals signalId

/-! ### Sections under the mutex -/

/-- The poll configuration of a device, where it has a default signal. -/
def pollConfig? (d : RegisteredDevice) : Option PollConfig :=
  let ids := (d.signalsById.filter fun s => s.isDefault).map fun s => s.signalId
  if ids.isEmpty then none else some ⟨d.providerId, d.deviceId, ids⟩

/-- The last section of `initialize`. -/
def Cache.commitInitial (c : Cache) (devices : List RegisteredDevice) : Cache :=
  let configs := devices.filterMap pollConfig?
  { c with
    initialized := true
    pollConfigs := configs
    deviceStates := fun h => if configs.any (fun p => p.handle = h) then some {} else none }

/-- Is the handle one of the provider's: it starts with the provider id and a slash. -/
def handleOf (providerId handle : String) : Bool :=
  (providerId ++ "/").toList.isPrefixOf handle.toList

/-- The first section of `rebuild_poll_configs`. -/
def Cache.eraseConfigs (c : Cache) (providerId : String) : Cache :=
  { c with pollConfigs := c.pollConfigs.filter fun p => p.providerId ≠ providerId }

/-- The reachability the second section of a rebuild remembers. -/
def Cache.carried (c : Cache) (providerId : String) : String → Option CarriedReachability :=
  fun h => if handleOf providerId h then
      (c.deviceStates h).map fun st =>
        ⟨st.providerAvailable, st.lossReported, st.unavailableEmitted⟩
    else none

/-- The second section of a rebuild. -/
def Cache.eraseStates (c : Cache) (providerId : String) : Cache :=
  { c with deviceStates := fun h => if handleOf providerId h then none else c.deviceStates h }

/-- A rebuild's section that adds a device's configuration. -/
def Cache.pushConfig (c : Cache) (config : PollConfig) : Cache :=
  { c with pollConfigs := c.pollConfigs ++ [config] }

/-- A rebuild's section that adds a device's state: without values, with the reachability of
its old state, else of the record an earlier rebuild left. -/
def Cache.addState (c : Cache) (carried : String → Option CarriedReachability)
    (handle : String) : Cache :=
  -- a device seen for the first time starts available and unreported
  let prior := ((carried handle).orElse fun _ => c.departed handle).getD {}
  { c with
    departed := Function.update c.departed handle none
    deviceStates := Function.update c.deviceStates handle
      (some { providerAvailable := prior.providerAvailable, lossReported := prior.lossReported,
              unavailableEmitted := prior.unavailableEmitted }) }

/-- The last section of a rebuild: a lost device the new inventory dropped stays on record. -/
def Cache.dropRemoved (c : Cache) (carried : String → Option CarriedReachability) : Cache :=
  { c with
    departed := fun h =>
      match carried h with
      | some prior =>
        if (c.deviceStates h).isNone && prior.lossReported then some prior else c.departed h
      | none => c.departed h }

/-- The events that tell subscribers whether a device is there. -/
inductive AvailabilityEvent
  | available (isAvailable : Bool)
  | removed
deriving DecidableEq

/-- The `available: false` of a failed poll, the first one since the last `available: true`. -/
def DeviceState.lossEvent? (st : DeviceState) (shuttingDown : Bool) : Option AvailabilityEvent :=
  if !shuttingDown && !st.unavailableEmitted then some (.available false) else none

/-- The `available: true` of a read. -/
def DeviceState.returnEvent? (st : DeviceState) : Option AvailabilityEvent :=
  if st.unavailableEmitted then some (.available true) else none

/-- What `mark_provider_devices_unavailable` does to one device: its values stay. -/
def DeviceState.marked (st : DeviceState) (shuttingDown : Bool) : DeviceState :=
  { st with
    providerAvailable := false
    unavailableEmitted := st.unavailableEmitted || !shuttingDown }

/-- The section of `mark_provider_devices_unavailable`. -/
def Cache.markUnavailable (c : Cache) (shuttingDown : Bool) (configs : List PollConfig) :
    Cache :=
  { c with
    deviceStates := fun h =>
      if configs.any fun p => p.handle = h then
        (c.deviceStates h).map fun st => st.marked shuttingDown
      else c.deviceStates h }

/-- What the failure section of `poll_device` does to a device: its values go. -/
def DeviceState.failed (st : DeviceState) (sinkSet shuttingDown providerLost : Bool) :
    DeviceState where
  signals := fun _ => none
  providerAvailable := false
  lossReported := st.lossReported || (!shuttingDown && !providerLost && sinkSet)
  unavailableEmitted := st.unavailableEmitted || !shuttingDown

/-- The loss edge that the failure section of `poll_device` reports: the first failure in-band
since the device was last reported back. -/
def Cache.lossEdge? (c : Cache) (status : StatusCode) (shuttingDown providerLost : Bool)
    (handle : String) : Option ReachabilityEdge :=
  match c.deviceStates handle with
  | some st =>
    if !shuttingDown && !providerLost && !st.lossReported && c.sinkSet then
      some ⟨handle, false, status, c.edgeSeq + 1⟩
    else none
  | none => none

variable {edge : ReachabilityEdge} {handle : String}

/-- A loss edge is of a device with a state, that was not reported lost, and of a failure that is
neither the shutdown nor the loss of the provider. -/
theorem Cache.of_lossEdge? {c : Cache} {status : StatusCode} {shuttingDown providerLost : Bool}
    (h : c.lossEdge? status shuttingDown providerLost handle = some edge) :
    edge = ⟨handle, false, status, c.edgeSeq + 1⟩ ∧ shuttingDown = false ∧ providerLost = false ∧
      ∃ st, c.deviceStates handle = some st ∧ st.lossReported = false := by
  unfold Cache.lossEdge? at h
  split at h
  · rename_i st hst
    split at h
    · rename_i hreport
      simp only [Bool.and_eq_true, Bool.not_eq_true'] at hreport
      exact ⟨(Option.some.inj h).symm, hreport.1.1.1, hreport.1.1.2, st, hst, hreport.1.2⟩
    · cases h
  · cases h

/-- The failure section of `poll_device`. -/
def Cache.readFailed (c : Cache) (status : StatusCode) (shuttingDown providerLost : Bool)
    (handle : String) : Cache :=
  { c with
    deviceStates := Function.update c.deviceStates handle
      ((c.deviceStates handle).map fun st => st.failed c.sinkSet shuttingDown providerLost)
    edgeSeq := ((c.lossEdge? status shuttingDown providerLost handle).map (·.seq)).getD c.edgeSeq }

/-- The values after a response, in its order: of two values for one signal the later one
stays. -/
def storeReadings (now : Int64) (readings : List SignalReading)
    (signals : String → Option CachedSignalValue) : String → Option CachedSignalValue :=
  readings.foldl (fun s r => Function.update s r.signalId (some (r.cached now))) signals

/-- The return edge that the section of `update_device_state` numbers. -/
def Cache.returnEdge? (c : Cache) (handle : String) : Option ReachabilityEdge :=
  match c.deviceStates handle with
  | some st => if st.lossReported then some ⟨handle, true, .ok, c.edgeSeq + 1⟩ else none
  | none => none

theorem Cache.of_returnEdge? {c : Cache}
    (h : c.returnEdge? handle = some edge) : edge = ⟨handle, true, .ok, c.edgeSeq + 1⟩ ∧
      ∃ st, c.deviceStates handle = some st ∧ st.lossReported := by
  unfold Cache.returnEdge? at h
  split at h
  · rename_i st hst
    split at h
    · exact ⟨(Option.some.inj h).symm, st, hst, by assumption⟩
    · cases h
  · cases h

/-- The section of `update_device_state`. -/
def Cache.readApplied (c : Cache) (now : Int64) (handle : String)
    (readings : List SignalReading) : Cache :=
  { c with
    deviceStates := Function.update c.deviceStates handle
      ((c.deviceStates handle).map fun st =>
        { signals := storeReadings now readings st.signals })
    edgeSeq := ((c.returnEdge? handle).map (·.seq)).getD c.edgeSeq }

end Anolis.State
