import Anolis.Control.StopChain
import Mathlib.Data.List.Dedup

/-!
# The cache's operations on threads

Each operation of the cache is a list of sections; a thread runs its sections one a step, so
other threads' sections fall in between. A section may add further sections: `poll_once`
copies the poll plan and then polls each provider of the copy. The order over the providers is
that of an unordered map, so the schedule gives it.

What the sections read outside the cache is given by the schedule too: whether a provider is
registered and available, the answer to a `ReadSignals`, whether a shutdown is requested. The
registry and the two clocks are shared state, and any idle thread may change them.

`classify` of the stop status is a section that copies the cached value and one that judges it
by the clock.

`CacheWorld.deviceState_cases` says what one section can do to the state of a device.
-/

namespace Anolis.State

open Anolis.Runtime Control Lib Protocol Registry

/-- The two clocks, in nanoseconds. The steady clock only moves forward; the system clock moves
by any step. -/
structure Clock where
  steady : Nat
  system : Int64
deriving DecidableEq

/-- What the threads share. -/
structure CacheWorld where
  cache : Cache := {}
  registry : DeviceRegistry := ⟨[]⟩
  clock : Clock := ⟨0, 0⟩

/-- What `poll_once` finds of a provider. -/
inductive ProviderStatus
  | missing | unavailable | available
deriving DecidableEq

/-- The answer to a `ReadSignals`. After a failed one the code asks whether the provider's
session is lost. -/
inductive ReadOutcome
  | failed (status : StatusCode) (shuttingDown providerLost : Bool)
  | values (readings : List SignalReading)

/-- The sections of the operations. -/
inductive Section
  -- initialize
  | copyDevices
  | commitInitial (devices : List RegisteredDevice)
  -- rebuild_poll_configs
  | eraseConfigs (providerId : String)
  | eraseStates (providerId : String)
  | copyDevicesOf (providerId : String) (carried : String → Option CarriedReachability)
  | pushConfig (config : PollConfig)
  | addState (carried : String → Option CarriedReachability) (handle : String)
  | dropRemoved (carried : String → Option CarriedReachability)
  -- poll_once and poll_device_now
  | copyConfigs
  | pollProvider (configs : List PollConfig)
  | markUnavailable (configs : List PollConfig)
  | copyConfigsFor (handle : String)
  | pollNow (config : PollConfig)
  | readSignals (config : PollConfig)
  | settleRead (handle : String) (outcome : ReadOutcome)
  -- classify
  | copyStatus
  | judgeStatus (value : Option CachedSignalValue)

/-- The operations a thread may start. -/
inductive CacheOp
  | init | rebuildPollConfigs (providerId : String) | pollOnce
  | pollDeviceNow (handle : String) | classify

/-- The sections an operation starts with. -/
def CacheOp.sections : CacheOp → List Section
  | .init => [.copyDevices]
  | .rebuildPollConfigs p => [.eraseConfigs p, .eraseStates p]
  | .pollOnce => [.copyConfigs]
  | .pollDeviceNow h => [.copyConfigsFor h]
  | .classify => [.copyStatus]

/-- What the schedule supplies to a step. -/
inductive CacheChoice
  | go
  | start (op : CacheOp)
  | publish (registry : DeviceRegistry)
  | advance (elapsed : Nat) (system : Int64)
  | order (providers : List String)
  | provider (status : ProviderStatus)
  | shutdown (requested : Bool)
  | read (outcome : ReadOutcome)

/-- The effect of a step. -/
inductive CacheEffect
  | silent
  | publish (registry : DeviceRegistry)
  | advance (elapsed : Nat) (system : Int64)
  | commitInitial (devices : List RegisteredDevice)
  | eraseConfigs (providerId : String)
  | eraseStates (providerId : String)
  | pushConfig (config : PollConfig)
  | addState (carried : String → Option CarriedReachability) (handle : String)
  | dropRemoved (carried : String → Option CarriedReachability)
  | markUnavailable (shuttingDown : Bool) (configs : List PollConfig)
  | readFailed (status : StatusCode) (shuttingDown providerLost : Bool) (handle : String)
  | readApplied (handle : String) (readings : List SignalReading)
  | classified (state : StopChainState)

/-- What an effect does to the shared state. -/
def CacheWorld.apply (w : CacheWorld) : CacheEffect → CacheWorld
  | .silent | .classified _ => w
  | .publish registry => { w with registry := registry }
  | .advance elapsed system => { w with clock := ⟨w.clock.steady + elapsed, system⟩ }
  | .commitInitial devices => { w with cache := w.cache.commitInitial devices }
  | .eraseConfigs p => { w with cache := w.cache.eraseConfigs p }
  | .eraseStates p => { w with cache := w.cache.eraseStates p }
  | .pushConfig config => { w with cache := w.cache.pushConfig config }
  | .addState carried handle => { w with cache := w.cache.addState carried handle }
  | .dropRemoved carried => { w with cache := w.cache.dropRemoved carried }
  | .markUnavailable shuttingDown configs =>
    { w with cache := w.cache.markUnavailable shuttingDown configs }
  | .readFailed status shuttingDown providerLost handle =>
    { w with cache := w.cache.readFailed status shuttingDown providerLost handle }
  | .readApplied handle readings =>
    { w with cache := w.cache.readApplied w.clock.system handle readings }

/-- The reachability edge that an effect hands to the sink. -/
def CacheWorld.edge? (w : CacheWorld) : CacheEffect → Option ReachabilityEdge
  | .readFailed status shuttingDown providerLost handle =>
    w.cache.lossEdge? status shuttingDown providerLost handle
  | .readApplied handle _ => if w.cache.sinkSet then w.cache.returnEdge? handle else none
  | _ => none

/-- The availability event of a device that an effect emits, under the cache's mutex. Of two
configurations with one handle that are marked, the second finds the flag set. -/
def CacheWorld.availability? (w : CacheWorld) (handle : String) : CacheEffect →
    Option AvailabilityEvent
  | .markUnavailable shuttingDown configs =>
    if configs.any fun p => p.handle = handle then
      (w.cache.deviceStates handle).bind fun st => st.lossEvent? shuttingDown
    else none
  | .readFailed _ shuttingDown _ h =>
    if h = handle then (w.cache.deviceStates handle).bind fun st => st.lossEvent? shuttingDown
    else none
  | .readApplied h _ =>
    if h = handle then (w.cache.deviceStates handle).bind DeviceState.returnEvent? else none
  | .dropRemoved carried =>
    if (carried handle).isSome && (w.cache.deviceStates handle).isNone then some .removed else none
  | _ => none

private theorem update_eq_some {f : String → Option DeviceState} {h k : String}
    {o : Option DeviceState} {st : DeviceState} (hst : Function.update f h o k = some st) :
    (h = k ∧ o = some st) ∨ f k = some st := by
  by_cases hk : k = h
  · subst hk
    rw [Function.update_self] at hst
    exact Or.inl ⟨rfl, hst⟩
  · rw [Function.update_of_ne hk] at hst
    exact Or.inr hst

variable {w : CacheWorld} {e : CacheEffect}

/-- Where the state of a device after an effect comes from: it was so before, it has no values,
it was marked unavailable with the values it had, or a read was applied to it. -/
theorem CacheWorld.deviceState_cases {h : String}
    {st : DeviceState} (hst : (w.apply e).cache.deviceStates h = some st) :
    w.cache.deviceStates h = some st ∨ (∀ s, st.signals s = none) ∨
      (∃ shuttingDown configs p st₀, e = .markUnavailable shuttingDown configs ∧ p ∈ configs ∧
        p.handle = h ∧ w.cache.deviceStates h = some st₀ ∧ st.signals = st₀.signals) ∨
      (∃ readings st₀, e = .readApplied h readings ∧ w.cache.deviceStates h = some st₀ ∧
        st.providerAvailable ∧
        st.signals = storeReadings w.clock.system readings st₀.signals) := by
  cases e with
  | silent | publish registry | advance elapsed system | classified state | eraseConfigs p
  | pushConfig config | dropRemoved carried => exact .inl hst
  | commitInitial devices =>
    simp only [CacheWorld.apply, Cache.commitInitial] at hst
    split at hst
    · cases hst
      exact .inr (.inl fun _ => rfl)
    · cases hst
  | eraseStates p =>
    simp only [CacheWorld.apply, Cache.eraseStates] at hst
    split at hst
    · cases hst
    · exact .inl hst
  | addState carried handle =>
    rcases update_eq_some hst with ⟨-, hnew⟩ | hold
    · cases hnew
      exact .inr (.inl fun _ => rfl)
    · exact .inl hold
  | markUnavailable shuttingDown configs =>
    simp only [CacheWorld.apply, Cache.markUnavailable] at hst
    split at hst
    · rename_i hany
      obtain ⟨p, hp, hph⟩ := List.any_eq_true.mp hany
      obtain ⟨st₀, hst₀, rfl⟩ := Option.map_eq_some_iff.mp hst
      exact .inr (.inr (.inl
        ⟨shuttingDown, configs, p, st₀, rfl, hp, of_decide_eq_true hph, hst₀, rfl⟩))
    · exact .inl hst
  | readFailed status shuttingDown providerLost handle =>
    rcases update_eq_some hst with ⟨-, hnew⟩ | hold
    · obtain ⟨st₀, -, rfl⟩ := Option.map_eq_some_iff.mp hnew
      exact .inr (.inl fun _ => rfl)
    · exact .inl hold
  | readApplied handle readings =>
    rcases update_eq_some hst with ⟨rfl, hnew⟩ | hold
    · obtain ⟨st₀, hst₀, rfl⟩ := Option.map_eq_some_iff.mp hnew
      exact .inr (.inr (.inr ⟨readings, st₀, rfl, hst₀, rfl, rfl⟩))
    · exact .inl hold

section
variable (status : StopChainStatus) (staleAfterMs : Int)

/-- The stop status' signal in the cache. -/
def statusValue (c : Cache) : Option CachedSignalValue :=
  c.getSignalValue (statusDevice status) (statusSignal status)

/-- One section: its effect, and the sections that follow it before the operation's others.
`none` where the schedule does not supply what the section reads. -/
def Section.run (w : CacheWorld) : Section → CacheChoice → Option (CacheEffect × List Section)
  | .copyDevices, .go => some (.silent, [.commitInitial w.registry.devices])
  | .commitInitial devices, .go => some (.commitInitial devices, [])
  | .eraseConfigs p, .go => some (.eraseConfigs p, [])
  | .eraseStates p, .go => some (.eraseStates p, [.copyDevicesOf p (w.cache.carried p)])
  | .copyDevicesOf p carried, .go =>
    let configs := (w.registry.devices.filter fun d => d.providerId = p).filterMap pollConfig?
    some (.silent, (configs.flatMap fun c => [.pushConfig c, .addState carried c.handle]) ++
      [.dropRemoved carried])
  | .pushConfig config, .go => some (.pushConfig config, [])
  | .addState carried handle, .go => some (.addState carried handle, [])
  | .dropRemoved carried, .go => some (.dropRemoved carried, [])
  | .copyConfigs, .order providers =>
    let configs := w.cache.pollConfigs
    if !w.cache.initialized then some (.silent, [])
    else if providers.isPerm (configs.map PollConfig.providerId).dedup then
      some (.silent, providers.map fun p => .pollProvider (configs.filter (·.providerId = p)))
    else none
  | .pollProvider configs, .provider .available => some (.silent, configs.map .readSignals)
  | .pollProvider configs, .provider _ => some (.silent, [.markUnavailable configs])
  | .markUnavailable configs, .shutdown requested =>
    some (.markUnavailable requested configs, [])
  | .copyConfigsFor handle, .go =>
    if !w.cache.initialized then some (.silent, [])
    else
      match w.cache.pollConfigs.find? fun c => c.handle = handle with
      | some config => some (.silent, [.pollNow config])
      | none => some (.silent, [])
  | .pollNow config, .provider .available => some (.silent, [.readSignals config])
  | .pollNow _, .provider _ => some (.silent, [])
  | .readSignals config, .read outcome => some (.silent, [.settleRead config.handle outcome])
  | .settleRead handle (.failed status shuttingDown providerLost), .go =>
    some (.readFailed status shuttingDown providerLost handle, [])
  | .settleRead handle (.values readings), .go => some (.readApplied handle readings, [])
  | .copyStatus, .go => some (.silent, [.judgeStatus (statusValue status w.cache)])
  | .judgeStatus value, .go =>
    let now := w.clock.system
    some (.classified (classifyReading status staleAfterMs value now now).1, [])
  | _, _ => none

variable {sec : Section} {c : CacheChoice} {more : List Section}

/-- Only the first section of `classify` leaves a copy to judge, and it copies the cached
value. -/
theorem run_judgeStatus {v : CachedSignalValue}
    (hrun : sec.run status staleAfterMs w c = some (e, more))
    (hv : Section.judgeStatus (some v) ∈ more) :
    statusValue status w.cache = some v ∧ e = .silent := by
  revert hrun
  fun_cases Section.run status staleAfterMs w sec c <;> intro hrun <;>
    simp only [some_pair, reduceCtorEq] at hrun
  all_goals obtain ⟨rfl, rfl⟩ := hrun
  all_goals simp_all

/-- Is the section one of a poll, or of `classify`. -/
def Section.ofPolls : Section → Bool
  | .copyConfigs | .pollProvider _ | .markUnavailable _ | .copyConfigsFor _ | .pollNow _
  | .readSignals _ | .settleRead _ _ | .copyStatus | .judgeStatus _ => true
  | _ => false

/-- Is the effect one of those sections, or of a clock. -/
def CacheEffect.ofPolls : CacheEffect → Bool
  | .silent | .advance _ _ | .markUnavailable _ _ | .readFailed _ _ _ _ | .readApplied _ _
  | .classified _ => true
  | _ => false

theorem run_ofPolls (hrun : sec.run status staleAfterMs w c = some (e, more))
    (hsec : sec.ofPolls) : e.ofPolls ∧ ∀ s ∈ more, s.ofPolls := by
  revert hrun
  fun_cases Section.run status staleAfterMs w sec c <;> intro hrun <;>
    simp only [some_pair, reduceCtorEq] at hrun
  all_goals obtain ⟨rfl, rfl⟩ := hrun
  all_goals simp_all [Section.ofPolls, CacheEffect.ofPolls]

theorem run_registry (hrun : sec.run status staleAfterMs w c = some (e, more)) :
    (w.apply e).registry = w.registry := by
  revert hrun
  fun_cases Section.run status staleAfterMs w sec c <;> intro hrun <;>
    simp only [some_pair, reduceCtorEq] at hrun
  all_goals
    obtain ⟨rfl, -⟩ := hrun
    rfl

/-- The machine of the cache's threads. A thread's state is the sections it still has to
run. -/
def cacheMachine : Machine CacheWorld (List Section) CacheEffect CacheChoice where
  next w _
    | [], .start op => some (.silent, op.sections)
    | [], .publish registry => some (.publish registry, [])
    | [], .advance elapsed system => some (.advance elapsed system, [])
    | [], _ => none
    | sec :: rest, c => (sec.run status staleAfterMs w c).map fun r => (r.1, r.2 ++ rest)
  apply w _ e := w.apply e

/-- A state of the cache's threads. -/
abbrev CacheState := Global CacheWorld (List Section)

/-- A trace of the cache's threads. -/
abbrev CacheTrace := Trace CacheState (ThreadId × CacheEffect)

/-- A step of a trace. -/
abbrev CacheItem := CacheState × ThreadId × CacheEffect

/-- The runtime before `initialize`: an empty cache, and no thread inside an operation. The
registry, the clocks and the sink are any. -/
def CacheStart (g : Global CacheWorld (List Section)) : Prop :=
  g.shared.cache.initialized = false ∧ g.shared.cache.pollConfigs = [] ∧
    (∀ h, g.shared.cache.deviceStates h = none) ∧ (∀ h, g.shared.cache.departed h = none) ∧
    ∀ t, g.thread t = []

end

/-- A status signal, for runs that do not depend on it. -/
def someStatus : StopChainStatus := ⟨"sim0/tank/level", false⟩

end Anolis.State
