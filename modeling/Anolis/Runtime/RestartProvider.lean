import Anolis.Provider.ProviderConfig
import Anolis.Runtime.OwnershipValidation
import Anolis.State.CacheMachine

/-!
# Replacing a provider while others poll

`Runtime::restart_provider`, with the three structures it publishes to: the device registry, the
cache's poll plan and states, and the registered provider handles. Thread 0 makes the attempts, one
after another. The other threads poll, refresh and classify, section by section, as in
`CacheMachine`, and move the clocks.

An attempt stops the old process, starts a new one, checks the time, inspects the devices, checks
the time again, validates the claims, and only then publishes: the devices, the poll plan, the
handle. What the stop, the start and the inspection answer is the schedule's. The check of the time
and the validation are computed.

With `direct`, thread 0 may also commit a provider's devices and rebuild the poll plan with no
attempt around it, as the callers of the two functions may.

Handles are numbered in the order in which they are made. Left out: what `System.restartNext` has
of an attempt, the re-check of the hooks in `AUTO`, and the preflight, which publish nothing.
-/

namespace Anolis.Runtime

open Lib Provider Registry State

/-- What the threads share. -/
structure RestartWorld where
  world : CacheWorld
  registered : String → Option Nat
  made : Nat

/-- Where thread 0 is in an attempt. -/
inductive AttemptPc
  | idle
  | stopOld (config : ProviderConfig)
  | startNew (config : ProviderConfig) (since : Nat)
  | started (config : ProviderConfig) (since handle : Nat)
  | inspect (config : ProviderConfig) (since handle : Nat)
  | inspected (config : ProviderConfig) (since handle : Nat) (devices : List RegisteredDevice)
  | validate (config : ProviderConfig) (handle : Nat) (devices : List RegisteredDevice)
  | commit (providerId : String) (handle : Option Nat) (devices : List RegisteredDevice)
  | rebuild (providerId : String) (handle : Option Nat)
  | register (providerId : String) (handle : Nat)
  | finish (providerId : String) (ok : Bool)

/-- A thread: the sections of the cache that it still has to run, and where its attempt goes on
behind them. -/
structure RestartThread where
  sections : List Section := []
  pc : AttemptPc := .idle

/-- What the schedule supplies to a step. -/
inductive RestartChoice
  | go
  | cache (choice : CacheChoice)
  | attempt (index : Nat)
  | replace (index : Nat) (described : List RegisteredDevice)
  | stopped (ok : Bool)
  | started (ok : Bool)
  | described (devices : Option (List RegisteredDevice))

/-- The effect of a step. -/
inductive RestartEffect
  | silent
  | cache (e : CacheEffect)
  | began (providerId : String)
  | made
  | discovered (devices : List RegisteredDevice)
  | commit (providerId : String) (devices : List RegisteredDevice)
  | register (providerId : String) (handle : Nat)
  | returned (providerId : String) (ok : Bool)

/-- What an effect does to the shared state. -/
def RestartWorld.apply (w : RestartWorld) : RestartEffect → RestartWorld
  | .silent | .began _ | .discovered _ | .returned _ _ => w
  | .cache e => { w with world := w.world.apply e }
  | .made => { w with made := w.made + 1 }
  | .commit p devices =>
    { w with
      world := { w.world with registry := w.world.registry.commitProviderDevices p devices } }
  | .register p handle => { w with registered := Function.update w.registered p (some handle) }

/-- The check of the time: whole milliseconds since the old process was stopped. -/
def restartTimedOut (config : ProviderConfig) (since now : Nat) : Bool :=
  config.restartPolicy.timeoutMs ≤ ((now - since) / 1000000 : Nat)

/-- The operations that the other threads start. -/
def pollOp : CacheOp → Bool
  | .pollOnce | .pollDeviceNow _ | .classify => true
  | _ => false

section
variable (providers : List ProviderConfig) (direct : Bool) (status : StopChainStatus)
  (staleAfterMs : Int)

/-- A step of an attempt, outside the sections of the cache. -/
def attemptNext (w : RestartWorld) : AttemptPc → RestartChoice →
    Option (RestartEffect × RestartThread)
  | .stopOld config, choice =>
    let now := w.world.clock.steady
    match w.registered config.id, choice with
    | none, .go => some (.silent, { pc := .startNew config now })
    | some _, .stopped true => some (.silent, { pc := .startNew config now })
    | some _, .stopped false => some (.silent, { pc := .finish config.id false })
    | _, _ => none
  | .startNew config since, .started true => some (.made, { pc := .started config since w.made })
  | .startNew config _, .started false => some (.made, { pc := .finish config.id false })
  | .started config since handle, .go =>
    if restartTimedOut config since w.world.clock.steady then
      some (.silent, { pc := .finish config.id false })
    else some (.silent, { pc := .inspect config since handle })
  | .inspect config since handle, .described (some devices) =>
    let devices := inspectProviderDevices config.id devices
    some (.discovered devices, { pc := .inspected config since handle devices })
  | .inspect config _ _, .described none => some (.silent, { pc := .finish config.id false })
  | .inspected config since handle devices, .go =>
    if restartTimedOut config since w.world.clock.steady then
      some (.silent, { pc := .finish config.id false })
    else some (.silent, { pc := .validate config handle devices })
  | .validate config handle devices, .go =>
    match validateOwnershipClaimsAfterProviderReplacement w.world.registry.devices config.id
        devices with
    | .ok () => some (.silent, { pc := .commit config.id (some handle) devices })
    | .error _ => some (.silent, { pc := .finish config.id false })
  | .commit p handle devices, .go =>
    some (.commit p devices,
      { sections := [.eraseConfigs p, .eraseStates p], pc := .rebuild p handle })
  | .rebuild p (some handle), .go => some (.silent, { pc := .register p handle })
  | .rebuild _ none, .go => some (.silent, { pc := .idle })
  | .register p handle, .go => some (.register p handle, { pc := .finish p true })
  | .finish p ok, .go => some (.returned p ok, { pc := .idle })
  | _, _ => none

/-- What an idle thread may start. -/
def idleNext (t : ThreadId) : RestartChoice → Option (RestartEffect × RestartThread)
  | .attempt index =>
    match providers[index]? with
    | some config => if t = 0 then some (.began config.id, { pc := .stopOld config }) else none
    | none => none
  | .replace index described =>
    match providers[index]? with
    | some config =>
      if direct ∧ t = 0 then
        some (.silent,
          { pc := .commit config.id none (inspectProviderDevices config.id described) })
      else none
    | none => none
  | .cache (.start op) =>
    if t ≠ 0 ∧ pollOp op then some (.silent, { sections := op.sections }) else none
  | .cache (.advance elapsed system) =>
    if t ≠ 0 then some (.cache (.advance elapsed system), {}) else none
  | _ => none

/-- The machine of the attempts and the polls. -/
def restarts : Machine RestartWorld RestartThread RestartEffect RestartChoice where
  next w t th choice :=
    match th.sections, th.pc, choice with
    | sec :: rest, pc, .cache c =>
      (sec.run status staleAfterMs w.world c).map fun r =>
        (.cache r.1, { sections := r.2 ++ rest, pc := pc })
    | _ :: _, _, _ => none
    | [], .idle, choice => idleNext providers direct t choice
    | [], pc, choice => attemptNext w pc choice
  apply w _ e := w.apply e

end

/-! ### What a step does -/

/-- The configuration of an attempt that has published nothing. -/
def AttemptPc.config? : AttemptPc → Option ProviderConfig
  | .stopOld config | .startNew config _ | .started config _ _ | .inspect config _ _
  | .inspected config _ _ _ | .validate config _ _ => some config
  | _ => none

/-- The steps of an attempt. -/
inductive AttemptStep (w : RestartWorld) : AttemptPc → RestartEffect → RestartThread → Prop
  /-- Before anything is published, the attempt fails. -/
  | fail {pc : AttemptPc} {config : ProviderConfig} {e : RestartEffect}
      (hpc : pc.config? = some config) (he : e = .silent ∨ e = .made) :
      AttemptStep w pc e { pc := .finish config.id false }
  | stopOld (config : ProviderConfig) (now : Nat) :
      AttemptStep w (.stopOld config) .silent { pc := .startNew config now }
  | startNew (config : ProviderConfig) (since : Nat) :
      AttemptStep w (.startNew config since) .made { pc := .started config since w.made }
  | started (config : ProviderConfig) (since handle : Nat) :
      AttemptStep w (.started config since handle) .silent { pc := .inspect config since handle }
  | inspect (config : ProviderConfig) (since handle : Nat) (described : List RegisteredDevice) :
      AttemptStep w (.inspect config since handle)
        (.discovered (inspectProviderDevices config.id described))
        { pc := .inspected config since handle (inspectProviderDevices config.id described) }
  | inspected (config : ProviderConfig) (since handle : Nat) (devices : List RegisteredDevice) :
      AttemptStep w (.inspected config since handle devices) .silent
        { pc := .validate config handle devices }
  | validate (config : ProviderConfig) (handle : Nat) (devices : List RegisteredDevice)
      (hok : validateOwnershipClaimsAfterProviderReplacement w.world.registry.devices config.id
        devices = .ok ()) :
      AttemptStep w (.validate config handle devices) .silent
        { pc := .commit config.id (some handle) devices }
  | commit (p : String) (handle : Option Nat) (devices : List RegisteredDevice) :
      AttemptStep w (.commit p handle devices) (.commit p devices)
        { sections := [.eraseConfigs p, .eraseStates p], pc := .rebuild p handle }
  | rebuilt (p : String) (handle : Nat) :
      AttemptStep w (.rebuild p (some handle)) .silent { pc := .register p handle }
  | rebuiltDirect (p : String) : AttemptStep w (.rebuild p none) .silent { pc := .idle }
  | register (p : String) (handle : Nat) :
      AttemptStep w (.register p handle) (.register p handle) { pc := .finish p true }
  | finish (p : String) (ok : Bool) :
      AttemptStep w (.finish p ok) (.returned p ok) { pc := .idle }

variable {c : RestartChoice} {e : RestartEffect} {th : RestartThread} {w : RestartWorld}

theorem attemptStep_of_next {pc : AttemptPc}
    (h : attemptNext w pc c = some (e, th)) : AttemptStep w pc e th := by
  revert h
  fun_cases attemptNext w pc c <;> intro h <;>
    simp only [some_pair, reduceCtorEq] at h
  all_goals obtain ⟨rfl, rfl⟩ := h
  all_goals first
    | exact .fail rfl (by simp)
    | exact .validate _ _ _ (by assumption)
    | constructor

/-- What an idle thread starts: an attempt or a replacement on thread 0, a poll or a step of the
clocks on another. -/
inductive IdleStep (providers : List ProviderConfig) (direct : Bool) (t : ThreadId) :
    RestartEffect → RestartThread → Prop
  | attempt {config : ProviderConfig} (ht : t = 0) (hconfig : config ∈ providers) :
      IdleStep providers direct t (.began config.id) { pc := .stopOld config }
  | replace {config : ProviderConfig} (described : List RegisteredDevice) (hdirect : direct)
      (ht : t = 0) (hconfig : config ∈ providers) :
      IdleStep providers direct t .silent
        { pc := .commit config.id none (inspectProviderDevices config.id described) }
  | poll {op : CacheOp} (ht : t ≠ 0) (hop : pollOp op) :
      IdleStep providers direct t .silent { sections := op.sections }
  | advance (elapsed : Nat) (system : Int64) (ht : t ≠ 0) :
      IdleStep providers direct t (.cache (.advance elapsed system)) {}

theorem idleStep_of_next {providers : List ProviderConfig} {direct : Bool} {t : ThreadId}
    (h : idleNext providers direct t c = some (e, th)) : IdleStep providers direct t e th := by
  revert h
  fun_cases idleNext providers direct t c <;> intro h <;>
    simp only [some_pair, reduceCtorEq] at h
  all_goals obtain ⟨rfl, rfl⟩ := h
  case case1 hget ht => exact .attempt ht (List.mem_of_getElem? hget)
  case case4 hget hdt => exact .replace _ hdt.1 hdt.2 (List.mem_of_getElem? hget)
  case case7 hop => exact .poll hop.1 hop.2
  case case9 ht => exact .advance _ _ ht

/-- The steps of a thread. -/
inductive RestartStep (providers : List ProviderConfig) (direct : Bool) (status : StopChainStatus)
    (staleAfterMs : Int) (w : RestartWorld) (t : ThreadId) :
    RestartThread → RestartEffect → RestartThread → Prop
  | ofCache {sec : Section} {rest more : List Section} {pc : AttemptPc} {c : CacheChoice}
      {e : CacheEffect} (hrun : sec.run status staleAfterMs w.world c = some (e, more)) :
      RestartStep providers direct status staleAfterMs w t ⟨sec :: rest, pc⟩ (.cache e)
        ⟨more ++ rest, pc⟩
  | idle {e : RestartEffect} {th : RestartThread} (h : IdleStep providers direct t e th) :
      RestartStep providers direct status staleAfterMs w t ⟨[], .idle⟩ e th
  | attempt {pc : AttemptPc} {e : RestartEffect} {th : RestartThread} (h : AttemptStep w pc e th) :
      RestartStep providers direct status staleAfterMs w t ⟨[], pc⟩ e th

theorem restartStep_of_next {providers : List ProviderConfig} {direct : Bool}
    {status : StopChainStatus} {staleAfterMs : Int} {t : ThreadId} {th' : RestartThread}
    (h : (restarts providers direct status staleAfterMs).next w t th c = some (e, th')) :
    RestartStep providers direct status staleAfterMs w t th e th' := by
  obtain ⟨sections, pc⟩ := th
  simp only [restarts] at h
  split at h
  · obtain ⟨⟨ce, more⟩, hrun, heq⟩ := Option.map_eq_some_iff.mp h
    cases heq
    exact .ofCache hrun
  · cases h
  · exact .idle (idleStep_of_next h)
  · exact .attempt (attemptStep_of_next h)

/-- A state of the attempts and the polls. -/
abbrev RestartState := Global RestartWorld RestartThread

theorem restarts_step {providers : List ProviderConfig} {direct : Bool} {status : StopChainStatus}
    {staleAfterMs : Int} {g g' : RestartState} {t : ThreadId}
    (h : (restarts providers direct status staleAfterMs).lts.step g (t, e) g') :
    ∃ th', RestartStep providers direct status staleAfterMs g.shared t (g.thread t) e th' ∧
      g'.shared = g.shared.apply e ∧ g'.thread t = th' ∧ ∀ u, u ≠ t → g'.thread u = g.thread u := by
  obtain ⟨_, th', hnext, hrest⟩ := Machine.step_inv h
  exact ⟨th', restartStep_of_next hnext, hrest⟩

/-- A trace of the attempts and the polls. -/
abbrev RestartTrace := Trace RestartState (ThreadId × RestartEffect)

/-- The runtime after startup: the devices are of configured providers, the cache was initialised on
them, every registered handle was made, and no thread is inside an operation. -/
structure RestartStart (providers : List ProviderConfig) (g : RestartState) : Prop where
  devices : ∀ d ∈ g.shared.world.registry.devices, d.providerId ∈ providerIds providers
  cache : ∃ c : Cache, g.shared.world.cache = c.commitInitial g.shared.world.registry.devices
  handles : ∀ p h, g.shared.registered p = some h → h < g.shared.made
  idle : ∀ t, g.thread t = {}

end Anolis.Runtime
