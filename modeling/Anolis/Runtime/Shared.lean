import Anolis.Control.StopChain
import Anolis.Runtime.ActuationGate

/-!
# What the runtime's threads share

The state that the mode manager, the call router, the e-stop controller and the stop monitor
guard with their locks, the effects a thread's step may have on it, and how the runtime wires
its callbacks.

A lock is the thread that holds it. The effects come in one type for each component, so that
the type of an effect says which part of the state it may touch: a call never writes the mode,
and `set_mode` never writes the latch.

Left out of the state: the time and the restored reason of the latch (the status page prints
them), the lock table's own mutex and the journal.
-/

namespace Anolis.Runtime

open Automation Control Lib Protocol Registry State

/-! ### Callbacks -/

/-- What a callback can answer: `true`, `false`, or an exception. -/
inductive Answer
  | accept | reject | throw
deriving DecidableEq

/-- The before-callbacks of the mode manager. `other` is any further one; its answer is given
by the schedule. -/
inductive BeforeCallback
  | hooklessGate | estopGate
  | hooks (hooks : List ModeTransitionHookConfig)
  | other (id : Nat)
deriving DecidableEq

/-- The commit guards of the mode manager. -/
inductive CommitGuard
  | hooklessGate | estopGate
  | other (id : Nat)
deriving DecidableEq

/-- The after-callbacks of the mode manager: the device-loss re-arm, the hooks, and the
mode-change event with its journal record. -/
inductive AfterCallback
  | rearm | notify
  | hooks (hooks : List ModeTransitionHookConfig)
  | other (id : Nat)
deriving DecidableEq

/-- The callbacks registered at a mode manager, in order. -/
structure Callbacks where
  before : List BeforeCallback
  guards : List CommitGuard
  after : List AfterCallback

/-- The callbacks the runtime registers (`init_automation`). A hook callback is registered
only where hooks are declared. -/
def initAutomation (automation : AutomationConfig) : Callbacks where
  before := [.hooklessGate, .estopGate] ++
    if automation.beforeTransition.isEmpty then [] else [.hooks automation.beforeTransition]
  guards := [.hooklessGate, .estopGate]
  after := [.rearm] ++
    (if automation.afterTransition.isEmpty then [] else [.hooks automation.afterTransition]) ++
    [.notify]

/-- A configured runtime. The mode manager exists where automation is enabled. `mainThread` is
the one thread that runs the main loop. -/
structure SystemConfig where
  automation : AutomationConfig
  safety : SafetyConfig := {}
  callbacks : Callbacks := initAutomation automation
  staleAfterMs : Int := 1000
  showDouble : Double → String := fun _ => ""
  mainThread : ThreadId := 0

/-! ### Effects -/

/-- What a call names: its provider and device, and the function it resolved to. -/
structure Target where
  providerId : String
  deviceId : String
  spec : FunctionSpec
  name : String
deriving DecidableEq

/-- The effects of `execute_call`. `dispatch` is `provider->call`. -/
inductive CallEffect
  | silent
  | latchRefused (request : CallRequest)
  | lockProvider (providerId : String)
  | unlockProvider (providerId : String)
  | recordDispatch (key : String)
  | dispatch (target : Target) (request : CallRequest) (args : ArgMap)

/-- The effects of `set_mode` and of the callbacks it runs. `readMode` is the first step of a
call, `returned` its last. `hookIssued` is the start of a hook's `execute_call`. -/
inductive ModeEffect
  | silent
  | readMode (new shown : RuntimeMode)
  | beforeAnswered (callback : BeforeCallback) (shown new : RuntimeMode) (accepted : Bool)
  | lockMode
  | unlockMode
  | guardAnswered (guard : CommitGuard) (prev new : RuntimeMode) (accepted : Bool)
  | commit (prev new : RuntimeMode)
  | afterStarted (callback : AfterCallback) (prev new : RuntimeMode)
  | afterFinished (callback : AfterCallback) (prev new : RuntimeMode)
  | returned (new : RuntimeMode) (ok : Bool)
  | hookHeld (request : CallRequest)
  | hookIssued (request : CallRequest)
deriving DecidableEq

/-- The effects of the e-stop controller, the stop monitor and the environment. -/
inductive ControlEffect
  | silent
  | lockController
  | unlockController
  | engage
  | clearAllowed
  | unlatch
  | admitHooks
  | withdraw
  | observe (snapshot : StopChainSnapshot)
  | publish (registry : DeviceRegistry)
  | advance (elapsed : Nat)
  | edge (edge : ReachabilityEdge)

/-- An effect of a step. -/
inductive Effect
  | call (e : CallEffect)
  | mode (e : ModeEffect)
  | control (e : ControlEffect)

/-! ### The shared state -/

/-- What the threads share. -/
structure Shared where
  mode : RuntimeMode
  modeLock : Option ThreadId := none
  latched : Bool := false
  admitted : Option ThreadId := none
  controllerLock : Option ThreadId := none
  stopChain : StopChainSnapshot := {}
  providerLock : String → Option ThreadId := fun _ => none
  lastDispatch : String → Option Int := fun _ => none
  lossLatch : DeviceLossLatch := {}
  registry : DeviceRegistry := ⟨[]⟩
  steady : Nat := 0

/-- `admits_fault_entry_hooks`, as the thread `t` reads it. -/
def Shared.admits (sh : Shared) (t : ThreadId) : Bool := sh.admitted = some t

/-- A call's effect on the shared state. -/
def Shared.applyCall (sh : Shared) (t : ThreadId) : CallEffect → Shared
  | .lockProvider p => { sh with providerLock := Function.update sh.providerLock p (some t) }
  | .unlockProvider p => { sh with providerLock := Function.update sh.providerLock p none }
  | .recordDispatch key =>
    { sh with lastDispatch := Function.update sh.lastDispatch key (some (sh.steady : Int)) }
  | .silent | .latchRefused _ | .dispatch _ _ _ => sh

/-- A `set_mode`'s effect on the shared state. The re-arm callback releases the loss latches
on `MANUAL -> AUTO`. -/
def Shared.applyMode (sh : Shared) (t : ThreadId) : ModeEffect → Shared
  | .lockMode => { sh with modeLock := some t }
  | .unlockMode => { sh with modeLock := none }
  -- the write of the mode and the end of the guarded section
  | .commit _ new => { sh with mode := new, modeLock := none }
  | .afterFinished callback prev new =>
    if callback = .rearm ∧ prev = .manual ∧ new = .auto then
      { sh with lossLatch := sh.lossLatch.releaseAll }
    else sh
  | .silent | .readMode _ _ | .beforeAnswered _ _ _ _ | .guardAnswered _ _ _ _
  | .afterStarted _ _ _ | .returned _ _ | .hookHeld _ | .hookIssued _ => sh

/-- An effect of the controller, the monitor or the environment on the shared state. -/
def Shared.applyControl (sh : Shared) (t : ThreadId) : ControlEffect → Shared
  | .silent | .clearAllowed => sh
  | .lockController => { sh with controllerLock := some t }
  | .unlockController => { sh with controllerLock := none }
  | .engage => { sh with latched := true }
  | .unlatch => { sh with latched := false }
  | .admitHooks => { sh with admitted := some t }
  | .withdraw => { sh with admitted := none }
  | .observe snapshot => { sh with stopChain := snapshot }
  | .publish registry => { sh with registry := registry }
  -- only the steady clock paces the calls
  | .advance elapsed => { sh with steady := sh.steady + elapsed }
  | .edge edge => { sh with lossLatch := (sh.lossLatch.applyReachabilityEdge edge).1 }

/-- What an effect of the thread `t` does to the shared state. -/
def Shared.apply (sh : Shared) (t : ThreadId) : Effect → Shared
  | .call e => sh.applyCall t e
  | .mode e => sh.applyMode t e
  | .control e => sh.applyControl t e

/-! ### What an effect leaves alone

A call touches the provider locks and the dispatch times. A `set_mode` touches the mode, the
mode lock and the loss latches. The rest touches neither the modes nor the provider locks. -/

@[simp] theorem Shared.applyCall_frame (sh : Shared) (t : ThreadId) (e : CallEffect) :
    (sh.applyCall t e).mode = sh.mode ∧ (sh.applyCall t e).modeLock = sh.modeLock ∧
    (sh.applyCall t e).latched = sh.latched ∧ (sh.applyCall t e).admitted = sh.admitted ∧
    (sh.applyCall t e).controllerLock = sh.controllerLock ∧
    (sh.applyCall t e).stopChain = sh.stopChain := by
  cases e <;> exact ⟨rfl, rfl, rfl, rfl, rfl, rfl⟩

@[simp] theorem Shared.applyMode_frame (sh : Shared) (t : ThreadId) (e : ModeEffect) :
    (sh.applyMode t e).latched = sh.latched ∧ (sh.applyMode t e).admitted = sh.admitted ∧
    (sh.applyMode t e).controllerLock = sh.controllerLock ∧
    (sh.applyMode t e).stopChain = sh.stopChain ∧
    (sh.applyMode t e).providerLock = sh.providerLock := by
  cases e with
  | afterFinished =>
    simp only [Shared.applyMode]
    split <;> exact ⟨rfl, rfl, rfl, rfl, rfl⟩
  | _ => exact ⟨rfl, rfl, rfl, rfl, rfl⟩

@[simp] theorem Shared.applyControl_frame (sh : Shared) (t : ThreadId) (e : ControlEffect) :
    (sh.applyControl t e).mode = sh.mode ∧ (sh.applyControl t e).modeLock = sh.modeLock ∧
    (sh.applyControl t e).providerLock = sh.providerLock := by
  cases e <;> exact ⟨rfl, rfl, rfl⟩

variable {sh : Shared} {t : ThreadId} {e : Effect}

theorem Shared.latched_apply
    (he : e ≠ .control .unlatch) (h : sh.latched) : (sh.apply t e).latched = true := by
  cases e with
  | call e | mode e => simpa [Shared.apply] using h
  | control e =>
    cases e with
    | unlatch => exact absurd rfl he
    | engage => rfl
    | _ => exact h

theorem Shared.latched_of_apply
    (he : e ≠ .control .engage) (h : (sh.apply t e).latched) : sh.latched = true := by
  cases e with
  | call e | mode e => simpa [Shared.apply] using h
  | control e =>
    cases e with
    | engage => exact absurd rfl he
    | unlatch => cases h
    | _ => exact h

theorem Shared.lossLatched_apply {handle : String}
    (he : e ≠ .mode (.afterFinished .rearm .manual .auto)) (h : sh.lossLatch.latched handle) :
    (sh.apply t e).lossLatch.latched handle := by
  cases e with
  | call e => cases e <;> exact h
  | mode e =>
    cases e with
    | afterFinished callback prev new =>
      simp only [Shared.apply, Shared.applyMode]
      split
      · rename_i hrearm
        obtain ⟨rfl, rfl, rfl⟩ := hrearm
        exact absurd rfl he
      · exact h
    | _ => exact h
  | control e =>
    cases e with
    | edge edge =>
      simp [Shared.apply, Shared.applyControl, DeviceLossLatch.applyReachabilityEdge_latched, h]
    | _ => exact h

theorem Shared.registry_apply (he : ∀ registry, e ≠ .control (.publish registry)) :
    (sh.apply t e).registry = sh.registry := by
  cases e with
  | call e => cases e <;> rfl
  | mode e =>
    cases e <;> simp only [Shared.apply, Shared.applyMode]
    case afterFinished => split <;> rfl
  | control e =>
    cases e with
    | publish registry => exact absurd rfl (he registry)
    | _ => rfl

/-! ### Choices -/

/-- A provider's answer to a call. -/
inductive CallReply
  | ok (results : ArgMap)
  | failed (status : StatusCode) (lastError : String)

/-- What becomes of the latch file when the latch is saved. The store may throw. -/
inductive SaveOutcome
  | saved | failed | threw
deriving DecidableEq

/-- The operations a thread may start. `ladder` is the ladder outside a trigger: for one
device that came back (`reassert_for`), or for all but the absent ones (`drive_safe_state`).
`restart` is the supervisor's `restart_provider`. -/
inductive Start
  | call (deviceHandle : String) (functionId : UInt32) (functionName : String) (args : ArgMap)
  | setMode (new : RuntimeMode)
  | trigger
  | hold
  | clear
  | ladder (onlyDevice : Option String) (absent : SortedMap String String)
  | updateStopChain
  | tick
  | restart (providerId : String)

/-- What the schedule supplies to a step: the operation an idle thread starts or the change an
idle thread makes to the environment, and what the running code reads of the world outside. A
step that reads nothing takes any choice. -/
inductive Choice
  | go
  | start (op : Start)
  | advance (elapsed : Nat)
  | edge (edge : ReachabilityEdge)
  | inventory (devices : List RegisteredDevice)
  | found (yes : Bool)
  | available (yes : Bool)
  | reply (r : CallReply)
  | answer (a : Answer)
  | save (outcome : SaveOutcome)
  | reading (value : Option CachedSignalValue) (now later : Int64) (nowMs : Int)
  | treeCall (deviceHandle functionName : String) (args : ArgMap)
  | treeThrow
  | endTick

end Anolis.Runtime
