import Anolis.Runtime.Shared

/-!
# `execute_call`, step by step

`execute_call` as a routine of the thread that runs it. `CallPc` is the place in the function,
`callNext` one step from it: the gates, the resolution, the two latch checks on either side of
the provider's lock, the dispatch, and the return that gives the lock back. A step reads each
shared variable once, so every other thread's step may fall between two of them.
-/

namespace Anolis.Runtime

open Automation Control Lib Protocol Registry

variable {target : Target}

/-- Where a call is. From `latchAgain` on it holds its provider's lock, and `leave` gives it
back and returns. -/
inductive CallPc
  | idleGate
  | autoGate
  | provider
  | available (providerId deviceId : String)
  | device (providerId deviceId : String)
  | allowedModes (target : Target)
  | latch (target : Target)
  | loss (target : Target)
  | arguments (target : Target)
  | lock (target : Target) (args : ArgMap)
  | latchAgain (target : Target) (args : ArgMap)
  | lossAgain (target : Target) (args : ArgMap)
  | interval (target : Target) (args : ArgMap)
  | dispatch (target : Target) (args : ArgMap)
  | reply (target : Target)
  | leave (target : Target) (result : CallResult)

/-- A running `execute_call`. -/
structure CallState where
  request : CallRequest
  pc : CallPc := .idleGate

/-- The place after a step, or the call's result. -/
inductive CallNext
  | go (pc : CallPc)
  | ret (result : CallResult)

/-- The loss latch refuses a tree's actuating call to a device that was lost. -/
def lossHolds (sh : Shared) (request : CallRequest) (target : Target) : Bool :=
  !request.safeState && request.isBehaviorTree && sh.lossLatch.latched request.deviceHandle &&
    isActuating target.spec

def latchMessage : String := "Actuation latched by e-stop (POST /v0/estop/clear to release)"

def lossMessage : String :=
  "Device was unreachable and has not been re-armed; re-enter AUTO to resume automation"

/-- A refusal, before the provider's lock is taken. -/
def refuse (code : StatusCode) (message : String) : Option (CallEffect × CallNext) :=
  some (.silent, .ret (.refused code message))

/-- One step of `execute_call` on the thread `t`. A read of the mode waits for the mode
manager's mutex. -/
def callNext (cfg : SystemConfig) (sh : Shared) (t : ThreadId) (request : CallRequest) :
    CallPc → Choice → Option (CallEffect × CallNext)
  | .idleGate, _ =>
    if request.safeState || !cfg.automation.enabled then some (.silent, .go .autoGate)
    else if sh.modeLock.isSome then none
    else if sh.mode = .idle then
      refuse .failedPrecondition "Control operations blocked in IDLE mode"
    else some (.silent, .go .autoGate)
  | .autoGate, _ =>
    if request.isAutomated || request.safeState || !cfg.automation.enabled then
      some (.silent, .go .provider)
    else if sh.modeLock.isSome then none
    else if sh.mode = .auto ∧ cfg.automation.manualGatingPolicy = .block then
      refuse .failedPrecondition "Manual call blocked in AUTO mode (policy: BLOCK)"
    else some (.silent, .go .provider)
  | .provider, c =>
    match parseDeviceHandle request.deviceHandle, c with
    | .error e, _ => refuse .invalidArgument e
    | .ok (p, d), .found true => some (.silent, .go (.available p d))
    | .ok (p, _), .found false => refuse .notFound ("Provider not found: " ++ p)
    | .ok _, _ => none
  | .available p d, .available true => some (.silent, .go (.device p d))
  | .available p _, .available false => refuse .unavailable ("Provider not available: " ++ p)
  | .available _ _, _ => none
  | .device p d, _ =>
    match sh.registry.getDeviceCopy p d with
    | none => refuse .notFound "Device not found in registry"
    | some device =>
      match resolveFunctionSpec device request with
      | .error e => refuse (resolveStatus e) e
      | .ok (spec, name) => some (.silent, .go (.allowedModes ⟨p, d, spec, name⟩))
  | .allowedModes target, _ =>
    -- without a mode manager the call is judged as MANUAL
    let mode := if cfg.automation.enabled then modeToString sh.mode else "MANUAL"
    if request.safeState || target.spec.allowedModes.isEmpty then
      some (.silent, .go (.latch target))
    else if cfg.automation.enabled ∧ sh.modeLock.isSome then none
    else if modeAllowed target.spec mode then some (.silent, .go (.latch target))
    else refuse .failedPrecondition (target.name ++ " is allowed only in " ++
      listText target.spec.allowedModes ++ "; the runtime is in " ++ mode)
  | .latch target, _ =>
    if latchHolds request target.spec sh.latched (sh.admits t) then
      some (.latchRefused request, .ret (.refused .failedPrecondition latchMessage))
    else some (.silent, .go (.loss target))
  | .loss target, _ =>
    if lossHolds sh request target then refuse .failedPrecondition lossMessage
    else some (.silent, .go (.arguments target))
  | .arguments target, _ =>
    match coerceArguments target.spec.args request.args with
    | .error e => refuse .invalidArgument e
    | .ok args =>
      match validateArguments cfg.showDouble target.spec.args args with
      | .error e => refuse .invalidArgument e
      | .ok () => some (.silent, .go (.lock target args))
  -- the wait for the provider's lock is where an e-stop overtakes a call
  | .lock target args, _ =>
    if (sh.providerLock target.providerId).isSome then none
    else some (.lockProvider target.providerId, .go (.latchAgain target args))
  | .latchAgain target args, _ =>
    if latchHolds request target.spec sh.latched (sh.admits t) then
      some (.latchRefused request, .go (.leave target (.refused .failedPrecondition latchMessage)))
    else some (.silent, .go (.lossAgain target args))
  | .lossAgain target args, _ =>
    if lossHolds sh request target then
      some (.silent, .go (.leave target (.refused .failedPrecondition lossMessage)))
    else some (.silent, .go (.interval target args))
  | .interval target args, _ =>
    if target.spec.minIntervalMs = 0 then some (.silent, .go (.dispatch target args))
    else
      match intervalRemaining request target.spec
          (sh.lastDispatch (dispatchKey request target.spec)) sh.steady with
      | some ms =>
        some (.silent, .go (.leave target (.refused .failedPrecondition (target.name ++
          " may be called once every " ++ toString target.spec.minIntervalMs ++
          " ms; retry in " ++ toString ms ++ " ms"))))
      | none =>
        some (.recordDispatch (dispatchKey request target.spec), .go (.dispatch target args))
  -- the request leaves for the provider here, with the lock held until `leave`
  | .dispatch target args, _ => some (.dispatch target request args, .go (.reply target))
  | .reply target, .reply (.ok results) =>
    -- the post-call poll of the cache follows here, still under the provider's lock
    some (.silent, .go (.leave target { success := true, results := results, dispatched := true }))
  | .reply target, .reply (.failed status lastError) =>
    some (.silent, .go (.leave target
      { success := false, errorMessage := "Provider call failed: " ++ lastError,
        statusCode := status, dispatched := true }))
  | .reply _, _ => none
  | .leave target result, _ => some (.unlockProvider target.providerId, .ret result)

section
variable {cfg : SystemConfig} {sh : Shared} {t : ThreadId} {request : CallRequest} {pc : CallPc}
  {c : Choice} {e : CallEffect} {n : CallNext} {r : CallRequest}

/-! ### The provider's lock -/

/-- The provider whose lock a call at this place holds. -/
def CallPc.held : CallPc → Option String
  | .latchAgain target _ | .lossAgain target _ | .interval target _ | .dispatch target _
  | .reply target | .leave target _ => some target.providerId
  | _ => none

/-- The provider whose lock the call holds after a step. -/
def CallNext.held : CallNext → Option String
  | .go pc => pc.held
  | .ret _ => none

/-- A step of a call leaves the provider locks alone, or takes the free lock of its provider,
or gives back the one it holds. -/
theorem callNext_held (h : callNext cfg sh t request pc c = some (e, n)) :
    ((sh.applyCall t e).providerLock = sh.providerLock ∧ n.held = pc.held) ∨
      (∃ p, e = .lockProvider p ∧ sh.providerLock p = none ∧ pc.held = none ∧ n.held = some p) ∨
      (∃ p, e = .unlockProvider p ∧ pc.held = some p ∧ n.held = none) := by
  revert h
  fun_cases callNext cfg sh t request pc c <;> intro h <;>
    simp only [refuse, some_pair, reduceCtorEq] at h
  all_goals obtain ⟨rfl, rfl⟩ := h
  all_goals simp_all [CallPc.held, CallNext.held, Shared.applyCall]

theorem callNext_lockProvider {p : String}
    (h : callNext cfg sh t request pc c = some (.lockProvider p, n)) :
    sh.providerLock p = none := by
  revert h
  fun_cases callNext cfg sh t request pc c <;> intro h <;>
    simp only [refuse, some_pair, reduceCtorEq, false_and, CallEffect.lockProvider.injEq] at h
  obtain ⟨rfl, rfl⟩ := h
  simp_all

theorem callNext_latchRefused {refused : CallRequest}
    (h : callNext cfg sh t request pc c = some (.latchRefused refused, n)) :
    refused = request ∧ ∃ spec, latchHolds request spec sh.latched (sh.admits t) := by
  revert h
  fun_cases callNext cfg sh t request pc c <;> intro h <;>
    simp only [refuse, some_pair, reduceCtorEq, false_and, CallEffect.latchRefused.injEq] at h
  all_goals
    obtain ⟨rfl, -⟩ := h
    exact ⟨rfl, _, by assumption⟩

/-! ### The second latch check -/

/-- The target of a call that has passed its second latch check and is about to dispatch. -/
def CallPc.armed : CallPc → Option Target
  | .lossAgain target _ | .interval target _ | .dispatch target _ => some target
  | _ => none

/-- The target of a call that is armed after a step. -/
def CallNext.armed : CallNext → Option Target
  | .go pc => pc.armed
  | .ret _ => none

theorem CallPc.held_of_armed (h : pc.armed = some target) : pc.held = some target.providerId := by
  cases pc <;> simp_all [CallPc.armed, CallPc.held]

theorem callNext_dispatch_at {args : ArgMap}
    (h : callNext cfg sh t request pc c = some (.dispatch target r args, n)) :
    r = request ∧ pc = .dispatch target args ∧ n = .go (.reply target) := by
  revert h
  fun_cases callNext cfg sh t request pc c <;> intro h <;>
    simp only [refuse, some_pair, reduceCtorEq, false_and, CallEffect.dispatch.injEq] at h
  obtain ⟨⟨rfl, rfl, rfl⟩, rfl⟩ := h
  exact ⟨rfl, rfl, rfl⟩

theorem callNext_dispatch {args : ArgMap}
    (h : callNext cfg sh t request pc c = some (.dispatch target r args, n)) :
    r = request ∧ pc.armed = some target ∧ n.armed = none := by
  obtain ⟨rfl, rfl, rfl⟩ := callNext_dispatch_at h
  exact ⟨rfl, rfl, rfl⟩

/-- A call becomes armed only by a latch check that it passes under its provider's lock. -/
theorem callNext_armed (h : callNext cfg sh t request pc c = some (e, n))
    (hn : n.armed = some target) : pc.armed = some target ∨
      latchHolds request target.spec sh.latched (sh.admits t) = false := by
  revert h
  fun_cases callNext cfg sh t request pc c <;> intro h <;>
    simp only [refuse, some_pair, reduceCtorEq] at h
  all_goals obtain ⟨rfl, rfl⟩ := h
  all_goals simp_all [CallPc.armed, CallNext.armed]

/-- The target of a call that has passed its second loss check and is about to dispatch. -/
def CallPc.pastLoss : CallPc → Option Target
  | .interval target _ | .dispatch target _ => some target
  | _ => none

theorem callNext_pastLoss {pc' : CallPc} (h : callNext cfg sh t request pc c = some (e, .go pc'))
    (hpc' : pc'.pastLoss = some target) :
    pc.pastLoss = some target ∨ lossHolds sh request target = false := by
  revert h
  fun_cases callNext cfg sh t request pc c <;> intro h <;>
    simp only [refuse, some_pair, reduceCtorEq, and_false, CallNext.go.injEq] at h
  all_goals obtain ⟨rfl, rfl⟩ := h
  all_goals simp_all [CallPc.pastLoss]

/-! ### What a call has resolved -/

/-- A target with its arguments, as `validate_call` resolves it. -/
def Target.resolved (target : Target) (args : ArgMap) : ResolvedCall :=
  ⟨target.providerId, target.deviceId, target.spec, target.name, args⟩

/-- What a call at this place has resolved of its request, in the inventory `registry`. A
safe-state call that gives back the lock has been dispatched. -/
def CallPc.Tracks (showDouble : Double → String) (registry : DeviceRegistry)
    (request : CallRequest) : CallPc → Prop
  | .idleGate | .autoGate | .provider => True
  | .available p d | .device p d => parseDeviceHandle request.deviceHandle = .ok (p, d)
  | .allowedModes target | .latch target | .loss target | .arguments target =>
    parseDeviceHandle request.deviceHandle = .ok (target.providerId, target.deviceId) ∧
      ∃ device, registry.getDeviceCopy target.providerId target.deviceId = some device ∧
        resolveFunctionSpec device request = .ok (target.spec, target.name)
  | .lock target args | .latchAgain target args | .lossAgain target args
  | .interval target args | .dispatch target args =>
    validateCall showDouble registry request = .ok (target.resolved args)
  | .reply target => ∃ args, validateCall showDouble registry request = .ok (target.resolved args)
  | .leave target result =>
    (∃ args, validateCall showDouble registry request = .ok (target.resolved args)) ∧
      (request.safeState → result.dispatched)

/-- A step of a call keeps track, where the device it reads is the inventory's. -/
theorem callNext_tracks {registry : DeviceRegistry} {pc' : CallPc}
    (h : callNext cfg sh t request pc c = some (e, .go pc'))
    (hpc : pc.Tracks cfg.showDouble registry request) (hdevice : ∀ p d, pc = .device p d →
      sh.registry.getDeviceCopy p d = registry.getDeviceCopy p d) :
    pc'.Tracks cfg.showDouble registry request := by
  revert h
  fun_cases callNext cfg sh t request pc c <;> intro h <;>
    simp only [refuse, some_pair, reduceCtorEq, and_false, CallNext.go.injEq] at h
  all_goals obtain ⟨-, rfl⟩ := h
  all_goals simp_all [CallPc.Tracks, latchHolds, lossHolds]
  · -- the arguments are coerced and validated
    rename_i hcoerce hvalid
    obtain ⟨hparse, device, hcopy, hresolve⟩ := hpc
    exact validateCall_eq_ok.mpr ⟨hparse, device, hcopy, hresolve, hcoerce, hvalid⟩
  · -- the interval holds back no safe-state call
    rename_i hms
    intro hsafe
    rw [intervalRemaining_of_safeState hsafe] at hms
    cases hms

end

/-! ### The mode gates -/

/-- The mode that the gates read. A runtime without automation judges calls as MANUAL. -/
def currentMode (cfg : SystemConfig) (sh : Shared) : RuntimeMode :=
  if cfg.automation.enabled then sh.mode else .manual

/-- A manual call in AUTO under the BLOCK policy. -/
def manualBlocked (cfg : SystemConfig) (mode : RuntimeMode) (request : CallRequest) : Bool :=
  !request.isAutomated && mode = .auto && cfg.automation.manualGatingPolicy = .block

/-- The mode gates of a call: not in IDLE, in one of the function's allowed modes, and not a
manual call in AUTO under the BLOCK policy. -/
structure GatesOpen (cfg : SystemConfig) (mode : RuntimeMode) (request : CallRequest)
    (target : Target) : Prop where
  notIdle : mode ≠ .idle
  allowed : target.spec.allowedModes ≠ [] →
    ∃ declared ∈ target.spec.allowedModes, declared.toUpper = modeToString mode
  notBlocked : manualBlocked cfg mode request = false

end Anolis.Runtime
