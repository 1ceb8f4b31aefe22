import Anolis.Control.CallRouter

/-!
# The e-stop ladder

Which rung the ladder plans, which calls that rung makes and what it reports of them
(`safe_state.cpp`). The controller's operations `trigger`, `hold` and `clear`, which take the
controller's mutex and run the ladder between other threads' steps, are in
`Anolis.Runtime.Operations`.
-/

namespace Anolis.Control

open Lib Protocol Registry Anolis.Runtime

/-- `SafeStateKind`: the rungs. -/
inductive SafeStateKind
  | hooks | setpoints | zero | none
deriving DecidableEq

/-- `setpoint_matches`: the setpoint names this function of this device, and where it gives
both selectors they agree. -/
def setpointMatches (setpoint : ModeTransitionCallConfig) (handle : String)
    (spec : FunctionSpec) : Bool :=
  let hasId := setpoint.functionId ≠ 0
  let hasName := !setpoint.functionName.isEmpty
  setpoint.deviceHandle = handle && !(hasId && setpoint.functionId ≠ spec.functionId) &&
    !(hasName && setpoint.functionName ≠ spec.functionName) && (hasId || hasName)

/-- `planned_safe_state_kind`. Setpoints count only where they cover every actuating
function. -/
def plannedSafeStateKind (registry : DeviceRegistry) (safety : SafetyConfig) : SafeStateKind :=
  let uncovered := (registry.actuatingFunctionsFor.filter fun f =>
    !safety.safeState.setpoints.any fun s => setpointMatches s f.1 f.2).length
  if !safety.safeState.hooks.isEmpty then .hooks
  -- setpoints that leave an actuating function out do not make a rung
  else if !safety.safeState.setpoints.isEmpty && uncovered = 0 then .setpoints
  else if safety.safeState.zeroIsSafe then .zero
  else .none

/-- `zero_value`: the zero of a numeric type. -/
def zeroValue : ValueType → Option Value
  | .double => some ⟨.double, .double (.finite 0)⟩
  | .int64 => some ⟨.int64, .int64 0⟩
  | .uint64 => some ⟨.uint64, .uint64 0⟩
  | _ => none

/-- The required arguments of a function, zeroed, added to `args`. -/
def addZeroArgs : List ArgSpec → ArgMap → Except String ArgMap
  | [], args => .ok args
  | arg :: rest, args =>
    -- an optional argument keeps the provider's default
    if !arg.required then addZeroArgs rest args
    else
      match zeroValue arg.type with
      | none => .error ("cannot zero required non-numeric argument '" ++ arg.name ++ "'")
      | some zero => addZeroArgs rest (args.insert arg.name zero)

/-- `build_zero_args`: every required argument zeroed, and at least one there. -/
def buildZeroArgs (spec : FunctionSpec) : Except String ArgMap :=
  match addZeroArgs spec.args SortedMap.empty with
  | .error e => .error e
  | .ok args =>
    if args.isEmpty then .error "cannot zero: no numeric required argument to drive to zero"
    else .ok args

/-- One entry of a rung: a declared call, or a function to drive to zero. -/
inductive RungCall
  | declared (call : ModeTransitionCallConfig)
  | zero (handle : String) (spec : FunctionSpec)
deriving DecidableEq

/-- The device a rung's entry is for. -/
def RungCall.deviceHandle : RungCall → String
  | .declared call => call.deviceHandle
  | .zero handle _ => handle

/-- The name an entry is reported under where it is issued. -/
def RungCall.function : RungCall → String
  | .declared call =>
    if call.functionName.isEmpty then toString call.functionId else call.functionName
  | .zero _ spec =>
    if spec.functionName.isEmpty then toString spec.functionId else spec.functionName

/-- The name an entry is reported under where it is skipped. The zero rung prints the
function's name as it is. -/
def RungCall.skippedFunction : RungCall → String
  | .declared call =>
    if call.functionName.isEmpty then toString call.functionId else call.functionName
  | .zero _ spec => spec.functionName

/-- The request of a rung's entry (`run_call`, `run_zero_call`), or why there is none. -/
def RungCall.request : RungCall → Except String CallRequest
  | .declared call => .ok (toCallRequest call)
  | .zero handle spec =>
    match buildZeroArgs spec with
    | .error e => .error e
    | .ok args =>
      .ok { deviceHandle := handle, functionId := spec.functionId,
            functionName := spec.functionName, args := args, safeState := true }

theorem RungCall.request_safeState {c : RungCall} {request : CallRequest}
    (h : c.request = .ok request) : request.safeState ∧ request.faultEntryHook = false ∧
      request.isBehaviorTree = false := by
  cases c with
  | declared call =>
    obtain rfl : toCallRequest call = request := by simpa [RungCall.request] using h
    exact ⟨rfl, rfl, rfl⟩
  | zero handle spec =>
    simp only [RungCall.request] at h
    split at h
    · cases h
    · obtain rfl := Except.ok.inj h
      exact ⟨rfl, rfl, rfl⟩

/-- The entries of a rung. The zero rung reads the registry again. -/
def rungCalls (kind : SafeStateKind) (registry : DeviceRegistry) (safety : SafetyConfig) :
    List RungCall :=
  match kind with
  | .hooks => safety.safeState.hooks.map .declared
  | .setpoints => safety.safeState.setpoints.map .declared
  | .zero => registry.actuatingFunctionsFor.map fun f => .zero f.1 f.2
  | .none => []

/-! ### Coverage -/

/-- The text of a function in the coverage report. -/
def coverageName (f : String × FunctionSpec) : String := f.1 ++ "/" ++ f.2.functionName

/-- `uncovered_actuating_functions`: the functions that no call names which would pass the dry
run. -/
def uncoveredActuatingFunctions (showDouble : Double → String) (registry : DeviceRegistry)
    (calls : List ModeTransitionCallConfig) : List String :=
  (registry.actuatingFunctionsFor.filter fun f =>
    !calls.any fun call => setpointMatches call f.1 f.2 &&
      (validateCall showDouble registry (toCallRequest call)).isOk).map coverageName

/-- Can the zero rung build the call of a function, and would it pass the dry run. -/
def zeroCovers (showDouble : Double → String) (registry : DeviceRegistry) (handle : String)
    (spec : FunctionSpec) : Bool :=
  match buildZeroArgs spec with
  | .error _ => false
  | .ok args =>
    (validateCall showDouble registry
      { deviceHandle := handle, functionId := spec.functionId,
        functionName := spec.functionName, args := args }).isOk

/-- `uncovered_functions`: the functions that a rung does not drive. -/
def uncoveredFunctions (showDouble : Double → String) (registry : DeviceRegistry)
    (safety : SafetyConfig) : SafeStateKind → List String
  | .hooks => uncoveredActuatingFunctions showDouble registry safety.safeState.hooks
  | .setpoints => uncoveredActuatingFunctions showDouble registry safety.safeState.setpoints
  | .zero =>
    (registry.actuatingFunctionsFor.filter fun f =>
      !zeroCovers showDouble registry f.1 f.2).map coverageName
  | .none => registry.actuatingFunctionsFor.map coverageName

/-- `FailureCause`. -/
inductive FailureCause
  | run | config
deriving DecidableEq

/-- `cause_of`: a call refused before its dispatch for its target or its arguments is the
configuration's fault. -/
def causeOf (res : CallResult) : FailureCause :=
  if !res.dispatched && (res.statusCode = .notFound || res.statusCode = .invalidArgument) then
    .config
  else .run

/-- `CallOutcome`. -/
structure CallOutcome where
  deviceHandle : String
  function : String
  success : Bool
  error : String := ""
  cause : FailureCause := .run
deriving DecidableEq

/-- The outcome of an issued entry. -/
def RungCall.outcome (c : RungCall) (res : CallResult) : CallOutcome :=
  if res.success then ⟨c.deviceHandle, c.function, true, "", .run⟩
  else ⟨c.deviceHandle, c.function, false, res.errorMessage, causeOf res⟩

/-- `EstopResult`, as the ladder fills it. -/
structure EstopResult where
  kind : SafeStateKind
  actions : List CallOutcome := []
  skipped : List (String × String × String) := []
deriving DecidableEq

end Anolis.Control
