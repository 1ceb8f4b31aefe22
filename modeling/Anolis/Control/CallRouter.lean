import Anolis.Control.Arguments
import Anolis.Runtime.Config

/-!
# A call and what judges it

A call request and its result, and the parts of the call router that do not wait for anything:
parsing a device handle, resolving the function selector, the allowed modes, the e-stop latch
and the minimum interval. `execute_call` runs them one after the other between other threads'
steps; that order is in `Anolis.Runtime.Call`.
-/

namespace Anolis.Control

open Automation Lib Protocol Registry Anolis.Runtime

/-- `CallRequest`. -/
structure CallRequest where
  deviceHandle : String
  functionId : UInt32 := 0
  functionName : String := ""
  args : ArgMap := SortedMap.empty
  isAutomated : Bool := false
  isBehaviorTree : Bool := false
  safeState : Bool := false
  faultEntryHook : Bool := false
deriving DecidableEq

/-- `CallResult`. -/
structure CallResult where
  success : Bool
  errorMessage : String := ""
  results : ArgMap := SortedMap.empty
  statusCode : StatusCode := .ok
  dispatched : Bool := false
deriving DecidableEq

/-- The result of a call refused before it was dispatched. -/
def CallResult.refused (code : StatusCode) (message : String) : CallResult :=
  { success := false, errorMessage := message, statusCode := code }

/-! ### Resolving the target -/

/-- `parse_device_handle`: the parts before and after the first slash, neither empty. -/
def parseDeviceHandle (deviceHandle : String) : Except String (String × String) :=
  let provider := deviceHandle.toList.takeWhile (· ≠ '/')
  match deviceHandle.toList.dropWhile (· ≠ '/') with
  | [] =>
    .error ("Invalid device handle format (expected 'provider/device'): " ++ deviceHandle)
  | _ :: device =>
    if provider.isEmpty || device.isEmpty then
      .error ("Invalid device handle (empty provider or device): " ++ deviceHandle)
    else .ok (String.ofList provider, String.ofList device)

/-- `resolve_function_spec`: by id where the request has one, and then the name must agree;
else by name. -/
def resolveFunctionSpec (device : RegisteredDevice) (request : CallRequest) :
    Except String (FunctionSpec × String) :=
  if request.functionId ≠ 0 then
    -- the first entry in the map's order; ids are not checked to be distinct
    match device.functionsById.entries.find? fun e => e.2.functionId = request.functionId with
    | none => .error ("Function ID not found: " ++ toString request.functionId)
    | some (name, spec) =>
      if !request.functionName.isEmpty && request.functionName ≠ name then
        .error ("Function selector mismatch: function_id " ++ toString request.functionId ++
          " maps to '" ++ name ++ "', not '" ++ request.functionName ++ "'")
      else .ok (spec, name)
  else if request.functionName.isEmpty then
    .error "Missing function selector (function_id or function_name)"
  else
    match device.functionsById.find? request.functionName with
    | none =>
      .error ("Function not found: " ++ request.functionName ++ " on device " ++ device.getHandle)
    | some spec => .ok (spec, request.functionName)

/-- Does the text contain the other one, as `find` of a string sees it. -/
def containsText (text part : String) : Bool :=
  text.toList.tails.any (part.toList.isPrefixOf ·)

/-- The status of a selector that does not resolve. The code reads it off the message. -/
def resolveStatus (error : String) : StatusCode :=
  if containsText error "not found" then .notFound else .invalidArgument

/-- `allowed_modes`: no restriction, or the mode is one of the declared ones, whose case does
not matter. -/
def modeAllowed (spec : FunctionSpec) (mode : String) : Bool :=
  spec.allowedModes.isEmpty || spec.allowedModes.any fun declared => declared.toUpper = mode

/-! ### The e-stop latch -/

/-- `latch_holds`. `engaged` is the latch, `admits` its answer to the calling thread. -/
def latchHolds (request : CallRequest) (spec : FunctionSpec) (engaged admits : Bool) : Bool :=
  !request.safeState && engaged && isActuating spec && !(request.faultEntryHook && admits)

/-- The function a request names in a registry, where it names one. -/
def resolve? (registry : DeviceRegistry) (request : CallRequest) :
    Option (String × String × FunctionSpec × String) :=
  match parseDeviceHandle request.deviceHandle with
  | .error _ => none
  | .ok (providerId, deviceId) =>
    match registry.getDeviceCopy providerId deviceId with
    | none => none
    | some device =>
      match resolveFunctionSpec device request with
      | .error _ => none
      | .ok (spec, name) => some (providerId, deviceId, spec, name)

/-! ### The dry run -/

/-- What a call resolves to: its provider and device, the function, and the coerced arguments. -/
structure ResolvedCall where
  providerId : String
  deviceId : String
  spec : FunctionSpec
  name : String
  args : ArgMap
deriving DecidableEq

/-- `validate_call`, with what it resolves on the way. It asks for the device by the whole handle
first, and again by the parts of the handle. -/
def validateCall (showDouble : Double → String) (registry : DeviceRegistry)
    (request : CallRequest) : Except String ResolvedCall :=
  match registry.getDeviceByHandleCopy request.deviceHandle with
  | none => .error ("Device not found: " ++ request.deviceHandle)
  | some _ =>
    match parseDeviceHandle request.deviceHandle with
    | .error e => .error e
    | .ok (providerId, deviceId) =>
      match registry.getDeviceCopy providerId deviceId with
      | none => .error ("Device not found in registry: " ++ request.deviceHandle)
      | some device =>
        match resolveFunctionSpec device request with
        | .error e => .error e
        | .ok (spec, name) =>
          match coerceArguments spec.args request.args with
          | .error e => .error e
          | .ok args =>
            match validateArguments showDouble spec.args args with
            | .error e => .error e
            | .ok () => .ok ⟨providerId, deviceId, spec, name, args⟩

theorem parseDeviceHandle_eq {handle p d : String} (h : parseDeviceHandle handle = .ok (p, d)) :
    p ++ "/" ++ d = handle := by
  simp only [parseDeviceHandle] at h
  split at h
  · cases h
  · rename_i c device hdrop
    split at h
    · cases h
    · cases h
      -- the list from the first slash on begins with that slash
      have hslash : c = '/' := by
        have hhead := List.head?_dropWhile_not (fun x : Char => decide (x ≠ '/')) handle.toList
        rw [hdrop] at hhead
        simpa using hhead
      subst hslash
      have hparts := List.takeWhile_append_dropWhile (p := fun x : Char => decide (x ≠ '/'))
        (l := handle.toList)
      rw [hdrop] at hparts
      apply String.toList_injective
      simpa using hparts

theorem parseDeviceHandle_provider {handle p d : String}
    (h : parseDeviceHandle handle = .ok (p, d)) : '/' ∉ p.toList := by
  simp only [parseDeviceHandle] at h
  split at h
  · cases h
  · split at h
    · cases h
    · cases h
      intro hmem
      have hall := List.all_takeWhile (p := fun x : Char => decide (x ≠ '/')) (l := handle.toList)
      simpa using List.all_eq_true.mp hall '/' (by simpa using hmem)

variable {request : CallRequest} {spec : FunctionSpec}

/-- When `validate_call` accepts: the handle parses, and the call resolves, coerces and validates
against the device of that handle. The first look at the registry asks nothing more. -/
theorem validateCall_eq_ok {showDouble : Double → String} {registry : DeviceRegistry}
    {v : ResolvedCall} : validateCall showDouble registry request = .ok v ↔
      parseDeviceHandle request.deviceHandle = .ok (v.providerId, v.deviceId) ∧
      ∃ device, registry.getDeviceCopy v.providerId v.deviceId = some device ∧
        resolveFunctionSpec device request = .ok (v.spec, v.name) ∧
        coerceArguments v.spec.args request.args = .ok v.args ∧
        validateArguments showDouble v.spec.args v.args = .ok () := by
  obtain ⟨p, d, spec, name, args⟩ := v
  constructor
  · intro h
    unfold validateCall at h
    repeat' split at h
    all_goals cases h
    exact ⟨by assumption, _, by assumption, by assumption, by assumption, by assumption⟩
  · rintro ⟨hparse, device, hdevice, hresolve, hcoerce, hvalid⟩
    have hraw : registry.getDeviceByHandleCopy request.deviceHandle = some device := by
      rw [← parseDeviceHandle_eq hparse]
      exact hdevice
    simp only [validateCall, hraw, hparse, hdevice, hresolve, hcoerce, hvalid]

/-- A request that carries no exemption is refused for an actuating function. -/
theorem latchHolds_of_actuating {admits : Bool}
    (hspec : isActuating spec) (hsafe : request.safeState = false)
    (hhook : (request.faultEntryHook && admits) = false) : latchHolds request spec true admits := by
  simp [latchHolds, hspec, hsafe, hhook]

/-! ### The minimum interval -/

/-- The key of a function's last dispatch. -/
def dispatchKey (request : CallRequest) (spec : FunctionSpec) : String :=
  request.deviceHandle ++ "/" ++ toString spec.functionId

/-- Milliseconds between two instants in nanoseconds, cut toward zero. -/
def elapsedMs (last now : Int) : Int := (now - last).tdiv 1000000

/-- The milliseconds a call still has to wait for the function's `min_interval_ms`, where it
has to wait. Safe-state calls never do. -/
def intervalRemaining (request : CallRequest) (spec : FunctionSpec) (last : Option Int)
    (now : Int) : Option Int :=
  match last with
  | none => none
  | some last =>
    -- a clock that has not moved a whole millisecond counts as zero elapsed
    if !request.safeState && decide (elapsedMs last now < spec.minIntervalMs.toNat) then
      some (spec.minIntervalMs.toNat - elapsedMs last now)
    else none

theorem intervalRemaining_of_safeState {last : Option Int} {now : Int} (h : request.safeState) :
    intervalRemaining request spec last now = none := by
  cases last <;> simp [intervalRemaining, h]

/-! ### Requests -/

/-- The arguments of a configured call, as provider values. -/
def callArgs (call : ModeTransitionCallConfig) : ArgMap := call.args.mapVal toProviderValue

/-- `to_call_request`: a call of the e-stop ladder. -/
def toCallRequest (call : ModeTransitionCallConfig) : CallRequest where
  deviceHandle := call.deviceHandle
  functionId := call.functionId
  functionName := call.functionName
  args := callArgs call
  safeState := true

/-- `mode_hook_request`: a call of a mode-transition hook. -/
def modeHookRequest (call : ModeTransitionCallConfig) (next : RuntimeMode) : CallRequest where
  deviceHandle := call.deviceHandle
  functionId := call.functionId
  functionName := call.functionName
  args := callArgs call
  isAutomated := true
  faultEntryHook := next = .fault

/-- The request a `CallDevice` node of the behaviour tree makes. -/
def treeRequest (deviceHandle functionName : String) (args : ArgMap) : CallRequest where
  deviceHandle := deviceHandle
  functionName := functionName
  args := args
  isAutomated := true
  isBehaviorTree := true

/-- The request the HTTP handler makes. It sets none of the flags. -/
def httpRequest (deviceHandle : String) (functionId : UInt32) (functionName : String)
    (args : ArgMap) : CallRequest where
  deviceHandle := deviceHandle
  functionId := functionId
  functionName := functionName
  args := args

end Anolis.Control
