import Anolis.Automation.ModeManager
import Anolis.Protocol

/-!
# The configuration the safety paths read

The parts of `config.hpp` that mode hooks, the e-stop ladder and the gates read.
-/

namespace Anolis.Runtime

open Automation Lib Protocol

/-- `ParameterValue`. -/
inductive ParameterValue
  | double (d : Double)
  | int64 (i : Int64)
  | bool (b : Bool)
  | string (s : String)
deriving DecidableEq

/-- `to_provider_value`. -/
def toProviderValue : ParameterValue → Value
  | .double d => ⟨.double, .double d⟩
  | .int64 i => ⟨.int64, .int64 i⟩
  | .bool b => ⟨.bool, .bool b⟩
  | .string s => ⟨.string, .string s⟩

/-- `ModeTransitionCallConfig`: one call of a hook, a setpoint or a rung. -/
structure ModeTransitionCallConfig where
  deviceHandle : String
  functionId : UInt32 := 0
  functionName : String := ""
  args : SortedMap String ParameterValue := SortedMap.empty
deriving DecidableEq

/-- `ModeTransitionHookConfig`. -/
structure ModeTransitionHookConfig where
  src : String := ""
  dst : String := ""
  failOnError : Bool := true
  calls : List ModeTransitionCallConfig
deriving DecidableEq

/-- `hook_mode_matches`: a filter that is empty or `*` lets every mode through. -/
def hookModeMatches (filter : String) (actual : RuntimeMode) : Bool :=
  filter.isEmpty || filter = "*" || filter = modeToString actual

/-- Do both filters of a hook let the transition through. -/
def ModeTransitionHookConfig.fires (hook : ModeTransitionHookConfig) (prev next : RuntimeMode) :
    Bool :=
  hookModeMatches hook.src prev && hookModeMatches hook.dst next

/-- `SafeStateConfig`. -/
structure SafeStateConfig where
  hooks : List ModeTransitionCallConfig := []
  setpoints : List ModeTransitionCallConfig := []
  zeroIsSafe : Bool := false

/-- `StopChainConfig::status`: the status signal's handle, and the value that means a stop. -/
structure StopChainStatus where
  signal : String
  active : Bool

/-- The loop of `is_handle` from the place `i`. -/
def isHandleFrom (parts count i start : Nat) : List Char → Bool
  | [] => i ≠ start && count = parts
  | c :: rest =>
    if c = '/' then i ≠ start && isHandleFrom parts (count + 1) (i + 1) (i + 1) rest
    else isHandleFrom parts count (i + 1) start rest

/-- `is_handle`. -/
def isHandle (value : String) (parts : Nat) : Bool := isHandleFrom parts 1 0 0 value.toList

/-- The manual gating policy. -/
inductive GatingPolicy
  | block | override
deriving DecidableEq

/-- `AutomationConfig`, as far as the modes and the gates read it. -/
structure AutomationConfig where
  enabled : Bool
  manualGatingPolicy : GatingPolicy := .block
  beforeTransition : List ModeTransitionHookConfig := []
  afterTransition : List ModeTransitionHookConfig := []

/-- `SafetyConfig`, without the startup choice and the stop chain's devices. -/
structure SafetyConfig where
  safeState : SafeStateConfig := {}
  status : Option StopChainStatus := none

end Anolis.Runtime
