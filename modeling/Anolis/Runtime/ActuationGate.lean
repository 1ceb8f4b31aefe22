import Anolis.Control.SafeState

/-!
# The gates into AUTO

`actuation_gate.cpp`: when a configuration may enter AUTO. A gate is installed twice, as a
before-callback and as a commit guard of the mode manager, and both run the same check.
-/

namespace Anolis.Runtime

open Automation Registry

/-- `hook_covers_auto_to_fault`. -/
def hookCoversAutoToFault (hook : ModeTransitionHookConfig) : Bool :=
  (hook.src.isEmpty || hook.src = "*" || hook.src = "AUTO") &&
    (hook.dst.isEmpty || hook.dst = "*" || hook.dst = "FAULT")

/-- `has_fault_safe_state_hook`. -/
def hasFaultSafeStateHook (automation : AutomationConfig) : Bool :=
  automation.beforeTransition.any hookCoversAutoToFault ||
    automation.afterTransition.any hookCoversAutoToFault

/-- The actuating functions of the inventory, as the gate lists them. -/
def gatedFunctions (registry : DeviceRegistry) : List String :=
  registry.devices.flatMap fun d =>
    (d.functionsById.entries.filter fun e => isActuating e.2).map
      fun e => d.getHandle ++ "/" ++ e.2.functionName

/-- `evaluate_hookless_auto_gate(..).refused`. The message and its hint are left out. -/
def hooklessAutoGateRefused (registry : DeviceRegistry) (automation : AutomationConfig) : Bool :=
  automation.enabled && !hasFaultSafeStateHook automation && !(gatedFunctions registry).isEmpty

/-- The check `install_hookless_auto_gate` installs. `true` lets the transition through. -/
def hooklessAutoCheck (registry : DeviceRegistry) (automation : AutomationConfig)
    (next : RuntimeMode) : Bool :=
  next ≠ .auto || !hooklessAutoGateRefused registry automation

/-- The check `install_estop_auto_gate` installs. -/
def estopAutoCheck (engaged : Bool) (next : RuntimeMode) : Bool := next ≠ .auto || !engaged

end Anolis.Runtime
