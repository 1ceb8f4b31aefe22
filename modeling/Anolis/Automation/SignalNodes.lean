import Anolis.State.StateCache

/-!
# The tree nodes that read signals, and the arguments of a call

`ReadSignalNode::tick` and `CheckQualityNode::tick` of `bt_nodes.cpp`, after their input ports
are read. Both ask the cache for the signal's value and for nothing else. The gate
`EmitOnChangeOrIntervalNode::tick`. Of `CallDeviceNode::tick`, what it makes of its `args` object.
-/

namespace Anolis.Automation

open Protocol State

/-- The status a node returns. -/
inductive NodeStatus
  | success | failure
deriving DecidableEq

/-- `string_to_quality`. -/
def stringToQuality (s : String) : Quality :=
  if s = "OK" then .ok
  else if s = "STALE" then .stale
  else if s = "FAULT" then .fault
  else if s = "UNKNOWN" then .unknown
  else .unspecified

/-- `ReadSignalNode::tick`: its status, and the value its output ports are written from. -/
def readSignalTick (cache : Cache) (deviceHandle signalId : String) :
    NodeStatus × Option CachedSignalValue :=
  match cache.getSignalValue deviceHandle signalId with
  | none => (.failure, none)
  | some v => (.success, some v)

/-- `CheckQualityNode::tick`. -/
def checkQualityTick (cache : Cache) (deviceHandle signalId expected : String) : NodeStatus :=
  match cache.getSignalValue deviceHandle signalId with
  | none => .failure
  | some v => if v.quality = stringToQuality expected then .success else .failure

/-- Why `EmitOnChangeOrIntervalNode` emits. -/
inductive EmitReason
  | force | first | changed | keepalive
deriving DecidableEq

/-- The ports that change from tick to tick. -/
structure EmitTick where
  key : Option String
  nowMs : Int
  force : Bool := false

/-- The decision of `EmitOnChangeOrIntervalNode::tick`. `last` is `last_emit_ms_` with `last_key_`,
once `has_last_emit_` is set. -/
def emitReason (keepaliveS minSpacingMs : Int) (last : Option (Int × String)) (key : String)
    (nowMs : Int) (force : Bool) : Option EmitReason :=
  if force then some .force
  else match last with
    | none => some .first
    | some (lastEmitMs, lastKey) =>
      if key ≠ lastKey ∧ minSpacingMs ≤ nowMs - lastEmitMs then some .changed
      else if 0 < keepaliveS ∧ keepaliveS * 1000 ≤ nowMs - lastEmitMs then some .keepalive
      else none

/-- `EmitOnChangeOrIntervalNode::tick`: its status, the reason it emits, and the last emission after
it. The times do not overflow. -/
def emitTick (keepaliveS minSpacingMs : Int) (last : Option (Int × String)) (tick : EmitTick) :
    NodeStatus × Option EmitReason × Option (Int × String) :=
  match tick.key with
  | none => (.failure, none, last)
  | some key =>
    if keepaliveS < 0 ∨ minSpacingMs < 0 then (.failure, none, last)
    else match emitReason keepaliveS minSpacingMs last key tick.nowMs tick.force with
      | none => (.success, none, last)
      | some reason => (.success, some reason, some (tick.nowMs, key))

/-! ### The arguments of a call -/

end Anolis.Automation
