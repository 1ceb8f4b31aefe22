import Anolis.Protocol
import Mathlib.Data.List.Induction

/-!
# The published device inventory

The devices the registry publishes, with what the call path and the safety gates read of each:
its handle, its functions and its signals. `DeviceRegistry` follows `device_registry.cpp`: the
devices are a vector, and the handle index maps a handle to the last device that has it.

Of a signal only its id and its place in the poll plan are read by the modelled code.
-/

namespace Anolis.Registry

open Protocol

/-- `FunctionSpec`, without its label and its lease flag, which nothing on the call path
reads. -/
structure FunctionSpec where
  functionId : UInt32
  functionName : String
  args : List ArgSpec := []
  category : Category := .unspecified
  allowedModes : List String := []
  minIntervalMs : UInt32 := 0
deriving DecidableEq

/-- `is_actuating`: every function that is not declared `READ`. -/
def isActuating (spec : FunctionSpec) : Bool := spec.category ≠ .read

/-- `DeviceCapabilitySet::functions_by_id`: the functions by name, in the order the map
iterates over them. -/
structure FunctionMap where
  entries : List (String × FunctionSpec)
  distinct : (entries.map Prod.fst).Nodup := by decide

/-- The function of that name. -/
def FunctionMap.find? (m : FunctionMap) (name : String) : Option FunctionSpec :=
  (m.entries.find? fun e => e.1 = name).map Prod.snd

/-- The functions that `build_capabilities` puts into the map: each under its name, and of two with
one name the later one. -/
def buildFunctions (described : List FunctionSpec) : List (String × FunctionSpec) :=
  described.foldl
    (fun entries spec =>
      entries.filter (fun e => e.1 ≠ spec.functionName) ++ [(spec.functionName, spec)]) []

variable {described : List FunctionSpec} {e : String × FunctionSpec}

theorem key_of_mem_build (he : e ∈ buildFunctions described) : e.1 = e.2.functionName := by
  induction described using List.reverseRecOn with
  | nil => cases he
  | append_singleton described spec ih =>
    rw [buildFunctions, List.foldl_append] at he
    rcases List.mem_append.mp he with he | he
    · exact ih (List.mem_of_mem_filter he)
    · rw [List.mem_singleton.mp he]

/-- The map of a device that described these functions. It is a hash map, so its order is any. -/
def FunctionMap.Builds (m : FunctionMap) (described : List FunctionSpec) : Prop :=
  m.entries.Perm (buildFunctions described)

theorem FunctionMap.Builds.key {m : FunctionMap} (h : m.Builds described) (he : e ∈ m.entries) :
    e.1 = e.2.functionName :=
  key_of_mem_build (h.mem_iff.mp he)

/-- `SignalSpec`: the id, and whether the signal is in the default poll plan. -/
structure SignalSpec where
  signalId : String
  isDefault : Bool
deriving DecidableEq

/-- `RegisteredDevice`. The signals are in the order their map iterates over them; the tags are
those of the device's description. -/
structure RegisteredDevice where
  providerId : String
  deviceId : String
  functionsById : FunctionMap
  signalsById : List SignalSpec := []
  tags : Lib.SortedMap String String := Lib.SortedMap.empty

/-- `RegisteredDevice::get_handle`. -/
def RegisteredDevice.getHandle (d : RegisteredDevice) : String := d.providerId ++ "/" ++ d.deviceId

/-- The published inventory. -/
structure DeviceRegistry where
  devices : List RegisteredDevice

/-- `get_device_by_handle_copy`. The index is filled front to back, so of two devices with one
handle it names the last. -/
def DeviceRegistry.getDeviceByHandleCopy (r : DeviceRegistry) (handle : String) :
    Option RegisteredDevice :=
  r.devices.reverse.find? fun d => d.getHandle = handle

/-- `get_device_copy`. -/
def DeviceRegistry.getDeviceCopy (r : DeviceRegistry) (providerId deviceId : String) :
    Option RegisteredDevice :=
  r.getDeviceByHandleCopy (providerId ++ "/" ++ deviceId)

/-- `inspect_provider_devices`: the devices a provider described, each with the provider's id. -/
def inspectProviderDevices (providerId : String) (described : List RegisteredDevice) :
    List RegisteredDevice :=
  described.map fun d => { d with providerId := providerId }

theorem providerId_of_mem_inspect {providerId : String} {described : List RegisteredDevice}
    {d : RegisteredDevice} (h : d ∈ inspectProviderDevices providerId described) :
    d.providerId = providerId := by
  obtain ⟨d', -, rfl⟩ := List.mem_map.mp h
  rfl

/-- `commit_provider_devices`, replacing: the devices of the provider go, and the new ones are
appended. -/
def DeviceRegistry.commitProviderDevices (r : DeviceRegistry) (providerId : String)
    (discovered : List RegisteredDevice) : DeviceRegistry where
  devices := r.devices.filter (fun d => d.providerId ≠ providerId) ++ discovered

/-- `actuating_functions_for`: every function declared `ACTUATE`, with its device's handle. This
is narrower than `isActuating`. -/
def DeviceRegistry.actuatingFunctionsFor (r : DeviceRegistry) : List (String × FunctionSpec) :=
  r.devices.flatMap fun d =>
    (d.functionsById.entries.filter fun e => e.2.category = .actuate).map
      fun e => (d.getHandle, e.2)

end Anolis.Registry
