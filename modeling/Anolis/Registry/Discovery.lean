import Anolis.Lib.KeyIndex
import Anolis.Registry.DeviceRegistry

/-!
# Discovery, publication and the handle index

The registry with its own fields: the vector of devices, the index from handles to positions and the
last error (`IndexedRegistry`). `discover_provider` asks the provider for its devices and for the
description of each (`inspect`), and commits what it found; a commit and a clear fill the index anew
from front to back. `IndexedRegistry.published` is the inventory that the other modules read, and
`getDeviceByHandleCopy_published` says that a lookup through the index is the lookup there.

The maps of a device's capabilities are hash maps. They are here in the order of insertion: nothing
in the registry reads that order.
-/

namespace Anolis.Registry

/-! ### Capabilities -/

theorem keys_nodup_build (described : List FunctionSpec) :
    ((buildFunctions described).map Prod.fst).Nodup := by
  induction described using List.reverseRecOn with
  | nil => exact List.nodup_nil
  | append_singleton described spec ih =>
    rw [buildFunctions, List.foldl_append, List.foldl_cons, List.foldl_nil, List.map_append]
    refine List.nodup_append.mpr ⟨ih.sublist (List.filter_sublist.map _),
      List.nodup_singleton _, ?_⟩
    intro name hname name' hname' heq
    obtain ⟨e, he, rfl⟩ := List.mem_map.mp hname
    have hne : e.1 ≠ spec.functionName := by simpa using (List.mem_filter.mp he).2
    exact hne (heq.trans (List.mem_singleton.mp hname'))

/-- The functions that `build_capabilities` leaves in `functions_by_id`. -/
def FunctionMap.build (described : List FunctionSpec) : FunctionMap where
  entries := buildFunctions described
  distinct := keys_nodup_build described

/-- The signals that `build_capabilities` leaves in `signals_by_id`: of two with one id the
later. -/
def buildSignals (described : List SignalSpec) : List SignalSpec :=
  described.foldl
    (fun signals spec => signals.filter (fun s => s.signalId ≠ spec.signalId) ++ [spec]) []

/-- What `build_capabilities` reads of a `DescribeDeviceResponse`. -/
structure DescribeDeviceResponse where
  tags : Lib.SortedMap String String := Lib.SortedMap.empty
  signals : List SignalSpec := []
  functions : List FunctionSpec := []

/-- A device that a provider listed and described. The id is the listed one. -/
def buildDevice (providerId deviceId : String) (response : DescribeDeviceResponse) :
    RegisteredDevice where
  providerId := providerId
  deviceId := deviceId
  functionsById := .build response.functions
  signalsById := buildSignals response.signals
  tags := response.tags

/-! ### Inspection -/

/-- A provider's answers to an inspection: to `ListDevices` the ids it lists, each with the answer
to its `DescribeDevice`, or the error of a request that failed. -/
abbrev InspectionAnswers := Except String (List (String × Option DescribeDeviceResponse))

/-- The listed devices that were described. The others are skipped. -/
def describedDevices (providerId : String)
    (listed : List (String × Option DescribeDeviceResponse)) : List RegisteredDevice :=
  listed.filterMap fun entry => entry.2.map (buildDevice providerId entry.1)

/-- `inspect_provider_devices`: the devices found, or the error. -/
def inspect (providerId : String) (answers : InspectionAnswers) :
    Except String (List RegisteredDevice) :=
  match answers with
  | .error e => .error ("ListDevices failed: " ++ e)
  | .ok listed => .ok (describedDevices providerId listed)

/-! ### The registry -/

/-- `DeviceRegistry` with its index. -/
structure IndexedRegistry where
  devices : List RegisteredDevice := []
  handleToIndex : String → Option Nat := fun _ => none
  error : String := ""

/-- The index of the devices: the loop at the end of a commit and of a clear. -/
def indexHandles (devices : List RegisteredDevice) : String → Option Nat :=
  Lib.keyIndex RegisteredDevice.getHandle devices

namespace IndexedRegistry

/-- `commit_provider_devices`. -/
def commitProviderDevices (r : IndexedRegistry) (providerId : String)
    (discovered : List RegisteredDevice) (replaceExisting : Bool) : IndexedRegistry :=
  let kept :=
    if replaceExisting then r.devices.filter fun d => d.providerId ≠ providerId else r.devices
  { r with
    devices := kept ++ discovered
    handleToIndex := indexHandles (kept ++ discovered) }

/-- `discover_provider`, and whether it succeeded. -/
def discoverProvider (r : IndexedRegistry) (providerId : String) (answers : InspectionAnswers)
    (replaceExisting : Bool) : Bool × IndexedRegistry :=
  match inspect providerId answers with
  | .error e => (false, { r with error := e })
  | .ok discovered => (true, r.commitProviderDevices providerId discovered replaceExisting)

/-- `clear_provider_devices`. -/
def clearProviderDevices (r : IndexedRegistry) (providerId : String) : IndexedRegistry :=
  let kept := r.devices.filter fun d => d.providerId ≠ providerId
  { r with devices := kept, handleToIndex := indexHandles kept }

/-- `get_all_devices`. -/
def getAllDevices (r : IndexedRegistry) : List RegisteredDevice := r.devices

/-- `get_device_by_handle_copy`. -/
def getDeviceByHandleCopy (r : IndexedRegistry) (handle : String) : Option RegisteredDevice :=
  (r.handleToIndex handle).bind fun i => r.devices[i]?

/-- The inventory that the call path, the cache and the safety gates read. -/
def published (r : IndexedRegistry) : DeviceRegistry := ⟨r.devices⟩

/-- The index is the one of the devices. -/
def Indexed (r : IndexedRegistry) : Prop := r.handleToIndex = indexHandles r.devices

/-- A lookup through the index is the lookup in the published inventory. -/
theorem getDeviceByHandleCopy_published {r : IndexedRegistry} (h : r.Indexed) (handle : String) :
    r.getDeviceByHandleCopy handle = r.published.getDeviceByHandleCopy handle := by
  rw [getDeviceByHandleCopy, h]
  exact Lib.keyIndex_find _ _ _

end IndexedRegistry

/-! ### Sequences of operations -/

/-- The operations that change the registry. A commit publishes what an inspection found, which does
not depend on the registry: the restart of a provider inspects first and commits later. -/
inductive RegistryOp
  | discoverProvider (providerId : String) (answers : InspectionAnswers) (replaceExisting : Bool)
  | commitProviderDevices (providerId : String)
      (listed : List (String × Option DescribeDeviceResponse)) (replaceExisting : Bool)
  | clearProviderDevices (providerId : String)

/-- What an operation does. -/
def RegistryOp.apply (r : IndexedRegistry) : RegistryOp → IndexedRegistry
  | .discoverProvider p answers replaceExisting => (r.discoverProvider p answers replaceExisting).2
  | .commitProviderDevices p listed replaceExisting =>
    r.commitProviderDevices p (describedDevices p listed) replaceExisting
  | .clearProviderDevices p => r.clearProviderDevices p

/-- The registry after a sequence of operations, from a new one on. -/
def registryAfter (ops : List RegistryOp) : IndexedRegistry := ops.foldl RegistryOp.apply {}

/-- The provider that an operation is for. -/
def RegistryOp.providerId : RegistryOp → String
  | .discoverProvider p _ _ | .commitProviderDevices p _ _ | .clearProviderDevices p => p

/-- Does a commit replace the provider's devices. -/
def RegistryOp.replaces : RegistryOp → Bool
  | .discoverProvider _ _ replaceExisting | .commitProviderDevices _ _ replaceExisting =>
    replaceExisting
  | .clearProviderDevices _ => true

/-- The answer to `ListDevices` that an operation is based on. -/
def RegistryOp.listed : RegistryOp → List (String × Option DescribeDeviceResponse)
  | .discoverProvider _ (.ok listed) _ | .commitProviderDevices _ listed _ => listed
  | .discoverProvider _ (.error _) _ | .clearProviderDevices _ => []

end Anolis.Registry
