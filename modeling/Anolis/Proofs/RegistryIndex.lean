import Anolis.Proofs.HandleNames
import Anolis.Registry.Discovery

/-!
# The handle index

Nothing in `inspect_provider_devices` asks whether a provider lists a device twice. One that does
leaves two devices with one handle in the registry, and the index has only the second
(`listed_twice`). Where the devices that a provider lists and describes have distinct ids, and no
provider id has a slash, the handles are distinct and the index is the bijection between the
handles and the positions (`index_is_bijection`).

The invariant is `Distinct`: pairs of a provider and a device are distinct. A commit takes the
provider's devices out before it appends the new ones, so only these have to be distinct among
themselves.
-/

namespace Anolis.Proofs.RegistryIndex

open HandleNames Registry

/-- The name of a device. -/
def nameOf (d : RegisteredDevice) : String × String := (d.providerId, d.deviceId)

/-- No device is there twice, and no provider's id has a slash. -/
structure Distinct (r : IndexedRegistry) : Prop where
  names : (r.devices.map nameOf).Nodup
  plain : ∀ d ∈ r.devices, '/' ∉ d.providerId.toList

/-- The ids that a provider lists and describes are distinct. -/
def ListedOnce (listed : List (String × Option DescribeDeviceResponse)) : Prop :=
  ((listed.filter fun entry => entry.2.isSome).map Prod.fst).Nodup

instance instDecidableListedOnce (listed : List (String × Option DescribeDeviceResponse)) :
    Decidable (ListedOnce listed) :=
  inferInstanceAs (Decidable (List.Nodup _))

theorem names_described (p : String) (listed : List (String × Option DescribeDeviceResponse)) :
    (describedDevices p listed).map nameOf =
      ((listed.filter fun entry => entry.2.isSome).map Prod.fst).map fun id => (p, id) := by
  induction listed with
  | nil => rfl
  | cons entry listed ih =>
    obtain ⟨id, _ | response⟩ := entry
    · simpa [describedDevices] using ih
    · simpa [describedDevices, buildDevice, nameOf] using ih

variable {listed : List (String × Option DescribeDeviceResponse)}

theorem providerId_of_described {p : String} {d : RegisteredDevice}
    (h : d ∈ describedDevices p listed) : d.providerId = p := by
  obtain ⟨entry, -, hd⟩ := List.mem_filterMap.mp h
  obtain ⟨response, -, rfl⟩ := Option.map_eq_some_iff.mp hd
  rfl

variable {r : IndexedRegistry}

theorem Distinct.commit (h : Distinct r) {p : String} (hp : '/' ∉ p.toList)
    (hlisted : ListedOnce listed) :
    Distinct (r.commitProviderDevices p (describedDevices p listed) true) where
  names := by
    simp only [IndexedRegistry.commitProviderDevices, if_true, List.map_append]
    refine List.nodup_append.mpr ⟨h.names.sublist (List.filter_sublist.map _), ?_, ?_⟩
    · rw [names_described]
      exact hlisted.map fun _ _ heq => (Prod.mk.inj heq).2
    · -- the devices that are kept are of other providers
      rintro name hkept name' hnew rfl
      obtain ⟨d, hd, rfl⟩ := List.mem_map.mp hkept
      obtain ⟨d', hd', heq⟩ := List.mem_map.mp hnew
      have hother : d.providerId ≠ p := by simpa using (List.mem_filter.mp hd).2
      exact hother ((Prod.mk.inj heq).1.symm.trans (providerId_of_described hd'))
  plain d hd := by
    rcases List.mem_append.mp hd with hkept | hnew
    · exact h.plain d (List.mem_of_mem_filter hkept)
    · rw [providerId_of_described hnew]
      exact hp

theorem Distinct.clear (h : Distinct r) (p : String) : Distinct (r.clearProviderDevices p) where
  names := h.names.sublist (List.filter_sublist.map _)
  plain d hd := h.plain d (List.mem_of_mem_filter hd)

/-- What an operation has to meet: it replaces, its provider's id has no slash, and it is based on a
list without a device twice. -/
structure Orderly (op : RegistryOp) : Prop where
  replaces : op.replaces
  plain : '/' ∉ op.providerId.toList
  listed : ListedOnce op.listed

theorem distinct_apply {op : RegistryOp} (h : Distinct r) (hop : Orderly op) :
    Distinct (op.apply r) := by
  cases op with
  | discoverProvider p answers replaceExisting =>
    obtain rfl : replaceExisting = true := hop.replaces
    cases answers with
    | error e => exact ⟨h.names, h.plain⟩
    | ok listed => exact h.commit hop.plain hop.listed
  | commitProviderDevices p listed replaceExisting =>
    obtain rfl : replaceExisting = true := hop.replaces
    exact h.commit hop.plain hop.listed
  | clearProviderDevices p => exact h.clear p

theorem indexed_apply (h : r.Indexed) (op : RegistryOp) : (op.apply r).Indexed := by
  cases op with
  | discoverProvider p answers replaceExisting =>
    cases answers with
    | error e => exact h
    | ok listed => rfl
  | commitProviderDevices p listed replaceExisting => rfl
  | clearProviderDevices p => rfl

theorem indexed_after (ops : List RegistryOp) : (registryAfter ops).Indexed := by
  induction ops using List.reverseRecOn with
  | nil => rfl
  | append_singleton ops op ih =>
    rw [registryAfter, List.foldl_append]
    exact indexed_apply ih op

theorem distinct_after {ops : List RegistryOp} (hops : ∀ op ∈ ops, Orderly op) :
    Distinct (registryAfter ops) := by
  induction ops using List.reverseRecOn with
  | nil => exact ⟨List.nodup_nil, fun _ h => by cases h⟩
  | append_singleton ops op ih =>
    rw [registryAfter, List.foldl_append]
    exact distinct_apply (ih fun op' h => hops op' (List.mem_append_left _ h))
      (hops op (List.mem_append_right _ List.mem_cons_self))

theorem Distinct.handles (h : Distinct r) : (r.devices.map RegisteredDevice.getHandle).Nodup := by
  refine List.Nodup.map_on ?_ (List.Nodup.of_map nameOf h.names)
  intro d hd d' hd' heq
  obtain ⟨hprovider, hdevice⟩ := device_of_handle (h.plain d hd) (h.plain d' hd') heq
  exact List.inj_on_of_nodup_map h.names hd hd' (Prod.ext hprovider hdevice)

/-- After any such sequence the handles are distinct, the index has the position of each device
under its handle and nothing else, and each device is found under its handle. -/
theorem index_is_bijection {ops : List RegistryOp} (hops : ∀ op ∈ ops, Orderly op) :
    ((registryAfter ops).getAllDevices.map RegisteredDevice.getHandle).Nodup ∧
      (∀ handle i, (registryAfter ops).handleToIndex handle = some i ↔
        ∃ d, (registryAfter ops).devices[i]? = some d ∧ d.getHandle = handle) ∧
      ∀ d ∈ (registryAfter ops).getAllDevices,
        (registryAfter ops).getDeviceByHandleCopy d.getHandle = some d := by
  have hhandles := (distinct_after hops).handles
  have hindex : ∀ handle i, (registryAfter ops).handleToIndex handle = some i ↔
      ∃ d, (registryAfter ops).devices[i]? = some d ∧ d.getHandle = handle := by
    rw [indexed_after ops]
    exact Lib.keyIndex_eq_some hhandles
  refine ⟨hhandles, hindex, fun d hd => ?_⟩
  obtain ⟨i, hi⟩ := List.getElem?_of_mem hd
  have hposition := (hindex d.getHandle i).mpr ⟨d, hi, rfl⟩
  rw [IndexedRegistry.getDeviceByHandleCopy, hposition]
  exact hi

/-- Two providers are discovered, the first one is restarted with one device less, and a third one
is cleared. -/
def simOps : List RegistryOp :=
  [.discoverProvider "sim0" (.ok [("a", some {}), ("b", some {}), ("a", none)]) true,
    .discoverProvider "sim1" (.ok [("a", some {})]) true,
      .discoverProvider "sim2" (.error "gone") true,
    .commitProviderDevices "sim0" [("b", some {})] true, .clearProviderDevices "sim2"]

theorem index_is_bijection_sim :
    (registryAfter simOps).getAllDevices.map RegisteredDevice.getHandle = ["sim1/a", "sim0/b"] ∧
      ∀ d ∈ (registryAfter simOps).getAllDevices,
        (registryAfter simOps).getDeviceByHandleCopy d.getHandle = some d := by
  refine ⟨by decide, (index_is_bijection fun op hop => ?_).2.2⟩
  simp only [simOps, List.mem_cons, List.not_mem_nil, or_false] at hop
  rcases hop with rfl | rfl | rfl | rfl | rfl <;> exact ⟨by decide, by decide, by decide⟩

/-- A provider lists one device twice and describes it both times. -/
theorem listed_twice : ¬ ∀ ops : List RegistryOp,
      (∀ op ∈ ops, op.replaces ∧ '/' ∉ op.providerId.toList) →
      ((registryAfter ops).getAllDevices.map RegisteredDevice.getHandle).Nodup ∧
        (∀ handle i, (registryAfter ops).handleToIndex handle = some i ↔
          ∃ d, (registryAfter ops).devices[i]? = some d ∧ d.getHandle = handle) ∧
        ∀ d ∈ (registryAfter ops).getAllDevices,
          (registryAfter ops).getDeviceByHandleCopy d.getHandle = some d := by
  intro hclaim
  have hnodup := (hclaim
    [.discoverProvider "sim0" (.ok [("a", some {}), ("a", some {})]) true] (by
      intro op hop
      rw [List.mem_singleton.mp hop]
      exact ⟨rfl, by decide⟩)).1
  exact absurd hnodup (by decide)

/-! ### Repeated ids -/

theorem others_of_commit (r : IndexedRegistry) (p : String) (replaceExisting : Bool) :
    (r.commitProviderDevices p (describedDevices p listed) replaceExisting).devices.filter
      (fun d => d.providerId ≠ p) = r.devices.filter fun d => d.providerId ≠ p := by
  have hnew := fun d (hd : d ∈ describedDevices p listed) => providerId_of_described hd
  cases replaceExisting <;>
    simpa [IndexedRegistry.commitProviderDevices, List.filter_filter] using hnew

/-- After any operations, also where handles repeat: a lookup through the index finds the last
device with the handle, and an operation leaves the devices of the other providers, in their
order. -/
theorem registry_serves_published (ops : List RegistryOp) (op : RegistryOp) :
    (∀ handle, (registryAfter ops).getDeviceByHandleCopy handle =
      (registryAfter ops).devices.reverse.find? fun d => d.getHandle = handle) ∧
    (registryAfter (ops ++ [op])).devices.filter (fun d => d.providerId ≠ op.providerId) =
      (registryAfter ops).devices.filter fun d => d.providerId ≠ op.providerId := by
  refine ⟨IndexedRegistry.getDeviceByHandleCopy_published (indexed_after ops), ?_⟩
  rw [registryAfter, List.foldl_append]
  cases op with
  | discoverProvider p answers replaceExisting =>
    cases answers with
    | error e => rfl
    | ok listed => exact others_of_commit _ p replaceExisting
  | commitProviderDevices p listed replaceExisting => exact others_of_commit _ p replaceExisting
  | clearProviderDevices p =>
    exact (List.filter_filter ..).trans (List.filter_congr fun _ _ => Bool.and_self _)

end Anolis.Proofs.RegistryIndex
