import Anolis.Proofs.CallRouting
import Anolis.Provider.ProviderConfig

/-!
# A handle names one device

A handle is a provider id, a slash and a device id, and `parse_device_handle` cuts it at the first
slash. The two agree exactly where no configured provider id has a slash (`handles_name_devices`):
the handle determines the pair, it parses to the pair, and the call to a device is written to a
process of the device's own provider.

`validate_config` accepts ids with a slash, and then two devices may have one handle
(`slash_names_two`).
-/

namespace Anolis.Proofs.HandleNames

open Anolis.Runtime CallRouting Control Lib Provider Registry

theorem device_of_handle {p q d e : String} (hp : '/' ∉ p.toList) (hq : '/' ∉ q.toList)
    (h : p ++ "/" ++ d = q ++ "/" ++ e) : p = q ∧ d = e := by
  obtain rfl : p = q := provider_of_handle hp hq h
  have hlist : (p ++ "/").toList ++ d.toList = (p ++ "/").toList ++ e.toList := by
    have := congrArg String.toList h
    simpa using this
  exact ⟨rfl, String.toList_inj.mp (List.append_cancel_left hlist)⟩

theorem parseDeviceHandle_handle {p d : String} (hp : '/' ∉ p.toList) (hpne : p ≠ "")
    (hdne : d ≠ "") : parseDeviceHandle (p ++ "/" ++ d) = .ok (p, d) := by
  have hlist : (p ++ "/" ++ d).toList = p.toList ++ '/' :: d.toList := by simp
  have hp' : p.toList ≠ [] := by simpa using hpne
  have hd' : d.toList ≠ [] := by simpa using hdne
  simp only [parseDeviceHandle, hlist, takeWhile_append_slash hp, dropWhile_append_slash hp]
  simp [hp', hd', List.isEmpty_iff]

/-- The ids of an accepted configuration have no slash exactly where: distinct pairs of a provider
and a device have distinct handles, the handle of a device parses to its pair, and in every run
every frame of a call to a device is written to a process of the device's own provider, for that
device. -/
theorem handles_name_devices {providers : List ProviderConfig}
    (hok : validateProviders providers = .ok ()) :
    (∀ id ∈ providerIds providers, '/' ∉ id.toList) ↔
    (∀ p ∈ providerIds providers, ∀ q ∈ providerIds providers, ∀ d e, d ≠ "" → e ≠ "" →
      p ++ "/" ++ d = q ++ "/" ++ e → p = q ∧ d = e) ∧
    (∀ device : RegisteredDevice, device.providerId ∈ providerIds providers → device.deviceId ≠ "" →
      parseDeviceHandle device.getHandle = .ok (device.providerId, device.deviceId)) ∧
    ∀ cfg g₀ tr g, WorldStart g₀ →
      (∀ p h, g₀.shared.providers.registered p = some h → p ∈ providerIds providers) →
      Run (world cfg).lts g₀ tr g →
      ∀ i ∈ tr, ∀ h source frame, i.2.2.provider = .wrote h source frame →
        ∀ device : RegisteredDevice, device.providerId ∈ providerIds providers →
          device.deviceId ≠ "" → frame.request.deviceHandle = device.getHandle →
          i.1.shared.providers.owner h = device.providerId ∧
            frame.target.deviceId = device.deviceId := by
  constructor
  · intro hplain
    have hparse : ∀ device : RegisteredDevice, device.providerId ∈ providerIds providers →
        device.deviceId ≠ "" →
        parseDeviceHandle device.getHandle = .ok (device.providerId, device.deviceId) :=
      fun device hid hne =>
        parseDeviceHandle_handle (hplain _ hid) ((ids_of_validate hok).2 _ hid) hne
    refine ⟨fun p hp q hq d e _ _ h => device_of_handle (hplain p hp) (hplain q hq) h, hparse, ?_⟩
    intro cfg g₀ tr g h0 hregistered hrun i hi h source frame he device hid hne hhandle
    have hids : PlainIds g₀ := fun p n hn => hplain p (hregistered p n hn)
    obtain ⟨-, howner, hvalid⟩ := wrote_sound h0 hids hrun hi he
    -- the call's target is what its handle parses to
    have htarget := (validateCall_eq_ok.mp hvalid).1
    rw [hhandle, hparse device hid hne] at htarget
    obtain ⟨hprovider, hdevice⟩ := Prod.mk.inj (Except.ok.inj htarget)
    exact ⟨howner.trans hprovider.symm, hdevice.symm⟩
  · -- what a handle parses to has no slash in its first part
    rintro ⟨-, hparse, -⟩ id hid
    exact parseDeviceHandle_provider (hparse (valve id "valve") hid (show "valve" ≠ "" by decide))

/-- A provider `sim0`, and the handle of its valve. -/
theorem handles_name_devices_sim : validateProviders [{ id := "sim0", command := "sim" }] = .ok () ∧
      parseDeviceHandle (valve "sim0" "valve").getHandle = .ok ("sim0", "valve") := by
  have hok : validateProviders [{ id := "sim0", command := "sim" }] = .ok () := by decide
  have hplain : ∀ id ∈ providerIds [{ id := "sim0", command := "sim" }], '/' ∉ id.toList := by
    decide
  exact ⟨hok, ((handles_name_devices hok).mp hplain).2.1 (valve "sim0" "valve")
    (List.mem_singleton.mpr rfl) (by decide)⟩

/-- The providers `a` and `a/b` are accepted. The device `c` of `a/b` and the device `b/c` of `a`
have one handle, and it parses to the latter. -/
theorem slash_names_two : ∃ providers, validateProviders providers = .ok () ∧
      ∃ device other : RegisteredDevice, device.providerId ∈ providerIds providers ∧
        other.providerId ∈ providerIds providers ∧ device.deviceId ≠ "" ∧ other.deviceId ≠ "" ∧
        device.providerId ≠ other.providerId ∧ device.getHandle = other.getHandle ∧
        parseDeviceHandle device.getHandle = .ok (other.providerId, other.deviceId) :=
  ⟨[{ id := "a", command := "sim" }, { id := "a/b", command := "sim" }], by decide,
    valve "a/b" "c", valve "a" "b/c", by decide⟩

end Anolis.Proofs.HandleNames
