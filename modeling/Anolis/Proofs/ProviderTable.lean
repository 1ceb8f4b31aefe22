import Anolis.Runtime.Providers
import Mathlib.Data.List.Find

/-!
# The provider registry beside the device registry

What holds of the two registries and the provider handles in every state (`TableSound`): a healthy
handle is registered only while the device registry has the inventory of its process. A restart
keeps this by its order. It stops the registered handle, commits the new inventory
(`TableSound.publish`), and then swaps the handle (`TableSound.register`).

The devices of a provider are those with its id in front of their handle, so the ids have no slash
here.
-/

namespace Anolis.Proofs.CallRouting

open Lib Registry Anolis.Runtime

/-! ### Handles without a slash in the provider's id -/

theorem takeWhile_append_slash {p d : List Char} (hp : '/' ∉ p) :
    (p ++ '/' :: d).takeWhile (fun c => decide (c ≠ '/')) = p := by
  have hall : ∀ c ∈ p, decide (c ≠ '/') = true := fun c hc => by
    simpa using fun heq : c = '/' => hp (heq ▸ hc)
  rw [List.takeWhile_append_of_pos hall]
  simp

theorem dropWhile_append_slash {p d : List Char} (hp : '/' ∉ p) :
    (p ++ '/' :: d).dropWhile (fun c => decide (c ≠ '/')) = '/' :: d := by
  have hall : ∀ c ∈ p, decide (c ≠ '/') = true := fun c hc => by
    simpa using fun heq : c = '/' => hp (heq ▸ hc)
  rw [List.dropWhile_append_of_pos hall]
  simp

variable {p : String} {r : DeviceRegistry}

theorem provider_of_handle {q d e : String} (hp : '/' ∉ p.toList) (hq : '/' ∉ q.toList)
    (h : p ++ "/" ++ d = q ++ "/" ++ e) : p = q := by
  have hlist : p.toList ++ '/' :: d.toList = q.toList ++ '/' :: e.toList := by
    have := congrArg String.toList h
    simpa using this
  have hprefix := congrArg (List.takeWhile fun c => decide (c ≠ '/')) hlist
  rw [takeWhile_append_slash hp, takeWhile_append_slash hq] at hprefix
  exact String.toList_inj.mp hprefix

/-- A device's lookup finds one of its provider, and only looks at the devices of that. -/
theorem getDeviceCopy_filter (hp : '/' ∉ p.toList)
    (hids : ∀ d ∈ r.devices, '/' ∉ d.providerId.toList) (d : String) : r.getDeviceCopy p d =
      DeviceRegistry.getDeviceCopy ⟨r.devices.filter fun x => x.providerId = p⟩ p d := by
  simp only [DeviceRegistry.getDeviceCopy, DeviceRegistry.getDeviceByHandleCopy,
    ← List.filter_reverse, List.find?_filter]
  refine List.find?_congr fun x hx => ?_
  -- a device with this handle is one of the provider
  have hids' := hids x (List.mem_reverse.mp hx)
  by_cases hhandle : x.getHandle = p ++ "/" ++ d
  · have hid : x.providerId = p := provider_of_handle hids' hp hhandle
    simp [hhandle, hid]
  · simp [hhandle]

theorem providerId_of_getDeviceCopy {d : String} {device : RegisteredDevice}
    (hp : '/' ∉ p.toList) (hids : ∀ d ∈ r.devices, '/' ∉ d.providerId.toList)
    (h : r.getDeviceCopy p d = some device) : device ∈ r.devices ∧ device.providerId = p := by
  have hmem : device ∈ r.devices := List.mem_reverse.mp (List.mem_of_find?_eq_some h)
  have hhandle := List.find?_some h
  exact ⟨hmem, provider_of_handle (hids device hmem) hp (of_decide_eq_true hhandle)⟩

/-! ### What holds of the registries -/

/-- The devices of the process that a call's device is from. -/
def inventoryOf (P : Providers) (source : Option Nat) : DeviceRegistry :=
  ⟨(source.map P.inventory).getD []⟩

/-- What holds of the two registries and the handles. A healthy handle is registered only while the
device registry has the inventory of its process. -/
structure TableSound (registry : DeviceRegistry) (P : Providers) : Prop where
  registered : ∀ p h, P.registered p = some h → P.owner h = p ∧ h < P.fresh ∧ '/' ∉ p.toList
  published : ∀ p h, P.published p = some h → P.owner h = p ∧ h < P.fresh
  live : ∀ p h, P.registered p = some h → P.healthy h → P.published p = some h
  inventory : ∀ p h, P.published p = some h →
    registry.devices.filter (fun d => d.providerId = p) = P.inventory h
  devices : ∀ d ∈ registry.devices,
    '/' ∉ d.providerId.toList ∧ (P.published d.providerId).isSome

/-- A handle that a call got from the registry: while it is healthy it is the registered one. -/
def Held (P : Providers) (h : Nat) : Prop :=
  h < P.fresh ∧ (P.healthy h → P.registered (P.owner h) = some h)

/-- The registered handle of the provider is stopped. -/
def Dead (P : Providers) (p : String) : Prop :=
  ∀ h, P.registered p = some h → P.healthy h = false

/-- What every step does to the handles there are: it leaves their provider and their inventory, and
makes none healthy. -/
structure Later (P P' : Providers) : Prop where
  fresh : P.fresh ≤ P'.fresh
  owner : ∀ h, h < P.fresh → P'.owner h = P.owner h
  inventory : ∀ h, h < P.fresh → P'.inventory h = P.inventory h
  healthy : ∀ h, h < P.fresh → P'.healthy h → P.healthy h

/-- The effects on the registries. -/
def touches : ProviderEffect → Bool
  | .publish _ _ | .register _ _ => true
  | _ => false

section
variable {registry : DeviceRegistry} {P P' : Providers} {t : ThreadId} {e : ProviderEffect}

theorem apply_later (P : Providers) (t : ThreadId) (e : ProviderEffect) :
    Later P (P.apply t e) := by
  cases e with
  | discover p devices =>
    have hne : ∀ h, h < P.fresh → h ≠ P.fresh := fun h hlt => Nat.ne_of_lt hlt
    refine ⟨Nat.le_succ _, fun h hlt => ?_, fun h hlt => ?_, fun h hlt => ?_⟩
    · exact Function.update_of_ne (hne h hlt) ..
    · exact Function.update_of_ne (hne h hlt) ..
    · simp only [Providers.apply, Function.update_of_ne (hne h hlt)]
      exact id
  | lost handle | stopped handle =>
    refine ⟨Nat.le_refl _, fun _ _ => rfl, fun _ _ => rfl, fun h _ => ?_⟩
    by_cases heq : h = handle
    · simp [Providers.apply, heq]
    · simp [Providers.apply, heq]
  | _ => exact ⟨Nat.le_refl _, fun _ _ => rfl, fun _ _ => rfl, fun _ _ => id⟩

theorem apply_registered (he : touches e = false) :
    (P.apply t e).registered = P.registered ∧ (P.apply t e).published = P.published := by
  cases e <;> first | exact ⟨rfl, rfl⟩ | cases he

variable {n : Nat}

theorem Later.unhealthy (h : Later P P') (hn : n < P.fresh)
    (hdown : P.healthy n = false) : P'.healthy n = false := by
  refine Bool.eq_false_of_not_eq_true fun hup => ?_
  rw [h.healthy n hn hup] at hdown
  cases hdown

theorem Held.later (h : Later P P') (hreg : P'.registered = P.registered)
    (hn : Held P n) : Held P' n := by
  refine ⟨Nat.lt_of_lt_of_le hn.1 h.fresh, fun hup => ?_⟩
  rw [hreg, h.owner n hn.1]
  exact hn.2 (h.healthy n hn.1 hup)

theorem Dead.later (h : Later P P') (hreg : P'.registered = P.registered)
    (hlt : ∀ p h, P.registered p = some h → h < P.fresh) (hd : Dead P p) : Dead P' p := by
  intro n hn
  rw [hreg] at hn
  exact h.unhealthy (hlt p n hn) (hd n hn)

section

variable (hs : TableSound registry P)
include hs

theorem TableSound.later (h : Later P P')
    (hreg : P'.registered = P.registered) (hpub : P'.published = P.published) :
    TableSound registry P' := by
  constructor
  · intro p n hn
    rw [hreg] at hn
    obtain ⟨howner, hlt, hslash⟩ := hs.registered p n hn
    exact ⟨(h.owner n hlt).trans howner, Nat.lt_of_lt_of_le hlt h.fresh, hslash⟩
  · intro p n hn
    rw [hpub] at hn
    obtain ⟨howner, hlt⟩ := hs.published p n hn
    exact ⟨(h.owner n hlt).trans howner, Nat.lt_of_lt_of_le hlt h.fresh⟩
  · intro p n hn hup
    rw [hreg] at hn
    rw [hpub]
    exact hs.live p n hn (h.healthy n (hs.registered p n hn).2.1 hup)
  · intro p n hn
    rw [hpub] at hn
    rw [h.inventory n (hs.published p n hn).2]
    exact hs.inventory p n hn
  · intro d hd
    rw [hpub]
    exact hs.devices d hd

theorem TableSound.slash (hp : (P.registered p).isSome) : '/' ∉ p.toList := by
  obtain ⟨h, hh⟩ := Option.isSome_iff_exists.mp hp
  exact (hs.registered p h hh).2.2

/-- The commit of a restart. The registered handle is stopped by then. -/
theorem TableSound.publish
    (hdead : Dead P p) (howner : P.owner n = p) (hlt : n < P.fresh) (hslash : '/' ∉ p.toList)
    (hids : ∀ d ∈ P.inventory n, d.providerId = p) :
    TableSound (registry.commitProviderDevices p (P.inventory n)) (P.apply t (.publish p n)) := by
  have hsame : ∀ q, q ≠ p → (P.apply t (.publish p n)).published q = P.published q :=
    fun q hq => Function.update_of_ne hq ..
  have hself : (P.apply t (.publish p n)).published p = some n := Function.update_self ..
  constructor
  · exact hs.registered
  · intro q h hq
    rcases eq_or_ne q p with rfl | hqp
    · rw [hself] at hq
      cases hq
      exact ⟨howner, hlt⟩
    · rw [hsame q hqp] at hq
      exact hs.published q h hq
  · intro q h hreg hup
    rcases eq_or_ne q p with rfl | hqp
    · have hdown : P.healthy h = false := hdead h hreg
      rw [show (P.apply t (.publish q n)).healthy h = P.healthy h from rfl, hdown] at hup
      cases hup
    · rw [hsame q hqp]
      exact hs.live q h hreg hup
  · intro q h hq
    simp only [DeviceRegistry.commitProviderDevices, List.filter_append, List.filter_filter]
    rcases eq_or_ne q p with rfl | hqp
    · rw [hself] at hq
      cases hq
      have hnew : (P.inventory n).filter (fun d => d.providerId = q) = P.inventory n :=
        List.filter_eq_self.mpr fun d hd => by simpa using hids d hd
      have hold : registry.devices.filter
          (fun d => decide (d.providerId = q) && decide (d.providerId ≠ q)) = [] :=
        List.filter_eq_nil_iff.mpr fun d _ => by simp
      rw [hnew, hold]
      rfl
    · rw [hsame q hqp] at hq
      have hnew : (P.inventory n).filter (fun d => d.providerId = q) = [] :=
        List.filter_eq_nil_iff.mpr fun d hd => by
          simpa [hids d hd] using Ne.symm hqp
      have hold : registry.devices.filter
          (fun d => decide (d.providerId = q) && decide (d.providerId ≠ p)) =
            registry.devices.filter (fun d => d.providerId = q) :=
        List.filter_congr fun d _ => by
          by_cases hd : d.providerId = q
          · simp [hd, hqp]
          · simp [hd]
      rw [hnew, hold, List.append_nil]
      exact hs.inventory q h hq
  · intro d hd
    rcases List.mem_append.mp hd with hd | hd
    · have hne : d.providerId ≠ p := by simpa using (List.mem_filter.mp hd).2
      rw [hsame _ hne]
      exact hs.devices d (List.mem_filter.mp hd).1
    · rw [hids d hd, hself]
      exact ⟨hslash, rfl⟩

/-- The swap of a restart. Its inventory is published by then. -/
theorem TableSound.register (howner : P.owner n = p) (hlt : n < P.fresh) (hslash : '/' ∉ p.toList)
    (hpub : P.published p = some n) : TableSound registry (P.apply t (.register p n)) := by
  have hsame : ∀ q, q ≠ p → (P.apply t (.register p n)).registered q = P.registered q :=
    fun q hq => Function.update_of_ne hq ..
  have hself : (P.apply t (.register p n)).registered p = some n := Function.update_self ..
  refine ⟨fun q h hq => ?_, hs.published, fun q h hq hup => ?_, hs.inventory, hs.devices⟩
  · rcases eq_or_ne q p with rfl | hqp
    · rw [hself] at hq
      cases hq
      exact ⟨howner, hlt, hslash⟩
    · rw [hsame q hqp] at hq
      exact hs.registered q h hq
  · rcases eq_or_ne q p with rfl | hqp
    · rw [hself] at hq
      cases hq
      exact hpub
    · rw [hsame q hqp] at hq
      exact hs.live q h hq hup

end

/-- A handle that a call got stays what it is when a restart swaps: the one that goes is stopped. -/
theorem Held.register {m : Nat} (hdead : Dead P p) (h : Held P m) :
    Held (P.apply t (.register p n)) m := by
  refine ⟨h.1, fun hup => ?_⟩
  have hreg := h.2 hup
  by_cases hp : P.owner m = p
  · rw [hp] at hreg
    rw [show (P.apply t (.register p n)).healthy m = P.healthy m from rfl, hdead m hreg] at hup
    cases hup
  · exact (Function.update_of_ne hp ..).trans hreg

end

end Anolis.Proofs.CallRouting
