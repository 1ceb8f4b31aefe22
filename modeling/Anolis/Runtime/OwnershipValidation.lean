import Anolis.Registry.DeviceRegistry
import Mathlib.Data.List.Dedup
import Mathlib.Data.List.Sort

/-!
# One device for each claim

`ownership_validation.cpp`: the keys of a device's `anolis.claim` tag, and the check that no key
belongs to two handles. A restart makes the check on the inventory that it is about to publish
(`validateOwnershipClaimsAfterProviderReplacement`). What it accepts is `ClaimsUnique`
(`claimsUnique_of_validate`).

Left out: the providers with legacy ownership tags, which are only logged.
-/

namespace Anolis.Runtime

open Registry

/-- The blanks that separate words of a stream. -/
def isBlank (c : Char) : Bool :=
  c = ' ' || c = '\t' || c = '\n' || c = '\r' || c.toNat = 11 || c.toNat = 12

/-- The words of a text. -/
def wordsOf (text : String) : List String :=
  ((text.toList.splitOnP isBlank).filter fun word => !word.isEmpty).map String.ofList

/-- The keys in the order of a `std::set`, each once. -/
def sortedSet (keys : List String) : List String := keys.dedup.insertionSort (· ≤ ·)

/-- `claim_keys`. -/
def claimKeys (device : RegisteredDevice) : List String :=
  sortedSet (((device.tags.find? "anolis.claim").map wordsOf).getD [])

/-- The handles that hold a claim. -/
def claimOwners (devices : List RegisteredDevice) (key : String) : List String :=
  sortedSet ((devices.filter fun d => key ∈ claimKeys d).map RegisteredDevice.getHandle)

/-- The claims that more than one handle holds. -/
def claimConflicts (devices : List RegisteredDevice) : List String :=
  (sortedSet (devices.flatMap claimKeys)).filter fun key => 2 ≤ (claimOwners devices key).length

/-- `validate_ownership_claims`. -/
def validateOwnershipClaims (devices : List RegisteredDevice) : Except String Unit :=
  let line key := "; claim '" ++ key ++ "' held by " ++ ", ".intercalate (claimOwners devices key)
  match claimConflicts devices with
  | [] => .ok ()
  | conflicts =>
    .error ("Ownership validation failed" ++ String.join (conflicts.map line) ++
      ". Each anolis.claim key must belong to exactly one device.")

/-- `validate_ownership_claims_after_provider_replacement`. -/
def validateOwnershipClaimsAfterProviderReplacement (current : List RegisteredDevice)
    (providerId : String) (replacement : List RegisteredDevice) : Except String Unit :=
  match validateOwnershipClaims
      (current.filter (fun d => d.providerId ≠ providerId) ++ replacement) with
  | .ok () => .ok ()
  | .error e =>
    .error ("Restart-time ownership validation failed for provider '" ++ providerId ++ "': " ++ e)

/-! ### What is accepted -/

/-- No claim belongs to two different handles. -/
def ClaimsUnique (devices : List RegisteredDevice) : Prop :=
  ∀ d ∈ devices, ∀ e ∈ devices, ∀ key, key ∈ claimKeys d → key ∈ claimKeys e →
    d.getHandle = e.getHandle

theorem mem_sortedSet {keys : List String} {key : String} : key ∈ sortedSet keys ↔ key ∈ keys := by
  simp [sortedSet]

theorem nodup_sortedSet (keys : List String) : (sortedSet keys).Nodup :=
  (List.perm_insertionSort _ _).nodup_iff.mpr (List.nodup_dedup keys)

variable {devices : List RegisteredDevice}

theorem mem_claimOwners {key handle : String} : handle ∈ claimOwners devices key ↔
      ∃ d ∈ devices, key ∈ claimKeys d ∧ d.getHandle = handle := by
  simp [claimOwners, mem_sortedSet, and_assoc]

theorem validateOwnershipClaims_eq_ok :
    validateOwnershipClaims devices = .ok () ↔ ClaimsUnique devices := by
  have hok : validateOwnershipClaims devices = .ok () ↔ claimConflicts devices = [] := by
    unfold validateOwnershipClaims
    split <;> simp_all
  rw [hok]
  constructor
  · intro hnone d hd e he key hkd hke
    -- two handles would be a conflict
    by_contra hne
    have howners : ∀ handle ∈ [d.getHandle, e.getHandle], handle ∈ claimOwners devices key := by
      simp only [List.mem_cons, List.not_mem_nil, or_false, forall_eq_or_imp, forall_eq]
      exact ⟨mem_claimOwners.mpr ⟨d, hd, hkd, rfl⟩, mem_claimOwners.mpr ⟨e, he, hke, rfl⟩⟩
    have htwo : 2 ≤ (claimOwners devices key).length :=
      (List.subperm_of_subset (by simpa using hne) howners).length_le
    have hkey : key ∈ sortedSet (devices.flatMap claimKeys) :=
      mem_sortedSet.mpr (List.mem_flatMap.mpr ⟨d, hd, hkd⟩)
    have hconflict : key ∈ claimConflicts devices := List.mem_filter.mpr ⟨hkey, decide_eq_true htwo⟩
    rw [hnone] at hconflict
    cases hconflict
  · intro hunique
    refine List.filter_eq_nil_iff.mpr fun key _ htwo => ?_
    have htwo : 2 ≤ (claimOwners devices key).length := of_decide_eq_true htwo
    -- all owners are one handle
    obtain ⟨a, b, rest, howners⟩ : ∃ a b rest, claimOwners devices key = a :: b :: rest := by
      cases hlist : claimOwners devices key with
      | nil => simp [hlist] at htwo
      | cons a tail =>
        cases tail with
        | nil => simp [hlist] at htwo
        | cons b rest => exact ⟨a, b, rest, rfl⟩
    have hnodup : (claimOwners devices key).Nodup := nodup_sortedSet _
    obtain ⟨d, hd, hkd, hda⟩ := mem_claimOwners.mp (howners ▸ List.mem_cons_self .. :
      a ∈ claimOwners devices key)
    obtain ⟨e, he, hke, heb⟩ := mem_claimOwners.mp
      (howners ▸ List.mem_cons_of_mem _ (List.mem_cons_self ..) : b ∈ claimOwners devices key)
    have hab : a = b := by rw [← hda, ← heb, hunique d hd e he key hkd hke]
    rw [howners, hab] at hnodup
    simp at hnodup

/-- What the check of a restart accepts leaves the claims unique. -/
theorem claimsUnique_of_replacement {registry : DeviceRegistry} {providerId : String}
    {replacement : List RegisteredDevice}
    (h : validateOwnershipClaimsAfterProviderReplacement registry.devices providerId replacement =
      .ok ()) : ClaimsUnique (registry.commitProviderDevices providerId replacement).devices := by
  unfold validateOwnershipClaimsAfterProviderReplacement at h
  split at h
  · exact validateOwnershipClaims_eq_ok.mp (by assumption)
  · cases h

end Anolis.Runtime
