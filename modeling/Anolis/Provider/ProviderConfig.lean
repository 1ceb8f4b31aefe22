import Mathlib.Data.List.Nodup

/-!
# The configured providers

`provider_config.hpp`, and the part of `validate_config` that judges the providers
(`validateProviders`): their ids, their timeouts and their restart policies. What it accepts is
`PolicyAccepted` of each policy (`policyAccepted_of_validate`) and ids that are distinct and not
empty (`ids_of_validate`). Of an id it asks nothing else.

Left out: the arguments of the command, which nothing here reads.
-/

namespace Anolis.Provider

/-- `RestartPolicyConfig`. -/
structure RestartPolicyConfig where
  enabled : Bool := false
  maxAttempts : Int := 3
  backoffMs : List Int := [100, 1000, 5000]
  timeoutMs : Int := 30000
  successResetMs : Int := 1000

/-- `ProviderConfig`. -/
structure ProviderConfig where
  id : String
  command : String
  timeoutMs : Int := 5000
  helloTimeoutMs : Int := 5000
  readyTimeoutMs : Int := 60000
  restartPolicy : RestartPolicyConfig := {}

/-- The first negative backoff, by its place. -/
def negativeBackoff? (backoffMs : List Int) : Option Nat := backoffMs.findIdx? (· < 0)

/-- `validate_config`, of a provider's restart policy. A disabled policy is not looked at. -/
def validateRestartPolicy (id : String) (policy : RestartPolicyConfig) : Except String Unit :=
  let subject := "Provider '" ++ id ++ "' restart policy "
  if !policy.enabled then .ok ()
  else if policy.maxAttempts < 1 then .error (subject ++ "max_attempts must be >= 1")
  else if policy.backoffMs.isEmpty then .error (subject ++ "backoff_ms cannot be empty")
  else if (policy.backoffMs.length : Int) ≠ policy.maxAttempts then
    .error (subject ++ "backoff_ms array length (" ++ toString policy.backoffMs.length ++
      ") must match max_attempts (" ++ toString policy.maxAttempts ++ ")")
  else
    match negativeBackoff? policy.backoffMs with
    | some i => .error (subject ++ "backoff_ms[" ++ toString i ++ "] must be >= 0")
    | none =>
      if policy.timeoutMs < 1000 then .error (subject ++ "timeout_ms must be >= 1000ms")
      else if policy.successResetMs < 0 then .error (subject ++ "success_reset_ms must be >= 0")
      else .ok ()

/-- The loop of `validate_config` over the providers. `seen` are the ids before. -/
def validateProviderList : List String → List ProviderConfig → Except String Unit
  | _, [] => .ok ()
  | seen, provider :: rest =>
    if provider.id.isEmpty then .error "Provider missing 'id' field"
    else if provider.id ∈ seen then .error ("Duplicate provider ID: '" ++ provider.id ++ "'")
    else if provider.command.isEmpty then
      .error ("Provider '" ++ provider.id ++ "' missing 'command' field")
    else if provider.timeoutMs < 100 then .error "Provider timeout must be >= 100ms"
    else if provider.helloTimeoutMs < 100 then
      .error "Provider hello_timeout_ms must be >= 100ms"
    else if provider.readyTimeoutMs < 1000 then
      .error "Provider ready_timeout_ms must be >= 1000ms"
    else
      match validateRestartPolicy provider.id provider.restartPolicy with
      | .error e => .error e
      | .ok () => validateProviderList (provider.id :: seen) rest

/-- `validate_config`, of the providers. -/
def validateProviders (providers : List ProviderConfig) : Except String Unit :=
  if providers.isEmpty then .error "Config must specify at least one provider"
  else validateProviderList [] providers

/-- The ids of the configured providers. -/
def providerIds (providers : List ProviderConfig) : List String := providers.map ProviderConfig.id

/-! ### What is accepted -/

/-- A restart policy that `validate_config` accepts. -/
structure PolicyAccepted (policy : RestartPolicyConfig) : Prop where
  attempts : policy.enabled → 1 ≤ policy.maxAttempts
  backoffs : policy.enabled → (policy.backoffMs.length : Int) = policy.maxAttempts
  backoff : policy.enabled → ∀ ms ∈ policy.backoffMs, 0 ≤ ms
  successReset : policy.enabled → 0 ≤ policy.successResetMs

theorem policyAccepted_of_validateRestartPolicy {id : String} {policy : RestartPolicyConfig}
    (h : validateRestartPolicy id policy = .ok ()) : PolicyAccepted policy := by
  unfold validateRestartPolicy at h
  split at h
  · rename_i hdisabled
    have hoff : policy.enabled ≠ true := by simpa using hdisabled
    exact ⟨fun h => absurd h hoff, fun h => absurd h hoff, fun h => absurd h hoff,
      fun h => absurd h hoff⟩
  · split at h
    · cases h
    · rename_i hattempts
      split at h
      · cases h
      · split at h
        · cases h
        · rename_i hlength
          split at h
          · cases h
          · rename_i hnegative
            split at h
            · cases h
            · split at h
              · cases h
              · rename_i hreset
                refine ⟨fun _ => ?_, fun _ => ?_, fun _ ms hms => ?_, fun _ => ?_⟩
                · omega
                · exact not_not.mp hlength
                · have hnot := List.findIdx?_eq_none_iff.mp hnegative ms hms
                  simpa using hnot
                · omega

theorem of_validateProviderList {seen : List String} {providers : List ProviderConfig}
    (h : validateProviderList seen providers = .ok ()) :
    (∀ provider ∈ providers, provider.id ≠ "" ∧ provider.id ∉ seen ∧
      PolicyAccepted provider.restartPolicy) ∧ (providerIds providers).Nodup := by
  induction providers generalizing seen with
  | nil => exact ⟨by simp, List.nodup_nil⟩
  | cons provider rest ih =>
    unfold validateProviderList at h
    repeat' split at h
    all_goals first | cases h | skip
    rename_i hempty hseen _ _ _ _ _ hpolicy
    obtain ⟨hrest, hnodup⟩ := ih h
    refine ⟨fun p hp => ?_, ?_⟩
    · rcases List.mem_cons.mp hp with rfl | hp
      · have hne : p.id ≠ "" := by
          intro heq
          simp [heq] at hempty
        exact ⟨hne, hseen, policyAccepted_of_validateRestartPolicy hpolicy⟩
      · obtain ⟨hne, hnot, haccepted⟩ := hrest p hp
        exact ⟨hne, fun hmem => hnot (List.mem_cons_of_mem _ hmem), haccepted⟩
    · have hfirst : provider.id ∉ providerIds rest := by
        intro hmem
        obtain ⟨p, hp, hid⟩ := List.mem_map.mp hmem
        exact (hrest p hp).2.1 (hid ▸ List.mem_cons_self ..)
      exact List.nodup_cons.mpr ⟨hfirst, hnodup⟩

section
variable {providers : List ProviderConfig}

section

variable (h : validateProviders providers = .ok ())
include h

theorem validateProviderList_of_validate : validateProviderList [] providers = .ok () := by
  unfold validateProviders at h
  split at h
  · cases h
  · exact h

theorem ids_of_validate :
    (providerIds providers).Nodup ∧ ∀ id ∈ providerIds providers, id ≠ "" := by
  obtain ⟨hall, hnodup⟩ := of_validateProviderList (validateProviderList_of_validate h)
  refine ⟨hnodup, fun id hid => ?_⟩
  obtain ⟨provider, hp, rfl⟩ := List.mem_map.mp hid
  exact (hall provider hp).1

theorem policyAccepted_of_validate :
    ∀ provider ∈ providers, PolicyAccepted provider.restartPolicy :=
  fun provider hp =>
    ((of_validateProviderList (validateProviderList_of_validate h)).1 provider hp).2.2

end

end

end Anolis.Provider
