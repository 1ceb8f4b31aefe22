import Anolis.Proofs.PollPlan

/-!
# A restart publishes all or nothing

An attempt to restart a provider has many exits before it publishes. `Progress` says, for each place
of an attempt, what it has changed since it began: nothing before the commit, the published devices
after it, the registered handle at the end. So an attempt that fails has itself changed nothing, and
one that succeeds has replaced the provider's devices, rebuilt the poll plan and only then
registered the new handle (`restart_all_or_nothing`).

The validation before the commit keeps the claims unique over any number of attempts
(`claimsSound_run`).
-/

namespace Anolis.Proofs.RestartAtomic

open Anolis.Runtime Lib PollPlan Registry State
open Provider (ProviderConfig providerIds)

/-- A step of a run. -/
abbrev Item := RestartState × ThreadId × RestartEffect

/-- The step is the end of an attempt. -/
def isReturn (i : Item) : Bool :=
  match i.2.2 with
  | .returned _ _ => true
  | _ => false

/-- A step of thread 0 that changes neither the published devices, nor the cache, nor a registered
handle. -/
def Quiet (i : Item) : Prop :=
  i.2.1 = 0 → (i.1.shared.apply i.2.2).world = i.1.shared.world ∧
    (i.1.shared.apply i.2.2).registered = i.1.shared.registered

/-- An attempt that began in `s₀` has published nothing. -/
structure Unpublished (s₀ : RestartState) (behind : RestartTrace) (s : RestartState) : Prop where
  quiet : ∀ i ∈ behind, Quiet i
  registry : s.shared.world.registry = s₀.shared.world.registry
  plan : s.shared.world.cache.pollConfigs = s₀.shared.world.cache.pollConfigs
  registered : s.shared.registered = s₀.shared.registered

/-- What the attempt found: the devices of the provider, on a handle that was made for it. -/
structure Found (s₀ : RestartState) (p : String) (handle : Nat) (devices : List RegisteredDevice)
    (behind : RestartTrace) : Prop where
  discovered : ∃ i ∈ behind, i.2 = (0, .discovered devices)
  devices : ∀ d ∈ devices, d.providerId = p
  handle : s₀.shared.made ≤ handle

/-- The attempt has published the devices. -/
structure Published (s₀ : RestartState) (p : String) (handle : Nat)
    (devices : List RegisteredDevice) (behind : RestartTrace) (s : RestartState) : Prop where
  found : Found s₀ p handle devices behind
  registry : s.shared.world.registry = s₀.shared.world.registry.commitProviderDevices p devices

/-- The attempt has registered the handle, after the devices and the poll plan. -/
structure Registered (s₀ : RestartState) (p : String) (handle : Nat)
    (devices : List RegisteredDevice) (behind : RestartTrace) (s : RestartState) : Prop where
  published : Published s₀ p handle devices behind s
  registered : s.shared.registered = Function.update s₀.shared.registered p (some handle)
  order : ∃ i ∈ behind, i.2 = (0, .register p handle) ∧ Synced i.1.shared.world ∧
    i.1.shared.world.registry = s₀.shared.world.registry.commitProviderDevices p devices ∧
    i.1.shared.registered = s₀.shared.registered

/-- What the attempt holds before the commit. -/
def Holds (s₀ : RestartState) (p : String) (behind : RestartTrace) : AttemptPc → Prop
  | .started _ _ handle | .inspect _ _ handle => s₀.shared.made ≤ handle
  | .inspected _ _ handle devices | .validate _ handle devices =>
    Found s₀ p handle devices behind
  | _ => True

/-- What the attempt for `p` that began in `s₀` has done, by where thread 0 is. -/
inductive Progress (s₀ : RestartState) (p : String) (behind : RestartTrace) (s : RestartState) :
    RestartThread → Prop
  | before {pc : AttemptPc} {config : ProviderConfig} (hconfig : pc.config? = some config)
      (hid : config.id = p) (hholds : Holds s₀ p behind pc) (h : Unpublished s₀ behind s) :
      Progress s₀ p behind s ⟨[], pc⟩
  | failed (h : Unpublished s₀ behind s) : Progress s₀ p behind s ⟨[], .finish p false⟩
  | commit {handle : Nat} {devices : List RegisteredDevice}
      (hfound : Found s₀ p handle devices behind) (h : Unpublished s₀ behind s) :
      Progress s₀ p behind s ⟨[], .commit p (some handle) devices⟩
  | rebuild {sections : List Section} {handle : Nat} {devices : List RegisteredDevice}
      (h : Published s₀ p handle devices behind s)
      (hregistered : s.shared.registered = s₀.shared.registered) :
      Progress s₀ p behind s ⟨sections, .rebuild p (some handle)⟩
  | register {handle : Nat} {devices : List RegisteredDevice}
      (h : Published s₀ p handle devices behind s)
      (hregistered : s.shared.registered = s₀.shared.registered) :
      Progress s₀ p behind s ⟨[], .register p handle⟩
  | succeeded {handle : Nat} {devices : List RegisteredDevice}
      (h : Registered s₀ p handle devices behind s) :
      Progress s₀ p behind s ⟨[], .finish p true⟩

section
variable {s₀ s s' : RestartState} {p : String} {handle : Nat} {devices : List RegisteredDevice}
  {behind : RestartTrace} {i : Item} {th th' : RestartThread}

theorem Found.snoc (h : Found s₀ p handle devices behind) :
    Found s₀ p handle devices (behind ++ [i]) := by
  obtain ⟨j, hj, he⟩ := h.discovered
  exact ⟨⟨j, List.mem_append_left _ hj, he⟩, h.devices, h.handle⟩

theorem Holds.snoc {pc : AttemptPc} (h : Holds s₀ p behind pc) : Holds s₀ p (behind ++ [i]) pc := by
  cases pc with
  | inspected | validate => exact Found.snoc h
  | _ => exact h

/-- A step that leaves the registry, the plan and the handles. -/
theorem Unpublished.snoc (h : Unpublished s₀ behind s) (hquiet : Quiet i)
    (hregistry : s'.shared.world.registry = s.shared.world.registry)
    (hplan : s'.shared.world.cache.pollConfigs = s.shared.world.cache.pollConfigs)
    (hregistered : s'.shared.registered = s.shared.registered) :
    Unpublished s₀ (behind ++ [i]) s' where
  quiet j hj := by
    exact forall_snoc h.quiet hquiet j hj
  registry := hregistry.trans h.registry
  plan := hplan.trans h.plan
  registered := hregistered.trans h.registered

theorem Published.snoc (h : Published s₀ p handle devices behind s)
    (hregistry : s'.shared.world.registry = s.shared.world.registry) :
    Published s₀ p handle devices (behind ++ [i]) s' :=
  ⟨h.found.snoc, hregistry.trans h.registry⟩

theorem Registered.snoc (h : Registered s₀ p handle devices behind s)
    (hregistry : s'.shared.world.registry = s.shared.world.registry)
    (hregistered : s'.shared.registered = s.shared.registered) :
    Registered s₀ p handle devices (behind ++ [i]) s' := by
  obtain ⟨j, hj, hrest⟩ := h.order
  exact ⟨h.published.snoc hregistry, hregistered.trans h.registered,
    j, List.mem_append_left _ hj, hrest⟩

/-- A poll of another thread leaves what the attempt has done. -/
theorem Progress.poll (h : Progress s₀ p behind s th) (hi : i.2.1 ≠ 0)
    (hsame : SamePlan s.shared.world s'.shared.world)
    (hregistered : s'.shared.registered = s.shared.registered) :
    Progress s₀ p (behind ++ [i]) s' th := by
  have hquiet : Quiet i := fun h => absurd h hi
  cases h with
  | before hconfig hid hholds h =>
    exact .before hconfig hid hholds.snoc (h.snoc hquiet hsame.registry hsame.plan hregistered)
  | failed h => exact .failed (h.snoc hquiet hsame.registry hsame.plan hregistered)
  | commit hfound h =>
    exact .commit hfound.snoc (h.snoc hquiet hsame.registry hsame.plan hregistered)
  | rebuild h hreg => exact .rebuild (h.snoc hsame.registry) (hregistered.trans hreg)
  | register h hreg => exact .register (h.snoc hsame.registry) (hregistered.trans hreg)
  | succeeded h => exact .succeeded (h.snoc hsame.registry hregistered)

theorem Progress.attempt {pc : AttemptPc} {e : RestartEffect} (h : Progress s₀ p behind s ⟨[], pc⟩)
    (hmade : s₀.shared.made ≤ s.shared.made)
    (hsynced : Synced s.shared.world) (hstep : AttemptStep s.shared pc e th')
    (hreturn : isReturn (s, 0, e) = false) (hs' : s'.shared = s.shared.apply e) :
    Progress s₀ p (behind ++ [(s, 0, e)]) s' th' := by
  -- the steps before the commit are quiet
  have hquiet : (e = .silent ∨ e = .made ∨ ∃ devices, e = .discovered devices) →
      Unpublished s₀ behind s → Unpublished s₀ (behind ++ [(s, 0, e)]) s' := by
    rintro (rfl | rfl | ⟨devices, rfl⟩) hun <;>
      exact hun.snoc (fun _ => ⟨rfl, rfl⟩) (by rw [hs']; rfl) (by rw [hs']; rfl) (by rw [hs']; rfl)
  cases hstep with
  | fail hconfig he =>
    cases h with
    | before hconfig' hid _ hun =>
      obtain rfl := Option.some.inj (hconfig.symm.trans hconfig')
      subst hid
      exact .failed (hquiet (he.imp_right .inl) hun)
    | _ => cases hconfig
  | stopOld config now =>
    cases h with
    | before hconfig hid _ hun =>
      exact .before (by exact hconfig) hid trivial (hquiet (.inl rfl) hun)
  | startNew config since =>
    cases h with
    | before hconfig hid _ hun =>
      exact .before (by exact hconfig) hid hmade (hquiet (.inr (.inl rfl)) hun)
  | started config since handle =>
    cases h with
    | before hconfig hid hholds hun =>
      exact .before (by exact hconfig) hid (by exact hholds) (hquiet (.inl rfl) hun)
  | inspect config since handle described =>
    cases h with
    | before hconfig hid hholds hun =>
      cases hconfig
      subst hid
      refine .before rfl rfl ⟨⟨_, List.mem_concat_self, rfl⟩,
        fun _ => providerId_of_mem_inspect, hholds⟩ (hquiet (.inr (.inr ⟨_, rfl⟩)) hun)
  | inspected config since handle devices =>
    cases h with
    | before hconfig hid hholds hun =>
      exact .before (by exact hconfig) hid (Found.snoc hholds) (hquiet (.inl rfl) hun)
  | validate config handle devices _ =>
    cases h with
    | before hconfig hid hholds hun =>
      cases hconfig
      subst hid
      exact .commit (Found.snoc hholds) (hquiet (.inl rfl) hun)
  | commit q handle devices =>
    cases h with
    | before hconfig => cases hconfig
    | commit hfound hun =>
      refine .rebuild ⟨hfound.snoc, ?_⟩ ?_
      · rw [hs', ← hun.registry]
        rfl
      · rw [hs', ← hun.registered]
        rfl
  | rebuilt q handle =>
    cases h with
    | before hconfig => cases hconfig
    | rebuild hpub hreg => exact .register (hpub.snoc (by rw [hs']; rfl)) (by rw [hs']; exact hreg)
  | rebuiltDirect q =>
    cases h with
    | before hconfig => cases hconfig
  | register q handle =>
    cases h with
    | before hconfig => cases hconfig
    | register hpub hreg =>
      refine .succeeded ⟨hpub.snoc (by rw [hs']; rfl), ?_, ?_⟩
      · rw [hs', ← hreg]
        rfl
      · exact ⟨_, List.mem_concat_self, rfl, hsynced, hpub.registry, hreg⟩
  | finish q ok => cases hreturn

end

/-! ### Runs -/

section
variable {providers : List ProviderConfig} {direct : Bool} {status : StopChainStatus}
  {staleAfterMs : Int} {g₀ g g' s₀ : RestartState} {tr behind : RestartTrace} {t : ThreadId}
  {e : RestartEffect} {p : String} {a : RestartState × String} {w : RestartWorld}

theorem made_le (hstep : (restarts providers direct status staleAfterMs).lts.step g (t, e) g') :
    g.shared.made ≤ g'.shared.made := by
  obtain ⟨c, th', -, hshared, -, -⟩ := Machine.step_inv hstep
  rw [hshared]
  cases e <;> simp [restarts, RestartWorld.apply]

/-- The beginning of an attempt: the state it began in, and the provider. -/
def began? (i : Item) : Option (RestartState × String) :=
  match i.2 with
  | (_, .began p) => some (i.1, p)
  | _ => none

/-- What an attempt that began has done, while it has not returned. -/
def Under (a : RestartState × String) (behind : RestartTrace) (s : RestartState) : Prop :=
  a.1.shared.made ≤ s.shared.made ∧
    ((∀ i ∈ behind, isReturn i = false) → Progress a.1 a.2 behind s (s.thread 0))

theorem under_began (hstep : (restarts providers direct status staleAfterMs).lts.step g (t, e) g')
    (ha : began? (g, t, e) = some a) : Under a [] g' := by
  obtain ⟨th', hstep', hshared, hth, -⟩ := restarts_step hstep
  have hmade := made_le hstep
  unfold began? at ha
  split at ha
  · rename_i u q heq
    cases heq
    cases ha
    have hsame : g'.shared = g.shared := hshared
    refine ⟨hmade, fun _ => ?_⟩
    generalize g.thread t = th at hstep'
    cases hstep' with
    | idle hidle =>
      cases hidle with
      | attempt ht _ =>
        obtain rfl : t = 0 := ht
        rw [hth]
        exact .before rfl rfl trivial ⟨by simp, by rw [hsame], by rw [hsame], by rw [hsame]⟩
    | attempt hattempt =>
      cases hattempt with
      | fail _ he => rcases he with he | he <;> cases he
  · cases ha

theorem under_step (hsound : PlanSound (providerIds providers) g)
    (hstep : (restarts providers direct status staleAfterMs).lts.step g (t, e) g')
    (h : Under a behind g) : Under a (behind ++ [(g, t, e)]) g' := by
  obtain ⟨th', hstep', hshared, hth, hother⟩ := restarts_step hstep
  have hmade := made_le hstep
  refine ⟨h.1.trans hmade, fun hnone => ?_⟩
  have hbefore := h.2 fun i hi => hnone i (List.mem_append_left _ hi)
  have hreturn : isReturn (g, t, e) = false := hnone _ (List.mem_append_right _ (by simp))
  by_cases ht : t = 0
  · subst ht
    have hplace := hsound.place
    rw [hth]
    generalize g.thread 0 = th at hstep' hbefore hplace
    cases hstep' with
    | ofCache hrun =>
      cases hbefore with
      | rebuild h hreg =>
        have hregistry := run_registry status staleAfterMs hrun
        exact .rebuild (h.snoc (by rw [hshared]; exact hregistry)) (by rw [hshared]; exact hreg)
    | idle _ =>
      cases hbefore with
      | before hconfig => cases hconfig
    | attempt hattempt => exact hbefore.attempt h.1 (hplace.synced rfl) hattempt hreturn hshared
  · obtain ⟨hsame, hregistered, -, -⟩ := hsound.poll_step ht hstep'
    rw [hother 0 (Ne.symm ht)]
    exact hbefore.poll ht (hshared ▸ hsame) (by rw [hshared]; exact hregistered)

theorem finish_of_returned {ok : Bool}
    (hstep : (restarts providers direct status staleAfterMs).lts.step g (0, .returned p ok) g') :
    g.thread 0 = ⟨[], .finish p ok⟩ := by
  obtain ⟨th', hstep', -⟩ := restarts_step hstep
  generalize g.thread 0 = th at hstep'
  cases hstep' with
  | idle hidle => cases hidle
  | attempt hattempt =>
    cases hattempt with
    | fail _ he => rcases he with he | he <;> cases he
    | finish => rfl

/-! ### Claims -/

/-- The claims are unique, and stay so with the devices that are about to be committed. -/
structure ClaimsSound (g : RestartState) : Prop where
  unique : ClaimsUnique g.shared.world.registry.devices
  commit : ∀ p handle devices, (g.thread 0).pc = .commit p handle devices →
    ClaimsUnique (g.shared.world.registry.commitProviderDevices p devices).devices

theorem claims_attempt {pc : AttemptPc} {th' : RestartThread}
    (hunique : ClaimsUnique w.world.registry.devices)
    (hcommit : ∀ p handle devices, pc = .commit p handle devices →
      ClaimsUnique (w.world.registry.commitProviderDevices p devices).devices)
    (hstep : AttemptStep w pc e th') : ClaimsUnique (w.apply e).world.registry.devices ∧
      ∀ p handle devices, th'.pc = .commit p handle devices →
        ClaimsUnique ((w.apply e).world.registry.commitProviderDevices p devices).devices := by
  cases hstep with
  | fail _ he => rcases he with rfl | rfl <;> exact ⟨hunique, by simp⟩
  | validate config handle devices hok =>
    refine ⟨hunique, ?_⟩
    rintro p handle' devices' ⟨rfl⟩
    exact claimsUnique_of_replacement hok
  | commit p handle devices => exact ⟨hcommit p handle devices rfl, by simp⟩
  | _ => exact ⟨hunique, by simp⟩

theorem claimsSound_step (hsound : PlanSound (providerIds providers) g)
    (hstep : (restarts providers false status staleAfterMs).lts.step g (t, e) g')
    (h : ClaimsSound g) : ClaimsSound g' := by
  obtain ⟨th', hstep', hshared, hth, hother⟩ := restarts_step hstep
  by_cases ht : t = 0
  · subst ht
    suffices hboth : ClaimsUnique (g.shared.apply e).world.registry.devices ∧
        ∀ p handle devices, th'.pc = .commit p handle devices → ClaimsUnique
          ((g.shared.apply e).world.registry.commitProviderDevices p devices).devices by
      refine ⟨hshared ▸ hboth.1, ?_⟩
      rw [hth, hshared]
      exact hboth.2
    have hcommit := h.commit
    generalize g.thread 0 = th at hstep' hcommit
    cases hstep' with
    | ofCache hrun =>
      have hregistry := run_registry status staleAfterMs hrun
      simp only [RestartWorld.apply, hregistry]
      exact ⟨h.unique, hcommit⟩
    | idle hidle =>
      cases hidle with
      | attempt | poll | advance => exact ⟨h.unique, by simp⟩
      | replace _ hdirect => cases hdirect
    | attempt hattempt => exact claims_attempt h.unique hcommit hattempt
  · obtain ⟨hsame, -, -, -⟩ := hsound.poll_step ht hstep'
    have hregistry : g'.shared.world.registry = g.shared.world.registry := by
      rw [hshared]
      exact hsame.registry
    refine ⟨hregistry ▸ h.unique, ?_⟩
    rw [hother 0 (Ne.symm ht), hregistry]
    exact h.commit

theorem claimsSound_run (hplain : ∀ id ∈ providerIds providers, '/' ∉ id.toList)
    (h0 : RestartStart providers g₀) (hunique : ClaimsUnique g₀.shared.world.registry.devices)
    (h : Run (restarts providers false status staleAfterMs).lts g₀ tr g) : ClaimsSound g :=
  Run.induct (J := fun _ g => ClaimsSound g) ⟨hunique, by simp [h0.idle]⟩
    (fun _ _ _ _ hrun hg hs => claimsSound_step (planSound_run hplain h0 hrun) hs hg) h

/-! ### Handles -/

/-- The handle that an attempt holds. -/
def handle? : AttemptPc → Option Nat
  | .started _ _ handle | .inspect _ _ handle | .inspected _ _ handle _ | .validate _ handle _
  | .register _ handle => some handle
  | .commit _ handle _ | .rebuild _ handle => handle
  | .idle | .stopOld _ | .startNew _ _ | .finish _ _ => none

/-- The registered handles, and the one an attempt holds, were made. -/
structure HandlesSound (w : RestartWorld) (pc : AttemptPc) : Prop where
  registered : ∀ q n, w.registered q = some n → n < w.made
  held : ∀ n, handle? pc = some n → n < w.made

theorem HandlesSound.attempt {pc : AttemptPc} {th' : RestartThread}
    (h : HandlesSound w pc) (hstep : AttemptStep w pc e th') : HandlesSound (w.apply e) th'.pc := by
  have hmade : ∀ q n, w.registered q = some n → n < w.made + 1 :=
    fun q n hn => Nat.lt_succ_of_lt (h.registered q n hn)
  cases hstep with
  | fail _ he =>
    rcases he with rfl | rfl
    · exact ⟨h.registered, by simp [handle?]⟩
    · exact ⟨hmade, by simp [handle?]⟩
  | startNew =>
    refine ⟨hmade, ?_⟩
    rintro n ⟨rfl⟩
    exact Nat.lt_succ_self _
  | register p handle =>
    refine ⟨fun q n hn => ?_, by simp [handle?]⟩
    rcases eq_or_ne q p with rfl | hq
    · simp only [RestartWorld.apply, Function.update_self] at hn
      exact h.held n hn
    · simp only [RestartWorld.apply, Function.update_of_ne hq] at hn
      exact h.registered q n hn
  | started | inspect | inspected | validate | commit | rebuilt => exact ⟨h.registered, h.held⟩
  | stopOld | rebuiltDirect | finish => exact ⟨h.registered, by simp [handle?]⟩

theorem handlesSound_step (hsound : PlanSound (providerIds providers) g)
    (hstep : (restarts providers direct status staleAfterMs).lts.step g (t, e) g')
    (h : HandlesSound g.shared (g.thread 0).pc) : HandlesSound g'.shared (g'.thread 0).pc := by
  have hle := made_le hstep
  obtain ⟨th', hstep', hshared, hth, hother⟩ := restarts_step hstep
  by_cases ht : t = 0
  · subst ht
    rw [hth, hshared]
    generalize g.thread 0 = th at hstep' h
    cases hstep' with
    | ofCache => exact ⟨h.registered, h.held⟩
    | attempt hattempt => exact h.attempt hattempt
    | idle hidle => cases hidle <;> exact ⟨h.registered, by simp [handle?]⟩
  · obtain ⟨-, hregistered, -, -⟩ := hsound.poll_step ht hstep'
    rw [hother 0 (Ne.symm ht)]
    refine ⟨fun q n hn => ?_, fun n hn => (h.held n hn).trans_le hle⟩
    rw [hshared, hregistered] at hn
    exact (h.registered q n hn).trans_le hle

theorem handlesSound_run (hplain : ∀ id ∈ providerIds providers, '/' ∉ id.toList)
    (h0 : RestartStart providers g₀)
    (h : Run (restarts providers direct status staleAfterMs).lts g₀ tr g) :
    HandlesSound g.shared (g.thread 0).pc :=
  Run.induct (J := fun _ g => HandlesSound g.shared (g.thread 0).pc)
    ⟨h0.handles, by simp [h0.idle, handle?]⟩
    (fun _ _ _ _ hrun hg hs => handlesSound_step (planSound_run hplain h0 hrun) hs hg) h

/-! ### The result -/

/-- An attempt that began in `i` and returned in `j`, with the steps `between`, has itself changed
nothing. -/
structure Failed (i : Item) (between : RestartTrace) (j : Item) : Prop where
  quiet : ∀ k ∈ i :: between ++ [j], Quiet k
  registry : j.1.shared.world.registry = i.1.shared.world.registry
  plan : j.1.shared.world.cache.pollConfigs = i.1.shared.world.cache.pollConfigs
  registered : j.1.shared.registered = i.1.shared.registered

/-- An attempt for `p` that began in `i` and returned in `j` has replaced the devices of `p` by
those it discovered, rebuilt the poll plan, and then registered a new handle. -/
structure Succeeded (p : String) (i : Item) (between : RestartTrace) (j : Item)
    (devices : List RegisteredDevice) (handle : Nat) : Prop where
  discovered : ∃ k ∈ between, k.2 = (0, .discovered devices)
  own : own p j.1.shared.world.registry.devices = devices
  others : others p j.1.shared.world.registry.devices = others p i.1.shared.world.registry.devices
  synced : Synced j.1.shared.world
  registered : j.1.shared.registered = Function.update i.1.shared.registered p (some handle)
  new : ∀ q, i.1.shared.registered q ≠ some handle
  order : ∃ k ∈ between, k.2 = (0, .register p handle) ∧ Synced k.1.shared.world ∧
    k.1.shared.world.registry = j.1.shared.world.registry ∧
    k.1.shared.registered = i.1.shared.registered

/-- Where no provider id has a slash: in every run, an attempt that returns false has itself changed
neither the published devices, nor the cache, nor a registered handle; an attempt that returns true
has replaced the provider's devices by the discovered ones, left the others' in their order,
rebuilt the poll plan, and registered its new handle after both. Claims that are unique after
startup stay unique. -/
theorem restart_all_or_nothing (hplain : ∀ id ∈ providerIds providers, '/' ∉ id.toList)
    (h0 : RestartStart providers g₀)
    (h : Run (restarts providers false status staleAfterMs).lts g₀ tr g) :
    (∀ tr₁ i between j tr₂ p q ok, tr = tr₁ ++ i :: (between ++ j :: tr₂) →
      i.2 = (0, .began p) → j.2 = (0, .returned q ok) → (∀ k ∈ between, isReturn k = false) →
      q = p ∧ (ok = false → Failed i between j) ∧
        (ok → ∃ devices handle, Succeeded p i between j devices handle)) ∧
    (ClaimsUnique g₀.shared.world.registry.devices → ClaimsUnique g.shared.world.registry.devices ∧
        ∀ i ∈ tr, ClaimsUnique i.1.shared.world.registry.devices) := by
  refine ⟨?_, fun hunique => ⟨(claimsSound_run hplain h0 hunique h).unique, fun i hi => ?_⟩⟩
  · intro tr₁ i between j tr₂ p q ok htr hi hj hnone
    have hrun : Run (restarts providers false status staleAfterMs).lts g₀
        ((tr₁ ++ i :: between) ++ j :: tr₂) g := by
      rw [htr] at h
      simpa using h
    obtain ⟨hbefore, s₁, hreturn, -⟩ := hrun.at_step
    obtain ⟨hstart, -⟩ := hbefore.at_step
    have hsound := planSound_run hplain h0 hbefore
    have hfinish : j.1.thread 0 = ⟨[], .finish q ok⟩ :=
      finish_of_returned (by rw [← hj]; exact hreturn)
    have hsynced : Synced j.1.shared.world := hsound.place.synced (by rw [hfinish])
    -- what the attempt has done when it returns
    have hunder : Under (i.1, p) between j.1 :=
      hbefore.after_event (E := began?) (K := Under)
        (fun _ _ _ _ _ _ hs ha => under_began hs ha)
        (fun _ _ _ _ _ _ hr hs hk => under_step (planSound_run hplain h0 hr) hs hk) rfl
        (by rw [began?, hi])
    have hprogress := hunder.2 hnone
    rw [hfinish] at hprogress
    cases hprogress with
    | before hconfig => cases hconfig
    | failed hun =>
      refine ⟨rfl, fun _ => ⟨fun k hk => ?_, hun.registry, hun.plan, hun.registered⟩,
        fun hok => absurd hok (by simp)⟩
      rcases List.mem_append.mp hk with hk | hk
      · rcases List.mem_cons.mp hk with rfl | hk
        · intro _
          rw [hi]
          exact ⟨rfl, rfl⟩
        · exact hun.quiet k hk
      · obtain rfl := List.mem_singleton.mp hk
        intro _
        rw [hj]
        exact ⟨rfl, rfl⟩
    | @succeeded handle devices hdone =>
      refine ⟨rfl, fun hok => absurd hok (by simp), fun _ => ⟨devices, handle, ?_⟩⟩
      obtain ⟨hfound, hregistry⟩ := hdone.published
      obtain ⟨hothers, hown⟩ := others_commit i.1.shared.world.registry hfound.devices
      obtain ⟨k, hk, hregister, hksynced, hkregistry, hkregistered⟩ := hdone.order
      refine ⟨hfound.discovered, by rw [hregistry]; exact hown, by rw [hregistry]; exact hothers,
        hsynced, hdone.registered, fun q hq => ?_,
        k, hk, hregister, hksynced, hkregistry.trans hregistry.symm, hkregistered⟩
      have hlt := (handlesSound_run hplain h0 hstart).registered q handle hq
      exact absurd hlt (Nat.not_lt.mpr hfound.handle)
  · obtain ⟨tr₁, tr₂, s₁, -, hbefore, -, -⟩ := h.of_mem hi
    exact (claimsSound_run hplain h0 hunique hbefore).unique

end

/-! ### Attempts of one provider -/

/-- Thread 0 restarts the first provider: it starts, describes one device, and is published. -/
def restartWith (device : RegisteredDevice) : List (ThreadId × RestartChoice) :=
  [(0, .attempt 0), (0, .go), (0, .started true), (0, .go), (0, .described (some [device])),
    (0, .go), (0, .go), (0, .go)] ++ List.replicate 6 (0, .cache .go) ++
    [(0, .go), (0, .go), (0, .go)]

/-- Is the step the beginning of an attempt for `p`. -/
def isBegan (p : String) (i : Item) : Bool :=
  match i.2 with
  | (0, .began q) => q = p
  | _ => false

/-- Is the step the successful end of an attempt for `p`. -/
def isSuccess (p : String) (i : Item) : Bool :=
  match i.2 with
  | (0, .returned q true) => q = p
  | _ => false

theorem of_isBegan {p : String} {i : Item} (h : isBegan p i) : i.2 = (0, .began p) := by
  unfold isBegan at h
  split at h
  · rename_i q heq
    rw [heq, of_decide_eq_true h]
  · cases h

theorem of_isSuccess {p : String} {i : Item} (h : isSuccess p i) : i.2 = (0, .returned p true) := by
  unfold isSuccess at h
  split at h
  · rename_i q heq
    rw [heq, of_decide_eq_true h]
  · cases h

/-- The provider `sim0` is restarted with another device. -/
theorem restart_all_or_nothing_sim :
    ∃ tr g i between j, Run (restarts simProviders false someStatus 0).lts
        (startOn [probe "sim0" "a"]) tr g ∧
      tr = i :: (between ++ [j]) ∧ i.2 = (0, .began "sim0") ∧ j.2 = (0, .returned "sim0" true) ∧
      ∃ devices handle, Succeeded "sim0" i between j devices handle := by
  obtain ⟨tr, g, hrun, hcheck⟩ := Machine.run_of_passes
    (restarts simProviders false someStatus 0)
    (startOn [probe "sim0" "a"]) (restartWith (probe "sim0" "b"))
    (fun tr _ => (∃ i ∈ tr.head?, isBegan "sim0" i) ∧ (∃ j ∈ tr.tail.getLast?, isSuccess "sim0" j) ∧
      ∀ k ∈ tr.tail.dropLast, isReturn k = false) (by decide)
  obtain ⟨⟨i, hi, hbegan⟩, ⟨j, hj, hsuccess⟩, hnone⟩ := hcheck
  -- the first and the last step of the schedule
  have htr : tr = i :: (tr.tail.dropLast ++ [j]) := by
    rw [List.dropLast_append_getLast? j hj, List.cons_head?_tail hi]
  have hplain : ∀ id ∈ providerIds simProviders, '/' ∉ id.toList := by decide
  have hstart : RestartStart simProviders
      (startOn [probe "sim0" "a"]) :=
    restartStart_startOn (by decide)
  have hboth := (restart_all_or_nothing hplain hstart hrun).1 [] i tr.tail.dropLast j []
    "sim0" "sim0" true htr (of_isBegan hbegan) (of_isSuccess hsuccess) hnone
  exact ⟨tr, g, i, tr.tail.dropLast, j, hrun, htr, of_isBegan hbegan, of_isSuccess hsuccess,
    hboth.2.2 rfl⟩

end Anolis.Proofs.RestartAtomic
