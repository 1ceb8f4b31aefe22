import Anolis.Proofs.HandleNames
import Anolis.Proofs.ReachabilityEdges
import Anolis.Runtime.RestartProvider

/-!
# The poll plan follows the registry

The cache has a poll configuration and a state for each published device with a default signal. A
replacement of a provider's devices first changes the registry and then rebuilds the plan, section
by section, while other threads poll.

Where no provider id has a slash, the two agree again when the rebuild is over (`Synced`), and no
section of a rebuild touches another provider's configurations or states
(`poll_plan_follows_registry`). `Rebuilding` says what holds at each place of a rebuild.

A rebuild erases configurations by the provider's id and states by the start of their handle. With
the providers `a` and `a/b`, the rebuild of `a` erases the states of `a/b` and leaves its
configurations (`rebuild_erases_other_states`).
-/

namespace Anolis.Proofs.PollPlan

open Anolis.Runtime CallRouting Lib ReachabilityEdges Registry State
open Provider (ProviderConfig providerIds validateProviders)

variable {p : String} {w w' : CacheWorld} {ids : List String} {status : StopChainStatus}
  {staleAfterMs : Int}

/-! ### Handles -/

theorem eq_of_handleOf {h : String} (hp : handleOf p h) : ∃ rest, h = p ++ "/" ++ rest := by
  obtain ⟨rest, hrest⟩ := List.isPrefixOf_iff_prefix.mp hp
  refine ⟨String.ofList rest, String.toList_inj.mp ?_⟩
  rw [← hrest]
  simp

theorem provider_of_handleOf {q h : String} (hp : '/' ∉ p.toList) (hq : '/' ∉ q.toList)
    (hph : handleOf p h) (hqh : handleOf q h) : p = q := by
  obtain ⟨d, rfl⟩ := eq_of_handleOf hph
  obtain ⟨e, he⟩ := eq_of_handleOf hqh
  exact provider_of_handle hp hq he

/-! ### The plan and the states -/

/-- The plan of an inventory. -/
def planOf (devices : List RegisteredDevice) : List PollConfig := devices.filterMap pollConfig?

/-- The devices of other providers. -/
def others (p : String) (devices : List RegisteredDevice) : List RegisteredDevice :=
  devices.filter fun d => d.providerId ≠ p

/-- The devices of a provider. -/
def own (p : String) (devices : List RegisteredDevice) : List RegisteredDevice :=
  devices.filter fun d => d.providerId = p

/-- Exactly the handles of the plan have a state. -/
def StatesFollow (c : Cache) : Prop :=
  ∀ h, (c.deviceStates h).isSome ↔ ∃ config ∈ c.pollConfigs, config.handle = h

/-- The cache has the plan of the registry. -/
structure Synced (w : CacheWorld) : Prop where
  plan : w.cache.pollConfigs = planOf w.registry.devices
  states : StatesFollow w.cache

/-- Two moments with the same registry, the same plan and states for the same handles. -/
structure SamePlan (w w' : CacheWorld) : Prop where
  registry : w'.registry = w.registry
  plan : w'.cache.pollConfigs = w.cache.pollConfigs
  states : ∀ h, (w'.cache.deviceStates h).isSome = (w.cache.deviceStates h).isSome

theorem samePlan_of_ofPolls {e : CacheEffect} (he : e.ofPolls) : SamePlan w (w.apply e) where
  registry := by cases e <;> first | rfl | cases he
  plan := by cases e <;> first | rfl | cases he
  states h := by
    have hpoll : isPoll e := by cases e <;> first | rfl | cases he
    have hnone : (w.apply e).cache.deviceStates h = none ↔ w.cache.deviceStates h = none :=
      deviceStates_poll hpoll
    cases hst : w.cache.deviceStates h <;> cases hst' : (w.apply e).cache.deviceStates h <;>
      simp_all

variable {devices : List RegisteredDevice} {config : PollConfig}

theorem mem_planOf (h : config ∈ planOf devices) :
    ∃ d ∈ devices, pollConfig? d = some config ∧ config.providerId = d.providerId ∧
      config.handle = d.getHandle := by
  obtain ⟨d, hd, hconfig⟩ := List.mem_filterMap.mp h
  exact ⟨d, hd, hconfig, (handle_of_pollConfig? hconfig).1, (handle_of_pollConfig? hconfig).2⟩

theorem filter_planOf (p : String) (devices : List RegisteredDevice) :
    (planOf devices).filter (fun config => config.providerId ≠ p) = planOf (others p devices) := by
  induction devices with
  | nil => rfl
  | cons d devices ih =>
    simp only [planOf, others, ne_eq, decide_not] at ih ⊢
    cases hconfig : pollConfig? d with
    | none => by_cases hd : d.providerId = p <;> simp [hconfig, hd, ih]
    | some config =>
      have hid := (handle_of_pollConfig? hconfig).1
      by_cases hd : d.providerId = p <;> simp [hconfig, hd, hid, ih]

/-! ### The places of a rebuild -/

/-- What holds where a rebuild of the provider `p` has these sections left. -/
inductive Rebuilding (p : String) (w : CacheWorld) : List Section → Prop
  | configs (hplan : w.cache.pollConfigs.filter (fun config => config.providerId ≠ p) =
        planOf (others p w.registry.devices))
      (hstates : StatesFollow w.cache) : Rebuilding p w [.eraseConfigs p, .eraseStates p]
  | states (hplan : w.cache.pollConfigs = planOf (others p w.registry.devices))
      (hstates : ∀ h, handleOf p h = false → ((w.cache.deviceStates h).isSome ↔
          ∃ config ∈ w.cache.pollConfigs, config.handle = h)) :
      Rebuilding p w [.eraseStates p]
  | devices (carried : String → Option CarriedReachability)
      (hplan : w.cache.pollConfigs = planOf (others p w.registry.devices))
      (hstates : StatesFollow w.cache) : Rebuilding p w [.copyDevicesOf p carried]
  | push (carried : String → Option CarriedReachability) (configs : List PollConfig)
      (hown : ∀ config ∈ configs, config.providerId = p)
      (hplan : w.cache.pollConfigs ++ configs = planOf w.registry.devices)
      (hstates : StatesFollow w.cache) : Rebuilding p w (addSections carried configs)
  | add (carried : String → Option CarriedReachability) (config : PollConfig)
      (configs : List PollConfig) (hown : ∀ config' ∈ config :: configs, config'.providerId = p)
      (hplan : w.cache.pollConfigs ++ configs = planOf w.registry.devices)
      (hstates : ∀ h, ((w.cache.deviceStates h).isSome ∨ h = config.handle) ↔
        ∃ config' ∈ w.cache.pollConfigs, config'.handle = h) :
      Rebuilding p w (.addState carried config.handle :: addSections carried configs)
  | done (h : Synced w) : Rebuilding p w []

section
variable {sections : List Section}

theorem StatesFollow.same (h : StatesFollow w.cache) (hsame : SamePlan w w') :
    StatesFollow w'.cache := by
  intro k
  rw [hsame.states, hsame.plan]
  exact h k

theorem Synced.same (h : Synced w) (hsame : SamePlan w w') : Synced w' where
  plan := by rw [hsame.plan, hsame.registry, h.plan]
  states := h.states.same hsame

theorem Rebuilding.same (h : Rebuilding p w sections) (hsame : SamePlan w w') :
    Rebuilding p w' sections := by
  cases h with
  | configs hplan hstates =>
    exact .configs (by rw [hsame.plan, hsame.registry, hplan]) (hstates.same hsame)
  | states hplan hstates =>
    refine .states (by rw [hsame.plan, hsame.registry, hplan]) fun k hk => ?_
    rw [hsame.states, hsame.plan]
    exact hstates k hk
  | devices carried hplan hstates =>
    exact .devices carried (by rw [hsame.plan, hsame.registry, hplan]) (hstates.same hsame)
  | push carried configs hown hplan hstates =>
    exact .push carried configs hown (by rw [hsame.plan, hsame.registry, hplan])
      (hstates.same hsame)
  | add carried config configs hown hplan hstates =>
    refine .add carried config configs hown (by rw [hsame.plan, hsame.registry, hplan]) fun k => ?_
    rw [hsame.states, hsame.plan]
    exact hstates k
  | done h => exact .done (h.same hsame)

theorem Rebuilding.synced (h : Rebuilding p w []) : Synced w := by
  generalize hnil : ([] : List Section) = sections at h
  cases h with
  | push => simp [addSections] at hnil
  | done h => exact h
  | _ => cases hnil

/-- The poll configurations of a provider, and the states of its handles, are the same. -/
def SameOf (q : String) (c c' : Cache) : Prop :=
  c'.pollConfigs.filter (fun config => config.providerId = q) =
      c.pollConfigs.filter (fun config => config.providerId = q) ∧
    ∀ h, handleOf q h → c'.deviceStates h = c.deviceStates h

end

/-- No id has a slash, and the devices and the provider that is replaced are of these ids. -/
structure Plain (ids : List String) (w : CacheWorld) (p : String) : Prop where
  plain : ∀ id ∈ ids, '/' ∉ id.toList
  known : ∀ d ∈ w.registry.devices, d.providerId ∈ ids
  provider : p ∈ ids
  /-- The provider's devices were committed last. -/
  last : w.registry.devices = others p w.registry.devices ++ own p w.registry.devices

section
variable {sec : Section} {rest more : List Section} {c : CacheChoice} {e : CacheEffect}

theorem run_go (hsec : ofRebuild sec)
    (h : sec.run status staleAfterMs w c = some (e, more)) :
    sec.run status staleAfterMs w .go = some (e, more) := by
  cases sec <;> try cases hsec
  all_goals cases c <;> first | exact h | cases h

theorem Plain.others_handle (h : Plain ids w p)
    (hconfig : config ∈ planOf (others p w.registry.devices)) :
    handleOf p config.handle = false := by
  obtain ⟨d, hd, -, hid, -⟩ := mem_planOf hconfig
  obtain ⟨hmem, hne⟩ := List.mem_filter.mp hd
  have hne : d.providerId ≠ p := by simpa using hne
  refine Bool.eq_false_iff.mpr fun hof => hne ?_
  rw [← hid]
  have hplain : '/' ∉ config.providerId.toList := by
    rw [hid]
    exact h.plain _ (h.known d hmem)
  exact provider_of_handleOf hplain (h.plain p h.provider) (handleOf_handle config) hof

/-- A section of a rebuild leads to the next place, and leaves the other providers. -/
theorem Rebuilding.step (hplain : Plain ids w p) (h : Rebuilding p w (sec :: rest))
    (hrun : sec.run status staleAfterMs w c = some (e, more)) :
    Rebuilding p (w.apply e) (more ++ rest) ∧ (w.apply e).registry = w.registry ∧
      ∀ q ∈ ids, q ≠ p → SameOf q w.cache (w.apply e).cache := by
  generalize hall : sec :: rest = sections at h
  cases h with
  | configs hplan hstates =>
    cases hall
    cases run_go rfl hrun
    refine ⟨.states hplan fun k hk => ?_, rfl, fun q _ hq => ⟨?_, fun _ _ => rfl⟩⟩
    · -- no handle of the erased configurations is at stake
      refine (hstates k).trans ⟨?_, ?_⟩
      · rintro ⟨config, hconfig, rfl⟩
        refine ⟨config, List.mem_filter.mpr ⟨hconfig, ?_⟩, rfl⟩
        rw [decide_eq_true_eq]
        rintro rfl
        rw [handleOf_handle] at hk
        cases hk
      · rintro ⟨config, hconfig, rfl⟩
        exact ⟨config, (List.mem_filter.mp hconfig).1, rfl⟩
    · simp only [CacheWorld.apply, Cache.eraseConfigs, List.filter_filter]
      refine List.filter_congr fun config _ => ?_
      by_cases hid : config.providerId = q <;> simp [hid, hq]
  | states hplan hstates =>
    cases hall
    cases run_go rfl hrun
    refine ⟨.devices _ hplan fun k => ?_, rfl, fun q hqm hq => ⟨rfl, fun k hk => ?_⟩⟩
    · simp only [CacheWorld.apply, Cache.eraseStates]
      cases hk : handleOf p k with
      | false => simpa using hstates k hk
      | true =>
        simp only [if_true, Option.isSome_none, Bool.false_eq_true, false_iff, not_exists, not_and]
        rintro config hconfig rfl
        rw [hplain.others_handle (hplan ▸ hconfig)] at hk
        cases hk
    · have hne : handleOf p k = false := Bool.eq_false_iff.mpr fun hof =>
        hq (provider_of_handleOf (hplain.plain q hqm) (hplain.plain p hplain.provider) hk hof)
      simp [CacheWorld.apply, Cache.eraseStates, hne]
  | devices carried hplan hstates =>
    cases hall
    cases run_go rfl hrun
    rw [List.append_nil]
    refine ⟨.push carried _ (fun config hconfig => ?_) ?_ hstates, rfl,
      fun _ _ _ => ⟨rfl, fun _ _ => rfl⟩⟩
    · obtain ⟨d, hd, -, hid, -⟩ :=
        mem_planOf (show config ∈ planOf (own p w.registry.devices) from hconfig)
      rw [hid]
      simpa using (List.mem_filter.mp hd).2
    · rw [show (w.apply .silent).cache.pollConfigs = _ from hplan]
      show _ = planOf w.registry.devices
      rw [hplain.last]
      simp [planOf, others, own]
  | push carried configs hown hplan hstates =>
    cases configs with
    | nil =>
      cases hall
      cases run_go rfl hrun
      rw [List.append_nil] at hplan
      exact ⟨.done ⟨hplan, hstates⟩, rfl, fun _ _ _ => ⟨rfl, fun _ _ => rfl⟩⟩
    | cons config configs =>
      cases hall
      cases run_go rfl hrun
      refine ⟨.add carried config configs hown ?_ fun k => ?_, rfl,
        fun q _ hq => ⟨?_, fun _ _ => rfl⟩⟩
      · simpa [CacheWorld.apply, Cache.pushConfig] using hplan
      · have := hstates k
        simp only [CacheWorld.apply, Cache.pushConfig, this, List.mem_append, List.mem_singleton,
          or_and_right, exists_or, exists_eq_left, eq_comm (a := k)]
      · have hid : config.providerId = p := hown config (List.mem_cons_self ..)
        simp [CacheWorld.apply, Cache.pushConfig, hid, Ne.symm hq]
  | add carried config configs hown hplan hstates =>
    cases hall
    cases run_go rfl hrun
    refine ⟨.push carried configs (fun c' hc' => hown c' (List.mem_cons_of_mem _ hc')) hplan
      fun k => ?_, rfl, fun q hqm hq => ⟨rfl, fun k hk => ?_⟩⟩
    · refine Iff.trans ?_ (hstates k)
      by_cases hk : k = config.handle <;> simp [CacheWorld.apply, Cache.addState, hk]
    · have hne : k ≠ config.handle := by
        rintro rfl
        have hof : handleOf p config.handle := by
          rw [← hown config (List.mem_cons_self ..)]
          exact handleOf_handle config
        exact hq (provider_of_handleOf (hplain.plain q hqm) (hplain.plain p hplain.provider) hk hof)
      simp [CacheWorld.apply, Cache.addState, hne]
  | done h => cases hall

end

/-! ### Attempts -/

/-- What an attempt holds: a configured provider, and devices of that provider. -/
def PcSound (ids : List String) : AttemptPc → Prop
  | .stopOld config | .startNew config _ | .started config _ _ | .inspect config _ _ =>
    config.id ∈ ids
  | .inspected config _ _ devices | .validate config _ devices =>
    config.id ∈ ids ∧ ∀ d ∈ devices, d.providerId = config.id
  | .commit p _ devices => p ∈ ids ∧ ∀ d ∈ devices, d.providerId = p
  | .idle | .rebuild _ _ | .register _ _ | .finish _ _ => True

/-- Where thread 0 is: outside a rebuild, with the plan of the registry, or inside one. -/
inductive AttemptPlace (ids : List String) (w : CacheWorld) : RestartThread → Prop
  | rest {pc : AttemptPc} (hpc : PcSound ids pc) (h : Synced w) : AttemptPlace ids w ⟨[], pc⟩
  | rebuild {sections : List Section} {p : String} {handle : Option Nat} (hplain : Plain ids w p)
      (h : Rebuilding p w sections) : AttemptPlace ids w ⟨sections, .rebuild p handle⟩

/-- The devices are of configured providers, thread 0 is at a place, and the other threads poll. -/
structure PlanSound (ids : List String) (g : RestartState) : Prop where
  known : ∀ d ∈ g.shared.world.registry.devices, d.providerId ∈ ids
  place : AttemptPlace ids g.shared.world (g.thread 0)
  polls : ∀ t, t ≠ 0 → (g.thread t).pc = .idle ∧ ∀ sec ∈ (g.thread t).sections, sec.ofPolls

section
variable {th : RestartThread}

theorem AttemptPlace.same (h : AttemptPlace ids w th) (hsame : SamePlan w w') :
    AttemptPlace ids w' th := by
  cases h with
  | rest hpc h => exact .rest hpc (h.same hsame)
  | rebuild hplain h =>
    have hplain' : Plain ids w' _ :=
      ⟨hplain.plain, hsame.registry ▸ hplain.known, hplain.provider, hsame.registry ▸ hplain.last⟩
    exact .rebuild hplain' (h.same hsame)

theorem AttemptPlace.synced (h : AttemptPlace ids w th) (hnone : th.sections = []) : Synced w := by
  cases h with
  | rest _ h => exact h
  | rebuild _ h =>
    obtain rfl := hnone
    exact h.synced

theorem others_commit (registry : DeviceRegistry) (hdevices : ∀ d ∈ devices, d.providerId = p) :
    others p (registry.commitProviderDevices p devices).devices = others p registry.devices ∧
      own p (registry.commitProviderDevices p devices).devices = devices := by
  have hgone : devices.filter (fun d => d.providerId ≠ p) = [] :=
    List.filter_eq_nil_iff.mpr fun d hd => by simp [hdevices d hd]
  have hall : devices.filter (fun d => d.providerId = p) = devices :=
    List.filter_eq_self.mpr fun d hd => by simp [hdevices d hd]
  have hnone : (registry.devices.filter fun d => d.providerId ≠ p).filter
      (fun d => d.providerId = p) = [] := by
    simp [List.filter_filter]
  refine ⟨?_, ?_⟩
  · simp only [others, DeviceRegistry.commitProviderDevices, List.filter_append, hgone,
      List.append_nil, List.filter_filter, Bool.and_self]
  · simp only [own, DeviceRegistry.commitProviderDevices, List.filter_append, hnone, hall,
      List.nil_append]

theorem rebuilding_commit (h : Synced w)
    (hplain : ∀ id ∈ ids, '/' ∉ id.toList) (hknown : ∀ d ∈ w.registry.devices, d.providerId ∈ ids)
    (hp : p ∈ ids) (hdevices : ∀ d ∈ devices, d.providerId = p) :
    let w' : CacheWorld := { w with registry := w.registry.commitProviderDevices p devices }
    Plain ids w' p ∧ Rebuilding p w' [.eraseConfigs p, .eraseStates p] := by
  obtain ⟨hothers, hown⟩ := others_commit w.registry hdevices
  refine ⟨⟨hplain, fun d hd => ?_, hp, ?_⟩, .configs ?_ h.states⟩
  · rcases List.mem_append.mp hd with hold | hnew
    · exact hknown d (List.mem_filter.mp hold).1
    · rw [hdevices d hnew]
      exact hp
  · show _ = others p (w.registry.commitProviderDevices p devices).devices ++ _
    rw [hothers, hown]
    rfl
  · show _ = planOf (others p (w.registry.commitProviderDevices p devices).devices)
    rw [hothers, ← filter_planOf, ← h.plan]

theorem AttemptPlace.attempt {w : RestartWorld} {pc : AttemptPc} {e : RestartEffect}
    (hplain : ∀ id ∈ ids, '/' ∉ id.toList)
    (hknown : ∀ d ∈ w.world.registry.devices, d.providerId ∈ ids)
    (h : AttemptPlace ids w.world ⟨[], pc⟩) (hstep : AttemptStep w pc e th) :
    (∀ d ∈ (w.apply e).world.registry.devices, d.providerId ∈ ids) ∧
      AttemptPlace ids (w.apply e).world th := by
  have hsynced := h.synced rfl
  cases hstep with
  | fail _ he => rcases he with rfl | rfl <;> exact ⟨hknown, .rest trivial hsynced⟩
  | rebuilt | rebuiltDirect | register | finish => exact ⟨hknown, .rest trivial hsynced⟩
  | stopOld config now | startNew config since | started config since handle
  | inspected config since handle devices | validate config handle devices _ =>
    cases h with
    | rest hpc _ => exact ⟨hknown, .rest (by exact hpc) hsynced⟩
  | inspect config since handle described =>
    cases h with
    | rest hpc _ => exact ⟨hknown, .rest ⟨hpc, fun _ => providerId_of_mem_inspect⟩ hsynced⟩
  | commit p handle devices =>
    cases h with
    | rest hpc _ =>
      obtain ⟨hplace, hrebuild⟩ := rebuilding_commit hsynced hplain hknown hpc.1 hpc.2
      exact ⟨hplace.known, .rebuild hplace hrebuild⟩

end

section
variable {providers : List ProviderConfig} {direct : Bool} {g₀ g g' : RestartState}
  {tr : RestartTrace} {t : ThreadId} {e : RestartEffect} {th' : RestartThread}

/-- A step on thread 0, and what it leaves of the other providers. -/
theorem PlanSound.own_step (hplain : ∀ id ∈ providerIds providers, '/' ∉ id.toList)
    (h : PlanSound (providerIds providers) g)
    (hstep : RestartStep providers direct status staleAfterMs g.shared 0 (g.thread 0) e th') :
    (∀ d ∈ (g.shared.apply e).world.registry.devices, d.providerId ∈ providerIds providers) ∧
      AttemptPlace (providerIds providers) (g.shared.apply e).world th' ∧
      ∀ ce, e = .cache ce → ∃ p handle, (g.thread 0).pc = .rebuild p handle ∧
        ∀ q ∈ providerIds providers, q ≠ p →
          SameOf q g.shared.world.cache (g.shared.apply e).world.cache := by
  have hplace := h.place
  generalize g.thread 0 = th at hplace hstep
  cases hstep with
  | ofCache hrun =>
    cases hplace with
    | rebuild hat hrebuild =>
      obtain ⟨hnext, hregistry, hsame⟩ := hrebuild.step hat hrun
      have hat' := Plain.mk hat.plain (hregistry.symm ▸ hat.known) hat.provider
        (hregistry.symm ▸ hat.last)
      refine ⟨hat'.known, .rebuild hat' hnext, ?_⟩
      rintro ce ⟨rfl⟩
      exact ⟨_, _, rfl, hsame⟩
  | idle hidle =>
    have hsynced := hplace.synced rfl
    cases hidle with
    | attempt _ hconfig => exact ⟨h.known, .rest (List.mem_map_of_mem hconfig) hsynced, by simp⟩
    | replace described _ _ hconfig =>
      exact ⟨h.known, .rest ⟨List.mem_map_of_mem hconfig, fun _ => providerId_of_mem_inspect⟩
        hsynced, by simp⟩
    | poll ht _ | advance _ _ ht => exact absurd rfl ht
  | attempt hattempt =>
    obtain ⟨hknown, hnext⟩ := hplace.attempt hplain h.known hattempt
    refine ⟨hknown, hnext, ?_⟩
    cases hattempt with
    | fail _ he => rcases he with rfl | rfl <;> simp
    | _ => simp

theorem PlanSound.poll_step (ht : t ≠ 0) (h : PlanSound (providerIds providers) g)
    (hstep : RestartStep providers direct status staleAfterMs g.shared t (g.thread t) e th') :
    SamePlan g.shared.world (g.shared.apply e).world ∧
      (g.shared.apply e).registered = g.shared.registered ∧
      th'.pc = .idle ∧ ∀ sec ∈ th'.sections, sec.ofPolls := by
  obtain ⟨hpc, hsections⟩ := h.polls t ht
  have hquiet : SamePlan g.shared.world g.shared.world := ⟨rfl, rfl, fun _ => rfl⟩
  generalize g.thread t = th at hpc hsections hstep
  cases hstep with
  | @ofCache sec rest more pc c ce hrun =>
    obtain ⟨he, hmore⟩ := run_ofPolls status staleAfterMs hrun (hsections sec (by simp))
    refine ⟨samePlan_of_ofPolls he, rfl, hpc, fun s hs => ?_⟩
    rcases List.mem_append.mp hs with hs | hs
    · exact hmore s hs
    · exact hsections s (List.mem_cons_of_mem _ hs)
  | idle hidle =>
    cases hidle with
    | attempt ht0 _ | replace _ _ ht0 _ => exact absurd ht0 ht
    | @poll op _ hop =>
      refine ⟨hquiet, rfl, rfl, ?_⟩
      cases op <;> first | exact List.forall_mem_singleton.mpr rfl | cases hop
    | advance elapsed system _ =>
      exact ⟨samePlan_of_ofPolls (e := .advance elapsed system) rfl, rfl, rfl, by simp⟩
  | attempt hattempt =>
    obtain rfl : _ = AttemptPc.idle := hpc
    cases hattempt with
    | fail hconfig _ => cases hconfig

theorem planSound_step (hplain : ∀ id ∈ providerIds providers, '/' ∉ id.toList)
    (h : PlanSound (providerIds providers) g)
    (hstep : (restarts providers direct status staleAfterMs).lts.step g (t, e) g') :
    PlanSound (providerIds providers) g' := by
  obtain ⟨th', hstep', hshared, hth, hother⟩ := restarts_step hstep
  by_cases ht : t = 0
  · subst ht
    obtain ⟨hknown, hplace, -⟩ := h.own_step hplain hstep'
    refine ⟨hshared ▸ hknown, ?_, fun u hu => ?_⟩
    · rw [hshared, hth]
      exact hplace
    · rw [hother u hu]
      exact h.polls u hu
  · obtain ⟨hsame, -, hpc, hsections⟩ := h.poll_step ht hstep'
    refine ⟨?_, ?_, fun u hu => ?_⟩
    · rw [hshared, hsame.registry]
      exact h.known
    · rw [hshared, hother 0 (Ne.symm ht)]
      exact h.place.same hsame
    · rcases eq_or_ne u t with rfl | htu
      · rw [hth]
        exact ⟨hpc, hsections⟩
      · rw [hother u htu]
        exact h.polls u hu

theorem statesFollow_commitInitial (c : Cache) (devices : List RegisteredDevice) :
    StatesFollow (c.commitInitial devices) := by
  intro h
  have hany : (planOf devices).any (fun config => config.handle = h) ↔
      ∃ config ∈ planOf devices, config.handle = h := by
    simp only [List.any_eq_true, decide_eq_true_eq]
  refine Iff.trans ?_ hany
  show ((if (planOf devices).any (fun config => config.handle = h) then some {}
    else none : Option DeviceState)).isSome ↔ _
  split <;> simp_all

theorem planSound_start (h0 : RestartStart providers g₀) : PlanSound (providerIds providers) g₀ :=
    by
  obtain ⟨c, hcache⟩ := h0.cache
  refine ⟨h0.devices, ?_, fun t _ => ?_⟩
  · rw [h0.idle]
    refine .rest trivial ⟨?_, ?_⟩ <;> rw [hcache]
    · rfl
    · exact statesFollow_commitInitial c _
  · rw [h0.idle]
    simp

theorem planSound_run (hplain : ∀ id ∈ providerIds providers, '/' ∉ id.toList)
    (h0 : RestartStart providers g₀)
    (h : Run (restarts providers direct status staleAfterMs).lts g₀ tr g) :
    PlanSound (providerIds providers) g :=
  Run.induct (J := fun _ g => PlanSound (providerIds providers) g) (planSound_start h0)
    (fun _ _ _ _ _ hg hs => planSound_step hplain hg hs) h

/-! ### The sets of handles -/

/-- The handles of a provider's poll configurations. -/
def planHandles (c : Cache) (p : String) : Set String :=
  {h | ∃ config ∈ c.pollConfigs, config.providerId = p ∧ config.handle = h}

/-- The handles of a provider that have a state. -/
def stateHandles (c : Cache) (p : String) : Set String :=
  {h | (c.deviceStates h).isSome ∧ handleOf p h}

/-- The handles of a provider's published devices with a default signal. -/
def polledHandles (registry : DeviceRegistry) (p : String) : Set String :=
  {h | ∃ d ∈ registry.devices, d.providerId = p ∧ (∃ s ∈ d.signalsById, s.isDefault) ∧
    d.getHandle = h}

theorem isSome_pollConfig? (d : RegisteredDevice) :
    (pollConfig? d).isSome ↔ ∃ s ∈ d.signalsById, s.isDefault := by
  simp only [pollConfig?]
  split
  · simp_all
  · simp_all [List.filter_eq_nil_iff]

theorem Synced.planHandles_eq (h : Synced w) (p : String) :
    planHandles w.cache p = polledHandles w.registry p := by
  ext handle
  show (∃ config ∈ w.cache.pollConfigs, config.providerId = p ∧ config.handle = handle) ↔ _
  rw [h.plan]
  constructor
  · rintro ⟨config, hmem, rfl, rfl⟩
    obtain ⟨d, hd, hconfig, hid, hhandle⟩ := mem_planOf hmem
    exact ⟨d, hd, hid.symm, (isSome_pollConfig? d).mp (by simp [hconfig]), hhandle.symm⟩
  · rintro ⟨d, hd, rfl, hdefault, rfl⟩
    obtain ⟨config, hconfig⟩ := Option.isSome_iff_exists.mp ((isSome_pollConfig? d).mpr hdefault)
    obtain ⟨hid, hhandle⟩ := handle_of_pollConfig? hconfig
    exact ⟨config, List.mem_filterMap.mpr ⟨d, hd, hconfig⟩, hid, hhandle⟩

theorem Synced.stateHandles_eq (h : Synced w) (hplain : ∀ id ∈ ids, '/' ∉ id.toList)
    (hknown : ∀ d ∈ w.registry.devices, d.providerId ∈ ids) (hp : p ∈ ids) :
    stateHandles w.cache p = planHandles w.cache p := by
  ext handle
  show (w.cache.deviceStates handle).isSome ∧ handleOf p handle ↔
    ∃ config ∈ w.cache.pollConfigs, config.providerId = p ∧ config.handle = handle
  rw [h.states handle]
  constructor
  · rintro ⟨⟨config, hconfig, rfl⟩, hof⟩
    -- the configuration is of a provider whose id has no slash, so its handle is of no other
    obtain ⟨d, hd, -, hid, -⟩ := mem_planOf (h.plan ▸ hconfig)
    have hown : '/' ∉ config.providerId.toList := hid ▸ hplain _ (hknown d hd)
    exact ⟨config, hconfig,
      provider_of_handleOf hown (hplain p hp) (handleOf_handle config) hof, rfl⟩
  · rintro ⟨config, hconfig, rfl, rfl⟩
    exact ⟨⟨config, hconfig, rfl⟩, handleOf_handle config⟩

/-- Where no provider id has a slash: in every run, whenever no rebuild is under way, the handles of
each provider's poll configurations, of its states and of its published devices with a default
signal are the same; and each section of a rebuild leaves the configurations and the states of the
other providers. -/
theorem poll_plan_follows_registry (hplain : ∀ id ∈ providerIds providers, '/' ∉ id.toList)
    (h0 : RestartStart providers g₀)
    (h : Run (restarts providers direct status staleAfterMs).lts g₀ tr g) :
    ((g.thread 0).sections = [] → ∀ p ∈ providerIds providers,
      planHandles g.shared.world.cache p = polledHandles g.shared.world.registry p ∧
        stateHandles g.shared.world.cache p = polledHandles g.shared.world.registry p) ∧
    ∀ i ∈ tr, i.2.1 = 0 → ∀ ce, i.2.2 = .cache ce →
      ∃ p handle, (i.1.thread 0).pc = .rebuild p handle ∧ ∀ q ∈ providerIds providers, q ≠ p →
          SameOf q i.1.shared.world.cache (i.1.shared.world.apply ce).cache := by
  refine ⟨fun hrest p hp => ?_, fun i hi ht ce hce => ?_⟩
  · have hg := planSound_run hplain h0 h
    have hsynced := hg.place.synced hrest
    have hplan := hsynced.planHandles_eq p
    exact ⟨hplan, (hsynced.stateHandles_eq hplain hg.known hp).trans hplan⟩
  · obtain ⟨tr₁, tr₂, g₁, -, hbefore, hstep, -⟩ := h.of_mem hi
    obtain ⟨c, th', hnext, -, -, -⟩ := Machine.step_inv hstep
    have hat := planSound_run hplain h0 hbefore
    rw [ht] at hnext
    obtain ⟨p, handle, hpc, hsame⟩ := (hat.own_step hplain (restartStep_of_next hnext)).2.2 ce hce
    rw [hce] at hsame
    exact ⟨p, handle, hpc, hsame⟩

end

/-! ### Replacements -/

/-- A device with one default signal. -/
def probe (p d : String) : RegisteredDevice where
  providerId := p
  deviceId := d
  functionsById := { entries := [], distinct := List.nodup_nil }
  signalsById := [⟨"temperature", true⟩]

/-- The runtime after startup on an inventory. -/
def startOn (devices : List RegisteredDevice) : RestartState where
  shared :=
    { world := { cache := ({} : Cache).commitInitial devices, registry := ⟨devices⟩ }
      registered := fun _ => none
      made := 0 }
  thread _ := {}

theorem restartStart_startOn {providers : List ProviderConfig}
    (h : ∀ d ∈ devices, d.providerId ∈ providerIds providers) :
    RestartStart providers (startOn devices) where
  devices := h
  cache := ⟨{}, rfl⟩
  handles _ _ hh := by cases hh
  idle _ := rfl

/-- The provider `sim0`. -/
def simProviders : List ProviderConfig := [{ id := "sim0", command := "sim" }]

/-- Thread 0 replaces the devices of the first provider by one device, and rebuilds the plan. -/
def replaceByOne (device : RegisteredDevice) : List (ThreadId × RestartChoice) :=
  (0, .replace 0 [device]) :: (0, .go) :: List.replicate 6 (0, .cache .go)

/-- The provider `sim0` replaces its device by another one. -/
theorem poll_plan_follows_registry_sim :
    ∃ tr g, Run (restarts simProviders true someStatus 0).lts (startOn [probe "sim0" "a"]) tr g ∧
      stateHandles g.shared.world.cache "sim0" = polledHandles g.shared.world.registry "sim0" ∧
      "sim0/b" ∈ stateHandles g.shared.world.cache "sim0" := by
  obtain ⟨tr, g, hrun, hcheck⟩ := Machine.run_of_passes (restarts simProviders true someStatus 0)
    (startOn [probe "sim0" "a"]) (replaceByOne (probe "sim0" "b"))
    (fun _ g => (g.thread 0).sections.isEmpty ∧
      (g.shared.world.cache.deviceStates "sim0/b").isSome ∧ handleOf "sim0" "sim0/b") (by decide)
  have hplain : ∀ id ∈ providerIds simProviders, '/' ∉ id.toList := by decide
  have hstart : RestartStart simProviders (startOn [probe "sim0" "a"]) :=
    restartStart_startOn (by decide)
  have hsim : "sim0" ∈ providerIds simProviders := by decide
  have hboth := (poll_plan_follows_registry hplain hstart hrun).1 (List.isEmpty_iff.mp hcheck.1)
    "sim0" hsim
  exact ⟨tr, g, hrun, hboth.2, hcheck.2⟩

/-- The providers `a` and `a/b`, which are accepted. -/
def slashProviders : List ProviderConfig :=
  [{ id := "a", command := "sim" }, { id := "a/b", command := "sim" }]

/-- The providers `a` and `a/b` are accepted. After a replacement of the devices of `a`, the device
of `a/b` is published and in the poll plan, and has no state: the rebuild erased it. -/
theorem rebuild_erases_other_states :
    validateProviders slashProviders = .ok () ∧ RestartStart slashProviders
      (startOn [probe "a/b" "c"]) ∧
    ∃ tr g, Run (restarts slashProviders true someStatus 0).lts (startOn [probe "a/b" "c"]) tr g ∧
      (g.thread 0).sections = [] ∧
      "a/b/c" ∈ planHandles g.shared.world.cache "a/b" ∧
      "a/b/c" ∈ polledHandles g.shared.world.registry "a/b" ∧
      "a/b/c" ∉ stateHandles g.shared.world.cache "a/b" := by
  refine ⟨by decide, restartStart_startOn (by decide), ?_⟩
  obtain ⟨tr, g, hrun, hcheck⟩ := Machine.run_of_passes (restarts slashProviders true someStatus 0)
    (startOn [probe "a/b" "c"]) (replaceByOne (probe "a" "d"))
    (fun _ g => (g.thread 0).sections.isEmpty ∧
      (∃ config ∈ g.shared.world.cache.pollConfigs,
        config.providerId = "a/b" ∧ config.handle = "a/b/c") ∧
      (∃ d ∈ g.shared.world.registry.devices, d.providerId = "a/b" ∧
        (∃ s ∈ d.signalsById, s.isDefault) ∧ d.getHandle = "a/b/c") ∧
      (g.shared.world.cache.deviceStates "a/b/c").isNone)
    (by decide)
  obtain ⟨hrest, hplan, hpolled, hnone⟩ := hcheck
  refine ⟨tr, g, hrun, List.isEmpty_iff.mp hrest, hplan, hpolled, fun hstate => ?_⟩
  have hsome : (g.shared.world.cache.deviceStates "a/b/c").isSome := hstate.1
  rw [Option.isNone_iff_eq_none.mp hnone] at hsome
  cases hsome

end Anolis.Proofs.PollPlan
