import Anolis.Proofs.EstopBarrier
import Anolis.Proofs.Returns

/-!
# A call that passes the dry run is dispatched

`validate_call` and `execute_call` are two pipelines over the same steps: the device of the
handle, the function selector, the coercion and the validation of the arguments. `validate_call`
looks the device up by its whole handle first, `execute_call` by the handle's two parts only.
`dry_run_equals_dispatch` says that they agree.

A call on its own is `executeCall`: `execute_call` with its provider registered and available, on
a runtime that no other thread touches. It returns after at most sixteen steps
(`runCall_returns`). With its dynamic gates open (`DynamicGatesOpen`) it dispatches exactly
the calls that `validate_call` accepts, and hands the provider what `validate_call` resolved.

The last part is about runs of the whole runtime. On an unchanged registry, a safe-state call
that passes the dry run is refused before its dispatch only at its provider: it is not registered
or not available.
-/

namespace Anolis.Proofs.DryRun

open Anolis.Runtime Automation Control EstopBarrier Lib Protocol Registry Returns

variable {args : ArgMap} {pc' : CallPc} {target : Target} {cfg : SystemConfig} {sh : Shared}
  {t : ThreadId} {request : CallRequest} {pc : CallPc} {c : Choice}

/-! ### A call on its own -/

/-- What a call on its own meets: its provider is registered and available, and gives the
answer `reply`. -/
def aloneChoice (reply : CallReply) : CallPc → Choice
  | .provider => .found true
  | .available _ _ => .available true
  | .reply _ => .reply reply
  | _ => .go

/-- A call on its own, from a place on, in at most `fuel` steps: its effects and its result. -/
def runCall (cfg : SystemConfig) (t : ThreadId) (request : CallRequest) (reply : CallReply) :
    Nat → Shared → CallPc → Option (List CallEffect × CallResult)
  | 0, _, _ => none
  | fuel + 1, sh, pc =>
    match callNext cfg sh t request pc (aloneChoice reply pc) with
    | none => none
    | some (e, .ret result) => some ([e], result)
    | some (e, .go pc') =>
      (runCall cfg t request reply fuel (sh.applyCall t e) pc').map fun r => (e :: r.1, r.2)

/-- `execute_call` on its own. It has at most sixteen steps. -/
def executeCall (cfg : SystemConfig) (sh : Shared) (t : ThreadId) (request : CallRequest)
    (reply : CallReply) : Option (List CallEffect × CallResult) :=
  runCall cfg t request reply 16 sh .idleGate

/-- What a call hands to its provider (`provider->call`): the device, the function's id and name,
and the arguments. -/
def handedOver? : CallEffect → Option (String × UInt32 × String × ArgMap)
  | .dispatch target _ args => some (target.deviceId, target.spec.functionId, target.name, args)
  | _ => none

/-- What `validate_call` has resolved for the provider. -/
def handed (v : ResolvedCall) : String × UInt32 × String × ArgMap :=
  (v.deviceId, v.spec.functionId, v.name, v.args)

/-- The dynamic gates of a call to a target: the mode, the two latches and the minimum
interval. -/
structure DynamicGatesOpen (cfg : SystemConfig) (sh : Shared) (t : ThreadId)
    (request : CallRequest) (target : Target) : Prop where
  mode : GatesOpen cfg (currentMode cfg sh) request target
  latch : latchHolds request target.spec sh.latched (sh.admits t) = false
  loss : lossHolds sh request target = false
  interval : intervalRemaining request target.spec
    (sh.lastDispatch (dispatchKey request target.spec)) sh.steady = none

section
variable {reply : CallReply} {fuel : Nat} {e : CallEffect} {result : CallResult}

theorem runCall_go (h : callNext cfg sh t request pc (aloneChoice reply pc) = some (e, .go pc')) :
    runCall cfg t request reply (fuel + 1) sh pc =
      (runCall cfg t request reply fuel (sh.applyCall t e) pc').map
        fun r => (e :: r.1, r.2) := by
  simp only [runCall, h]

theorem runCall_silent
    (h : callNext cfg sh t request pc (aloneChoice reply pc) = some (.silent, .go pc')) :
    runCall cfg t request reply (fuel + 1) sh pc =
      (runCall cfg t request reply fuel sh pc').map fun r => (.silent :: r.1, r.2) :=
  runCall_go h

theorem applyCall_registry (sh : Shared) (t : ThreadId) (e : CallEffect) :
    (sh.applyCall t e).registry = sh.registry := by
  cases e <;> rfl

/-- A call on its own can go on from every place: the mode lock is free, and so is every
provider's lock but the one it holds. -/
theorem callNext_alone (cfg : SystemConfig) (t : ThreadId) (request : CallRequest)
    (reply : CallReply) (hmode : sh.modeLock = none)
    (hprovider : ∀ p, pc.held ≠ some p → sh.providerLock p = none) :
    ∃ e n, callNext cfg sh t request pc (aloneChoice reply pc) = some (e, n) := by
  have hsome : (callNext cfg sh t request pc (aloneChoice reply pc)).isSome := by
    cases pc <;> simp only [callNext, aloneChoice, refuse, hmode]
    case provider => cases parseDeviceHandle request.deviceHandle <;> rfl
    case lock target args => simp [hprovider target.providerId (by simp [CallPc.held])]
    case reply target => cases reply <;> rfl
    all_goals repeat' split
    all_goals simp_all
  obtain ⟨⟨e, n⟩, h⟩ := Option.isSome_iff_exists.mp hsome
  exact ⟨e, n, h⟩

theorem providerLock_alone (h : callNext cfg sh t request pc c = some (e, .go pc'))
    (hprovider : ∀ p, pc.held ≠ some p → sh.providerLock p = none) :
    ∀ p, pc'.held ≠ some p → (sh.applyCall t e).providerLock p = none := by
  intro p hp
  rcases callNext_held h with ⟨hl, hn⟩ | ⟨q, rfl, -, hpc, hn⟩ | ⟨q, rfl, hpc, -⟩
  · rw [hl]
    exact hprovider p (by rw [← hn]; exact hp)
  · have hpq : p ≠ q := fun hpq => hp (hpq ▸ hn)
    simp only [Shared.applyCall, Function.update_of_ne hpq]
    exact hprovider p (by simp [hpc])
  · by_cases hpq : p = q
    · simp [Shared.applyCall, hpq]
    · simp only [Shared.applyCall, Function.update_of_ne hpq]
      exact hprovider p (by simpa [hpc] using Ne.symm hpq)

theorem callRank_pos (pc : CallPc) : 0 < callRank pc := by
  cases pc <;> simp [callRank]

theorem runCall_returns (hfuel : callRank pc ≤ fuel) (hmode : sh.modeLock = none)
    (hprovider : ∀ p, pc.held ≠ some p → sh.providerLock p = none) :
    ∃ effects result, runCall cfg t request reply fuel sh pc = some (effects, result) := by
  -- each step lowers the rank, so the fuel lasts
  induction fuel generalizing sh pc with
  | zero =>
    have hpos := callRank_pos pc
    omega
  | succ fuel ih =>
    obtain ⟨e, n, hnext⟩ := callNext_alone cfg t request reply hmode hprovider
    cases n with
    | ret result => exact ⟨[e], result, by simp only [runCall, hnext]⟩
    | go pc' =>
      have hrank := callNext_rank hnext
      have hmode' : (sh.applyCall t e).modeLock = none := by
        rw [(Shared.applyCall_frame ..).2.1, hmode]
      obtain ⟨effects, result, hrest⟩ := ih (by omega) hmode' (providerLock_alone hnext hprovider)
      exact ⟨e :: effects, result, by simp only [runCall, hnext, hrest, Option.map_some]⟩

theorem callNext_ret (h : callNext cfg sh t request pc c = some (e, .ret result)) :
    (∃ target, pc = .leave target result) ∨ result.dispatched = false := by
  revert h
  fun_cases callNext cfg sh t request pc c <;> intro h <;>
    simp only [refuse, some_pair, reduceCtorEq, and_false, CallNext.ret.injEq] at h
  all_goals obtain ⟨-, rfl⟩ := h
  all_goals first | exact .inr rfl | exact .inl ⟨_, rfl⟩

/-- What a step hands over is what `validate_call` resolves. -/
theorem callNext_handedOver {n : CallNext} {registry : DeviceRegistry}
    {x : String × UInt32 × String × ArgMap} (h : callNext cfg sh t request pc c = some (e, n))
    (hpc : pc.Tracks cfg.showDouble registry request) (hx : handedOver? e = some x) :
    ∃ v, validateCall cfg.showDouble registry request = .ok v ∧ x = handed v := by
  cases e with
  | dispatch target r args =>
    obtain ⟨rfl, rfl, rfl⟩ := callNext_dispatch_at h
    exact ⟨target.resolved args, hpc, (Option.some.inj hx).symm⟩
  | _ => cases hx

/-- A call on its own is dispatched, and hands something over, only where `validate_call`
accepts it, and it hands over what `validate_call` resolves. -/
theorem handedOver_run {effects : List CallEffect}
    (hpc : pc.Tracks cfg.showDouble sh.registry request)
    (h : runCall cfg t request reply fuel sh pc = some (effects, result)) :
    (result.dispatched → ∃ v, validateCall cfg.showDouble sh.registry request = .ok v) ∧
      ∀ x ∈ effects.filterMap handedOver?,
        ∃ v, validateCall cfg.showDouble sh.registry request = .ok v ∧ x = handed v := by
  induction fuel generalizing sh pc effects with
  | zero => cases h
  | succ fuel ih =>
    simp only [runCall] at h
    split at h
    · cases h
    · rename_i e result' hnext
      cases h
      refine ⟨fun hdispatched => ?_, fun x hx => ?_⟩
      · rcases callNext_ret hnext with ⟨target, rfl⟩ | hfalse
        · obtain ⟨args, hv⟩ := hpc.1
          exact ⟨_, hv⟩
        · rw [hfalse] at hdispatched
          cases hdispatched
      · obtain ⟨e', he', hxe⟩ := List.mem_filterMap.mp hx
        obtain rfl := List.mem_singleton.mp he'
        exact callNext_handedOver hnext hpc hxe
    · rename_i e pc' hnext
      obtain ⟨⟨effects', result'⟩, hrest, heq⟩ := Option.map_eq_some_iff.mp h
      cases heq
      have hpc' : pc'.Tracks cfg.showDouble (sh.applyCall t e).registry request := by
        rw [applyCall_registry]
        exact callNext_tracks hnext hpc fun _ _ _ => rfl
      have hih := ih hpc' hrest
      rw [applyCall_registry] at hih
      refine ⟨hih.1, fun x hx => ?_⟩
      obtain ⟨e', he', hxe⟩ := List.mem_filterMap.mp hx
      rcases List.mem_cons.mp he' with rfl | he'
      · exact callNext_handedOver hnext hpc hxe
      · exact hih.2 x (List.mem_filterMap.mpr ⟨e', he', hxe⟩)

end

/-! ### Open gates -/

theorem idleGate_open (hmode : sh.modeLock = none)
    (hgate : request.safeState ∨ currentMode cfg sh ≠ .idle) :
    callNext cfg sh t request .idleGate c = some (.silent, .go .autoGate) := by
  cases henabled : cfg.automation.enabled <;> rcases hgate with hsafe | hidle <;>
    simp_all [callNext, currentMode]

theorem autoGate_open (hmode : sh.modeLock = none) (hgate : request.safeState ∨
      manualBlocked cfg (currentMode cfg sh) request = false) :
    callNext cfg sh t request .autoGate c = some (.silent, .go .provider) := by
  cases henabled : cfg.automation.enabled <;> cases hauto : request.isAutomated <;>
    rcases hgate with hsafe | hblocked <;> simp_all [callNext, currentMode, manualBlocked]

theorem allowedModes_open (hmode : sh.modeLock = none) (hgate : request.safeState ∨
      (target.spec.allowedModes ≠ [] → ∃ declared ∈ target.spec.allowedModes,
        declared.toUpper = modeToString (currentMode cfg sh))) :
    callNext cfg sh t request (.allowedModes target) c = some (.silent, .go (.latch target)) := by
  have hname : (if cfg.automation.enabled then modeToString sh.mode else "MANUAL") =
      modeToString (currentMode cfg sh) := by
    unfold currentMode
    split <;> rfl
  simp only [callNext, hname, hmode, Option.isSome_none]
  rcases hgate with hsafe | hallowed
  · simp [hsafe]
  · by_cases hnil : target.spec.allowedModes = []
    · simp [hnil]
    · simp [modeAllowed, hnil, hallowed hnil]

/-- With open gates, a call that passes the dry run comes to its provider's lock. -/
theorem runCall_to_lock (reply : CallReply) (fuel : Nat)
    (hv : validateCall cfg.showDouble sh.registry request = .ok (target.resolved args))
    (hmode : sh.modeLock = none)
    (hopen : request.safeState ∨ DynamicGatesOpen cfg sh t request target) :
    ∃ effects, effects.filterMap handedOver? = [] ∧
      runCall cfg t request reply (fuel + 9) sh .idleGate =
        (runCall cfg t request reply fuel sh (.lock target args)).map
          fun r => (effects ++ r.1, r.2) := by
  obtain ⟨hparse, device, hdevice, hresolve, hcoerce, hvalid⟩ := validateCall_eq_ok.mp hv
  have hidle : callNext cfg sh t request .idleGate .go = some (.silent, .go .autoGate) :=
    idleGate_open hmode (hopen.imp_right fun h => h.mode.notIdle)
  have hauto : callNext cfg sh t request .autoGate .go = some (.silent, .go .provider) :=
    autoGate_open hmode (hopen.imp_right fun h => h.mode.notBlocked)
  have hfind : callNext cfg sh t request .provider (.found true) =
      some (.silent, .go (.available target.providerId target.deviceId)) := by
    simp [callNext, hparse, Target.resolved]
  have hlookup : callNext cfg sh t request (.device target.providerId target.deviceId) .go =
      some (.silent, .go (.allowedModes target)) := by
    simp only [Target.resolved] at hdevice hresolve
    simp [callNext, hdevice, hresolve]
  have hallowed : callNext cfg sh t request (.allowedModes target) .go =
      some (.silent, .go (.latch target)) :=
    allowedModes_open hmode (hopen.imp_right fun h => h.mode.allowed)
  have hlatch : callNext cfg sh t request (.latch target) .go =
      some (.silent, .go (.loss target)) := by
    have hholds : latchHolds request target.spec sh.latched (sh.admits t) = false :=
      hopen.elim (fun hsafe => by simp [latchHolds, hsafe]) fun h => h.latch
    simp [callNext, hholds]
  have hloss : callNext cfg sh t request (.loss target) .go =
      some (.silent, .go (.arguments target)) := by
    have hholds : lossHolds sh request target = false :=
      hopen.elim (fun hsafe => by simp [lossHolds, hsafe]) fun h => h.loss
    simp [callNext, hholds]
  have hargs : callNext cfg sh t request (.arguments target) .go =
      some (.silent, .go (.lock target args)) := by
    simp only [Target.resolved] at hcoerce hvalid
    simp [callNext, hcoerce, hvalid]
  refine ⟨List.replicate 9 .silent, rfl, ?_⟩
  rw [runCall_silent hidle, runCall_silent hauto, runCall_silent hfind, runCall_silent (by rfl),
    runCall_silent hlookup, runCall_silent hallowed, runCall_silent hlatch, runCall_silent hloss,
    runCall_silent hargs]
  simp only [Option.map_map]
  rfl

/-- The last three steps of a call: the dispatch, the answer, and the return of the lock. -/
theorem runCall_dispatch (cfg : SystemConfig) (sh : Shared) (t : ThreadId) (request : CallRequest)
    (target : Target) (args : ArgMap) (reply : CallReply) :
    ∃ result, runCall cfg t request reply 3 sh (.dispatch target args) =
        some ([.dispatch target request args, .silent, .unlockProvider target.providerId], result) ∧
      result.dispatched := by
  cases reply with
  | ok results => exact ⟨{ success := true, results := results, dispatched := true }, rfl, rfl⟩
  | failed status lastError =>
    exact ⟨{ success := false, errorMessage := "Provider call failed: " ++ lastError,
             statusCode := status, dispatched := true }, rfl, rfl⟩

/-- With open gates, a call at the free lock of its provider is dispatched, once. -/
theorem runCall_from_lock (args : ArgMap) (reply : CallReply)
    (hlock : sh.providerLock target.providerId = none)
    (hopen : request.safeState ∨ DynamicGatesOpen cfg sh t request target) :
    ∃ effects result, runCall cfg t request reply 7 sh (.lock target args) =
        some (effects, result) ∧ result.dispatched ∧
      effects.filterMap handedOver? = [handed (target.resolved args)] := by
  have hlatch : latchHolds request target.spec sh.latched (sh.admits t) = false :=
    hopen.elim (fun hsafe => by simp [latchHolds, hsafe]) fun h => h.latch
  have hloss : lossHolds sh request target = false :=
    hopen.elim (fun hsafe => by simp [lossHolds, hsafe]) fun h => h.loss
  have hinterval : intervalRemaining request target.spec
      (sh.lastDispatch (dispatchKey request target.spec)) sh.steady = none :=
    hopen.elim (fun hsafe => intervalRemaining_of_safeState hsafe) fun h => h.interval
  have htake : callNext cfg sh t request (.lock target args) .go =
      some (.lockProvider target.providerId, .go (.latchAgain target args)) := by
    simp [callNext, hlock]
  rw [runCall_go htake]
  -- taking the lock changes nothing that the checks behind it read
  have hlatch' : latchHolds request target.spec
      (sh.applyCall t (.lockProvider target.providerId)).latched
      ((sh.applyCall t (.lockProvider target.providerId)).admits t) = false := hlatch
  have hloss' : lossHolds (sh.applyCall t (.lockProvider target.providerId)) request target =
      false := hloss
  have hinterval' : intervalRemaining request target.spec
      ((sh.applyCall t (.lockProvider target.providerId)).lastDispatch
        (dispatchKey request target.spec))
      (sh.applyCall t (.lockProvider target.providerId)).steady = none := hinterval
  generalize sh.applyCall t (.lockProvider target.providerId) = sh' at *
  have hagain : callNext cfg sh' t request (.latchAgain target args) .go =
      some (.silent, .go (.lossAgain target args)) := by
    simp [callNext, hlatch']
  have hpass : callNext cfg sh' t request (.lossAgain target args) .go =
      some (.silent, .go (.interval target args)) := by
    simp [callNext, hloss']
  rw [runCall_silent hagain, runCall_silent hpass]
  by_cases hms : target.spec.minIntervalMs = 0
  · have hready : callNext cfg sh' t request (.interval target args) .go =
        some (.silent, .go (.dispatch target args)) := by
      simp [callNext, hms]
    obtain ⟨result, hlast, hdispatched⟩ := runCall_dispatch cfg sh' t request target args reply
    rw [runCall_silent hready, hlast]
    exact ⟨_, result, rfl, hdispatched, rfl⟩
  · have hready : callNext cfg sh' t request (.interval target args) .go =
        some (.recordDispatch (dispatchKey request target.spec), .go (.dispatch target args)) := by
      simp [callNext, hms, hinterval']
    obtain ⟨result, hlast, hdispatched⟩ := runCall_dispatch cfg
      (sh'.applyCall t (.recordDispatch (dispatchKey request target.spec))) t request target args
      reply
    rw [runCall_go hready, hlast]
    exact ⟨_, result, rfl, hdispatched, rfl⟩

/-- With open gates, a call that passes the dry run is dispatched once, and hands over what
`validate_call` resolved. -/
theorem executeCall_dispatches (reply : CallReply)
    (hv : validateCall cfg.showDouble sh.registry request = .ok (target.resolved args))
    (hmode : sh.modeLock = none) (hprovider : ∀ p, sh.providerLock p = none)
    (hopen : request.safeState ∨ DynamicGatesOpen cfg sh t request target) :
    ∃ effects result, executeCall cfg sh t request reply = some (effects, result) ∧
      result.dispatched ∧
      effects.filterMap handedOver? = [handed (target.resolved args)] := by
  obtain ⟨before, hbefore, hto⟩ := runCall_to_lock reply 7 hv hmode hopen
  obtain ⟨effects, result, hfrom, hdispatched, hhanded⟩ :=
    runCall_from_lock args reply (hprovider _) hopen
  refine ⟨before ++ effects, result, ?_, hdispatched, ?_⟩
  · rw [executeCall, hto, hfrom]
    rfl
  · rw [List.filterMap_append, hbefore, hhanded]
    rfl

/-! ### Refusals in a run -/

section
variable {g₀ g : SystemState} {tr : SystemTrace} {registry : DeviceRegistry}

/-- On an unchanged registry, every call in progress keeps track of its request. -/
theorem tracks_run (h0 : SystemStart g₀) (h : SystemRun cfg g₀ tr g)
    (hregistry : ∀ i ∈ tr, i.1.shared.registry = registry) :
    ∀ t request pc, (g.thread t).call = some ⟨request, pc⟩ →
      pc.Tracks cfg.showDouble registry request := by
  refine thread_run (C := fun s _ => s.shared.registry = registry)
    (P := fun _ th => ∀ request pc, th.call = some ⟨request, pc⟩ →
      pc.Tracks cfg.showDouble registry request) h0 ?_ ?_ h hregistry
  · intro t request pc hcall
    cases hcall
  · intro g t e th' hreg hts hth request pc hcall
    rcases hts.call_cases hcall with ⟨-, rfl⟩ | ⟨pc₀, c, e', -, hcall₀, hnext⟩
    · trivial
    · exact callNext_tracks hnext (hth request pc₀ hcall₀) fun p d _ => by rw [hreg]

end

section
variable {e : CallEffect} {result : CallResult} {v : ResolvedCall}

/-- A safe-state call that passes the dry run is refused before its dispatch only at its
provider. -/
theorem callNext_refused (hv : validateCall cfg.showDouble sh.registry request = .ok v)
    (hsafe : request.safeState) (hpc : pc.Tracks cfg.showDouble sh.registry request)
    (h : callNext cfg sh t request pc c = some (e, .ret result))
    (hresult : result.dispatched = false) : (pc = .provider ∧ c = .found false ∧
        result = .refused .notFound ("Provider not found: " ++ v.providerId)) ∨
      (pc = .available v.providerId v.deviceId ∧ c = .available false ∧
        result = .refused .unavailable ("Provider not available: " ++ v.providerId)) := by
  obtain ⟨hparse, device, hdevice, hresolve, hcoerce, hvalid⟩ := validateCall_eq_ok.mp hv
  revert h
  fun_cases callNext cfg sh t request pc c <;> intro h <;>
    simp only [refuse, some_pair, reduceCtorEq, and_false, CallNext.ret.injEq] at h
  all_goals obtain ⟨-, rfl⟩ := h
  all_goals simp_all [CallPc.Tracks, latchHolds, lossHolds]

end

/-! ### The result -/

/-- The target that a request names in a registry. -/
def Names (registry : DeviceRegistry) (request : CallRequest) (target : Target) : Prop :=
  resolve? registry request = some (target.providerId, target.deviceId, target.spec, target.name)

theorem names_of_validateCall {showDouble : Double → String} {registry : DeviceRegistry}
    (h : validateCall showDouble registry request = .ok (target.resolved args)) :
    Names registry request target := by
  obtain ⟨hparse, device, hdevice, hresolve, -, -⟩ := validateCall_eq_ok.mp h
  simp only [Target.resolved] at hparse hdevice hresolve
  simp only [Names, resolve?, hparse, hdevice, hresolve]

/-- The dry run decides the dispatch. For every request and every registry, `execute_call` on its
own, with its dynamic gates open, returns, sets `dispatched` iff `validate_call` accepts the
request, and hands the provider what `validate_call` resolved. And in every run on an unchanged
registry, a safe-state call that `validate_call` accepts is refused before its dispatch only
because its provider is not registered or not available. -/
theorem dry_run_equals_dispatch (cfg : SystemConfig) (request : CallRequest) :
    (∀ sh t reply, sh.modeLock = none → (∀ p, sh.providerLock p = none) →
      (request.safeState ∨
        ∀ target, Names sh.registry request target → DynamicGatesOpen cfg sh t request target) →
      ∃ effects result, executeCall cfg sh t request reply = some (effects, result) ∧
        (result.dispatched ↔ ∃ v, validateCall cfg.showDouble sh.registry request = .ok v) ∧
        effects.filterMap handedOver? =
          ((validateCall cfg.showDouble sh.registry request).toOption.map handed).toList) ∧
    ∀ g₀ tr g v t pc c e result, SystemStart g₀ → SystemRun cfg g₀ tr g →
      (∀ i ∈ tr, i.1.shared.registry = g.shared.registry) → request.safeState →
      validateCall cfg.showDouble g.shared.registry request = .ok v →
      (g.thread t).call = some ⟨request, pc⟩ →
      callNext cfg g.shared t request pc c = some (e, .ret result) → result.dispatched = false →
      (c = .found false ∧ result = .refused .notFound ("Provider not found: " ++ v.providerId)) ∨
        (c = .available false ∧
          result = .refused .unavailable ("Provider not available: " ++ v.providerId)) := by
  refine ⟨fun sh t reply hmode hprovider hopen => ?_, ?_⟩
  · cases hv : validateCall cfg.showDouble sh.registry request with
    | ok v =>
      have hv' : validateCall cfg.showDouble sh.registry request =
          .ok (Target.resolved ⟨v.providerId, v.deviceId, v.spec, v.name⟩ v.args) := hv
      obtain ⟨effects, result, hexec, hdispatched, hhanded⟩ := executeCall_dispatches (t := t)
        reply hv' hmode hprovider (hopen.imp_right fun h => h _ (names_of_validateCall hv'))
      exact ⟨effects, result, hexec, by simp [hdispatched], hhanded⟩
    | error err =>
      have hnone : ¬ ∃ v, validateCall cfg.showDouble sh.registry request = .ok v := by simp [hv]
      obtain ⟨effects, result, hexec⟩ : ∃ effects result,
          executeCall cfg sh t request reply = some (effects, result) :=
        runCall_returns (by decide) hmode fun p _ => hprovider p
      have hstart : CallPc.idleGate.Tracks cfg.showDouble sh.registry request := trivial
      obtain ⟨hdispatched, hhanded⟩ := handedOver_run hstart hexec
      refine ⟨effects, result, hexec, ⟨fun h => ?_, fun h => ?_⟩, ?_⟩
      · exact absurd (hdispatched h) hnone
      · simp at h
      · refine List.eq_nil_iff_forall_not_mem.mpr fun x hx => hnone ?_
        obtain ⟨v, hvx, -⟩ := hhanded x hx
        exact ⟨v, hvx⟩
  · intro g₀ tr g v t pc c e result h0 hrun hregistry hsafe hv hcall hnext hresult
    have htracks := tracks_run h0 hrun hregistry t request pc hcall
    exact (callNext_refused hv hsafe htracks hnext hresult).imp (fun h => h.2) fun h => h.2

/-- The ladder's call that closes the valve. -/
def closeRequest : CallRequest :=
  toCallRequest { deviceHandle := "sim0/valve", functionName := "close" }

/-- It passes the dry run, and is dispatched in IDLE. -/
theorem dry_run_equals_dispatch_valve :
    ∃ effects result, executeCall valveConfig (valveWorld .idle).shared 1 closeRequest
        (.ok SortedMap.empty) = some (effects, result) ∧ result.dispatched ∧
      effects.filterMap handedOver? = [("valve", 2, "close", SortedMap.empty)] := by
  have hv : validateCall valveConfig.showDouble (valveWorld .idle).shared.registry closeRequest =
      .ok ⟨"sim0", "valve",
        { functionId := 2, functionName := "close", category := .actuate }, "close",
        SortedMap.empty⟩ := by decide
  obtain ⟨effects, result, hexec, hdispatched, hhanded⟩ :=
    (dry_run_equals_dispatch valveConfig closeRequest).1 (valveWorld .idle).shared 1
      (.ok SortedMap.empty) rfl (fun _ => rfl) (Or.inl rfl)
  refine ⟨effects, result, hexec, hdispatched.mpr ⟨_, hv⟩, ?_⟩
  rw [hhanded, hv]
  rfl

end Anolis.Proofs.DryRun
