import Anolis.Proofs.DryRun
import Anolis.Proofs.HandleNames
import Anolis.Proofs.SteadyLadder

/-!
# What the coverage report promises

`uncovered_functions` says which actuating functions a rung does not drive. It judges a call by its
selectors (`setpoint_matches`) and by the dry run, and the dry run resolves the selectors by itself.
A selector by id alone names two functions of a device where they share the id, and the report
counts both as covered by a call that goes to one of them (`shared_id_is_not_driven`). Where no call
of the planned rung is such a selector, a function that the report leaves out is driven by every
trigger that runs its ladder (`covered_function_is_driven`). A name beside the id, or in its place,
tells the two apart.
-/

namespace Anolis.Proofs.Coverage

open Anolis.Runtime Control DryRun EstopBarrier HandleNames LadderRun Lib Protocol Registry
  SteadyLadder

variable {registry : DeviceRegistry} {request : CallRequest} {v : ResolvedCall} {cfg : SystemConfig}
  {t : ThreadId}

/-! ### A request and the function it names -/

/-- The selectors of the request agree with the function: each of the two that is given, and one of
them is. -/
structure Selects (request : CallRequest) (spec : FunctionSpec) : Prop where
  id : request.functionId ≠ 0 → request.functionId = spec.functionId
  name : request.functionName ≠ "" → request.functionName = spec.functionName
  given : request.functionId = 0 → request.functionName ≠ ""

/-- The request selects by id alone an id that two functions of the device share. -/
def Ambiguous (d : RegisteredDevice) (request : CallRequest) : Prop :=
  request.functionName = "" ∧ request.functionId ≠ 0 ∧
    ∃ f ∈ d.functionsById.entries, ∃ f' ∈ d.functionsById.entries, f ≠ f' ∧
      f.2.functionId = request.functionId ∧ f'.2.functionId = request.functionId

/-- A function of a device, as the inventory has it, with nothing else under its handle. -/
structure Named (registry : DeviceRegistry) (d : RegisteredDevice) (spec : FunctionSpec) :
    Prop where
  device : d ∈ registry.devices
  function : (spec.functionName, spec) ∈ d.functionsById.entries
  slash : '/' ∉ d.providerId.toList
  handle : ∀ d' ∈ registry.devices, d'.getHandle = d.getHandle → d' = d

section
variable {showDouble : Double → String} {d : RegisteredDevice} {spec : FunctionSpec}

/-- A name is the key of one function. -/
theorem Named.eq_of_key (hnamed : Named registry d spec) {e : String × FunctionSpec}
    (he : e ∈ d.functionsById.entries) (hkey : e.1 = spec.functionName) :
    e = (spec.functionName, spec) :=
  List.inj_on_of_nodup_map d.functionsById.distinct he hnamed.function hkey

/-- The selectors of a request resolve to the function they agree with, unless two functions share
the id that is all they give. -/
theorem resolve_selects {spec' : FunctionSpec} {name : String} (hnamed : Named registry d spec)
    (hselects : Selects request spec) (hclear : ¬ Ambiguous d request)
    (h : resolveFunctionSpec d request = .ok (spec', name)) :
    spec' = spec ∧ name = spec.functionName := by
  unfold resolveFunctionSpec at h
  split at h
  · rename_i hid
    have hsame := hselects.id hid
    split at h
    · cases h
    · rename_i key found hfind
      split at h
      · cases h
      · rename_i hmatches
        obtain ⟨rfl, rfl⟩ := Prod.mk.inj (Except.ok.inj h)
        have hmem := List.mem_of_find?_eq_some hfind
        have hfound : found.functionId = request.functionId := by simpa using List.find?_some hfind
        have hentry : (key, found) = (spec.functionName, spec) := by
          by_cases hname : request.functionName = ""
          · -- by id alone: no other function has it
            by_contra hne
            exact hclear ⟨hname, hid, _, hmem, _, hnamed.function, hne, hfound, hsame.symm⟩
          · -- the name beside the id is the function's key
            have hkey : request.functionName = key := by simpa [hname] using hmatches
            exact hnamed.eq_of_key hmem (hkey.symm.trans (hselects.name hname))
        exact ⟨congrArg Prod.snd hentry, congrArg Prod.fst hentry⟩
  · rename_i hid
    have hsame := hselects.name (hselects.given (by simpa using hid))
    split at h
    · cases h
    · split at h
      · cases h
      · rename_i found hfind
        obtain ⟨rfl, rfl⟩ := Prod.mk.inj (Except.ok.inj h)
        refine ⟨?_, hsame⟩
        obtain ⟨entry, hentry, rfl⟩ := Option.map_eq_some_iff.mp hfind
        have hkey : entry.1 = request.functionName := by simpa using List.find?_some hentry
        rw [hnamed.eq_of_key (List.mem_of_find?_eq_some hentry) (hkey.trans hsame)]

/-- A request to the function's device that names it and passes the dry run resolves to it. -/
theorem resolves_to_function (hnamed : Named registry d spec)
    (hhandle : request.deviceHandle = d.getHandle) (hselects : Selects request spec)
    (hclear : ¬ Ambiguous d request) (hv : validateCall showDouble registry request = .ok v) :
    v.providerId = d.providerId ∧ v.deviceId = d.deviceId ∧ v.spec = spec ∧
      v.name = spec.functionName ∧ validateArguments showDouble spec.args v.args = .ok () := by
  obtain ⟨hparse, device, hdevice, hresolve, -, hvalid⟩ := validateCall_eq_ok.mp hv
  have hsplit : v.providerId ++ "/" ++ v.deviceId = d.providerId ++ "/" ++ d.deviceId :=
    (parseDeviceHandle_eq hparse).trans hhandle
  obtain ⟨hp, hd⟩ := device_of_handle (parseDeviceHandle_provider hparse) hnamed.slash hsplit
  obtain rfl : device = d := by
    have hfound := List.find?_some hdevice
    refine hnamed.handle device (List.mem_reverse.mp (List.mem_of_find?_eq_some hdevice)) ?_
    exact (of_decide_eq_true hfound).trans hsplit
  obtain ⟨hspec, hname⟩ := resolve_selects hnamed hselects hclear hresolve
  rw [hspec] at hvalid
  exact ⟨hp, hd, hspec, hname, hvalid⟩

theorem selects_of_setpointMatches {call : ModeTransitionCallConfig} {handle : String}
    (h : setpointMatches call handle spec) :
    call.deviceHandle = handle ∧ Selects (toCallRequest call) spec := by
  simp only [setpointMatches, Bool.and_eq_true, Bool.not_eq_true', Bool.or_eq_true,
    decide_eq_true_eq] at h
  obtain ⟨⟨⟨hhandle, hid⟩, hname⟩, hsome⟩ := h
  refine ⟨hhandle, fun hne => ?_, fun hne => ?_, fun hzero => ?_⟩
  · have hne : call.functionId ≠ 0 := hne
    show call.functionId = spec.functionId
    simpa [hne] using hid
  · have hne : call.functionName ≠ "" := hne
    show call.functionName = spec.functionName
    simpa [hne] using hname
  · have hzero : call.functionId = 0 := hzero
    show call.functionName ≠ ""
    simpa [hzero] using hsome

theorem validateCall_safeState (request : CallRequest) :
    validateCall showDouble registry { request with safeState := true } =
      validateCall showDouble registry request := by
  have hresolve : ∀ device, resolveFunctionSpec device { request with safeState := true } =
      resolveFunctionSpec device request := fun _ => rfl
  simp only [validateCall, hresolve]

theorem exists_of_isOk {ε α : Type} {x : Except ε α} (h : x.isOk) : ∃ a, x = .ok a := by
  cases x with
  | error e => cases h
  | ok a => exact ⟨a, rfl⟩

/-! ### The entry that covers a function -/

/-- An entry of the rung drives the function: its request goes to the function's device, names the
function and passes the dry run. -/
structure Covers (showDouble : Double → String) (registry : DeviceRegistry) (d : RegisteredDevice)
    (spec : FunctionSpec) (c : RungCall) (request : CallRequest) (v : ResolvedCall) : Prop where
  made : c.request = .ok request
  handle : request.deviceHandle = d.getHandle
  selects : Selects request spec
  valid : validateCall showDouble registry request = .ok v

theorem mem_actuating (hd : d ∈ registry.devices)
    (hf : (spec.functionName, spec) ∈ d.functionsById.entries)
    (hactuate : spec.category = .actuate) :
    (d.getHandle, spec) ∈ registry.actuatingFunctionsFor := by
  refine List.mem_flatMap.mpr ⟨d, hd, List.mem_map.mpr ⟨(spec.functionName, spec), ?_, rfl⟩⟩
  exact List.mem_filter.mpr ⟨hf, by simpa using hactuate⟩

/-- A function of the inventory that is not in the report is not filtered out of it. -/
theorem not_filtered {q : String × FunctionSpec → Bool} {f : String × FunctionSpec}
    (hf : f ∈ registry.actuatingFunctionsFor)
    (h : coverageName f ∉ (registry.actuatingFunctionsFor.filter q).map coverageName) :
    q f = false := by
  by_contra hne
  exact h (List.mem_map.mpr ⟨f, List.mem_filter.mpr ⟨hf, by simpa using hne⟩, rfl⟩)

theorem covers_declared {calls : List ModeTransitionCallConfig}
    (hf : (d.getHandle, spec) ∈ registry.actuatingFunctionsFor)
    (h : coverageName (d.getHandle, spec) ∉
      uncoveredActuatingFunctions showDouble registry calls) :
    ∃ c ∈ calls.map RungCall.declared, ∃ request v,
      Covers showDouble registry d spec c request v := by
  have hany := not_filtered hf h
  simp only [Bool.not_eq_false', List.any_eq_true, Bool.and_eq_true] at hany
  obtain ⟨call, hcall, hmatches, hok⟩ := hany
  obtain ⟨v, hv⟩ := exists_of_isOk hok
  obtain ⟨hhandle, hselects⟩ := selects_of_setpointMatches hmatches
  exact ⟨.declared call, List.mem_map.mpr ⟨call, hcall, rfl⟩, toCallRequest call, v, rfl, hhandle,
    hselects, hv⟩

/-- A function that the report of a rung leaves out is covered by an entry of the rung. -/
theorem covering_entry {safety : SafetyConfig} {kind : SafeStateKind}
    (hf : (d.getHandle, spec) ∈ registry.actuatingFunctionsFor)
    (h : coverageName (d.getHandle, spec) ∉ uncoveredFunctions showDouble registry safety kind) :
    ∃ c ∈ rungCalls kind registry safety, ∃ request v,
      Covers showDouble registry d spec c request v := by
  cases kind with
  | hooks | setpoints => exact covers_declared hf h
  | zero =>
    have hzero : zeroCovers showDouble registry d.getHandle spec := by simpa using not_filtered hf h
    unfold zeroCovers at hzero
    split at hzero
    · cases hzero
    · rename_i args hargs
      obtain ⟨v, hv⟩ := exists_of_isOk hzero
      refine ⟨.zero d.getHandle spec, List.mem_map.mpr ⟨_, hf, rfl⟩,
        { deviceHandle := d.getHandle, functionId := spec.functionId,
          functionName := spec.functionName, args := args, safeState := true }, v, ?_, rfl,
        ⟨fun _ => rfl, fun _ => rfl, fun hzero => ?_⟩, ?_⟩
      · simp only [RungCall.request, hargs]
      · -- a call without a selector does not pass the dry run
        rintro hempty
        obtain ⟨-, device, -, hresolve, -⟩ := validateCall_eq_ok.mp hv
        have hzero : spec.functionId = 0 := hzero
        have hempty : spec.functionName = "" := hempty
        simp [resolveFunctionSpec, hzero, hempty] at hresolve
      · rw [← hv]
        exact validateCall_safeState
          { deviceHandle := d.getHandle, functionId := spec.functionId,
            functionName := spec.functionName, args := args }
  | none => exact absurd (List.mem_map.mpr ⟨_, hf, rfl⟩) h

end

/-! ### Its call -/

/-- The place of a call before its dispatch. -/
def beforeDispatch : CallPc → Bool
  | .reply _ | .leave _ _ => false
  | _ => true

/-- A step in which `t` dispatches what a dry run resolved. -/
def Dispatches (t : ThreadId) (v : ResolvedCall) (i : SystemState × ThreadId × Effect) : Prop :=
  ∃ target request args, i.2 = (t, .call (.dispatch target request args)) ∧ target.resolved args = v

section
variable {sh : Shared} {pc : CallPc} {ch : Choice} {e : CallEffect} {n : CallNext}

/-- A call leaves the places before its dispatch by the dispatch, or by a refusal. -/
theorem callNext_beforeDispatch {pc' : CallPc}
    (h : callNext cfg sh t request pc ch = some (e, .go pc')) (hpc : beforeDispatch pc) :
    beforeDispatch pc' ∨ (∃ target args, e = .dispatch target request args) ∨
      ∃ target result, pc' = .leave target result ∧ result.dispatched = false := by
  revert h
  fun_cases callNext cfg sh t request pc ch <;> intro h <;>
    simp only [refuse, some_pair, reduceCtorEq, and_false, CallNext.go.injEq] at h
  all_goals obtain ⟨rfl, rfl⟩ := h
  all_goals first
    | exact .inl rfl
    | exact .inr (.inl ⟨_, _, rfl⟩)
    | exact .inr (.inr ⟨_, _, rfl, rfl⟩)
    | cases hpc

/-- A step of a safe-state call that passes the dry run: it goes on before its dispatch, dispatches
what the dry run resolved, or ends because it asked for its provider. -/
theorem call_step (hv : validateCall cfg.showDouble sh.registry request = .ok v)
    (hsafe : request.safeState) (hpc : beforeDispatch pc)
    (htracks : pc.Tracks cfg.showDouble sh.registry request)
    (h : callNext cfg sh t request pc ch = some (e, n)) : (∃ pc', n = .go pc' ∧ beforeDispatch pc' ∧
        pc'.Tracks cfg.showDouble sh.registry request) ∨
      (∃ target args, e = .dispatch target request args ∧ target.resolved args = v) ∨
      ((∃ result, n = .ret result) ∧ asks v.providerId ⟨request, pc⟩) := by
  cases n with
  | go pc' =>
    have htracks' := callNext_tracks h htracks fun _ _ _ => rfl
    rcases callNext_beforeDispatch h hpc with hbefore | ⟨target, args, rfl⟩ |
        ⟨target, result, rfl, hresult⟩
    · exact .inl ⟨pc', rfl, hbefore, htracks'⟩
    · obtain ⟨-, rfl, -⟩ := callNext_dispatch_at h
      have heq : validateCall cfg.showDouble sh.registry request = .ok (target.resolved args) :=
        htracks
      rw [hv] at heq
      exact .inr (.inl ⟨target, args, rfl, (Except.ok.inj heq).symm⟩)
    · -- a safe-state call gives the lock back only behind its dispatch
      rw [htracks'.2 hsafe] at hresult
      cases hresult
  | ret result =>
    refine .inr (.inr ⟨⟨result, rfl⟩, ?_⟩)
    have hresult : result.dispatched = false := by
      rcases callNext_ret h with ⟨target, rfl⟩ | hfalse
      · cases hpc
      · exact hfalse
    rcases callNext_refused hv hsafe htracks h hresult with ⟨rfl, -, -⟩ | ⟨rfl, -, -⟩
    · have hparse := (validateCall_eq_ok.mp hv).1
      simp [asks, hparse, Except.toOption]
    · simp [asks]

end

/-! ### The ladder -/

section
variable {p : String} {c : RungCall} {s s' : SystemState} {l : ThreadId × Effect} {tr : SystemTrace}

/-- The entry `c` of the rung is still to be made, or its call is before its dispatch, or that was
dispatched. -/
def Due (cfg : SystemConfig) (t : ThreadId) (registry : DeviceRegistry) (c : RungCall)
    (request : CallRequest) (v : ResolvedCall) (tr : SystemTrace) (s : SystemState) : Prop :=
  (s.thread t).op = .trigger (.ladder .plan) ∨
    (s.thread t).op = .trigger (.ladder (.rung (plannedSafeStateKind registry cfg.safety))) ∨
    Pending (fun pc => beforeDispatch pc ∧ pc.Tracks cfg.showDouble registry request) t c
      request s ∨
    ∃ k ∈ tr, Dispatches t v k

theorem due_step (hshaped : (s.thread t).Shaped) (hregistry : s.shared.registry = registry)
    (hmem : c ∈ rungCalls (plannedSafeStateKind registry cfg.safety) registry cfg.safety)
    (hc : c.request = .ok request) (hv : validateCall cfg.showDouble registry request = .ok v)
    (hstep : (steady cfg t v.providerId).lts.step s l s')
    (hdue : Due cfg t registry c request v tr s) :
    Due cfg t registry c request v (tr ++ [(s, l)]) s' := by
  obtain ⟨u, e⟩ := l
  obtain ⟨hsys, -, hanswered⟩ := steady_step hstep
  obtain ⟨-, -, -, -, hother⟩ := system_step hsys
  rcases hdue with hop | hop | hpending | ⟨k, hk, hdispatches⟩
  · rcases eq_or_ne u t with rfl | hu
    · refine .inr (.inl ?_)
      rw [(plan_step hshaped hsys).1 hop, hregistry]
    · exact .inl (by rw [hother t (Ne.symm hu), hop])
  · rcases eq_or_ne u t with rfl | hu
    · obtain ⟨result, hop'⟩ := (plan_step hshaped hsys).2 _ hop
      rw [hregistry] at hop'
      exact .inr (.inr (.inl (.inl ⟨_, result, hop', hmem⟩)))
    · exact .inr (.inl (by rw [hother t (Ne.symm hu), hop]))
  · refine .inr (.inr (pending_step hshaped hsys ⟨rfl, trivial⟩ hc ?_ hpending))
    intro pc ch e' n hl hcall hin hnext hafter
    obtain ⟨rfl, rfl⟩ := Prod.mk.inj hl
    rw [← hregistry] at hv hin
    rcases call_step hv (RungCall.request_safeState hc).1 hin.1 hin.2 hnext with
      ⟨pc', rfl, hbefore, htracks⟩ | ⟨target, args, rfl, hresolved⟩ | ⟨⟨result, rfl⟩, hasks⟩
    · rw [hregistry] at htracks
      exact .inl ⟨pc', rfl, hbefore, htracks⟩
    · exact .inr ⟨_, List.mem_append_right _ (List.mem_singleton.mpr rfl), target, request, args,
        rfl, hresolved⟩
    · -- the provider answers, so the call does not end there
      have hsome := hanswered rfl _ hcall hasks
      rw [hafter] at hsome
      simp only [Thread.withCall] at hsome
      split at hsome <;> cases hsome
  · exact .inr (.inr (.inr ⟨k, List.mem_append_left _ hk, hdispatches⟩))

theorem dispatched_of_due (hdue : Due cfg t registry c request v tr s)
    (hend : ∃ result, (s.thread t).op = .trigger (.ladder (.run [] result))) :
    ∃ k ∈ tr, Dispatches t v k := by
  obtain ⟨result, hend⟩ := hend
  rcases hdue with hop | hop | hpending | hdispatched
  · rw [hend] at hop
    cases hop
  · rw [hend] at hop
    cases hop
  · rcases hpending with ⟨rest, result', hop, hmem⟩ | ⟨_, _, _, _, hop, -⟩
    · rw [hend] at hop
      cases hop
      cases hmem
    · rw [hend] at hop
      cases hop
  · exact hdispatched

end

/-! ### The result -/

/-- A step in which `t` dispatches a call to the function `spec` of the device `d`, with arguments
that pass the function's validation. -/
def Drives (showDouble : Double → String) (t : ThreadId) (d : RegisteredDevice)
    (spec : FunctionSpec) (i : SystemState × ThreadId × Effect) : Prop :=
  ∃ request args, i.2 = (t, .call (.dispatch ⟨d.providerId, d.deviceId, spec, spec.functionName⟩
      request args)) ∧ validateArguments showDouble spec.args args = .ok ()

/-- The coverage report is sound where a handle names one device, no call of the planned rung
selects by id alone an id that two functions of the device share, and the provider's id has no
slash. An actuating function of an inventory that is not in the report of the planned rung is driven
by every trigger that has come to its ladder, in every run in which the inventory stays and the
device's provider is available to it: by the end of the ladder the function was called, and a run
always leads to that end. -/
theorem covered_function_is_driven {cfg : SystemConfig} {t : ThreadId} {g₀ g₁ : SystemState}
    {tr₁ : SystemTrace} {d : RegisteredDevice} {described : List FunctionSpec}
    {f : String × FunctionSpec} (h0 : SystemStart g₀) (h₁ : SystemRun cfg g₀ tr₁ g₁)
    (hplan : (g₁.thread t).op = .trigger (.ladder .plan))
    (hd : d ∈ g₁.shared.registry.devices) (hbuilt : d.functionsById.Builds described)
    (hf : f ∈ d.functionsById.entries) (hactuate : f.2.category = .actuate)
    (hslash : '/' ∉ d.providerId.toList)
    (hhandle : ∀ d' ∈ g₁.shared.registry.devices, d'.getHandle = d.getHandle → d' = d)
    (hclear : ∀ c ∈ rungCalls (plannedSafeStateKind g₁.shared.registry cfg.safety)
        g₁.shared.registry cfg.safety, ∀ request, c.request = .ok request →
      request.deviceHandle = d.getHandle → ¬ Ambiguous d request)
    (hcovered : d.getHandle ++ "/" ++ f.2.functionName ∉
      uncoveredFunctions cfg.showDouble g₁.shared.registry cfg.safety
        (plannedSafeStateKind g₁.shared.registry cfg.safety)) :
    ∀ tr g, Run (steady cfg t d.providerId).lts g₁ tr g →
      ((∃ k ∈ tr, EndsLadder t k) → ∃ k ∈ tr, Drives cfg.showDouble t d f.2 k) ∧
      ((∀ k ∈ tr, ¬ EndsLadder t k) → ∃ tr' g', Run (steady cfg t d.providerId).lts g tr' g' ∧
        ∃ k ∈ tr', EndsLadder t k) := by
  obtain ⟨name, spec⟩ := f
  obtain rfl : name = spec.functionName := hbuilt.key hf
  have hnamed : Named g₁.shared.registry d spec := ⟨hd, hf, hslash, hhandle⟩
  obtain ⟨c, hmem, request, v, hcovers⟩ := covering_entry (mem_actuating hd hf hactuate) hcovered
  obtain ⟨hp, hdev, hspec, hname, hvalid⟩ :=
    resolves_to_function hnamed hcovers.handle hcovers.selects
      (hclear c hmem request hcovers.made hcovers.handle) hcovers.valid
  have hdrives : ∀ k, Dispatches t v k → Drives cfg.showDouble t d spec k := by
    rintro k ⟨target, request', args, hk, rfl⟩
    obtain ⟨p, dev, spec', name⟩ := target
    simp only [Target.resolved] at hp hdev hspec hname hvalid
    subst hp hdev hspec hname
    exact ⟨request', args, hk, hvalid⟩
  intro tr g hrun
  -- along the run the entry is due, and the thread is inside the ladder until its end
  obtain ⟨-, hended, hinside⟩ : Due cfg t g₁.shared.registry c request v tr g ∧
      ((∃ k ∈ tr, EndsLadder t k) → ∃ k ∈ tr, Dispatches t v k) ∧
      ((∃ k ∈ tr, EndsLadder t k) ∨ InLadder t g) := by
    refine Run.induct (T := (steady cfg t d.providerId).lts) (J := fun tr g =>
      Due cfg t g₁.shared.registry c request v tr g ∧
        ((∃ k ∈ tr, EndsLadder t k) → ∃ k ∈ tr, Dispatches t v k) ∧
        ((∃ k ∈ tr, EndsLadder t k) ∨ InLadder t g)) ?_ ?_ hrun
    · exact ⟨Or.inl hplan, by simp, Or.inr ⟨.plan, hplan, fun _ _ _ h => by cases h⟩⟩
    · rintro tr s l s' hrun ⟨hdue, hended, hinside⟩ hstep
      obtain ⟨hsys, hregistry⟩ := steady_run hrun
      have hshaped := shaped_run h0 (h₁.append hsys) t
      rw [← hp] at hstep
      refine ⟨due_step hshaped hregistry hmem hcovers.made hcovers.valid hstep hdue, ?_, ?_⟩
      · rintro ⟨k, hk, hends⟩
        have hdone : ∃ k ∈ tr, Dispatches t v k := by
          rcases List.mem_append.mp hk with hk | hk
          · exact hended ⟨k, hk, hends⟩
          · rw [List.mem_singleton.mp hk] at hends
            exact dispatched_of_due hdue hends.2
        obtain ⟨k', hk', hdispatches⟩ := hdone
        exact ⟨k', List.mem_append_left _ hk', hdispatches⟩
      · rcases hinside with ⟨k, hk, hends⟩ | hinside
        · exact Or.inl ⟨k, List.mem_append_left _ hk, hends⟩
        · obtain ⟨u, e⟩ := l
          obtain ⟨hsys', hregistry', -⟩ := steady_step hstep
          rcases eq_or_ne u t with rfl | hu
          · rcases inLadder_step hshaped hsys' hregistry' hinside with ⟨hin, -⟩ | hends
            · exact Or.inr hin
            · exact Or.inl ⟨_, List.mem_append_right _ (List.mem_singleton.mpr rfl), hends⟩
          · obtain ⟨-, -, -, -, hother⟩ := system_step hsys'
            refine Or.inr ?_
            unfold InLadder
            rw [hother t (Ne.symm hu)]
            exact hinside
  refine ⟨fun hends => ?_, fun hnone => ?_⟩
  · obtain ⟨k, hk, hdispatches⟩ := hended hends
    exact ⟨k, hk, hdrives k hdispatches⟩
  · rcases hinside with ⟨k, hk, hends⟩ | hinside
    · exact absurd hends (hnone k hk)
    · exact ladder_ends h0 (h₁.append (steady_run hrun).1) hinside

/-! ### One call by id -/

/-- Thread 1 triggers the e-stop and comes to its ladder. -/
def toLadder : List (ThreadId × Choice) :=
  [(1, .start .trigger), (1, .go), (1, .go), (1, .save .saved)]

/-- The ladder of a rung with one call. -/
def oneCall : List (ThreadId × Choice) :=
  List.replicate 5 (1, .go) ++ callThrough 1 2

def atEnd (th : Thread) : Bool :=
  match th.op with
  | .trigger (.ladder (.run [] _)) => true
  | _ => false

theorem of_atEnd {th : Thread} (h : atEnd th) :
    ∃ result, th.op = .trigger (.ladder (.run [] result)) := by
  unfold atEnd at h
  split at h
  · exact ⟨_, by assumption⟩
  · cases h

/-- A step that dispatches to a function of that name. -/
def dispatchesTo (name : String) : Effect → Bool
  | .call (.dispatch target _ _) => target.name = name
  | _ => false

/-- Both schedules in the steady runtime, with a check of the second. -/
abbrev LadderPasses (cfg : SystemConfig) (g : SystemState) (check : Effect → Bool) : Prop :=
  ∃ r ∈ (steady cfg 1 "sim0").process.exec g toLadder,
    ∃ q ∈ (steady cfg 1 "sim0").process.exec r.2 oneCall,
    (r.2.thread 1).op.triggerAt? = some (.ladder .plan) ∧
      (∃ i ∈ q.1, i.2.1 = 1 ∧ atEnd (i.1.thread 1)) ∧ ∀ i ∈ q.1, check i.2.2

theorem of_ladderPasses {cfg : SystemConfig} {g : SystemState} {check : Effect → Bool}
    (h : LadderPasses cfg g check) :
    ∃ tr₁ g₁ tr g₂, SystemRun cfg g tr₁ g₁ ∧ g₁.shared.registry = g.shared.registry ∧
      (g₁.thread 1).op = .trigger (.ladder .plan) ∧
      Run (steady cfg 1 "sim0").lts g₁ tr g₂ ∧ (∃ k ∈ tr, EndsLadder 1 k) ∧
      ∀ k ∈ tr, check k.2.2 := by
  obtain ⟨⟨tr₁, g₁⟩, hexec₁, ⟨tr, g₂⟩, hexec, hplan, ⟨k, hk, ht, hend⟩, hcheck⟩ := h
  have hrun : Run (steady cfg 1 "sim0").lts g₁ tr g₂ := Process.exec_run hexec
  obtain ⟨hsys, hregistry⟩ := steady_run (Process.exec_run hexec₁)
  exact ⟨tr₁, g₁, tr, g₂, hsys, hregistry, Op.eq_of_triggerAt? hplan, hrun,
    ⟨k, hk, ht, of_atEnd hend⟩, hcheck⟩

/-- Two functions of a pump, described with one id. -/
def pumpIn : FunctionSpec := { functionId := 1, functionName := "in", category := .actuate }

def pumpOut : FunctionSpec := { functionId := 1, functionName := "out", category := .actuate }

def pump : RegisteredDevice where
  providerId := "sim0"
  deviceId := "pump"
  functionsById := { entries := [("in", pumpIn), ("out", pumpOut)] }

def pumpWorld : SystemState where
  shared := { mode := .manual, registry := ⟨[pump]⟩ }
  thread _ := {}

theorem pumpWorld_start : SystemStart pumpWorld := ⟨fun _ => rfl, rfl, rfl, fun _ => rfl, rfl⟩

/-- The e-stop stops the pump by a call with these selectors. -/
def stopPump (id : UInt32) (name : String) : SystemConfig where
  automation := { enabled := false }
  safety := { safeState := { hooks :=
    [{ deviceHandle := "sim0/pump", functionId := id, functionName := name }] } }

/-- Selected by its name, a function that shares its id is driven. -/
theorem covered_function_is_driven_pump :
    ∃ g₁ tr g, Run (steady (stopPump 0 "out") 1 "sim0").lts g₁ tr g ∧
      (∃ k ∈ tr, EndsLadder 1 k) ∧
      ∃ k ∈ tr, Drives (stopPump 0 "out").showDouble 1 pump pumpOut k := by
  have hpasses : LadderPasses (stopPump 0 "out") pumpWorld (fun _ => true) := by decide
  obtain ⟨tr₁, g₁, tr, g, hsys, hregistry, hplan, hrun, hends, -⟩ := of_ladderPasses hpasses
  have hd : pump ∈ g₁.shared.registry.devices := by
    rw [hregistry]
    exact List.mem_singleton.mpr rfl
  have hbuilt : pump.functionsById.Builds [pumpIn, pumpOut] := List.Perm.refl _
  have hhandle : ∀ d' ∈ g₁.shared.registry.devices, d'.getHandle = pump.getHandle → d' = pump := by
    rw [hregistry]
    intro d' hd' _
    exact List.mem_singleton.mp hd'
  have hclear : ∀ c ∈ rungCalls (plannedSafeStateKind g₁.shared.registry (stopPump 0 "out").safety)
        g₁.shared.registry (stopPump 0 "out").safety, ∀ request, c.request = .ok request →
      request.deviceHandle = pump.getHandle → ¬ Ambiguous pump request := by
    rintro c hc request hrequest - ⟨hname, -⟩
    obtain rfl := List.mem_singleton.mp hc
    obtain rfl := Except.ok.inj hrequest
    exact absurd hname (by decide)
  have hcovered : pump.getHandle ++ "/" ++ pumpOut.functionName ∉
      uncoveredFunctions (stopPump 0 "out").showDouble g₁.shared.registry (stopPump 0 "out").safety
        (plannedSafeStateKind g₁.shared.registry (stopPump 0 "out").safety) := by
    rw [hregistry]
    decide
  have hdriven := covered_function_is_driven (f := ("out", pumpOut)) pumpWorld_start hsys hplan hd
    hbuilt (by simp [pump]) rfl (by decide) hhandle hclear hcovered
  exact ⟨g₁, tr, g, hrun, hends, (hdriven tr g hrun).1 hends⟩

/-- The report says that both functions are covered, and a trigger that comes to the end of its
ladder calls one of them. -/
theorem shared_id_is_not_driven :
    ∃ tr₁ g₁ tr g, SystemStart pumpWorld ∧ SystemRun (stopPump 1 "") pumpWorld tr₁ g₁ ∧
      (g₁.thread 1).op = .trigger (.ladder .plan) ∧ pump ∈ g₁.shared.registry.devices ∧
      pump.functionsById.Builds [pumpIn, pumpOut] ∧
      ("out", pumpOut) ∈ pump.functionsById.entries ∧ pumpOut.category = .actuate ∧
      pump.getHandle ++ "/" ++ pumpOut.functionName ∉
        uncoveredFunctions (stopPump 1 "").showDouble g₁.shared.registry (stopPump 1 "").safety
          (plannedSafeStateKind g₁.shared.registry (stopPump 1 "").safety) ∧
      Run (steady (stopPump 1 "") 1 pump.providerId).lts g₁ tr g ∧ (∃ k ∈ tr, EndsLadder 1 k) ∧
      ∀ k ∈ tr, ¬ Drives (stopPump 1 "").showDouble 1 pump pumpOut k := by
  have hpasses : LadderPasses (stopPump 1 "") pumpWorld (fun e => !dispatchesTo "out" e) := by
    decide
  obtain ⟨tr₁, g₁, tr, g, hsys, hregistry, hplan, hrun, hends, hnone⟩ := of_ladderPasses hpasses
  refine ⟨tr₁, g₁, tr, g, pumpWorld_start, hsys, hplan, ?_, List.Perm.refl _, by simp [pump], rfl,
    ?_, hrun, hends, ?_⟩
  · rw [hregistry]
    exact List.mem_singleton.mpr rfl
  · rw [hregistry]
    decide
  · rintro k hk ⟨request, args, hdispatch, -⟩
    have hcheck := hnone k hk
    rw [hdispatch] at hcheck
    simp [dispatchesTo, pumpOut] at hcheck

end Anolis.Proofs.Coverage
