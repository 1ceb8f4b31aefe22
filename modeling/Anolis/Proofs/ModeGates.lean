import Anolis.Proofs.EstopBarrier
import Anolis.Proofs.ModeManager

/-!
# The mode in which a call is dispatched

`execute_call` asks the mode three times before it waits for the provider's lock: whether the
mode is IDLE, whether a manual call meets AUTO under the BLOCK policy, and whether the mode is
among the function's `allowed_modes`. After the wait it asks the two latches again, and the mode
no more. So a mode change that commits during the wait overtakes the call: in
`manual_call_in_idle` a manual call waits at the lock, `MANUAL -> IDLE` is committed and returns,
and then the call is dispatched, in IDLE.

`mode_gates_at_dispatch` is what holds: if every commit leaves the calls in progress with a mode
in which they would pass the gates that they have passed (`Condition`), the gates hold at every
dispatch.
-/

namespace Anolis.Proofs.ModeGates

open Anolis.Runtime Automation Control EstopBarrier Lib ModeManager

variable {cfg : SystemConfig}

/-- Would a call at this place pass, in `mode`, the gates that it has passed. -/
def passes (cfg : SystemConfig) (mode : RuntimeMode) (request : CallRequest) : CallPc → Bool
  | .idleGate => true
  | .autoGate => mode ≠ .idle
  | .provider | .available _ _ | .device _ _ | .allowedModes _ =>
    mode ≠ .idle && !manualBlocked cfg mode request
  | .latch target | .loss target | .arguments target | .lock target _ | .latchAgain target _
  | .lossAgain target _ | .interval target _ | .dispatch target _ =>
    mode ≠ .idle && !manualBlocked cfg mode request &&
      modeAllowed target.spec (modeToString mode)
  -- nothing is asked of a call that has been dispatched or refused
  | .reply _ | .leave _ _ => true

/-- The condition on a step: it commits only a mode in which every call in progress, safe-state
calls apart, would pass the gates that it has passed. -/
def Condition (cfg : SystemConfig) (s : SystemState) (l : ThreadId × Effect) : Prop :=
  ∀ prev new, l.2 = .mode (.commit prev new) → ∀ t request pc,
    (s.thread t).call = some ⟨request, pc⟩ → request.safeState = false →
      passes cfg new request pc

/-! ### The calls in progress -/

theorem modeAllowed_of_nil {spec : Registry.FunctionSpec} (mode : String)
    (h : spec.allowedModes = []) : modeAllowed spec mode := by
  simp [modeAllowed, h]

section
variable {sh : Shared} {t : ThreadId} {request : CallRequest} {pc pc' : CallPc} {c : Choice}
  {e : CallEffect}

/-- A step of a call passes the gate it is at, in the current mode. -/
theorem callNext_passes (h : callNext cfg sh t request pc c = some (e, .go pc'))
    (hsafe : request.safeState = false) (hpc : passes cfg (currentMode cfg sh) request pc) :
    passes cfg (currentMode cfg sh) request pc' := by
  revert h
  fun_cases callNext cfg sh t request pc c <;> intro h <;>
    simp only [refuse, some_pair, reduceCtorEq, and_false, CallNext.go.injEq] at h
  all_goals obtain ⟨-, rfl⟩ := h
  -- with automation the gates read the mode, without it they take MANUAL
  all_goals cases henabled : cfg.automation.enabled
  all_goals simp_all [passes, currentMode, manualBlocked]
  all_goals grind [modeAllowed_of_nil, modeToString]

theorem gatesOpen_of_armed {mode : RuntimeMode} {target : Target}
    (hpc : passes cfg mode request pc) (harmed : pc.armed = some target) :
    GatesOpen cfg mode request target := by
  have hall : mode ≠ .idle ∧ manualBlocked cfg mode request = false ∧
      modeAllowed target.spec (modeToString mode) = true := by
    cases pc <;> simp_all [passes, CallPc.armed]
  refine ⟨hall.1, fun hne => ?_, hall.2.1⟩
  simpa [modeAllowed, hne] using hall.2.2

end

section
variable {g₀ g : SystemState} {tr : SystemTrace}

/-- In every state, every call in progress would pass the gates that it has passed. -/
theorem passes_run (h0 : SystemStart g₀) (h : SystemRun cfg g₀ tr g)
    (hcond : ∀ i ∈ tr, Condition cfg i.1 i.2) :
    ∀ t request pc, (g.thread t).call = some ⟨request, pc⟩ → request.safeState = false →
      passes cfg (currentMode cfg g.shared) request pc := by
  refine Run.induct_of (C := Condition cfg)
    (J := fun _ g => ∀ t request pc, (g.thread t).call = some ⟨request, pc⟩ →
      request.safeState = false → passes cfg (currentMode cfg g.shared) request pc)
    ?_ ?_ h hcond
  · intro t request pc hcall
    rw [h0.idle] at hcall
    cases hcall
  · rintro tr g ⟨u, e⟩ g' - - ih hc hstep t request pc hcall hsafe
    obtain ⟨th', hth, hts, hsh, hother⟩ := system_step hstep
    rcases hts.mode_eq with ⟨hmode, -⟩ | ⟨prev, new, rfl, hcall₀, -, hth'⟩
    · -- the mode stays, so only the call that moves is to be looked at
      have hcur : currentMode cfg g'.shared = currentMode cfg g.shared := by
        simp only [currentMode, hsh, hmode]
      rw [hcur]
      rcases eq_or_ne t u with rfl | htu
      · rw [hth] at hcall
        rcases hts.call_cases hcall with ⟨-, rfl⟩ | ⟨pc₀, c, e', rfl, hcall₀, hnext⟩
        · rfl
        · exact callNext_passes hnext hsafe (ih t _ _ hcall₀ hsafe)
      · rw [hother t htu] at hcall
        exact ih t request pc hcall hsafe
    · -- a commit meets every call in progress where the condition has it
      have hcall' : (g.thread t).call = some ⟨request, pc⟩ := by
        rcases eq_or_ne t u with rfl | htu
        · rw [hth, hth'] at hcall
          simp only [Thread.withMode, hcall₀] at hcall
          cases hcall
        · rw [← hother t htu]
          exact hcall
      have hnew := hc prev new rfl t request pc hcall' hsafe
      by_cases henabled : cfg.automation.enabled
      · have hcur : currentMode cfg g'.shared = new := by
          simp [currentMode, hsh, henabled, Shared.apply, Shared.applyMode]
        rw [hcur]
        exact hnew
      · have hcur : currentMode cfg g'.shared = currentMode cfg g.shared := by
          simp [currentMode, henabled]
        rw [hcur]
        exact ih t request pc hcall' hsafe

end

/-- In every run whose commits leave the calls in progress with a mode in which they would pass
the gates that they have passed, the mode gates hold at every dispatch of a call that is no
safe-state call. -/
theorem mode_gates_at_dispatch (cfg : SystemConfig) {g₀ g : SystemState} {tr : SystemTrace}
    (h0 : SystemStart g₀) (hrun : SystemRun cfg g₀ tr g) (hcond : ∀ i ∈ tr, Condition cfg i.1 i.2) :
    ∀ i ∈ tr, ∀ target request args, i.2.2 = .call (.dispatch target request args) →
      request.safeState = false → GatesOpen cfg (currentMode cfg i.1.shared) request target := by
  rintro ⟨s, t, e⟩ hi target request args rfl hsafe
  obtain ⟨tr₁, tr₂, s₁, rfl, hrun₁, hstep, -⟩ := hrun.of_mem hi
  obtain ⟨hcond₁, -⟩ := List.forall_mem_append.mp hcond
  obtain ⟨th', -, hts, -, -⟩ := system_step hstep
  have hcall : (s.thread t).call = some ⟨request, .dispatch target args⟩ := hts.of_dispatch.1
  exact gatesOpen_of_armed (passes_run h0 hrun₁ hcond₁ t _ _ hcall hsafe) rfl

/-! ### A mode change that overtakes a call -/

/-- Thread 2 changes the mode, in `n` steps. -/
def changeMode (new : RuntimeMode) (n : Nat) : List (ThreadId × Choice) :=
  (2, .start (.setMode new)) :: List.replicate n (2, .go)

/-- Is the request a manual one, outside the safe-state ladder. -/
def isManual (request : CallRequest) : Bool := !request.isAutomated && !request.safeState

/-- Would the call of a thread, where it has one, pass in `mode` the gates it has passed. -/
def callPasses (cfg : SystemConfig) (mode : RuntimeMode) (th : Thread) : Bool :=
  th.call.all fun k => k.request.safeState || passes cfg mode k.request k.pc

/-- FAULT is entered while the call waits. The call is dispatched, with its gates open. -/
theorem mode_gates_at_dispatch_fault : ∃ tr g, SystemRun valveConfig (valveWorld .manual) tr g ∧
      ∃ i ∈ tr, i.1.shared.mode = .fault ∧ ∃ target request args,
        i.2.2 = .call (.dispatch target request args) ∧ request.isAutomated = false ∧
          GatesOpen valveConfig (currentMode valveConfig i.1.shared) request target := by
  obtain ⟨tr, g, hrun, hp⟩ := Machine.run_of_passes (system valveConfig) (valveWorld .manual)
    (openToLock 1 ++ changeMode .fault 13 ++ List.replicate 5 (1, .go))
    (fun tr _ => (∀ i ∈ tr, i.2.1 ∈ [1, 2] ∧ ∀ m ∈ stepCommit? i, ∀ t ∈ [1, 2],
        callPasses valveConfig m.2 (i.1.thread t)) ∧
      ∃ i ∈ tr, dispatched? isManual i = some ("open", true) ∧ i.1.shared.mode = .fault)
    (by decide)
  obtain ⟨hall, i, hi, hopen, hmode⟩ := hp
  have hcond : ∀ i ∈ tr, Condition valveConfig i.1 i.2 := by
    intro i hi prev new he t request pc hcall hsafe
    have hthreads := (Machine.all_threads (P := fun th => callPasses valveConfig new th)
      hrun (fun j hj => (hall j hj).1) fun _ => rfl).2 i hi
      (by simpa [stepCommit?, commit?, he] using (hall i hi).2)
    simpa [callPasses, hcall, hsafe] using hthreads t
  obtain ⟨target, request, args, he, -, hmanual⟩ := dispatched?_eq_some hopen
  have hflags : request.isAutomated = false ∧ request.safeState = false := by
    simpa [isManual] using hmanual
  exact ⟨tr, g, hrun, i, hi, hmode, target, request, args, he, hflags.1,
    mode_gates_at_dispatch valveConfig (valveWorld_start .manual) hrun hcond i hi target request
      args he hflags.2⟩

/-- Thread 1's manual call waits for the provider's lock. Thread 2 commits `MANUAL -> IDLE` and
returns. Then the call is dispatched, in IDLE. -/
theorem manual_call_in_idle :
    ∃ tr₁ i tr₂ g, SystemRun valveConfig (valveWorld .manual) (tr₁ ++ i :: tr₂) g ∧
      (∃ j ∈ tr₁, j.2 = (2, .mode (.commit .manual .idle))) ∧
      (∃ j ∈ tr₁, j.2 = (2, .mode (.returned .idle true))) ∧
      (∃ target request args, i.2.2 = .call (.dispatch target request args) ∧
        request.isAutomated = false ∧ request.safeState = false) ∧
      currentMode valveConfig i.1.shared = .idle := by
  obtain ⟨tr₁, s, tr₂, g, hrun₁, hrun₂, hp⟩ := Machine.runs_of_passesThen (system valveConfig)
    (valveWorld .manual) (openToLock 1 ++ changeMode .idle 15 ++ List.replicate 4 (1, .go))
    [(1, .go)]
    (fun tr₁ _ tr₂ _ => (∃ j ∈ tr₁, modeEffect? 2 j = some (.commit .manual .idle)) ∧
      (∃ j ∈ tr₁, modeEffect? 2 j = some (.returned .idle true)) ∧
      ∃ i ∈ tr₂.head?, dispatched? isManual i = some ("open", true) ∧ i.1.shared.mode = .idle)
    (by decide)
  obtain ⟨⟨j₁, hj₁, hl₁⟩, ⟨j₂, hj₂, hl₂⟩, i, hhead, hopen, hmode⟩ := hp
  obtain ⟨target, request, args, he, -, hmanual⟩ := dispatched?_eq_some hopen
  have hflags : request.isAutomated = false ∧ request.safeState = false := by
    simpa [isManual] using hmanual
  have hrun := hrun₁.append hrun₂
  rw [← List.cons_head?_tail hhead] at hrun
  exact ⟨tr₁, i, tr₂.tail, g, hrun, ⟨j₁, hj₁, eq_of_modeEffect? hl₁⟩,
    ⟨j₂, hj₂, eq_of_modeEffect? hl₂⟩, ⟨target, request, args, he, hflags⟩,
    by simpa [currentMode, valveConfig] using hmode⟩

end Anolis.Proofs.ModeGates
