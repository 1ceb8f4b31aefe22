import Anolis.Proofs.EstopBarrier
import Anolis.Proofs.ModeManager

/-!
# The mode in which the tree's calls are dispatched

A tick of the behaviour tree reads the mode once, before its first node. `execute_call` refuses
the tree's calls in IDLE only. So a tick that was started in AUTO goes on after the mode has
changed: `tree_call_in_fault` is a run in which `AUTO -> FAULT` is committed and its hook has
closed the valve, and then the tree opens it.

`tree_calls_in_auto` is what holds: if no transition out of AUTO is committed while a tick runs
(`Condition`), every call of the tree is dispatched in AUTO.

* `treeCall_run`: a call of the tree runs inside a tick (`Thread.TreeCall`).
* `ticking_run`: while a tick runs, the mode is AUTO.
-/

namespace Anolis.Proofs.TreeCalls

open Anolis.Runtime Control EstopBarrier Lib ModeManager

variable {cfg : SystemConfig}

/-- The condition on a step: it commits no transition out of AUTO while a tick runs. -/
def Condition (s : SystemState) (l : ThreadId × Effect) : Prop :=
  ∀ new, l.2 = .mode (.commit .auto new) → ∀ t, (s.thread t).op ≠ .tick .running

/-- A call of the tree runs inside a tick. -/
def TreeCall (th : Thread) : Prop :=
  ∀ request pc, th.call = some ⟨request, pc⟩ → request.isBehaviorTree →
    th.op = .tick .running

/-! ### The calls of a tick -/

section
variable {sh : Shared} {t : ThreadId} {th th' : Thread} {e : Effect} {request : CallRequest}

theorem ladderNext_call {scope : LadderScope} {pc pc' : LadderPc}
    (h : ladderNext cfg sh scope pc = some (.call pc' request)) :
    request.isBehaviorTree = false := by
  revert h
  fun_cases ladderNext cfg sh scope pc <;> intro h <;>
    simp only [Option.some.injEq, LadderNext.call.injEq, reduceCtorEq] at h
  obtain ⟨-, rfl⟩ := h
  rename_i hrequest
  exact (RungCall.request_safeState hrequest).2.2

theorem OpStep.treeCall {op op' : Op} {e : ControlEffect}
    (h : OpStep cfg sh t op e (.call op' request)) (htree : request.isBehaviorTree) :
    op' = .tick .running := by
  cases h with
  | start start h =>
    cases start with
    | call handle id name args =>
      cases h
      cases htree
    | setMode | updateStopChain | tick =>
      simp only [startOp] at h
      split at h <;> cases h
    | _ => cases h
  | triggerLadderCall pc pc' request h | ladderCall scope pc pc' request h =>
    rw [ladderNext_call h] at htree
    cases htree
  | treeCall handle name args => rfl

theorem treeCall_step (h : ThreadStep cfg sh t th e th') (hth : TreeCall th) : TreeCall th' := by
  intro request pc hcall htree
  cases h with
  | @call request₀ pc₀ c e n hcall₀ h =>
    cases n with
    | go pc' =>
      obtain ⟨rfl, -⟩ := CallState.mk.inj (Option.some.inj hcall)
      exact hth request₀ pc₀ hcall₀ htree
    | ret result =>
      simp only [Thread.withCall] at hcall
      split at hcall <;> cases hcall
  | @mode new pc₀ c e n hcall₀ hmode h =>
    cases n with
    | call pc' request' =>
      -- the calls of a `set_mode` are its hooks'
      obtain ⟨rfl, -⟩ := CallState.mk.inj (Option.some.inj hcall)
      obtain ⟨call, rfl⟩ := h.of_call
      cases htree
    | go pc' | ret ok =>
      simp only [Thread.withMode, hcall₀] at hcall
      cases hcall
  | @op op e n hcall₀ hmode hop h =>
    cases n with
    | call op' request' =>
      obtain ⟨rfl, -⟩ := CallState.mk.inj (Option.some.inj hcall)
      exact OpStep.treeCall h htree
    | go op' | setMode op' new =>
      simp only [Thread.withOp, hcall₀] at hcall
      cases hcall

theorem OpStep.ticking {op : Op} {e : ControlEffect} {n : OpNext} (h : OpStep cfg sh t op e n)
    (hn : n.op = .tick .running) : op = .tick .running ∨ sh.mode = .auto := by
  cases h
  case start start h =>
    cases start <;> simp only [startOp] at h
    all_goals first | split at h | skip
    all_goals cases h <;> cases hn
  case tickMode hfree hauto => exact .inr hauto
  case treeCall => exact .inl rfl
  all_goals cases hn

theorem ticking_back (h : ThreadStep cfg sh t th e th') (hop : th'.op = .tick .running) :
    th.op = .tick .running ∨ (sh.mode = .auto ∧ ∃ e', e = .control e') := by
  rcases h.op_cases with ⟨op, e', n, rfl, -, -, rfl, hs, hn⟩ | ⟨-, heq | ⟨result, heq⟩ | heq⟩
  · exact (OpStep.ticking hs (hn ▸ hop)).imp_right fun hauto => ⟨hauto, e', rfl⟩
  · exact .inl (heq ▸ hop)
  · -- a call's return moves the ladders only
    left
    rw [heq] at hop
    unfold Op.callReturned at hop
    split at hop
    · cases hop
    · cases hop
    · exact hop
  · -- the `set_mode` of a tick ends it
    left
    rw [heq] at hop
    unfold Op.modeReturned at hop
    split at hop
    all_goals first | exact hop | cases hop

end

/-! ### Runs -/

section
variable {g₀ g : SystemState} {tr : SystemTrace}

theorem treeCall_run (h0 : SystemStart g₀) (h : SystemRun cfg g₀ tr g) :
    ∀ t, TreeCall (g.thread t) := by
  refine thread_run (C := fun _ _ => True) (P := fun _ th => TreeCall th) h0 ?_ ?_ h
    (fun _ _ => trivial)
  · intro t request pc hcall
    cases hcall
  · intro g t e th' _ hts hth
    exact treeCall_step hts hth

theorem ticking_run (h0 : SystemStart g₀) (h : SystemRun cfg g₀ tr g)
    (hcond : ∀ i ∈ tr, Condition i.1 i.2) :
    ∀ t, (g.thread t).op = .tick .running → g.shared.mode = .auto := by
  refine Run.induct_of (C := Condition)
    (J := fun _ g => ∀ t, (g.thread t).op = .tick .running → g.shared.mode = .auto) ?_ ?_ h hcond
  · intro t hop
    rw [h0.idle] at hop
    cases hop
  · rintro tr g ⟨u, e⟩ g' hrun - ih hc hstep t hop
    obtain ⟨th', hth, hts, hsh, hother⟩ := system_step hstep
    rcases hts.mode_eq with ⟨hsame, -⟩ | ⟨prev, new, rfl, -, hm, -⟩
    · -- the mode stays: the tick ran before, or it has just read AUTO
      rw [hsh, hsame]
      rcases eq_or_ne t u with rfl | htu
      · rw [hth] at hop
        rcases ticking_back hts hop with hop₀ | ⟨hauto, -⟩
        · exact ih t hop₀
        · exact hauto
      · rw [hother t htu] at hop
        exact ih t hop
    · -- a commit leaves every tick as it is, and the mode it overwrites is AUTO if one runs
      exfalso
      have hop₀ : (g.thread t).op = .tick .running := by
        rcases eq_or_ne t u with rfl | htu
        · rw [hth] at hop
          rcases ticking_back hts hop with hop₀ | ⟨-, e', he⟩
          · exact hop₀
          · cases he
        · rw [← hother t htu]
          exact hop
      obtain rfl : prev = .auto := (placed_run h0 hrun u _ hm).1.trans (ih t hop₀)
      exact hc new rfl t hop₀

end

/-- In every run in which no transition out of AUTO is committed while a tick runs, every call of
the tree is dispatched in AUTO. -/
theorem tree_calls_in_auto (cfg : SystemConfig) {g₀ g : SystemState} {tr : SystemTrace}
    (h0 : SystemStart g₀) (hrun : SystemRun cfg g₀ tr g) (hcond : ∀ i ∈ tr, Condition i.1 i.2) :
    ∀ i ∈ tr, ∀ target request args, i.2.2 = .call (.dispatch target request args) →
      request.isBehaviorTree → i.1.shared.mode = .auto := by
  rintro ⟨s, t, e⟩ hi target request args rfl htree
  obtain ⟨tr₁, tr₂, s₁, rfl, hrun₁, hstep, -⟩ := hrun.of_mem hi
  obtain ⟨hcond₁, -⟩ := List.forall_mem_append.mp hcond
  obtain ⟨th', -, hts, -, -⟩ := system_step hstep
  cases hts with
  | call hcall hnext =>
    obtain ⟨rfl, -⟩ := callNext_dispatch hnext
    have hop : (s.thread t).op = .tick .running := treeCall_run h0 hrun₁ t _ _ hcall htree
    exact ticking_run h0 hrun₁ hcond₁ t hop

/-! ### A tick in AUTO, and one that FAULT overtakes -/

/-- An after-hook closes the valve on `AUTO -> FAULT`. -/
def tickConfig : SystemConfig where
  automation :=
    { enabled := true
      afterTransition :=
        [{ src := "AUTO", dst := "FAULT",
           calls := [{ deviceHandle := "sim0/valve", functionName := "close" }] }] }

/-- Thread 1 starts a tick, in AUTO. -/
def startTick : List (ThreadId × Choice) := [(1, .start .tick), (1, .go)]

/-- The tree opens the valve: the call, up to its dispatch. -/
def treeOpens : List (ThreadId × Choice) :=
  [(1, .treeCall "sim0/valve" "open" SortedMap.empty), (1, .go), (1, .go), (1, .found true),
    (1, .available true)] ++ List.replicate 9 (1, .go)

/-- Thread 2 enters FAULT and runs its hook, whose call is dispatched, up to its return. -/
def faultCloses : List (ThreadId × Choice) :=
  (2, .start (.setMode .fault)) :: List.replicate 13 (2, .go) ++ callThrough 2 6

/-- The tree's call is dispatched, in AUTO. -/
theorem tree_calls_in_auto_open : ∃ tr g, SystemRun tickConfig (valveWorld .auto) tr g ∧
      ∃ i ∈ tr, dispatched? CallRequest.isBehaviorTree i = some ("open", true) ∧
        i.1.shared.mode = .auto := by
  obtain ⟨tr, g, hrun, hp⟩ := Machine.run_of_passes (system tickConfig) (valveWorld .auto)
    (startTick ++ treeOpens ++ [(1, .go)])
    (fun tr _ => (∀ i ∈ tr, stepCommit? i = none) ∧
      ∃ i ∈ tr, dispatched? CallRequest.isBehaviorTree i = some ("open", true)) (by decide)
  obtain ⟨hcommit, i, hi, hopen⟩ := hp
  have hcond : ∀ i ∈ tr, Condition i.1 i.2 := by
    intro i hi new he
    have hnone := hcommit i hi
    simp [stepCommit?, commit?, he] at hnone
  obtain ⟨target, request, args, he, -, htree⟩ := dispatched?_eq_some hopen
  exact ⟨tr, g, hrun, i, hi, hopen,
    tree_calls_in_auto tickConfig (valveWorld_start .auto) hrun hcond i hi target request args he
      htree⟩

/-- Thread 1 starts a tick in AUTO. Thread 2 commits `AUTO -> FAULT`, its hook closes the valve,
and it returns. Then the tree opens the valve, in FAULT. -/
theorem tree_call_in_fault :
    ∃ tr₁ i tr₂ g, SystemRun tickConfig (valveWorld .auto) (tr₁ ++ i :: tr₂) g ∧
      (∃ j ∈ tr₁, j.2 = (2, .mode (.commit .auto .fault))) ∧
      (∃ j ∈ tr₁, dispatched? CallRequest.isBehaviorTree j = some ("close", false)) ∧
      (∃ j ∈ tr₁, j.2 = (2, .mode (.returned .fault true))) ∧
      dispatched? CallRequest.isBehaviorTree i = some ("open", true) ∧
        i.1.shared.mode = .fault := by
  obtain ⟨tr₁, s, tr₂, g, hrun₁, hrun₂, hp⟩ := Machine.runs_of_passesThen (system tickConfig)
    (valveWorld .auto) (startTick ++ faultCloses ++ treeOpens) [(1, .go)]
    (fun tr₁ _ tr₂ _ => (∃ j ∈ tr₁, modeEffect? 2 j = some (.commit .auto .fault)) ∧
      (∃ j ∈ tr₁, dispatched? CallRequest.isBehaviorTree j = some ("close", false)) ∧
      (∃ j ∈ tr₁, modeEffect? 2 j = some (.returned .fault true)) ∧
      ∃ i ∈ tr₂.head?, dispatched? CallRequest.isBehaviorTree i = some ("open", true) ∧
        i.1.shared.mode = .fault)
    (by decide)
  obtain ⟨⟨j₁, hj₁, hl₁⟩, hclose, ⟨j₂, hj₂, hl₂⟩, i, hhead, hopen⟩ := hp
  have hrun := hrun₁.append hrun₂
  rw [← List.cons_head?_tail hhead] at hrun
  exact ⟨tr₁, i, tr₂.tail, g, hrun, ⟨j₁, hj₁, eq_of_modeEffect? hl₁⟩, hclose,
    ⟨j₂, hj₂, eq_of_modeEffect? hl₂⟩, hopen⟩

end Anolis.Proofs.TreeCalls
