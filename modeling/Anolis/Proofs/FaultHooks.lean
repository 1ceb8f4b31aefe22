import Anolis.Proofs.HookCalls

/-!
# The hooks of an `AUTO -> FAULT` entry

The gate into AUTO asks for a declared hook that covers `AUTO -> FAULT`, and a before-hook will
do. But the before-hooks are chosen by the mode that `set_mode` read first, while a FAULT entry
commits from the mode it finds last. `fault_from_auto_without_hooks` is a run in which AUTO is
committed in between: the entry leaves AUTO, and its before-hook has not run.

`auto_fault_runs_hooks` is what holds: if every such FAULT entry in progress at a commit of AUTO
was shown a mode whose before-hooks include those of AUTO (`Covers`), the hooks of every
`AUTO -> FAULT` entry run. The after-hooks need no condition, they are given the mode that was
overwritten.
-/

namespace Anolis.Proofs.FaultHooks

open Anolis.Runtime Automation Control HookCalls Lib ModeManager

variable {cfg : SystemConfig} {t : ThreadId}

/-- The mode that a `set_mode` was shown, until it has looked at the mode again. -/
def shown? : SetModePc → Option RuntimeMode
  | .before shown _ | .beforeHook shown _ _ _ | .relock shown | .recheck shown => some shown
  | _ => none

/-- The mode that the running `set_mode(FAULT)` of a thread was shown. -/
def faultShown? (th : Thread) : Option RuntimeMode :=
  th.mode.bind fun m => if m.new = .fault then shown? m.pc else none

/-- The before-hooks that match `AUTO -> FAULT` match `shown -> FAULT` too. -/
def Covers (cfg : SystemConfig) (shown : RuntimeMode) : Prop :=
  ∀ hook ∈ cfg.automation.beforeTransition, hook.fires .auto .fault →
    hook.fires shown .fault

/-- The condition on a step: the latch is disengaged, and where the step commits AUTO, every
`set_mode(FAULT)` in progress was shown a mode that covers AUTO. -/
def Condition (cfg : SystemConfig) (s : SystemState) (l : ThreadId × Effect) : Prop :=
  s.shared.latched = false ∧ ∀ prev, l.2 = .mode (.commit prev .auto) →
    ∀ t shown, faultShown? (s.thread t) = some shown → Covers cfg shown

/-! ### The mode that was shown -/

section
variable {sh : Shared} {new shown : RuntimeMode} {pc pc' : SetModePc} {c : Choice} {e : ModeEffect}
  {n : SetModeNext}

theorem shown?_step (h : SetModeStep cfg sh t .fault c pc e n) (hn : n.pc? = some pc')
    (hshown : shown? pc' = some shown) :
    shown? pc = some shown ∨ (e.isEntry ∧ shown = sh.mode) := by
  cases h
  case ret => cases hn
  all_goals cases hn
  case enter =>
    simp only [SetModePc.entered] at hshown
    repeat' split at hshown
    all_goals cases hshown
    exact .inr ⟨rfl, rfl⟩
  case beforeAnswer | beforeHookEnd =>
    rw [SetModePc.answered_fault] at hshown
    exact .inl hshown
  case recheck =>
    simp only [SetModePc.rechecked] at hshown
    repeat' split at hshown
    all_goals cases hshown
  all_goals exact .inl hshown

theorem faultShown?_eq_some {th : Thread} (h : faultShown? th = some shown) :
    ∃ pc, th.mode = some ⟨.fault, pc⟩ ∧ shown? pc = some shown := by
  obtain ⟨⟨new, pc⟩, hm, hs⟩ := Option.bind_eq_some_iff.mp h
  dsimp only at hs
  split at hs
  · rename_i hnew
    obtain rfl : new = .fault := hnew
    exact ⟨pc, hm, hs⟩
  · cases hs

theorem shown?_callReturned (m : SetMode) (result : CallResult) :
    shown? (m.callReturned result).pc = shown? m.pc := by
  unfold SetMode.callReturned
  split <;> rename_i h <;> simp [h, shown?]

end

/-- In AUTO, every `set_mode(FAULT)` in progress was shown a mode that covers AUTO. -/
theorem covers_run {cfg : SystemConfig} {g₀ g : SystemState} {tr : SystemTrace}
    (h0 : SystemStart g₀) (h : SystemRun cfg g₀ tr g) (hcond : ∀ i ∈ tr, Condition cfg i.1 i.2) :
    g.shared.mode = .auto →
      ∀ t shown, faultShown? (g.thread t) = some shown → Covers cfg shown := by
  refine Run.induct_of (C := Condition cfg) (J := fun _ g => g.shared.mode = .auto →
    ∀ t shown, faultShown? (g.thread t) = some shown → Covers cfg shown) ?_ ?_ h hcond
  · intro _ t shown hshown
    rw [h0.idle] at hshown
    cases hshown
  · rintro tr g ⟨u, e⟩ g' - - ih hc hstep hauto t shown hshown
    obtain ⟨th', hth, hts, hsh, hother⟩ := system_step hstep
    -- what was shown before the step is covered: in AUTO before, or by the condition
    have hold : ∀ t shown, faultShown? (g.thread t) = some shown → Covers cfg shown := by
      rw [hsh] at hauto
      rcases hts.mode_eq with ⟨hsame, -⟩ | ⟨prev, new, rfl, -⟩
      · exact ih (hsame ▸ hauto)
      · obtain rfl : new = .auto := hauto
        exact hc.2 prev rfl
    rcases eq_or_ne t u with rfl | htu
    · rw [hth] at hshown
      obtain ⟨pc, hm, hs⟩ := faultShown?_eq_some hshown
      rcases hts.mode_cases hm with ⟨-, hpc, -⟩ | ⟨pc₀, c, e', n, rfl, -, hm₀, hstep', hn⟩ |
        ⟨-, hsame | ⟨m₀, result, hm₀, heq⟩⟩
      · obtain rfl : pc = .enter := hpc
        cases hs
      · rcases shown?_step hstep' hn hs with hs₀ | ⟨hentry, rfl⟩
        · exact hold t shown (by simp [faultShown?, hm₀, hs₀])
        · -- the call begins here, and its step leaves the mode
          have hmode : g.shared.mode = .auto := by
            rw [hsh] at hauto
            rcases hts.mode_eq with ⟨hsame, -⟩ | ⟨prev, new, he, -⟩
            · exact hsame ▸ hauto
            · obtain rfl := Effect.mode.inj he
              cases hentry
          rw [hmode]
          exact fun _ _ => id
      · exact hold t shown (by simp [faultShown?, hsame, hs])
      · refine hold t shown ?_
        have hnew : m₀.new = .fault :=
          (SetMode.callReturned_new m₀ result).symm.trans (congrArg SetMode.new heq.symm)
        have hpc : shown? m₀.pc = some shown := by
          rw [← shown?_callReturned m₀ result, ← heq]
          exact hs
        simp [faultShown?, hm₀, hnew, hpc]
    · exact hold t shown (hother t htu ▸ hshown)

/-! ### Nothing is held back -/

section
variable {g₀ g : SystemState} {tr : SystemTrace} {hook : ModeTransitionHookConfig}
  {call : ModeTransitionCallConfig}

theorem not_held (h : SystemRun cfg g₀ tr g) (hcond : ∀ i ∈ tr, Condition cfg i.1 i.2)
    (request : CallRequest) : .hookHeld request ∉ callLog t tr := by
  intro hheld
  obtain ⟨s, hs⟩ := mem_callLog hheld
  have hmem := mem_of_mem_callTrace hs
  have hlatched : s.shared.latched = false := (hcond _ hmem).1
  obtain ⟨tr₁, tr₂, rfl⟩ := List.append_of_mem hmem
  obtain ⟨-, new, pc, c, n, -, hstep⟩ := call_at h
  obtain ⟨-, -, spec, -, hholds⟩ := hstep.of_hookHeld
  simp [latchHolds, hlatched] at hholds

theorem mem_hookCalls {hooks : List ModeTransitionHookConfig}
    {prev new : RuntimeMode} (hhook : hook ∈ hooks)
    (hfires : hook.fires prev new) (hcall : call ∈ hook.calls) :
    ⟨call, hook.failOnError⟩ ∈ hookCalls hooks prev new := by
  refine List.mem_flatMap.mpr ⟨hook, List.mem_filter.mpr ⟨hhook, hfires⟩, ?_⟩
  exact List.mem_map.mpr ⟨call, hcall, rfl⟩

section

variable (hcb : cfg.callbacks = initAutomation cfg.automation) (h0 : SystemStart g₀)
  (h : SystemRun cfg g₀ tr g)
include hcb h0 h

/-- A `set_mode` that returns has handled the after-hooks of the transition it committed. -/
theorem afterHook_handled {prev new : RuntimeMode} {ok : Bool}
    (hm : (g.thread t).mode = some ⟨new, .done ok⟩)
    (hlog : logCommits (callLog t tr) = [(prev, new)])
    (hhook : hook ∈ cfg.automation.afterTransition) (hfires : hook.fires prev new)
    (hcall : call ∈ hook.calls) :
    Handled new (sinceCommit (callLog t tr)) ⟨call, hook.failOnError⟩ := by
  have hafter : AfterCallback.hooks cfg.automation.afterTransition ∈ cfg.callbacks.after := by
    rw [hcb]
    simp [initAutomation, List.ne_nil_of_mem hhook]
  have hall : AllHandled cfg.automation.afterTransition prev new (sinceCommit (callLog t tr)) :=
    afterHooks_run h0 h t _ hm prev hlog _ hafter
  exact hall _ (mem_hookCalls hhook hfires hcall)

/-- A FAULT entry about to leave AUTO has handled the before-hooks of AUTO. -/
theorem beforeHooks_of_auto (hcond : ∀ i ∈ tr, Condition cfg i.1 i.2) :
    ∀ t m, (g.thread t).mode = some m → m.new = .fault → ∀ rest, m.pc = .guards .auto rest →
      ∀ hook ∈ cfg.automation.beforeTransition, hook.fires .auto .fault →
        ∀ call ∈ hook.calls, Handled .fault (callLog t tr) ⟨call, hook.failOnError⟩ := by
  refine call_induct h0 (C := Condition cfg)
    (K := fun _ m log => m.new = .fault → ∀ rest, m.pc = .guards .auto rest →
      ∀ hook ∈ cfg.automation.beforeTransition, hook.fires .auto .fault →
        ∀ call ∈ hook.calls, Handled .fault log ⟨call, hook.failOnError⟩)
    ?_ ?_ ?_ h hcond
  · intro t new log _ rest hpc
    cases hpc
  · rintro tr g t new c pc e n pc' hrun hcond hm - hs hn hK rfl rest rfl
    intro hook hhook hfires call hcall
    rcases hs.to_guards hn with ⟨⟨shown, rfl⟩, -⟩ | ⟨guard, rfl, -⟩
    · -- the second look finds AUTO, and the mode shown covers it
      have hplaced := hs.placed (placed_run h0 hrun t _ hm) hn
      cases hs
      have hauto : g.shared.mode = .auto := hplaced.1.symm
      have hcovers : Covers cfg shown :=
        covers_run h0 hrun hcond hauto t shown (by simp [faultShown?, hm, shown?])
      have hbefore :
          BeforeCallback.hooks cfg.automation.beforeTransition ∈ cfg.callbacks.before := by
        rw [hcb]
        simp [initAutomation, List.ne_nil_of_mem hhook]
      have hall : AllHandled cfg.automation.beforeTransition shown .fault (callLog t tr) :=
        beforeHooks_run h0 hrun t _ hm rfl _ hbefore
      exact (hall _ (mem_hookCalls hhook (hcovers hook hhook hfires) hcall)).mono _
    · have hplaced := placed_run h0 hrun t _ hm
      exact absurd (hplaced.2.2.2 rfl) (by simp)
  · intro t m result log hK hnew rest hpc
    have hlocked : m.pc.locked := by
      rw [← SetMode.callReturned_locked m result, hpc]
      rfl
    rw [SetMode.callReturned_of_locked result hlocked] at hnew hpc
    exact hK hnew rest hpc

end

end

/-- With the latch disengaged, in every run in which every commit of AUTO finds only such FAULT
entries in progress that were shown a mode that covers AUTO, every committed `AUTO -> FAULT`
runs its hooks:

- the calls of the before-hooks that match it were passed to `execute_call` before the commit,
  by the same `set_mode`;
- the calls of the after-hooks that match it were passed to `execute_call` between the commit
  and the return of that `set_mode`;
- and a `set_mode(FAULT)` in progress does return: a run leads to it. -/
theorem auto_fault_runs_hooks (cfg : SystemConfig)
    (hcb : cfg.callbacks = initAutomation cfg.automation) {g₀ g : SystemState} {tr : SystemTrace}
    (h0 : SystemStart g₀) (hrun : SystemRun cfg g₀ tr g) (hcond : ∀ i ∈ tr, Condition cfg i.1 i.2) :
    (∀ tr₁ s t tr₂, tr = tr₁ ++ (s, t, .mode (.commit .auto .fault)) :: tr₂ →
      ∀ hook ∈ cfg.automation.beforeTransition, hook.fires .auto .fault →
        ∀ call ∈ hook.calls, .hookIssued (modeHookRequest call .fault) ∈ callLog t tr₁) ∧
    (∀ tr₁ s t ok tr₂, tr = tr₁ ++ (s, t, .mode (.returned .fault ok)) :: tr₂ →
      .commit .auto .fault ∈ callLog t tr₁ →
      ∀ hook ∈ cfg.automation.afterTransition, hook.fires .auto .fault → ∀ call ∈ hook.calls,
          .hookIssued (modeHookRequest call .fault) ∈ sinceCommit (callLog t tr₁)) ∧
    ∀ t pc, (g.thread t).mode = some ⟨.fault, pc⟩ →
      ∃ tr' s g' ok, SystemRun cfg g (tr' ++ [(s, t, .mode (.returned .fault ok))]) g' := by
  refine ⟨?_, ?_, fun t pc hm => Returns.can_return h0 hrun hm⟩
  · rintro tr₁ s t tr₂ rfl hook hhook hfires call hcall
    obtain ⟨hcond₁, -⟩ := List.forall_mem_append.mp hcond
    obtain ⟨hrun₁, new, pc, c, n, hm, hs⟩ := call_at hrun
    obtain ⟨rfl, rfl, -⟩ := hs.of_commit
    have hhandled :=
      beforeHooks_of_auto hcb h0 hrun₁ hcond₁ t _ hm rfl _ rfl hook hhook hfires call hcall
    exact hhandled.resolve_right (not_held hrun₁ hcond₁ _)
  · rintro tr₁ s t ok tr₂ rfl hcommit hook hhook hfires call hcall
    obtain ⟨hcond₁, -⟩ := List.forall_mem_append.mp hcond
    obtain ⟨hrun₁, new, pc, c, n, hm, hs⟩ := call_at hrun
    obtain ⟨rfl, rfl⟩ := hs.of_returned
    -- the commit of the log is the one the after-hooks were given
    have hlog : logCommits (callLog t tr₁) = [(.auto, .fault)] :=
      logCommits_of_mem h0 hrun₁ hm hcommit
    have hhandled := afterHook_handled hcb h0 hrun₁ hm hlog hhook hfires hcall
    exact hhandled.resolve_right fun hheld => not_held hrun₁ hcond₁ _ (mem_of_mem_sinceCommit hheld)

/-! ### Two runs -/

/-- A before-hook that closes the valve on `AUTO -> FAULT`. -/
def closeValve : ModeTransitionHookConfig where
  src := "AUTO"
  dst := "FAULT"
  calls := [{ deviceHandle := "sim0/valve", functionName := "close" }]

def hookConfig : SystemConfig where
  automation := { enabled := true, beforeTransition := [closeValve] }

/-- Thread 1 enters AUTO. Then thread 2 enters FAULT; its hook's call is refused, because there
is no provider. -/
def faultAfterAuto : List (ThreadId × Choice) :=
  (1, .start (.setMode .auto)) :: List.replicate 11 (1, .go) ++
    (2, .start (.setMode .fault)) :: List.replicate 7 (2, .go) ++
    (2, .found false) :: List.replicate 5 (2, .go)

/-- The hook of the FAULT entry is passed to `execute_call`. -/
theorem auto_fault_runs_hooks_in_order : ∃ tr₁ s tr₂ g, SystemRun hookConfig manualWorld
        (tr₁ ++ (s, 2, .mode (.commit .auto .fault)) :: tr₂) g ∧
      .hookIssued (modeHookRequest
        { deviceHandle := "sim0/valve", functionName := "close" } .fault) ∈ callLog 2 tr₁ := by
  obtain ⟨tr, g, hrun, hp⟩ := Machine.run_of_passes (system hookConfig) manualWorld faultAfterAuto
    (fun tr _ => (∀ i ∈ tr, i.2.1 ∈ [1, 2] ∧ i.1.shared.latched = false ∧
        ((∀ pair ∈ stepCommit? i, pair.2 ≠ .auto) ∨
          ∀ t ∈ [1, 2], faultShown? (i.1.thread t) = none)) ∧
      ∃ i ∈ tr, modeEffect? 2 i = some (.commit .auto .fault)) (by decide +kernel)
  obtain ⟨hall, ⟨s, l⟩, hmem, hl⟩ := hp
  obtain rfl : l = (2, .mode (.commit .auto .fault)) := eq_of_modeEffect? hl
  have hcond : ∀ i ∈ tr, Condition hookConfig i.1 i.2 := by
    intro i hi
    obtain ⟨-, hlatched, hcommit⟩ := hall i hi
    refine ⟨hlatched, fun prev he t shown hshown => ?_⟩
    -- at the commit of AUTO no FAULT entry is in progress
    have hthreads : ∀ t ∈ [1, 2], faultShown? (i.1.thread t) = none := by
      simpa [stepCommit?, commit?, he] using hcommit
    have hnone := (Machine.all_threads (P := fun th => faultShown? th = none) hrun
      (fun j hj => (hall j hj).1) fun _ => rfl).2 i hi hthreads
    rw [hnone t] at hshown
    cases hshown
  obtain ⟨tr₁, tr₂, rfl⟩ := List.append_of_mem hmem
  exact ⟨tr₁, s, tr₂, g, hrun,
    (auto_fault_runs_hooks hookConfig rfl manualWorld_start hrun hcond).1 tr₁ s 2 tr₂ rfl closeValve
      (by simp [hookConfig]) (by decide) _ (by simp [closeValve])⟩

/-- Thread 2 asks for FAULT in MANUAL, and its before-callbacks run; then thread 1 enters AUTO;
then thread 2 goes on and returns. -/
def faultAroundAuto : List (ThreadId × Choice) :=
  (2, .start (.setMode .fault)) :: List.replicate 5 (2, .go) ++
    (1, .start (.setMode .auto)) :: List.replicate 11 (1, .go) ++ List.replicate 10 (2, .go)

/-- `AUTO -> FAULT` is committed and its `set_mode` returns, with the latch disengaged; the
declared hook matches the transition, and no hook's call was made. -/
theorem fault_from_auto_without_hooks :
    ∃ tr g, SystemRun hookConfig manualWorld tr g ∧ (∀ i ∈ tr, i.1.shared.latched = false) ∧
      (∃ i ∈ tr, i.2 = (2, .mode (.commit .auto .fault))) ∧
      (∃ i ∈ tr, i.2 = (2, .mode (.returned .fault true))) ∧
      closeValve ∈ hookConfig.automation.beforeTransition ∧
      closeValve.fires .auto .fault ∧ closeValve.calls ≠ [] ∧
      ∀ i ∈ tr, ∀ request, i.2.2 ≠ .mode (.hookIssued request) := by
  obtain ⟨tr, g, hrun, hp⟩ := Machine.run_of_passes (system hookConfig) manualWorld faultAroundAuto
    (fun tr _ => (∀ i ∈ tr, i.1.shared.latched = false) ∧
      (∃ i ∈ tr, modeEffect? 2 i = some (.commit .auto .fault)) ∧
      (∃ i ∈ tr, modeEffect? 2 i = some (.returned .fault true)) ∧
      ∀ i ∈ tr, issuesHook i = false) (by decide)
  obtain ⟨hlatched, ⟨i₁, hi₁, hl₁⟩, ⟨i₂, hi₂, hl₂⟩, hnone⟩ := hp
  refine ⟨tr, g, hrun, hlatched, ⟨i₁, hi₁, eq_of_modeEffect? hl₁⟩, ⟨i₂, hi₂, eq_of_modeEffect? hl₂⟩,
    by simp [hookConfig], by decide, by simp [closeValve], fun i hi request he => ?_⟩
  have hissued := hnone i hi
  simp [issuesHook, he] at hissued

end Anolis.Proofs.FaultHooks
