import Anolis.Proofs.EstopBarrier
import Anolis.Proofs.FaultHooks

/-!
# The FAULT hooks of an e-stop that drives nothing itself

Where the planned rung is none, the ladder of a `trigger` drives nothing, and the latch admits
the hooks of the trigger's own FAULT entry. The admission is the trigger's thread's. So it does
not help an entry that another thread has committed: `stop_without_hooks` is a run in which the
latch is set between that commit and its after-hooks. They are held back, and the trigger finds
the mode at FAULT and enters nothing.

`rung_none_runs_hooks` is what holds: if the latch is never set while a FAULT entry runs its
after-callbacks, and under the latch only a trigger commits FAULT (`Condition`), the after-hooks
of every FAULT entry are passed to `execute_call` and the latch refuses none of them.
-/

namespace Anolis.Proofs.RungNone

open Anolis.Runtime Automation Control EstopBarrier HookCalls Lib ModeManager

variable {cfg : SystemConfig} {sh : Shared} {t : ThreadId} {th th' : Thread} {e : Effect}
  {rest : List AfterCallback}

/-- The condition on a step, in a runtime whose planned rung is none: it sets the latch only
where no FAULT entry is running its after-callbacks, and under the latch it commits FAULT only
for a trigger. -/
structure Condition (cfg : SystemConfig) (s : SystemState) (l : ThreadId × Effect) : Prop where
  rung : plannedSafeStateKind s.shared.registry cfg.safety = .none
  engage : l.2 = .control .engage → ∀ t rest, afterWork (s.thread t) ≠ some (.fault, rest)
  commit : ∀ prev, l.2 = .mode (.commit prev .fault) → s.shared.latched →
    ∃ kind, (s.thread l.1).op = .trigger (.fault kind)

/-- Does the step engage the latch. -/
def isEngage : Effect → Bool
  | .control .engage => true
  | _ => false

/-- Is the `set_mode(FAULT)` of a trigger running. -/
def isTriggerFault : Op → Bool
  | .trigger (.fault _) => true
  | _ => false

theorem isTriggerFault_iff {op : Op} : isTriggerFault op ↔ ∃ kind, op = .trigger (.fault kind) := by
  constructor
  · intro h
    unfold isTriggerFault at h
    split at h
    · exact ⟨_, rfl⟩
    · cases h
  · rintro ⟨kind, rfl⟩
    rfl

/-! ### The admitted thread -/

theorem inFaultEntry_iff : inFaultEntry th ↔
    th.op = .trigger (.fault .none) ∧ ∃ pc, th.mode = some ⟨.fault, pc⟩ := by
  unfold inFaultEntry
  constructor
  · intro h
    obtain ⟨hop, hmode⟩ := Bool.and_eq_true_iff.mp h
    obtain ⟨⟨new, pc⟩, hm, hnew⟩ := (Option.any_eq_true _ _).mp hmode
    obtain rfl : new = .fault := of_decide_eq_true hnew
    refine ⟨?_, pc, hm⟩
    split at hop
    · assumption
    · cases hop
  · rintro ⟨hop, pc, hm⟩
    simp [hop, hm]

theorem admitted_apply_eq (h : ThreadStep cfg sh t th e th') :
    (sh.apply t e).admitted = sh.admitted ∨ th.holdsController := by
  cases h with
  | call hcall h | mode hcall hmode h => exact .inl (by simp [Shared.apply])
  | op hcall hmode hop h =>
    cases h
    case triggerAdmits | triggerWithdraw =>
      exact .inr (by simp [Thread.holdsController, hop, Op.locked])
    all_goals exact .inl rfl

theorem inFaultEntry_back (h : ThreadStep cfg sh t th e th') (hin : inFaultEntry th') :
    e = .control .admitHooks ∨ (inFaultEntry th ∧ (sh.apply t e).admitted = sh.admitted) := by
  obtain ⟨hop', pc', hm'⟩ := inFaultEntry_iff.mp hin
  cases h with
  | @call request pc c e n hcall h =>
    refine .inr ⟨?_, by simp [Shared.apply]⟩
    cases n with
    | go pc => exact hin
    | ret result =>
      simp only [Thread.withCall] at hop' hm'
      split at hm'
      · rename_i m hm
        simp only [hm] at hop'
        have hnew : m.new = .fault := by
          rw [← SetMode.callReturned_new m result, Option.some.inj hm']
        exact inFaultEntry_iff.mpr ⟨hop', m.pc, by rw [hm, ← hnew]⟩
      · rename_i hm
        rw [hm] at hm'
        cases hm'
  | @mode new pc c e n hcall hmode h =>
    refine .inr ⟨?_, by simp [Shared.apply]⟩
    cases n with
    | go pc'' | call pc'' request =>
      cases hm'
      exact inFaultEntry_iff.mpr ⟨hop', pc, hmode⟩
    | ret ok => cases hm'
  | @op op e n hcall hmode hop h =>
    cases n with
    | go op' | call op' request =>
      simp only [Thread.withOp, hmode] at hm'
      cases hm'
    | setMode op' new =>
      obtain rfl : op' = .trigger (.fault .none) := hop'
      cases h with
      | triggerAdmits => exact .inl rfl
      | triggerFault kind hkind => exact absurd rfl hkind
      | start start h => cases start <;> simp [startOp] at h

theorem holdsController_of_inFaultEntry (h : inFaultEntry th) : th.holdsController := by
  rw [Thread.holdsController, (inFaultEntry_iff.mp h).1]
  rfl

variable {g₀ g : SystemState}

variable {tr : SystemTrace}

theorem admitted_run (h0 : SystemStart g₀)
    (h : SystemRun cfg g₀ tr g) : ∀ t, inFaultEntry (g.thread t) → g.shared.admitted = some t := by
  refine Run.induct (J := fun _ g => ∀ t, inFaultEntry (g.thread t) →
    g.shared.admitted = some t) ?_ ?_ h
  · intro t ht
    rw [h0.idle] at ht
    cases ht
  · rintro tr g ⟨u, e⟩ g' hrun ih hstep t ht
    obtain ⟨th', hth, hts, hsh, hother⟩ := system_step hstep
    rw [hsh]
    rcases eq_or_ne t u with rfl | htu
    · rw [hth] at ht
      rcases inFaultEntry_back hts ht with rfl | ⟨hin, hsame⟩
      · rfl
      · rw [hsame]
        exact ih t hin
    · rw [hother t htu] at ht
      rcases admitted_apply_eq hts with hsame | hu
      · rw [hsame]
        exact ih t ht
      · -- both threads would be inside the controller's mutex
        exact absurd (Machine.lock_excl (controllerLock_run h0 hrun)
          (holdsController_of_inFaultEntry ht) hu) htu

/-! ### The planned rung -/

/-- The rung that a run of the ladder has planned. -/
def ladderKind? : LadderPc → Option SafeStateKind
  | .plan => none
  | .rung kind => some kind
  | .run _ result | .calling _ _ result => some result.kind

/-- The rung that a trigger has planned. -/
def opKind? : Op → Option SafeStateKind
  | .trigger (.ladder pc) => ladderKind? pc
  | .trigger (.admission kind) | .trigger (.fault kind) => some kind
  | _ => none

/-- The rung that is planned after a step of the ladder. -/
def nextKind? : LadderNext → Option SafeStateKind
  | .go pc | .call pc _ => ladderKind? pc
  | .done result => some result.kind

theorem ladderNext_kind {scope : LadderScope} {pc : LadderPc} {n : LadderNext}
    (h : ladderNext cfg sh scope pc = some n) :
    nextKind? n = some (plannedSafeStateKind sh.registry cfg.safety) ∨
      nextKind? n = ladderKind? pc := by
  revert h
  fun_cases ladderNext cfg sh scope pc <;> intro h <;>
    simp only [Option.some.injEq, reduceCtorEq] at h
  all_goals subst h
  case case1 => exact .inl rfl
  all_goals exact .inr rfl

/-- An operation plans a rung by the ladder of its trigger, and keeps it until it ends. -/
theorem OpStep.kind {op : Op} {e : ControlEffect} {n : OpNext} (h : OpStep cfg sh t op e n) :
    opKind? n.op = some (plannedSafeStateKind sh.registry cfg.safety) ∨
      opKind? n.op = opKind? op ∨ opKind? n.op = none := by
  cases h
  case start start h =>
    refine .inr (.inr ?_)
    cases start <;> simp only [startOp] at h
    all_goals first | split at h | skip
    all_goals cases h <;> rfl
  case triggerLadder h | triggerLadderCall h | triggerLadderEnd h _ =>
    exact (ladderNext_kind h).imp_right .inl
  case triggerAdmits | triggerFault => exact .inr (.inl rfl)
  all_goals exact .inr (.inr rfl)

theorem opKind?_callReturned (op : Op) (result : CallResult) :
    opKind? (op.callReturned result) = opKind? op := by
  unfold Op.callReturned
  split
  · rename_i pc
    cases pc <;> rfl
  · rfl
  · rfl

theorem opKind?_modeReturned (op : Op) :
    opKind? op.modeReturned = opKind? op ∨ opKind? op.modeReturned = none := by
  unfold Op.modeReturned
  split
  all_goals first | exact .inr rfl | exact .inl rfl

theorem ThreadStep.kind (h : ThreadStep cfg sh t th e th') :
    opKind? th'.op = some (plannedSafeStateKind sh.registry cfg.safety) ∨
      opKind? th'.op = opKind? th.op ∨ opKind? th'.op = none := by
  rcases h.op_cases with ⟨op, e', n, -, -, -, rfl, hs, hop⟩ | ⟨-, hop | ⟨result, hop⟩ | hop⟩
  · rw [hop]
    exact OpStep.kind hs
  · exact .inr (.inl (by rw [hop]))
  · exact .inr (.inl (by rw [hop, opKind?_callReturned]))
  · rw [hop]
    exact .inr (opKind?_modeReturned th.op)

/-- Where the planned rung is none throughout, the rung of every trigger is. -/
theorem kind_run (h0 : SystemStart g₀)
    (h : SystemRun cfg g₀ tr g) (hcond : ∀ i ∈ tr, Condition cfg i.1 i.2) :
    ∀ t kind, opKind? (g.thread t).op = some kind → kind = .none := by
  refine thread_run (P := fun _ th => ∀ kind, opKind? th.op = some kind → kind = .none) h0 ?_ ?_ h
    hcond
  · intro t kind hkind
    cases hkind
  · intro g t e th' hc hts hth kind hkind
    rcases ThreadStep.kind hts with hplan | hsame | hnone
    · -- the ladder plans its rung here
      rw [hplan, hc.rung] at hkind
      exact (Option.some.inj hkind).symm
    · exact hth kind (hsame ▸ hkind)
    · rw [hnone] at hkind
      cases hkind

/-! ### The hooks of a FAULT entry -/

/-- A step of a thread keeps that a call of its `set_mode(FAULT)` is a FAULT hook's. -/
theorem faultHook_step (h : ThreadStep cfg sh t th e th')
    (hth : ∀ pc k, th.mode = some ⟨.fault, pc⟩ → th.call = some k →
      k.request.faultEntryHook) {pc : SetModePc} {k : CallState} (hm : th'.mode = some ⟨.fault, pc⟩)
    (hk : th'.call = some k) : k.request.faultEntryHook = true := by
  cases h with
  | @call request pc₀ c e n hcall h =>
    cases n with
    | go pc' =>
      cases hk
      exact hth pc ⟨request, pc₀⟩ hm hcall
    | ret result =>
      simp only [Thread.withCall] at hk
      split at hk <;> cases hk
  | @mode new pc₀ c e n hcall hmode h =>
    cases n with
    | call pc' request =>
      cases hk
      cases hm
      obtain ⟨call, rfl⟩ := h.of_call
      rfl
    | go pc' | ret ok =>
      simp only [Thread.withMode, hcall] at hk
      cases hk
  | @op op e n hcall hmode hop h =>
    cases n with
    | setMode op' new | go op' =>
      simp only [Thread.withOp, hcall] at hk
      cases hk
    | call op' request =>
      simp only [Thread.withOp, hmode] at hm
      cases hm

/-- The calls that a `set_mode(FAULT)` makes are those of FAULT hooks. -/
theorem faultHook_run (h0 : SystemStart g₀)
    (h : SystemRun cfg g₀ tr g) :
    ∀ t pc k, (g.thread t).mode = some ⟨.fault, pc⟩ → (g.thread t).call = some k →
      k.request.faultEntryHook := by
  refine thread_run (C := fun _ _ => True) (P := fun _ th => ∀ pc k,
    th.mode = some ⟨.fault, pc⟩ → th.call = some k → k.request.faultEntryHook) h0 ?_ ?_ h
    (fun _ _ => trivial)
  · intro t pc k hm
    cases hm
  · intro g t e th' _ hts hth pc k hm hk
    exact faultHook_step hts hth hm hk

/-! ### The latch during the after-callbacks -/

theorem mode_of_afterWork {new : RuntimeMode}
    (h : afterWork th = some (new, rest)) : ∃ pc, th.mode = some ⟨new, pc⟩ := by
  obtain ⟨m, hm, hwork⟩ := Option.bind_eq_some_iff.mp h
  obtain ⟨rest', -, heq⟩ := Option.map_eq_some_iff.mp hwork
  obtain ⟨rfl, -⟩ := Prod.mk.inj heq
  exact ⟨m.pc, hm⟩

/-- While a FAULT entry runs its after-callbacks, the latch is disengaged or the entry is that of
the thread's own trigger. -/
theorem clear_run (h0 : SystemStart g₀)
    (h : SystemRun cfg g₀ tr g) (hcond : ∀ i ∈ tr, Condition cfg i.1 i.2) :
    ∀ t rest, afterWork (g.thread t) = some (.fault, rest) →
      g.shared.latched = false ∨ inFaultEntry (g.thread t) := by
  refine Run.induct_of (C := Condition cfg)
    (J := fun _ g => ∀ t rest, afterWork (g.thread t) = some (.fault, rest) →
      g.shared.latched = false ∨ inFaultEntry (g.thread t)) ?_ ?_ h hcond
  · intro t rest hwork
    rw [h0.idle] at hwork
    cases hwork
  · rintro tr g ⟨u, e⟩ g' hrun hcond ih hc hstep t rest hwork
    obtain ⟨th', hth, hts, hsh, hother⟩ := system_step hstep
    -- with a FAULT entry in its after-callbacks, no step sets the latch
    have hlatch : (∃ t rest, afterWork (g.thread t) = some (.fault, rest)) →
        g.shared.latched = false → g'.shared.latched = false := by
      rintro ⟨t, rest, hwork⟩ hfree
      rw [hsh, ← Bool.not_eq_true]
      intro hlatched
      have hengage : e ≠ .control .engage := fun he => hc.engage he t rest hwork
      rw [Shared.latched_of_apply hengage hlatched] at hfree
      cases hfree
    rcases eq_or_ne t u with rfl | htu
    · rw [hth] at hwork ⊢
      obtain ⟨pc, hm⟩ := mode_of_afterWork hwork
      -- after-callbacks that were left before: the entry goes on
      have hold : ∀ rest, afterWork (g.thread t) = some (.fault, rest) →
          g'.shared.latched = false ∨ inFaultEntry th' = true := by
        intro rest₀ hwork₀
        rcases ih t rest₀ hwork₀ with hfree | hin
        · exact .inl (hlatch ⟨t, rest₀, hwork₀⟩ hfree)
        · rcases inFaultEntry_step hts hin with hin' | ⟨-, hnone, -⟩
          · exact .inr hin'
          · rw [hm] at hnone
            cases hnone
      rcases hts.afterWork_cases with ⟨prev, new, rfl, hwork'⟩ |
        ⟨callback, prev, new, rest', -, hwork₀, hwork'⟩ | ⟨new, -, -, hwork'⟩ | ⟨hsame, -⟩
      · -- the commit: under the latch it is a trigger's, whose rung is none
        cases hwork'.symm.trans hwork
        cases hlatched : g.shared.latched with
        | false =>
          left
          rw [hsh]
          exact hlatched
        | true =>
          right
          obtain ⟨kind, hop⟩ := hc.commit prev rfl hlatched
          obtain rfl : kind = .none := kind_run h0 hrun hcond t kind (by rw [hop]; rfl)
          rcases hts.mode_eq with ⟨-, hne⟩ | ⟨prev', new', -, -, -, rfl⟩
          · exact absurd rfl (hne prev .fault)
          · exact inFaultEntry_iff.mpr ⟨hop, pc, hm⟩
      · cases hwork'.symm.trans hwork
        exact hold _ hwork₀
      · rw [hwork'] at hwork
        cases hwork
      · exact hold rest (hsame ▸ hwork)
    · rw [hother t htu] at hwork ⊢
      exact (ih t rest hwork).imp_left (hlatch ⟨t, rest, hwork⟩)

section
variable {g₀ g : SystemState} {tr : SystemTrace}

theorem latchHolds_eq_false (h0 : SystemStart g₀) (h : SystemRun cfg g₀ tr g)
    (hcond : ∀ i ∈ tr, Condition cfg i.1 i.2)
    (hwork : afterWork (g.thread t) = some (.fault, rest)) {request : CallRequest}
    (hrequest : request.faultEntryHook) (spec : Registry.FunctionSpec) :
    latchHolds request spec g.shared.latched (g.shared.admits t) = false := by
  rcases clear_run h0 h hcond t rest hwork with hfree | hin
  · simp [latchHolds, hfree]
  · have hadmits : g.shared.admits t := decide_eq_true (admitted_run h0 h t hin)
    simp [latchHolds, hrequest, hadmits]

/-- No hook's call of a FAULT entry is held back after its commit. -/
theorem not_held_run (h0 : SystemStart g₀) (h : SystemRun cfg g₀ tr g)
    (hcond : ∀ i ∈ tr, Condition cfg i.1 i.2) :
    ∀ t m, (g.thread t).mode = some m → m.new = .fault → m.pc ≠ .enter →
      logCommits (callLog t tr) ≠ [] →
      ∀ request, .hookHeld request ∉ sinceCommit (callLog t tr) := by
  refine call_induct h0 (C := Condition cfg)
    (K := fun _ m log => m.new = .fault → m.pc ≠ .enter → logCommits log ≠ [] →
      ∀ request, .hookHeld request ∉ sinceCommit log) ?_ ?_ ?_ h hcond
  · intro t new log _ henter
    exact absurd rfl henter
  · rintro tr g t new c pc e n pc' hrun hcond hm - hs hn hK rfl - hcommits request hheld
    rw [logCommits_record] at hcommits
    split at hcommits
    · exact hcommits rfl
    · rename_i hentry
      have henter : pc ≠ .enter := by
        rintro rfl
        exact hentry hs.isEntry_of_enter
      rw [Bool.not_eq_true] at hentry
      cases hcommit : commit? e with
      | some pair =>
        -- the commit is the first effect since the commit
        rw [sinceCommit_commit hentry (by simp [hcommit]), List.mem_singleton] at hheld
        rw [← hheld] at hcommit
        cases hcommit
      | none =>
        simp only [hcommit, Option.toList_none, List.append_nil] at hcommits
        rw [sinceCommit_record hentry hcommit, List.mem_append, List.mem_singleton] at hheld
        rcases hheld with hheld | rfl
        · exact hK rfl henter hcommits request hheld
        · -- a call that is held back here is a hook's, and an after-hook's since the commit
          obtain ⟨hpc, call, spec, rfl, hholds⟩ := hs.of_hookHeld
          rcases hpc with ⟨shown, hooks, run, rest, rfl⟩ | ⟨prev, hooks, run, rest, rfl⟩
          · exact hcommits (commitLog_run h0 hrun t _ hm)
          · have hwork : afterWork (g.thread t) = some (.fault, .hooks hooks :: rest) := by
              simp [afterWork, hm, afterRest?]
            rw [latchHolds_eq_false h0 hrun hcond hwork rfl spec] at hholds
            cases hholds
  · intro t m result log hK hnew henter
    rw [SetMode.callReturned_new] at hnew
    exact hK hnew fun h => henter (SetMode.callReturned_enter result h)

end

/-- Under rung none, in every run in which the latch is never set while a FAULT entry runs its
after-callbacks, and in which under the latch only a trigger commits FAULT:

- the calls of the after-hooks that match a committed FAULT entry were passed to `execute_call`
  between the commit and the return of its `set_mode`;
- the latch refuses no call of those hooks;
- and a `set_mode(FAULT)` in progress does return: a run leads to it. -/
theorem rung_none_runs_hooks (cfg : SystemConfig)
    (hcb : cfg.callbacks = initAutomation cfg.automation) {g₀ g : SystemState} {tr : SystemTrace}
    (h0 : SystemStart g₀) (hrun : SystemRun cfg g₀ tr g) (hcond : ∀ i ∈ tr, Condition cfg i.1 i.2) :
    (∀ tr₁ s t ok tr₂ prev, tr = tr₁ ++ (s, t, .mode (.returned .fault ok)) :: tr₂ →
      .commit prev .fault ∈ callLog t tr₁ →
      ∀ hook ∈ cfg.automation.afterTransition, hook.fires prev .fault → ∀ call ∈ hook.calls,
          .hookIssued (modeHookRequest call .fault) ∈ sinceCommit (callLog t tr₁)) ∧
    (∀ i ∈ tr, ∀ request, i.2.2 = .call (.latchRefused request) →
      ∀ rest, afterWork (i.1.thread i.2.1) ≠ some (.fault, rest)) ∧
    ∀ t pc, (g.thread t).mode = some ⟨.fault, pc⟩ →
      ∃ tr' s g' ok, SystemRun cfg g (tr' ++ [(s, t, .mode (.returned .fault ok))]) g' := by
  refine ⟨?_, ?_, fun t pc hm => Returns.can_return h0 hrun hm⟩
  · rintro tr₁ s t ok tr₂ prev rfl hcommit hook hhook hfires call hcall
    obtain ⟨hcond₁, -⟩ := List.forall_mem_append.mp hcond
    obtain ⟨hrun₁, new, pc, c, n, hm, hs⟩ := call_at hrun
    obtain ⟨rfl, rfl⟩ := hs.of_returned
    have hlog : logCommits (callLog t tr₁) = [(prev, .fault)] :=
      logCommits_of_mem h0 hrun₁ hm hcommit
    have hhandled : Handled .fault (sinceCommit (callLog t tr₁)) ⟨call, hook.failOnError⟩ :=
      FaultHooks.afterHook_handled hcb h0 hrun₁ hm hlog hhook hfires hcall
    exact hhandled.resolve_right
      (not_held_run h0 hrun₁ hcond₁ t _ hm rfl (by simp) (by simp [hlog]) _)
  · rintro ⟨s, t, e⟩ hi request rfl rest hwork
    obtain ⟨tr₁, tr₂, s₁, rfl, hrun₁, hstep, -⟩ := hrun.of_mem hi
    obtain ⟨hcond₁, -⟩ := List.forall_mem_append.mp hcond
    obtain ⟨th', -, hts, -, -⟩ := system_step hstep
    cases hts with
    | call hk hnext =>
      obtain ⟨pc, hm⟩ := mode_of_afterWork hwork
      have hhook := faultHook_run h0 hrun₁ t pc _ hm hk
      obtain ⟨rfl, spec, hholds⟩ := callNext_latchRefused hnext
      rw [latchHolds_eq_false h0 hrun₁ hcond₁ hwork hhook spec] at hholds
      cases hholds

/-! ### An e-stop alone, and one that comes after a FAULT entry -/

/-- An after-hook that opens the valve on `MANUAL -> FAULT`. -/
def vent : ModeTransitionHookConfig where
  src := "MANUAL"
  dst := "FAULT"
  calls := [{ deviceHandle := "sim0/valve", functionName := "open" }]

/-- No rung of the ladder is configured. -/
def ventConfig : SystemConfig where
  automation := { enabled := true, afterTransition := [vent] }

/-- Thread 1 triggers the e-stop, up to the return of its `set_mode(FAULT)`. -/
def stopAlone : List (ThreadId × Choice) :=
  [(1, .start .trigger), (1, .go), (1, .go), (1, .save .saved)] ++ List.replicate 19 (1, .go) ++
    callThrough 1 5

/-- The e-stop's own FAULT entry drives the hook. -/
theorem rung_none_runs_hooks_alone : ∃ tr₁ s tr₂ g, SystemRun ventConfig (valveWorld .manual)
        (tr₁ ++ (s, 1, .mode (.returned .fault true)) :: tr₂) g ∧ s.shared.latched ∧
      .hookIssued (modeHookRequest
        { deviceHandle := "sim0/valve", functionName := "open" } .fault) ∈
          sinceCommit (callLog 1 tr₁) := by
  obtain ⟨tr₁, s, tr₂, g, hrun₁, hrun₂, hp⟩ := Machine.runs_of_passesThen (system ventConfig)
    (valveWorld .manual) stopAlone (List.replicate 3 (1, .go))
    (fun tr₁ _ tr₂ _ => .commit .manual .fault ∈ callLog 1 tr₁ ∧
      tr₂.head?.bind (modeEffect? 1) = some (.returned .fault true) ∧
      (tr₂.head?.any fun i => i.1.shared.latched) ∧
      ∀ i ∈ tr₁ ++ tr₂, i.2.1 ∈ [1] ∧
        plannedSafeStateKind i.1.shared.registry ventConfig.safety = .none ∧
        (isEngage i.2.2 → ∀ t ∈ [1], afterWork (i.1.thread t) = none) ∧
        (stepCommit? i = none ∨ isTriggerFault (i.1.thread i.2.1).op)) (by decide)
  obtain ⟨hcommit, hret, hlatched, hall⟩ := hp
  have hrun := hrun₁.append hrun₂
  have hthreads := Machine.all_threads (P := fun th => afterWork th = none) hrun
    (fun i hi => (hall i hi).1) fun _ => rfl
  have hcond : ∀ i ∈ tr₁ ++ tr₂, Condition ventConfig i.1 i.2 := by
    intro i hi
    obtain ⟨-, hrung, hengage, hfault⟩ := hall i hi
    refine ⟨hrung, fun he t rest hwork => ?_, fun prev he _ => ?_⟩
    · rw [hthreads.2 i hi (hengage (by rw [he]; rfl)) t] at hwork
      cases hwork
    · exact isTriggerFault_iff.mp (by simpa [stepCommit?, commit?, he] using hfault)
  cases tr₂ with
  | nil => cases hret
  | cons i tr₂ =>
    obtain ⟨s', l⟩ := i
    obtain rfl : l = (1, .mode (.returned .fault true)) := eq_of_modeEffect? hret
    have hhooks := rung_none_runs_hooks ventConfig rfl (valveWorld_start .manual) hrun hcond
    exact ⟨tr₁, s', tr₂, g, hrun, hlatched,
      hhooks.1 tr₁ s' 1 true tr₂ .manual rfl hcommit vent (by simp [ventConfig]) (by decide) _
        (by simp [vent])⟩

/-- Thread 2 enters FAULT; before its after-hook runs, thread 1 sets the latch; then both go on
and return. -/
def stopAfterFault : List (ThreadId × Choice) :=
  (2, .start (.setMode .fault)) :: List.replicate 9 (2, .go) ++
    [(1, .start .trigger), (1, .go), (1, .go)] ++ List.replicate 10 (2, .go) ++
    (1, .save .saved) :: List.replicate 8 (1, .go)

/-- One trigger and one `set_mode(FAULT)`, under rung none and from MANUAL with the latch
disengaged. Both return, `MANUAL -> FAULT` is committed and the declared hook matches it; no
hook's call was made. -/
theorem stop_without_hooks : ∃ tr g, SystemRun ventConfig (valveWorld .manual) tr g ∧
      (valveWorld .manual).shared.latched = false ∧ ventConfig.safety.status = none ∧
      (∀ i ∈ tr, plannedSafeStateKind i.1.shared.registry ventConfig.safety = .none) ∧
      (∃ i ∈ tr, i.2 = (2, .mode (.commit .manual .fault))) ∧
      (∃ i ∈ tr, i.2 = (2, .mode (.returned .fault true))) ∧
      (∃ i ∈ tr, i.2 = (1, .mode (.returned .fault true))) ∧ (∀ t, (g.thread t).op.isIdle) ∧
      vent ∈ ventConfig.automation.afterTransition ∧ vent.fires .manual .fault ∧
      vent.calls ≠ [] ∧ ∀ i ∈ tr, ∀ request, i.2.2 ≠ .mode (.hookIssued request) := by
  obtain ⟨tr, g, hrun, hp⟩ := Machine.run_of_passes (system ventConfig) (valveWorld .manual)
    stopAfterFault
    (fun tr g => (∀ i ∈ tr, i.2.1 ∈ [1, 2] ∧
        plannedSafeStateKind i.1.shared.registry ventConfig.safety = .none ∧
        issuesHook i = false) ∧
      (∃ i ∈ tr, modeEffect? 2 i = some (.commit .manual .fault)) ∧
      (∃ i ∈ tr, modeEffect? 2 i = some (.returned .fault true)) ∧
      (∃ i ∈ tr, modeEffect? 1 i = some (.returned .fault true)) ∧
      ∀ t ∈ [1, 2], (g.thread t).op.isIdle) (by decide)
  obtain ⟨hall, ⟨i₁, hi₁, hl₁⟩, ⟨i₂, hi₂, hl₂⟩, ⟨i₃, hi₃, hl₃⟩, hidle⟩ := hp
  have hthreads := Machine.all_threads (P := fun th => th.op.isIdle) hrun
    (fun i hi => (hall i hi).1) fun _ => rfl
  refine ⟨tr, g, hrun, rfl, rfl, fun i hi => (hall i hi).2.1,
    ⟨i₁, hi₁, eq_of_modeEffect? hl₁⟩, ⟨i₂, hi₂, eq_of_modeEffect? hl₂⟩,
    ⟨i₃, hi₃, eq_of_modeEffect? hl₃⟩, hthreads.1 hidle, by simp [ventConfig], by decide,
    by simp [vent], fun i hi request he => ?_⟩
  have hissued := (hall i hi).2.2
  simp [issuesHook, he] at hissued

end Anolis.Proofs.RungNone
