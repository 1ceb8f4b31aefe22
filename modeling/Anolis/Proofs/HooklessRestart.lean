import Anolis.Proofs.LatchedAuto

/-!
# A restart does not get around the hookless gate

AUTO is refused on an inventory with actuating functions that no hook drives to a safe state. The
gate is asked when AUTO is entered, and a restarted provider can publish another inventory after
that, so a restart asks it again. The registry, the mode and the re-check have a lock each or
none: `hookless_gate_survives_restart` says that the order of the steps makes up for it.

The invariant: with a gate that refuses the current inventory, AUTO past the gate's commit guard
means that some restart has its re-check ahead (`refused_rechecked`). The inventory changes only in
a restart's commit, after which that restart has it ahead. Otherwise the guard refuses, so AUTO got
past it before the commit that made the gate refuse, and the re-check, which waits for the mode
lock, sees AUTO; it ends with the `set_mode(FAULT)` settled.
-/

namespace Anolis.Proofs.HooklessRestart

open Anolis.Runtime LatchedAuto Lib

/-- A restart here has published its inventory, and its re-check has not ended. -/
def published : RestartPc → Bool
  | .rebuild | .swap | .preflight | .mode | .gate | .fault => true
  | .stop | .start | .inspect | .validate _ | .commit _ => false

/-- Is the operation a restart between its registry commit and the end of its re-check. -/
def rechecks : Op → Bool
  | .restart _ pc => published pc
  | _ => false

/-- The re-check that refused has its `set_mode(FAULT)` running. -/
def FaultRequested (th : Thread) : Prop :=
  ∀ p, th.op = .restart p .fault → ∃ m, th.mode = some m ∧ m.new = .fault

section
variable {cfg : SystemConfig} {sh : Shared} {t : ThreadId} {th th' : Thread} {e : Effect}

theorem FaultRequested.step (hth : FaultRequested th) (h : ThreadStep cfg sh t th e th') :
    FaultRequested th' := by
  intro p hop
  cases h with
  | @call request pc c e n hcall h =>
    cases n with
    | go pc => exact hth p hop
    | ret result =>
      simp only [Thread.withCall] at hop ⊢
      split at hop <;> rename_i hm
      · obtain ⟨m, hm', hnew⟩ := hth p hop
        obtain rfl := Option.some.inj (hm.symm.trans hm')
        exact ⟨_, rfl, (SetMode.callReturned_new _ result).trans hnew⟩
      · -- no call of a restart's own is running
        have hop' : th.op = .restart p .fault := by
          revert hop
          unfold Op.callReturned
          split <;> simp
        obtain ⟨m, hm', -⟩ := hth p hop'
        cases hm.symm.trans hm'
  | @mode new pc c e n hcall hmode h =>
    cases n with
    | go pc' | call pc' request =>
      obtain ⟨m, hm, hnew⟩ := hth p hop
      obtain rfl := Option.some.inj (hmode.symm.trans hm)
      exact ⟨_, rfl, hnew⟩
    | ret ok =>
      exfalso
      revert hop
      simp only [Thread.withMode]
      unfold Op.modeReturned
      split <;> simp_all
  | @op op e n hcall hmode hop₀ h =>
    have hn : n.op = .restart p .fault := by cases n <;> exact hop
    have hn' : n = .setMode (.restart p .fault) .fault := by
      cases h
      case start start hstart => cases start <;> grind [startOp, OpNext.op]
      all_goals simp_all [OpNext.op]
    subst hn'
    exact ⟨_, rfl, rfl⟩

theorem fault_requested {g₀ g : SystemState} {tr : SystemTrace} (h0 : SystemStart g₀)
    (h : SystemRun cfg g₀ tr g) (t : ThreadId) : FaultRequested (g.thread t) :=
  thread_run (C := fun _ _ => True) (P := fun _ th => FaultRequested th) h0
    (fun _ _ hop => by cases hop) (fun _ _ _ _ _ hstep hth => hth.step hstep) h
    (fun _ _ => trivial) t

theorem rechecks_callReturned (op : Op) (result : Control.CallResult) :
    rechecks (op.callReturned result) = rechecks op := by
  unfold Op.callReturned
  split <;> rfl

theorem fault_of_rechecks {op : Op} (hwaits : op.awaitsMode) (h : rechecks op) :
    ∃ p, op = .restart p .fault := by
  revert hwaits h
  unfold Op.awaitsMode
  split <;> simp [rechecks]

/-- The step that ends a re-check, other than the return of a settled `set_mode(FAULT)`, finds the
gate open or, under no mode lock, another mode than AUTO. -/
theorem rechecks_step (h : ThreadStep cfg sh t th e th') (hfault : FaultRequested th)
    (hshape : th.Shaped) (hth : rechecks th.op) (hopen : settled th = false) :
    rechecks th'.op ∨ hooklessAutoGateRefused sh.registry cfg.automation = false ∨
      sh.modeLock = none ∧ sh.mode ≠ .auto := by
  cases h with
  | @call request pc c e n hcall h =>
    refine .inl ?_
    cases n with
    | go pc => exact hth
    | ret result =>
      simp only [Thread.withCall]
      split
      · exact hth
      · rw [rechecks_callReturned]
        exact hth
  | @mode new pc c e n hcall hmode h =>
    cases n with
    | go pc' | call pc' request => exact .inl hth
    | ret ok =>
      -- the `set_mode` that returns is the FAULT entry, and it is settled
      exfalso
      cases h with
      | ret =>
        obtain ⟨p, hop⟩ := fault_of_rechecks (hshape.mode (by simp [hmode])) hth
        obtain ⟨m, hm, hnew⟩ := hfault p hop
        obtain rfl := Option.some.inj (hmode.symm.trans hm)
        simp [settled, hm, settledPc] at hopen
        exact hopen hnew
  | @op op e n hcall hmode hop h =>
    rw [hop] at hth
    rw [Thread.op_withOp]
    cases h
    case restartLast p henabled => simp [hooklessAutoGateRefused, henabled]
    case restartFails p pc hpc => cases pc <;> simp_all [rechecks, published, RestartPc.fallible]
    all_goals simp_all [rechecks, published, OpNext.op]

theorem rechecks_of_publish {registry : Registry.DeviceRegistry}
    (h : ThreadStep cfg sh t th (.control (.publish registry)) th') :
    rechecks th'.op ∧ settled th' = false := by
  cases h with
  | op hcall hmode hop h =>
    cases h with
    | restartCommit => exact ⟨rfl, by simp [Thread.withOp, settled, hmode]⟩

end

/-- With a gate that refuses the inventory, AUTO past the gate's guard means that some restart has
its re-check ahead, or is about to settle the `set_mode(FAULT)` of it. -/
theorem refused_rechecked {cfg : SystemConfig} {g₀ g : SystemState} {tr : SystemTrace}
    (hgate : CommitGuard.hooklessGate ∈ cfg.callbacks.guards) (h0 : SystemStart g₀)
    (hmode : g₀.shared.mode ≠ .auto) (h : SystemRun cfg g₀ tr g) :
    hooklessAutoGateRefused g.shared.registry cfg.automation → AutoPast .hooklessGate g →
      ∃ t, rechecks (g.thread t).op ∧ settled (g.thread t) = false := by
  refine Run.induct (J := fun _ g =>
    hooklessAutoGateRefused g.shared.registry cfg.automation → AutoPast .hooklessGate g →
      ∃ t, rechecks (g.thread t).op ∧ settled (g.thread t) = false) ?_ ?_ h
  · rintro - (hauto | ⟨u, prev, rest, hu, -⟩)
    · exact absurd hauto hmode
    · rw [h0.idle] at hu
      cases hu
  · rintro tr g ⟨u, e⟩ g' hrun ih hstep hrefused hrisk
    obtain ⟨th', hth, hts, hsh, hother⟩ := system_step hstep
    by_cases hpublish : ∃ registry, e = .control (.publish registry)
    · obtain ⟨registry, rfl⟩ := hpublish
      exact ⟨u, by rw [hth]; exact rechecks_of_publish hts⟩
    · have hsame : g'.shared.registry = g.shared.registry := by
        rw [hsh]
        exact Shared.registry_apply fun registry he => hpublish ⟨registry, he⟩
      rw [hsame] at hrefused
      -- the guard refuses, so AUTO was past it before this step, and some re-check was ahead
      have hrefuses : ∀ c, CommitGuard.hooklessGate.judge cfg g.shared .auto c ≠ some true := by
        simp [CommitGuard.judge, hooklessAutoCheck, hrefused]
      have hrisk₀ : AutoPast .hooklessGate g := AutoPast.back hgate hrefuses hstep hrisk
      obtain ⟨t, ht, hopen⟩ := ih hrefused hrisk₀
      have hset : settled (g'.thread t) = false := by
        refine Bool.eq_false_of_not_eq_true fun hset => ?_
        rcases eq_or_ne t u with rfl | htu
        · exact AutoPast.not_of_settled (placed_run h0 hrun) (modeLock_run h0 hrun)
            (modeLock_run h0 (hrun.snoc hstep)) hstep hopen hset hrisk
        · rw [hother t htu, hopen] at hset
          cases hset
      refine ⟨t, ?_, hset⟩
      rcases eq_or_ne t u with rfl | htu
      · rw [hth]
        rcases rechecks_step hts (fault_requested h0 hrun t) (shaped_run h0 hrun t) ht hopen with
          hstill | hpasses | ⟨hfree, hleft⟩
        · exact hstill
        · rw [hrefused] at hpasses
          cases hpasses
        · exact absurd hrisk₀ (AutoPast.not_of_free (modeLock_run h0 hrun) hfree hleft)
      · rw [hother t htu]
        exact ht

/-- With the gate's guard installed and a first mode other than AUTO: in every state of a run of
any calls of `set_mode` and any restarts, with any inventories, in which no restart is between its
registry commit and the end of its re-check, the mode AUTO means that the gate does not refuse the
published inventory. -/
theorem hookless_gate_survives_restart (cfg : SystemConfig) {g₀ g : SystemState}
    {tr : SystemTrace} (hgate : CommitGuard.hooklessGate ∈ cfg.callbacks.guards)
    (h0 : SystemStart g₀) (hmode : g₀.shared.mode ≠ .auto) (hrun : SystemRun cfg g₀ tr g)
    (hquiet : ∀ t, rechecks (g.thread t).op = false) (hauto : g.shared.mode = .auto) :
    hooklessAutoGateRefused g.shared.registry cfg.automation = false := by
  refine Bool.eq_false_of_not_eq_true fun hrefused => ?_
  obtain ⟨t, ht, -⟩ := refused_rechecked hgate h0 hmode hrun hrefused (Or.inl hauto)
  rw [hquiet t] at ht
  cases ht

/-- The restart of `sim0` up to its registry commit, with an inventory of one function. -/
def restartWith (category : Protocol.Category) : List (ThreadId × Choice) :=
  [(2, .start (.restart "sim0")), (2, .answer .accept), (2, .answer .accept),
    (2, .inventory [{ providerId := "sim0", deviceId := "valve", functionsById :=
                        { entries := [("open", { functionId := 1, functionName := "open",
                                                 category := category })]
                          distinct := by simp } }]),
    (2, .answer .accept), (2, .go)]

/-- Thread 1 enters AUTO; a restart publishes an actuating function, and its re-check enters FAULT;
another restart publishes one that only reads; thread 1 enters AUTO again. -/
def restartTwice : List (ThreadId × Choice) :=
  (1, .start (.setMode .auto)) :: List.replicate 16 (1, .go) ++
    (restartWith .actuate ++ List.replicate 18 (2, .go)) ++
    (restartWith .read ++ List.replicate 4 (2, .go)) ++
    (1, .start (.setMode .manual)) :: List.replicate 16 (1, .go) ++
    (1, .start (.setMode .auto)) :: List.replicate 16 (1, .go)

/-- The gate refuses the first inventory in AUTO; when AUTO is entered again, it refuses nothing. -/
theorem hookless_gate_survives_restart_twice :
    ∃ tr g, SystemRun { automation := { enabled := true } } manualWorld tr g ∧
      (∃ i ∈ tr, i.1.shared.mode = .auto ∧
        hooklessAutoGateRefused i.1.shared.registry { enabled := true }) ∧
      (∃ i ∈ tr, i.1.shared.mode = .fault) ∧ g.shared.mode = .auto ∧
      hooklessAutoGateRefused g.shared.registry { enabled := true } = false := by
  obtain ⟨tr, g, hrun, hp⟩ := Machine.run_of_passes (system { automation := { enabled := true } })
    manualWorld restartTwice
    (fun tr g => (∃ i ∈ tr, i.1.shared.mode = .auto ∧
        hooklessAutoGateRefused i.1.shared.registry { enabled := true }) ∧
      (∃ i ∈ tr, i.1.shared.mode = .fault) ∧ g.shared.mode = .auto ∧
      (∀ i ∈ tr, i.2.1 ∈ [1, 2]) ∧ ∀ t ∈ [1, 2], rechecks (g.thread t).op = false)
    (by decide)
  obtain ⟨hrefused, hfault, hauto, hthreads, hquiet⟩ := hp
  exact ⟨tr, g, hrun, hrefused, hfault, hauto,
    hookless_gate_survives_restart _ (by decide) manualWorld_start (by decide) hrun
      ((Machine.all_threads (P := fun th => rechecks th.op = false) hrun hthreads
        fun _ => rfl).1 hquiet) hauto⟩

end Anolis.Proofs.HooklessRestart
