import Anolis.Runtime.ModeCalls

/-!
# The latch excludes AUTO

The latch is engaged before FAULT is requested, and the two are guarded by different locks. So there
is a window in which the latch is engaged in AUTO: from the step that engages it to the return of
the `set_mode(FAULT)` that follows (`owesFault`). An exception of the latch's store ends a `trigger`
or a `hold` without that `set_mode`, and leaves the latch engaged in AUTO with nothing left to run
(`throwing_save_leaves_auto`). `latched_excludes_auto` says that this is the only way.

The invariant is on `AutoRisk`: the mode is AUTO, or a `set_mode(AUTO)` has passed the e-stop
guard and is about to commit. Under the latch no step brings the risk about (`risk_back`), so
it is as old as the latch, and the thread that engaged the latch is still on its way to FAULT
(`onWay`): the step in which a `set_mode(FAULT)` settles its outcome ends the risk
(`AutoPast.not_of_settled`). `set_mode(AUTO)` and `set_mode(FAULT)` are ordered by the mode lock.
-/

namespace Anolis.Proofs.LatchedAuto

open Anolis.Runtime Lib

/-- The last place of a `trigger`, and of a `hold` whose `save` threw. -/
def lastPlace : Op → Bool
  | .trigger .unlock | .hold .unwind => true
  | _ => false

/-- Does the thread `t` owe a `set_mode(FAULT)` after one more step: from the step in which it
engages the latch to the step in which its `set_mode(FAULT)` returns, or its operation ends. -/
def faultOwed (t : ThreadId) (owed : Bool) (i : Item) : Bool :=
  if i.2.1 = t then
    match i.2.2 with
    | .control .engage => true
    | .mode (.returned .fault _) => false
    | _ => owed && !lastPlace (i.1.thread t).op
  else owed

/-- Is a `trigger` or `hold` of the thread `t` between engaging the latch and the return of its
`set_mode(FAULT)`, after the steps of `tr`. -/
def owesFault (t : ThreadId) (tr : SystemTrace) : Bool := tr.foldl (faultOwed t) false

theorem owesFault_snoc (t : ThreadId) (tr : SystemTrace) (i : Item) :
    owesFault t (tr ++ [i]) = faultOwed t (owesFault t tr) i := by
  simp [owesFault]

variable {tr : SystemTrace}

/-- A thread that owes has taken a step. -/
theorem mem_of_owesFault {t : ThreadId} (h : owesFault t tr) : ∃ i ∈ tr, i.2.1 = t := by
  induction tr using List.reverseRecOn with
  | nil => cases h
  | append_singleton tr i ih =>
    rw [owesFault_snoc, faultOwed] at h
    split at h
    · rename_i hi
      exact ⟨i, by simp, hi⟩
    · obtain ⟨j, hj, hjt⟩ := ih h
      exact ⟨j, by simp [hj], hjt⟩

/-- To see that nobody owes, it is enough to ask the threads that took a step. -/
theorem owesFault_eq_false (h : ∀ i ∈ tr, owesFault i.2.1 tr = false) (t : ThreadId) :
    owesFault t tr = false := by
  refine Bool.eq_false_of_not_eq_true fun howes => ?_
  obtain ⟨j, hj, rfl⟩ := mem_of_owesFault howes
  rw [h j hj] at howes
  cases howes

/-- AUTO, or a `set_mode(AUTO)` that no e-stop guard can stop any more. -/
abbrev AutoRisk (g : SystemState) : Prop := AutoPast .estopGate g

/-- The runtime while no `save` of the latch's store throws. -/
def saving (cfg : SystemConfig) : Machine Shared Thread Effect Choice where
  next sh t th c :=
    match c with
    | .save .threw => none
    | c => th.next cfg sh t c
  apply := Shared.apply

/-! ### The way to FAULT -/

/-- The thread is in a `trigger` or a `hold` that has engaged the latch or found it engaged, and its
`set_mode(FAULT)` is ahead or running. -/
def onWay (th : Thread) : Bool :=
  match th.op, th.mode with
  | .trigger .save, none | .trigger (.ladder _), none | .trigger (.admission _), none
  | .hold .save, none | .hold .unlock, none => true
  | .trigger (.fault _), some m | .hold .fault, some m => m.new = .fault
  | _, _ => false

section
variable {cfg : SystemConfig} {g g' : SystemState} {t : ThreadId} {e : Effect} {th th' : Thread}

/-- A step of the runtime that saves is one of the runtime, and its choice is no exception. -/
theorem saving_step (h : (saving cfg).lts.step g (t, e) g') :
    (system cfg).lts.step g (t, e) g' ∧ ∃ c, c ≠ .save .threw ∧
      (g.thread t).next cfg g.shared t c = some (e, g'.thread t) := by
  obtain ⟨c, th', hnext, hsh, hth, hother⟩ := Machine.step_inv h
  simp only [saving] at hnext
  split at hnext
  · cases hnext
  · rename_i hc
    refine ⟨Machine.step_of_next (M := system cfg) hnext hsh hth hother, c, hc, ?_⟩
    rw [hth]
    exact hnext

theorem saving_run {g₀ : SystemState} (h : Run (saving cfg).lts g₀ tr g) :
    SystemRun cfg g₀ tr g := by
  induction h with
  | refl => exact Run.refl
  | snoc _ hs ih => exact ih.snoc (saving_step hs).1

/-- On its way to FAULT, a step of an operation goes on or starts the `set_mode(FAULT)`. -/
theorem onWay_op {sh : Shared} {c : Choice} {op : Op} {e : ControlEffect} {n : OpNext}
    (henabled : cfg.automation.enabled) (hc : c ≠ .save .threw)
    (hway : onWay { op := op }) (h : opNext cfg sh t op c = some (e, n)) :
    onWay (Thread.withOp { op := op } n) = true := by
  cases op with
  | trigger pc =>
    simp only [opNext] at h
    revert h
    fun_cases triggerNext cfg sh pc c <;> intro h <;> simp only [some_pair, reduceCtorEq] at h
    all_goals obtain ⟨rfl, rfl⟩ := h
    all_goals first | rfl | contradiction
  | hold pc =>
    simp only [opNext] at h
    revert h
    fun_cases holdNext cfg sh pc c <;> intro h <;> simp only [some_pair, reduceCtorEq] at h
    all_goals obtain ⟨rfl, rfl⟩ := h
    all_goals first | rfl | contradiction
  | _ => cases hway

/-- A thread on its way to FAULT whose `set_mode(FAULT)` is not settled stays on it, and its
`set_mode(FAULT)` does not return. -/
theorem onWay_step {sh : Shared} {c : Choice} (henabled : cfg.automation.enabled)
    (hc : c ≠ .save .threw) (h : th.next cfg sh t c = some (e, th')) (hway : onWay th)
    (hopen : settled th = false) :
    onWay th' ∧ ∀ ok, e ≠ .mode (.returned .fault ok) := by
  unfold Thread.next at h
  split at h <;> obtain ⟨⟨e', n⟩, hn, heq⟩ := Option.map_eq_some_iff.mp h <;> cases heq
  · refine ⟨?_, by simp⟩
    cases n with
    | go pc => exact hway
    | ret result =>
      unfold onWay at hway ⊢
      split at hway <;> simp_all [Thread.withCall, Op.callReturned, SetMode.callReturned_new]
  · rename_i new pc hcall hmode
    obtain rfl : new = .fault := by
      unfold onWay at hway
      split at hway <;> simp_all
    have hs := setModeStep_of_next hn
    have hno : ∀ ok, e' ≠ .returned .fault ok := by
      rintro ok rfl
      obtain ⟨-, rfl⟩ := hs.of_returned
      simp [settled, hmode, settledPc] at hopen
    refine ⟨?_, fun ok he => hno ok (Effect.mode.inj he)⟩
    cases n with
    | ret ok =>
      cases hs
      exact absurd rfl (hno _)
    | go pc' | call pc' request =>
      unfold onWay at hway ⊢
      split at hway <;> simp_all [Thread.withMode]
  · rename_i hcall hmode
    obtain ⟨op, mode, call⟩ := th
    obtain rfl : mode = none := hmode
    obtain rfl : call = none := hcall
    exact ⟨onWay_op henabled hc hway hn, by simp⟩

/-- Engaging the latch puts the thread on its way to FAULT. -/
theorem onWay_of_engage (hstep : (system cfg).lts.step g (t, .control .engage) g') :
    onWay (g'.thread t) ∧ (g'.thread t).mode = none := by
  obtain ⟨th', hth, hts, -, -⟩ := system_step hstep
  rw [hth]
  cases hts with
  | op _ hmode _ h =>
    cases h with
    | triggerEngage | holdEngage => simp [onWay, Thread.withOp, hmode]

/-- A thread on its way to FAULT with no settled `set_mode(FAULT)` stays so under a step of the
runtime that saves, and still owes what it owed. -/
theorem owesFault_step {u : ThreadId} (henabled : cfg.automation.enabled)
    (hstep : (saving cfg).lts.step g (t, e) g') (howes : owesFault u tr)
    (hopen : settled (g.thread u) = false) (hway : onWay (g.thread u)) :
    owesFault u (tr ++ [(g, t, e)]) ∧ onWay (g'.thread u) = true := by
  obtain ⟨hsys, c, hc, hnext⟩ := saving_step hstep
  obtain ⟨-, -, -, -, hother⟩ := system_step hsys
  rw [owesFault_snoc, faultOwed]
  rcases eq_or_ne u t with rfl | hu
  · obtain ⟨hway', hno⟩ := onWay_step henabled hc hnext hway hopen
    have hplace : lastPlace (g.thread u).op = false := by
      unfold onWay at hway
      split at hway <;> simp_all [lastPlace]
    refine ⟨?_, hway'⟩
    dsimp only
    rw [if_pos rfl]
    split
    · rfl
    · exact absurd rfl (hno _)
    · simp [howes, hplace]
  · rw [if_neg (Ne.symm hu), hother u hu]
    exact ⟨howes, hway⟩

end

/-! ### The risk -/

/-- Under the latch no step brings the risk about. -/
theorem risk_back {cfg : SystemConfig} {g g' : SystemState} {t : ThreadId} {e : Effect}
    (hgate : CommitGuard.estopGate ∈ cfg.callbacks.guards) (hlatched : g.shared.latched)
    (hstep : (system cfg).lts.step g (t, e) g') (h : AutoRisk g') : AutoRisk g := by
  refine AutoPast.back hgate (fun c => ?_) hstep h
  -- the e-stop guard does not accept AUTO under the latch
  simp [CommitGuard.judge, estopAutoCheck, hlatched]

/-- Under the latch, a risk is owed: some thread has engaged the latch, is on its way to FAULT, and
its `set_mode(FAULT)` is not settled. -/
theorem risk_owed {cfg : SystemConfig} {g₀ g : SystemState} (henabled : cfg.automation.enabled)
    (hgate : CommitGuard.estopGate ∈ cfg.callbacks.guards) (h0 : SystemStart g₀)
    (hmode : g₀.shared.mode ≠ .auto) (h : Run (saving cfg).lts g₀ tr g) :
    g.shared.latched → AutoRisk g →
      ∃ t, owesFault t tr ∧ settled (g.thread t) = false ∧ onWay (g.thread t) = true := by
  refine Run.induct (J := fun tr g => g.shared.latched → AutoRisk g →
    ∃ t, owesFault t tr ∧ settled (g.thread t) = false ∧ onWay (g.thread t)) ?_ ?_ h
  · rintro - (hauto | ⟨u, prev, rest, hu, -⟩)
    · exact absurd hauto hmode
    · rw [h0.idle] at hu
      cases hu
  · rintro tr g ⟨u, e⟩ g' hrun ih hsaving hlatched hrisk
    have hstep := (saving_step hsaving).1
    by_cases hengage : e = .control .engage
    · subst hengage
      obtain ⟨hway, hfresh⟩ := onWay_of_engage hstep
      exact ⟨u, by simp [owesFault_snoc, faultOwed], by simp [settled, hfresh], hway⟩
    · obtain ⟨-, -, -, hsh, hother⟩ := system_step hstep
      have hold : g.shared.latched := by
        rw [hsh] at hlatched
        exact Shared.latched_of_apply hengage hlatched
      -- the risk was there before this step, so somebody owed a FAULT entry; it still does,
      -- because the step that settles it would end the risk
      obtain ⟨t, howes, hopen, hway⟩ := ih hold (risk_back hgate hold hstep hrisk)
      obtain ⟨howes', hway'⟩ := owesFault_step henabled hsaving howes hopen hway
      refine ⟨t, howes', Bool.eq_false_of_not_eq_true fun hset => ?_, hway'⟩
      have hsys := saving_run hrun
      rcases eq_or_ne t u with rfl | htu
      · exact AutoPast.not_of_settled (placed_run h0 hsys) (modeLock_run h0 hsys)
          (modeLock_run h0 (hsys.snoc hstep)) hstep hopen hset hrisk
      · rw [hother t htu, hopen] at hset
        cases hset

/-- With the e-stop guard installed and a first mode other than AUTO: in every run in which no
`save` of the latch's store throws, in every state in which no `trigger` or `hold` is between
engaging the latch and the return of its `set_mode(FAULT)`, an engaged latch means that the mode is
not AUTO. -/
theorem latched_excludes_auto (cfg : SystemConfig) {g₀ g : SystemState} {tr : SystemTrace}
    (henabled : cfg.automation.enabled)
    (hgate : CommitGuard.estopGate ∈ cfg.callbacks.guards) (h0 : SystemStart g₀)
    (hmode : g₀.shared.mode ≠ .auto) (hrun : Run (saving cfg).lts g₀ tr g)
    (hquiet : ∀ t, owesFault t tr = false) (hlatched : g.shared.latched) :
    g.shared.mode ≠ .auto := by
  intro hauto
  obtain ⟨t, howes, -⟩ := risk_owed henabled hgate h0 hmode hrun hlatched (Or.inl hauto)
  rw [hquiet t] at howes
  cases howes

/-- Thread 1 enters AUTO; then thread 2 begins an e-stop, whose `save` ends as given. -/
def autoThenTrigger (outcome : SaveOutcome) : List (ThreadId × Choice) :=
  (1, .start (.setMode .auto)) :: List.replicate 16 (1, .go) ++
    [(2, .start .trigger), (2, .go), (2, .go), (2, .save outcome)]

/-- The e-stop is triggered in AUTO, and has left AUTO when it is over. -/
theorem latched_excludes_auto_trigger :
    ∃ tr g, Run (saving { automation := { enabled := true } }).lts manualWorld tr g ∧
      (∃ i ∈ tr, i.1.shared.latched ∧ i.1.shared.mode = .auto) ∧
      g.shared.latched ∧ g.shared.mode ≠ .auto := by
  obtain ⟨tr, g, hrun, hp⟩ := Machine.run_of_passes (saving { automation := { enabled := true } })
    manualWorld (autoThenTrigger .saved ++ List.replicate 19 (2, .go))
    (fun tr g => (∀ i ∈ tr, owesFault i.2.1 tr = false) ∧ g.shared.latched ∧
      ∃ i ∈ tr, i.1.shared.latched ∧ i.1.shared.mode = .auto) (by decide)
  obtain ⟨hquiet, hlatched, hwindow⟩ := hp
  exact ⟨tr, g, hrun, hwindow, hlatched, latched_excludes_auto _ rfl (by decide) manualWorld_start
    (by decide) hrun (owesFault_eq_false hquiet) hlatched⟩

/-- The `save` of an e-stop in AUTO throws. When the `trigger` has unwound, no thread has anything
left to run, and the latch is engaged in AUTO. -/
theorem throwing_save_leaves_auto :
    ∃ tr g, SystemRun { automation := { enabled := true } } manualWorld tr g ∧
      (∀ t, owesFault t tr = false ∧ (g.thread t).op.isIdle) ∧
      g.shared.latched ∧ g.shared.mode = .auto := by
  obtain ⟨tr, g, hrun, hp⟩ := Machine.run_of_passes (system { automation := { enabled := true } })
    manualWorld (autoThenTrigger .threw ++ [(2, .go)])
    (fun tr g => (∀ i ∈ tr, i.2.1 ∈ [1, 2] ∧ owesFault i.2.1 tr = false) ∧ g.shared.latched ∧
      g.shared.mode = .auto ∧ ∀ t ∈ [1, 2], (g.thread t).op.isIdle) (by decide)
  obtain ⟨hall, hlatched, hauto, hidle⟩ := hp
  have hthreads := (Machine.all_threads (P := fun th => th.op.isIdle) hrun
    (fun i hi => (hall i hi).1) fun _ => rfl).1 hidle
  exact ⟨tr, g, hrun, fun t => ⟨owesFault_eq_false (fun i hi => (hall i hi).2) t, hthreads t⟩,
    hlatched, hauto⟩

end Anolis.Proofs.LatchedAuto
