import Anolis.Proofs.EstopBarrier
import Anolis.Runtime.ModeCalls

/-!
# A `set_mode` returns

The part of the mode manager's contract that says that a call comes back. Three facts make it:

* its own steps run out (`own_steps_bounded`): every step of a thread inside a `set_mode`
  lowers a rank that is computed from its place, the callbacks and the hooks' calls;
* a thread that holds the mode lock or a provider's lock never waits (`setModeNext_enabled`,
  `callNext_enabled`), so the lock is given back after finitely many of its steps
  (`frees_modeLock`, `frees_providerLock`);
* so from every state of a run, a run leads to the return (`can_return`).
-/

namespace Anolis.Proofs.Returns

open Anolis.Runtime Automation Control EstopBarrier Lib

variable {c : Choice} {e : ModeEffect} {m : SetMode} {pc : SetModePc} {run : HookRun}
  {th th' : Thread} {cfg : SystemConfig} {sh : Shared} {t : ThreadId} {new : RuntimeMode}
  {n : SetModeNext}

/-! ### The rank of a place -/

/-- How many steps a call at this place has left, at most. -/
def callRank : CallPc → Nat
  | .idleGate => 16
  | .autoGate => 15
  | .provider => 14
  | .available _ _ => 13
  | .device _ _ => 12
  | .allowedModes _ => 11
  | .latch _ => 10
  | .loss _ => 9
  | .arguments _ => 8
  | .lock _ _ => 7
  | .latchAgain _ _ => 6
  | .lossAgain _ _ => 5
  | .interval _ _ => 4
  | .dispatch _ _ => 3
  | .reply _ => 2
  | .leave _ _ => 1

/-- The rank of a hook callback. Each pending call counts for its own steps and for those of the
call. -/
def hookRank : HookRun → Nat
  | .next pending => 40 * pending.length + 1
  | .judge _ pending => 40 * pending.length + 40
  | .weigh _ _ pending => 40 * pending.length + 39
  | .calling _ pending => 40 * pending.length + 2
  | .rejected => 1

def hookNextRank : HookNext → Nat
  | .go run => hookRank run
  | .call run _ => hookRank run + 17
  | .done _ => 0

/-- The rank of the hooks before they are filtered for a transition. -/
def hooksRank (hooks : List ModeTransitionHookConfig) : Nat :=
  40 * (hooks.flatMap fun h => h.calls).length + 1

def beforeRank : List BeforeCallback → Nat
  | [] => 0
  | .hooks hooks :: rest => hooksRank hooks + 1 + beforeRank rest
  | _ :: rest => 1 + beforeRank rest

def afterRank : List AfterCallback → Nat
  | [] => 0
  | .hooks hooks :: rest => hooksRank hooks + 1 + afterRank rest
  | _ :: rest => 2 + afterRank rest

/-- The rank of a `set_mode`. -/
def modeRank (cb : Callbacks) : SetModePc → Nat
  | .enter => beforeRank cb.before + cb.guards.length + afterRank cb.after + 7
  | .before _ rest => beforeRank rest + cb.guards.length + afterRank cb.after + 6
  | .beforeHook _ _ run rest =>
    hookRank run + beforeRank rest + cb.guards.length + afterRank cb.after + 6
  | .relock _ => cb.guards.length + afterRank cb.after + 5
  | .recheck _ => cb.guards.length + afterRank cb.after + 4
  | .guards _ rest => rest.length + afterRank cb.after + 3
  | .release _ => 2
  | .after _ rest => afterRank rest + 2
  | .inAfter _ _ rest => afterRank rest + 3
  | .afterHook _ _ run rest => hookRank run + afterRank rest + 2
  | .done _ => 1

def modeNextRank (cb : Callbacks) : SetModeNext → Nat
  | .go pc => modeRank cb pc
  | .call pc _ => modeRank cb pc + 17
  | .ret _ => 0

/-- The rank of a thread inside a `set_mode`: that of the `set_mode`, and that of its hook's
call. -/
def threadRank (cb : Callbacks) (th : Thread) : Nat :=
  (th.mode.elim 0 fun m => modeRank cb m.pc) + th.call.elim 0 fun k => callRank k.pc + 1

theorem hookCalls_length_le (hooks : List ModeTransitionHookConfig) (prev next : RuntimeMode) :
    hookRank (.next (hookCalls hooks prev next)) ≤ hooksRank hooks := by
  have hlen : (hookCalls hooks prev next).length ≤ (hooks.flatMap fun h => h.calls).length := by
    induction hooks with
    | nil => simp [hookCalls]
    | cons h hooks ih =>
      simp only [hookCalls, List.filter_cons] at ih ⊢
      split <;> simp only [List.flatMap_cons, List.length_append, List.length_map] <;> omega
  simp only [hookRank, hooksRank]
  omega

theorem one_le_hookRank (run : HookRun) : 1 ≤ hookRank run := by
  cases run <;> simp only [hookRank] <;> omega

theorem callNext_rank {request : CallRequest} {pc pc' : CallPc} {e : CallEffect}
    (h : callNext cfg sh t request pc c = some (e, .go pc')) : callRank pc' < callRank pc := by
  revert h
  fun_cases callNext cfg sh t request pc c <;> intro h <;>
    simp only [refuse, some_pair, CallNext.go.injEq, reduceCtorEq, and_false] at h
  all_goals
    obtain ⟨-, rfl⟩ := h
    simp only [callRank]
    omega

theorem hookStep_rank {n : HookNext} (h : run.step sh t new = some (e, n)) :
    hookNextRank n < hookRank run := by
  revert h
  fun_cases HookRun.step sh t new run <;> intro h <;>
    simp only [some_pair, reduceCtorEq] at h
  all_goals
    obtain ⟨-, rfl⟩ := h
    simp only [hookNextRank, hookRank, List.length_cons, List.length_nil]
    omega

theorem entered_rank (current : RuntimeMode) :
    modeRank cfg.callbacks (SetModePc.entered cfg new current) < modeRank cfg.callbacks .enter := by
  unfold SetModePc.entered
  repeat' split
  all_goals
    simp only [modeRank]
    omega

theorem answered_rank (cb : Callbacks) (new shown : RuntimeMode) (rest : List BeforeCallback)
    (ok : Bool) : modeRank cb (SetModePc.answered new shown rest ok) ≤
      beforeRank rest + cb.guards.length + afterRank cb.after + 6 := by
  unfold SetModePc.answered
  split <;> simp only [modeRank] <;> omega

theorem rechecked_rank (shown current : RuntimeMode) :
    modeRank cfg.callbacks (SetModePc.rechecked cfg new shown current) <
      modeRank cfg.callbacks (.recheck shown) := by
  unfold SetModePc.rechecked
  split
  · simp only [modeRank]
    omega
  · split
    · simp only [modeRank]
      omega
    · split
      · simp only [modeRank]
        omega
      · simp only [modeRank]
        split
        · rw [List.length_nil]
          omega
        · omega

theorem beforeRank_cons (callback : BeforeCallback) (rest : List BeforeCallback) :
    beforeRank rest + 1 ≤ beforeRank (callback :: rest) := by
  cases callback <;> simp only [beforeRank] <;> omega

theorem afterRank_cons {callback : AfterCallback} (rest : List AfterCallback)
    (h : ∀ hooks, callback ≠ .hooks hooks) : afterRank (callback :: rest) = afterRank rest + 2 := by
  cases callback with
  | hooks hooks => exact absurd rfl (h hooks)
  | _ =>
    simp only [afterRank]
    omega

theorem beforeRank_hooks (hooks : List ModeTransitionHookConfig) (rest : List BeforeCallback) :
    beforeRank (.hooks hooks :: rest) = hooksRank hooks + 1 + beforeRank rest := rfl

theorem afterRank_hooks (hooks : List ModeTransitionHookConfig) (rest : List AfterCallback) :
    afterRank (.hooks hooks :: rest) = hooksRank hooks + 1 + afterRank rest := rfl

theorem setModeStep_rank (h : SetModeStep cfg sh t new c pc e n) :
    modeNextRank cfg.callbacks n < modeRank cfg.callbacks pc := by
  cases h
  case enter => exact entered_rank _
  case recheck shown => exact rechecked_rank shown _
  case beforeHooks shown hooks rest =>
    have := hookCalls_length_le hooks shown new
    simp only [modeNextRank, modeRank, beforeRank_hooks]
    omega
  case beforeAnswer shown callback rest ok hjudge =>
    refine Nat.lt_of_le_of_lt (answered_rank cfg.callbacks new shown rest ok) ?_
    have := beforeRank_cons callback rest
    simp only [modeRank]
    omega
  case beforeHookEnd shown hooks run rest e ok hrun =>
    refine Nat.lt_of_le_of_lt (answered_rank cfg.callbacks new shown rest ok) ?_
    have := one_le_hookRank run
    simp only [modeRank]
    omega
  case beforeHookGo hrun | beforeHookCall hrun | afterHookGo hrun | afterHookCall hrun =>
    have := hookStep_rank hrun
    simp only [hookNextRank] at this
    simp only [modeNextRank, modeRank]
    omega
  case afterHooks prev hooks rest =>
    have := hookCalls_length_le hooks prev new
    simp only [modeNextRank, modeRank, afterRank_hooks]
    omega
  case afterStart prev callback rest hcb =>
    simp only [modeNextRank, modeRank, afterRank_cons rest hcb]
    omega
  case afterHookEnd prev hooks run rest e ok hrun =>
    have := one_le_hookRank run
    simp only [modeNextRank, modeRank]
    omega
  all_goals
    simp only [modeNextRank, modeRank, List.length_cons, List.length_nil]
    omega

theorem callReturned_rank (cb : Callbacks) (m : SetMode) (result : CallResult) :
    modeRank cb (m.callReturned result).pc ≤ modeRank cb m.pc := by
  unfold SetMode.callReturned
  split
  · rename_i shown hooks run rest hpc
    have : hookRank (run.beforeReturned m.new result) ≤ hookRank run := by
      unfold HookRun.beforeReturned
      repeat' split
      all_goals
        simp only [hookRank]
        omega
    simp only [hpc, modeRank]
    omega
  · rename_i prev hooks run rest hpc
    have : hookRank run.afterReturned ≤ hookRank run := by
      unfold HookRun.afterReturned
      split
      · simp only [hookRank]
        omega
      · exact le_rfl
    simp only [hpc, modeRank]
    omega
  · exact le_rfl

theorem threadStep_rank {e : Effect} (h : ThreadStep cfg sh t th e th')
    (hm : th.mode.isSome) (hm' : th'.mode.isSome) :
    threadRank cfg.callbacks th' < threadRank cfg.callbacks th := by
  cases h with
  | @call request pc c e n hcall h =>
    cases n with
    | go pc' =>
      have := callNext_rank h
      simp only [threadRank, Thread.withCall, hcall, Option.elim_some]
      omega
    | ret result =>
      obtain ⟨m, hmode⟩ := Option.isSome_iff_exists.mp hm
      have := callReturned_rank cfg.callbacks m result
      simp only [threadRank, Thread.withCall, hcall, hmode, Option.elim_some, Option.elim_none]
      omega
  | @mode new pc c e n hcall hmode h =>
    have hrank := setModeStep_rank h
    cases n with
    | go pc' =>
      simp only [modeNextRank] at hrank
      simp only [threadRank, Thread.withMode, hcall, hmode, Option.elim_some, Option.elim_none]
      omega
    | call pc' request =>
      simp only [modeNextRank] at hrank
      simp only [threadRank, Thread.withMode, hcall, hmode, Option.elim_some, Option.elim_none,
        callRank]
      omega
    | ret ok => simp [Thread.withMode] at hm'
  | op hcall hmode => simp [hmode] at hm

theorem mode_isSome_of_step {e : Effect} (h : ThreadStep cfg sh t th e th') (hm : th.mode.isSome)
    (hne : ∀ new ok, e ≠ .mode (.returned new ok)) : th'.mode.isSome = true := by
  cases h with
  | @call request pc c e n hcall h =>
    cases n with
    | go pc' => exact hm
    | ret result =>
      obtain ⟨m, hmode⟩ := Option.isSome_iff_exists.mp hm
      simp [Thread.withCall, hmode]
  | @mode new pc c e n hcall hmode h =>
    cases n with
    | go pc' => rfl
    | call pc' request => rfl
    | ret ok =>
      cases h
      exact absurd rfl (hne _ _)
  | op hcall hmode => simp [hmode] at hm

/-- The steps a thread takes inside a `set_mode` are bounded by its rank. -/
theorem own_steps_bounded {g g' : SystemState} {tr : SystemTrace} (hm : (g.thread t).mode.isSome)
    (h : SystemRun cfg g tr g') (hin : ∀ i ∈ tr, ∀ new ok, i.2 ≠ (t, .mode (.returned new ok))) :
    (tr.countP fun i => i.2.1 = t) ≤ threadRank cfg.callbacks (g.thread t) := by
  suffices hsum : (g'.thread t).mode.isSome ∧
      (tr.countP fun i => i.2.1 = t) + threadRank cfg.callbacks (g'.thread t) ≤
        threadRank cfg.callbacks (g.thread t) from
    Nat.le_trans (Nat.le_add_right _ _) hsum.2
  refine Run.induct_of (C := fun _ l => ∀ new ok, l ≠ (t, .mode (.returned new ok)))
    (J := fun tr g' => (g'.thread t).mode.isSome ∧
      (tr.countP fun i => i.2.1 = t) + threadRank cfg.callbacks (g'.thread t) ≤
        threadRank cfg.callbacks (g.thread t)) ⟨hm, by simp⟩ ?_ h hin
  rintro tr s ⟨u, e⟩ s' - - ⟨hms, hsum⟩ hne hstep
  obtain ⟨th', hth, hts, -, hother⟩ := system_step hstep
  rw [List.countP_append, List.countP_singleton]
  by_cases htu : t = u
  · subst htu
    have hms' : (s'.thread t).mode.isSome := by
      rw [hth]
      exact mode_isSome_of_step hts hms fun new ok he => hne new ok (by rw [he])
    refine ⟨hms', ?_⟩
    have := threadStep_rank hts hms (hth ▸ hms')
    rw [hth]
    simp only [decide_true, if_true]
    omega
  · rw [hother t htu]
    refine ⟨hms, ?_⟩
    simp only [Ne.symm htu, decide_false, Bool.false_eq_true, if_false]
    omega

/-! ### The call of a hook -/

def hookCalling : HookRun → Bool
  | .calling _ _ => true
  | _ => false

/-- Is the `set_mode` waiting for the call of a hook. -/
def calling : SetModePc → Bool
  | .beforeHook _ _ run _ | .afterHook _ _ run _ => hookCalling run
  | _ => false

theorem hookStep_calling {n : HookNext} (h : run.step sh t new = some (e, n)) :
    (∀ run', n = .go run' → hookCalling run' = false) ∧
      ∀ run' request, n = .call run' request → hookCalling run' = true := by
  revert h
  fun_cases HookRun.step sh t new run <;> intro h <;>
    simp only [some_pair, reduceCtorEq] at h
  all_goals
    obtain ⟨-, rfl⟩ := h
    simp [hookCalling]

theorem hookStep_enabled (sh : Shared) (t : ThreadId) (new : RuntimeMode)
    (h : hookCalling run = false) : ∃ r, run.step sh t new = some r := by
  refine Option.isSome_iff_exists.mp ?_
  fun_cases HookRun.step sh t new run <;> simp_all [hookCalling]

theorem setModeStep_calling (h : SetModeStep cfg sh t new c pc e n) :
    (∀ pc', n = .go pc' → calling pc' = false) ∧
      ∀ pc' request, n = .call pc' request → calling pc' = true := by
  cases h
  case enter =>
    simp only [SetModeNext.go.injEq, forall_eq', reduceCtorEq, false_implies, implies_true,
      and_true, SetModePc.entered]
    repeat' split
    all_goals rfl
  case beforeAnswer | beforeHookEnd =>
    simp only [SetModeNext.go.injEq, forall_eq', reduceCtorEq, false_implies, implies_true,
      and_true, SetModePc.answered]
    split <;> rfl
  case recheck =>
    simp only [SetModeNext.go.injEq, forall_eq', reduceCtorEq, false_implies, implies_true,
      and_true, SetModePc.rechecked]
    repeat' split
    all_goals rfl
  case beforeHookGo hrun | beforeHookCall hrun | afterHookGo hrun | afterHookCall hrun =>
    have := hookStep_calling hrun
    simp_all [calling]
  all_goals simp [calling, hookCalling]

theorem callReturned_calling (result : CallResult) (h : calling m.pc) :
    calling (m.callReturned result).pc = false := by
  unfold SetMode.callReturned
  split
  · rename_i shown hooks run rest hpc
    cases run with
    | calling h pending =>
      simp only [HookRun.beforeReturned, calling]
      split <;> rfl
    | _ => simp [hpc, calling, hookCalling] at h
  · rename_i prev hooks run rest hpc
    cases run with
    | calling h pending => rfl
    | _ => simp [hpc, calling, hookCalling] at h
  · rename_i hb ha
    cases hpc : m.pc with
    | beforeHook shown hooks run rest => exact absurd hpc (hb _ _ _ _)
    | afterHook prev hooks run rest => exact absurd hpc (ha _ _ _ _)
    | _ => rfl

/-- A `set_mode` has a call running exactly where it waits for the call of a hook. -/
theorem threadStep_calling {e : Effect} (h : ThreadStep cfg sh t th e th')
    (hth : ∀ m, th.mode = some m → th.call.isSome = calling m.pc) :
    ∀ m, th'.mode = some m → th'.call.isSome = calling m.pc := by
  intro m hm
  cases h with
  | @call request pc c e n hcall h =>
    cases n with
    | go pc' => simpa [Thread.withCall, hcall] using hth m hm
    | ret result =>
      cases hmode : th.mode with
      | none => simp [Thread.withCall, hmode] at hm
      | some m₀ =>
        have hcalling : calling m₀.pc := by simpa [hcall] using (hth m₀ hmode).symm
        simp only [Thread.withCall, hmode, Option.some.injEq] at hm ⊢
        rw [← hm, callReturned_calling result hcalling]
        rfl
  | @mode new pc c e n hcall hmode h =>
    have := setModeStep_calling h
    cases n with
    | go pc' =>
      cases hm
      simp [Thread.withMode, hcall, this.1 pc' rfl]
    | call pc' request =>
      cases hm
      simp [Thread.withMode, this.2 pc' request rfl]
    | ret ok => cases hm
  | @op op e n hcall hmode hop h =>
    cases n with
    | setMode op' new =>
      cases hm
      simp [Thread.withOp, hcall, calling]
    | _ => simp [Thread.withOp, hmode] at hm

theorem calling_run {g₀ g : SystemState} {tr : SystemTrace} (h0 : SystemStart g₀)
    (h : SystemRun cfg g₀ tr g) :
    ∀ t m, (g.thread t).mode = some m → (g.thread t).call.isSome = calling m.pc := by
  refine thread_run (C := fun _ _ => True)
    (P := fun _ th => ∀ m, th.mode = some m → th.call.isSome = calling m.pc) h0 ?_ ?_ h
    (fun _ _ => trivial)
  · intro t m hm
    cases hm
  · intro g t e th' _ hts hth
    exact threadStep_calling hts hth

/-! ### Nothing but a lock holds a call up -/

/-- An answer of the world that lets a call go on. -/
def callChoice : CallPc → Choice
  | .provider => .found true
  | .available _ _ => .available true
  | .reply _ => .reply (.failed .unavailable "")
  | _ => .go

/-- A call goes on if the locks it may wait for are free. Inside its provider's lock it waits for
none. -/
theorem callNext_enabled (cfg : SystemConfig) (sh : Shared) (t : ThreadId)
    (request : CallRequest) (pc : CallPc) (hmode : pc.held = none → sh.modeLock = none)
    (hprovider : ∀ target args, pc = .lock target args → sh.providerLock target.providerId = none) :
    ∃ c r, callNext cfg sh t request pc c = some r := by
  refine ⟨callChoice pc, Option.isSome_iff_exists.mp ?_⟩
  generalize hc : callChoice pc = c
  fun_cases callNext cfg sh t request pc c <;>
    simp_all [refuse, callChoice, CallPc.held]
  -- what is left are the two catch-all branches
  case case12 hother => exact hother _ _ rfl
  case case42 hother => exact hother _ _ hc.symm

/-- An answer of a callback that lets a `set_mode` go on. -/
def modeChoice : Choice := .answer .accept

/-- A `set_mode` goes on if the mode lock is free, or it holds it; but for the call of a hook. -/
theorem setModeNext_enabled (cfg : SystemConfig) (sh : Shared) (t : ThreadId) (new : RuntimeMode)
    (hcalling : calling pc = false) (hlock : pc.locked = false → sh.modeLock = none) :
    ∃ c r, setModeNext cfg sh t new pc c = some r := by
  refine ⟨modeChoice, ?_⟩
  cases pc with
  | enter | relock shown => exact ⟨_, by simp only [setModeNext, hlock rfl]; rfl⟩
  | before shown rest | after prev rest =>
    cases rest with
    | nil => exact ⟨_, rfl⟩
    | cons callback rest => cases callback <;> exact ⟨_, rfl⟩
  | beforeHook shown hooks run rest | afterHook prev hooks run rest =>
    obtain ⟨⟨e, n⟩, hr⟩ := hookStep_enabled sh t new hcalling
    simp only [setModeNext, hr]
    cases n <;> exact ⟨_, rfl⟩
  | guards prev rest =>
    cases rest with
    | nil => exact ⟨_, rfl⟩
    | cons guard rest =>
      obtain ⟨ok, hok⟩ : ∃ ok, guard.judge cfg sh new modeChoice = some ok := by
        cases guard <;> exact ⟨_, rfl⟩
      simp only [setModeNext, hok]
      cases ok <;> exact ⟨_, rfl⟩
  | _ => exact ⟨_, rfl⟩

theorem calling_of_locked (h : pc.locked) : calling pc = false := by
  cases pc <;> first | rfl | cases h

/-! ### The locks are given back -/

section
variable {g₀ g : SystemState} {tr : SystemTrace} (h0 : SystemStart g₀)
  (hrun : SystemRun cfg g₀ tr g)
include h0 hrun

theorem modeLock_ne (hm : (g.thread t).mode = some m) (hlocked : m.pc.locked = false) :
    g.shared.modeLock ≠ some t := by
  intro h
  have := (modeLock_run h0 hrun t).mpr h
  simp [Thread.holdsMode, hm, hlocked] at this

/-- The holder of the mode lock can take a step: it gives the lock back, or its rank is lower. -/
theorem modeHolder_step {u : ThreadId} (hu : g.shared.modeLock = some u) :
    ∃ e g', (system cfg).lts.step g (u, e) g' ∧ (∀ v, v ≠ u → g'.thread v = g.thread v) ∧
      (g'.shared.modeLock = none ∨ (g'.shared.modeLock = some u ∧
        threadRank cfg.callbacks (g'.thread u) < threadRank cfg.callbacks (g.thread u))) := by
  obtain ⟨⟨new, pc⟩, hm, hlocked⟩ := Option.any_eq_true _ _ |>.mp ((modeLock_run h0 hrun u).mpr hu)
  have hcalling : calling pc = false := calling_of_locked hlocked
  have hcall : (g.thread u).call = none := by simpa [hcalling] using calling_run h0 hrun u _ hm
  obtain ⟨c, ⟨e, n⟩, hnext⟩ := setModeNext_enabled cfg g.shared u new hcalling
    (fun h => by rw [show pc.locked from hlocked] at h; cases h)
  have hthread : Thread.next cfg g.shared u (g.thread u) c =
      some (.mode e, (g.thread u).withMode new n) := by
    simp [Thread.next, hcall, hm, hnext]
  obtain ⟨g', hstep, hsh, hth, hother⟩ := Machine.exists_step (M := system cfg) hthread
  refine ⟨_, g', hstep, hother, ?_⟩
  rw [hsh]
  -- the step keeps the lock, takes it (it is taken already), or gives it back
  rcases (setModeStep_of_next hnext).locked with ⟨hl, hn⟩ | ⟨-, -, hpc, -⟩ | ⟨hl, -, -⟩
  · refine .inr ⟨hl.trans hu, ?_⟩
    rw [hth]
    refine threadStep_rank (threadStep_of_next hthread) (by simp [hm]) ?_
    cases n with
    | ret ok => simp [SetModeNext.locked, show pc.locked from hlocked] at hn
    | _ => rfl
  · rw [show pc.locked from hlocked] at hpc
    cases hpc
  · exact .inl hl

/-- The holder of a provider's lock can take a step: it gives the lock back, or its call is
further on. It leaves the mode lock alone. -/
theorem providerHolder_step {u : ThreadId} {p : String} (hu : g.shared.providerLock p = some u) :
    ∃ e g', (system cfg).lts.step g (u, .call e) g' ∧ (∀ v, v ≠ u → g'.thread v = g.thread v) ∧
      g'.shared.modeLock = g.shared.modeLock ∧
      (g'.shared.providerLock p = none ∨ (g'.shared.providerLock p = some u ∧
        ((g'.thread u).call.elim 0 fun k => callRank k.pc) <
          (g.thread u).call.elim 0 fun k => callRank k.pc)) := by
  obtain ⟨⟨request, pc⟩, hk, hheld⟩ :=
    Option.any_eq_true _ _ |>.mp ((providerLock_run h0 hrun p u).mpr hu)
  have hheld : pc.held = some p := of_decide_eq_true hheld
  obtain ⟨c, ⟨e, n⟩, hnext⟩ := callNext_enabled cfg g.shared u request pc
    (fun h => by rw [hheld] at h; cases h) (fun target args h => by rw [h] at hheld; cases hheld)
  have hthread : Thread.next cfg g.shared u (g.thread u) c =
      some (.call e, (g.thread u).withCall request n) := by
    simp [Thread.next, hk, hnext]
  obtain ⟨g', hstep, hsh, hth, hother⟩ := Machine.exists_step (M := system cfg) hthread
  have hsh : g'.shared = g.shared.applyCall u e := hsh
  refine ⟨_, g', hstep, hother, by rw [hsh, (Shared.applyCall_frame ..).2.1], ?_⟩
  rw [hsh]
  rcases callNext_held hnext with ⟨hl, hn⟩ | ⟨q, -, -, hpc, -⟩ | ⟨q, rfl, hpc, -⟩
  · refine .inr ⟨by rw [hl, hu], ?_⟩
    cases n with
    | ret result =>
      rw [hheld] at hn
      cases hn
    | go pc' => simpa [hth, Thread.withCall, hk] using callNext_rank hnext
  · rw [hheld] at hpc
    cases hpc
  · rw [hheld] at hpc
    cases hpc
    exact .inl (Function.update_self ..)

/-- A thread that waits for the mode lock: the holder can be run until it gives it back. -/
theorem frees_modeLock (ht : g.shared.modeLock ≠ some t) :
    ∃ tr' g', SystemRun cfg g tr' g' ∧ g'.thread t = g.thread t ∧ g'.shared.modeLock = none := by
  obtain ⟨tr', g', hrun', -, -, hth, hfree⟩ := Machine.frees (M := system cfg) Shared.modeLock
    (R := fun s => ∃ tr, SystemRun cfg g₀ tr s) (L := fun _ => True)
    (fun s u => threadRank cfg.callbacks (s.thread u))
    (fun s u ⟨tr, hrun⟩ hu => by
      obtain ⟨e, s', hstep, hother, hafter⟩ := modeHolder_step h0 hrun hu
      exact ⟨e, s', hstep, trivial, ⟨_, hrun.snoc hstep⟩, hother, hafter⟩) ⟨tr, hrun⟩ ht
  exact ⟨tr', g', hrun', hth, hfree⟩

/-- A thread that waits for a provider's lock: the holder can be run until it gives it back. The
steps are those of other threads' calls. -/
theorem frees_providerLock {p : String} (ht : g.shared.providerLock p ≠ some t) :
    ∃ tr' g', SystemRun cfg g tr' g' ∧ (∀ i ∈ tr', i.2.1 ≠ t ∧ ∃ e, i.2.2 = .call e) ∧
      g'.thread t = g.thread t ∧ g'.shared.modeLock = g.shared.modeLock ∧
      g'.shared.providerLock p = none := by
  obtain ⟨tr', g', hrun', hlabels, ⟨-, hmode⟩, hth, hfree⟩ := Machine.frees (M := system cfg)
    (fun sh => sh.providerLock p) (L := fun e => ∃ e', e = .call e')
    (R := fun s => (∃ tr, SystemRun cfg g₀ tr s) ∧ s.shared.modeLock = g.shared.modeLock)
    (fun s u => (s.thread u).call.elim 0 fun k => callRank k.pc)
    (fun s u ⟨⟨tr, hrun⟩, hmode⟩ hu => by
      obtain ⟨e, s', hstep, hother, hmode', hafter⟩ := providerHolder_step h0 hrun hu
      exact ⟨.call e, s', hstep, ⟨e, rfl⟩, ⟨⟨_, hrun.snoc hstep⟩, hmode'.trans hmode⟩, hother,
        hafter⟩)
    ⟨⟨tr, hrun⟩, rfl⟩ ht
  exact ⟨tr', g', hrun', hlabels, hth, hmode, hfree⟩

theorem can_step (hm : (g.thread t).mode = some m) :
    ∃ tr' g', SystemRun cfg g tr' g' ∧ g'.thread t = g.thread t ∧
      ∃ c r, Thread.next cfg g'.shared t (g'.thread t) c = some r := by
  obtain ⟨new, pc⟩ := m
  have hcalls := calling_run h0 hrun t _ hm
  cases hk : (g.thread t).call with
  | none =>
    have hcalling : calling pc = false := by simpa [hk] using hcalls.symm
    cases hlocked : pc.locked with
    | true =>
      -- inside the lock the thread waits for nobody
      obtain ⟨c, r, hr⟩ := setModeNext_enabled cfg g.shared t new hcalling
        (fun h => by rw [hlocked] at h; cases h)
      exact ⟨[], g, Run.refl, rfl, c, _, by simp only [Thread.next, hk, hm, hr]; rfl⟩
    | false =>
      obtain ⟨tr', g', hrun', hth, hfree⟩ := frees_modeLock h0 hrun (modeLock_ne h0 hrun hm hlocked)
      obtain ⟨c, r, hr⟩ := setModeNext_enabled cfg g'.shared t new hcalling (fun _ => hfree)
      exact ⟨tr', g', hrun', hth, c, _, by simp only [Thread.next, hth, hk, hm, hr]; rfl⟩
  | some k =>
    -- a hook's call runs outside the mode lock, but its gates read the mode
    obtain ⟨request, kpc⟩ := k
    have hlocked : pc.locked = false := by
      refine Bool.eq_false_of_not_eq_true fun h => ?_
      rw [calling_of_locked h, hk] at hcalls
      cases hcalls
    obtain ⟨tr₁, g₁, hrun₁, hth₁, hfree₁⟩ := frees_modeLock h0 hrun (modeLock_ne h0 hrun hm hlocked)
    by_cases hlock : ∃ target args, kpc = .lock target args
    · -- the call also waits for its provider; freeing that lock leaves the mode lock free
      obtain ⟨target, args, rfl⟩ := hlock
      have hrun₁' := hrun.append hrun₁
      have hnot₁ : g₁.shared.providerLock target.providerId ≠ some t := fun h => by
        have := (providerLock_run h0 hrun₁' _ t).mpr h
        simp [Thread.holdsProvider, hth₁, hk, CallPc.held] at this
      obtain ⟨tr₂, g₂, hrun₂, -, hth₂, hmode₂, hfree₂⟩ := frees_providerLock h0 hrun₁' hnot₁
      obtain ⟨c, r, hr⟩ := callNext_enabled cfg g₂.shared t request (.lock target args)
        (fun _ => hmode₂.trans hfree₁) (fun target' args' h => by
          obtain ⟨rfl, -⟩ := CallPc.lock.inj h
          exact hfree₂)
      exact ⟨tr₁ ++ tr₂, g₂, hrun₁.append hrun₂, hth₂.trans hth₁, c, _,
        by simp only [Thread.next, hth₂, hth₁, hk, hr]; rfl⟩
    · obtain ⟨c, r, hr⟩ := callNext_enabled cfg g₁.shared t request kpc (fun _ => hfree₁)
        (fun target args h => absurd ⟨target, args, h⟩ hlock)
      exact ⟨tr₁, g₁, hrun₁, hth₁, c, _, by simp only [Thread.next, hth₁, hk, hr]; rfl⟩

theorem can_return (hm : (g.thread t).mode = some ⟨new, pc⟩) :
    ∃ tr' s g' ok, SystemRun cfg g (tr' ++ [(s, t, .mode (.returned new ok))]) g' := by
  -- the thread's rank falls with each of its steps until it is at `done`
  obtain ⟨tr', s, hrun', ⟨⟨tr₀, hrun₀⟩, -⟩, ok, hdone⟩ := Run.reaches (T := (system cfg).lts)
    (I := fun s => (∃ tr, SystemRun cfg g₀ tr s) ∧ ∃ pc, (s.thread t).mode = some ⟨new, pc⟩)
    (G := fun s => ∃ ok, (s.thread t).mode = some ⟨new, .done ok⟩)
    (fun s => threadRank cfg.callbacks (s.thread t))
    (by
      rintro s ⟨⟨tr, hrun⟩, pc, hm⟩ hdone
      obtain ⟨tr₁, s₁, hrun₁, hth₁, c, ⟨e, th'⟩, hnext⟩ := can_step h0 hrun hm
      obtain ⟨s₂, hstep, -, hth₂, -⟩ := Machine.exists_step (M := system cfg) hnext
      have hts := threadStep_of_next hnext
      rw [hth₁] at hts
      have hm₂ : th'.mode.isSome := by
        refine mode_isSome_of_step hts (by simp [hm]) fun dst ok he => hdone ⟨ok, ?_⟩
        subst he
        cases hts with
        | mode _ hm' h =>
          obtain ⟨rfl, rfl⟩ := h.of_returned
          rw [hm, Option.some.injEq, SetMode.mk.injEq] at hm'
          rw [hm, hm'.2]
      refine ⟨_, s₂, hrun₁.snoc hstep, ⟨⟨_, (hrun.append hrun₁).snoc hstep⟩, ?_⟩, .inr ?_⟩
      · obtain ⟨⟨new', pc'⟩, hm'⟩ := Option.isSome_iff_exists.mp hm₂
        obtain rfl : new' = new := hts.mode_new hm hm'
        exact ⟨pc', hth₂ ▸ hm'⟩
      · rw [hth₂]
        exact threadStep_rank hts (by simp [hm]) hm₂)
    ⟨⟨tr, hrun⟩, pc, hm⟩
  have hcall : (s.thread t).call = none := by simpa [calling] using calling_run h0 hrun₀ t _ hdone
  obtain ⟨g', hstep, -⟩ := Machine.exists_step (M := system cfg) (c := .go)
    (show Thread.next cfg s.shared t (s.thread t) .go =
      some (.mode (.returned new ok), (s.thread t).withMode new (.ret ok)) by
        simp [Thread.next, hcall, hdone, setModeNext])
  exact ⟨tr', s, g', ok, hrun'.snoc hstep⟩

/-! ### Calls -/

variable {k : CallState}

/-- A call runs outside the mode lock, a hook's call too. -/
theorem outside_of_call (hk : (g.thread t).call = some k) : g.shared.modeLock ≠ some t := by
  intro h
  obtain ⟨m, hm, hlocked⟩ := Option.any_eq_true _ _ |>.mp ((modeLock_run h0 hrun t).mpr h)
  have hcalls := calling_run h0 hrun t m hm
  simp [hk, calling_of_locked hlocked] at hcalls

/-- A call can go on, after some steps of other threads. -/
theorem call_can_step (hk : (g.thread t).call = some k) :
    ∃ tr' g', SystemRun cfg g tr' g' ∧ g'.thread t = g.thread t ∧
      ∃ c r, callNext cfg g'.shared t k.request k.pc c = some r := by
  obtain ⟨tr₁, g₁, hrun₁, hth₁, hmode₁⟩ := frees_modeLock h0 hrun (outside_of_call h0 hrun hk)
  by_cases hlock : ∃ target args, k.pc = .lock target args
  · obtain ⟨target, args, hpc⟩ := hlock
    have hrun₁' := hrun.append hrun₁
    have hnot : g₁.shared.providerLock target.providerId ≠ some t := fun h => by
      have := (providerLock_run h0 hrun₁' _ t).mpr h
      simp [Thread.holdsProvider, hth₁, hk, hpc, CallPc.held] at this
    obtain ⟨tr₂, g₂, hrun₂, -, hth₂, hmode₂, hfree₂⟩ := frees_providerLock h0 hrun₁' hnot
    refine ⟨_, g₂, hrun₁.append hrun₂, hth₂.trans hth₁, callNext_enabled _ _ _ _ _
      (fun _ => hmode₂.trans hmode₁) fun target' args' h => ?_⟩
    obtain ⟨rfl, -⟩ := CallPc.lock.inj (hpc.symm.trans h)
    exact hfree₂
  · exact ⟨tr₁, g₁, hrun₁, hth₁, callNext_enabled _ _ _ _ _ (fun _ => hmode₁)
      fun target args h => absurd ⟨target, args, h⟩ hlock⟩

/-- From every state of a run, a run leads to the end of each thread's call. -/
theorem call_can_end (t : ThreadId) :
    ∃ tr' g', SystemRun cfg g tr' g' ∧ (g'.thread t).call = none := by
  -- a step of the call lowers its rank, or is its return
  obtain ⟨tr', g', hrun', -, hend⟩ := Run.reaches (T := (system cfg).lts)
    (I := fun s => ∃ tr, SystemRun cfg g₀ tr s) (G := fun s => (s.thread t).call = none)
    (fun s => (s.thread t).call.elim 0 fun k => callRank k.pc)
    (by
      rintro s ⟨tr, hrun⟩ hcall
      obtain ⟨⟨request, pc⟩, hk⟩ := Option.ne_none_iff_exists'.mp hcall
      obtain ⟨tr₁, s₁, hrun₁, hth₁, c, ⟨e, n⟩, hnext⟩ := call_can_step h0 hrun hk
      obtain ⟨s₂, hstep, -, hth₂, -⟩ := Machine.exists_step (M := system cfg) (c := c)
        (show Thread.next cfg s₁.shared t (s₁.thread t) c =
          some (.call e, (s₁.thread t).withCall request n) by simp [Thread.next, hth₁, hk, hnext])
      refine ⟨_, s₂, hrun₁.snoc hstep, ⟨_, (hrun.append hrun₁).snoc hstep⟩, ?_⟩
      rw [hth₂, hk]
      cases n with
      | go pc' => exact .inr (callNext_rank hnext)
      | ret result => exact .inl (by simp only [Thread.withCall]; split <;> rfl))
    ⟨tr, hrun⟩
  exact ⟨tr', g', hrun', hend⟩

end

/-- Thread 0 is in a call at the lock of the provider, which thread 1 holds for its own. -/
theorem call_can_end_started : ∃ tr g tr' g', SystemRun valveConfig (valveWorld .manual) tr g ∧
      (g.thread 0).call.isSome ∧ g.shared.providerLock "sim0" = some 1 ∧
      SystemRun valveConfig g tr' g' ∧ (g'.thread 0).call = none := by
  obtain ⟨tr, g, hrun, hcall, hlock⟩ := Machine.run_of_passes (system valveConfig)
    (valveWorld .manual) (openToLock 1 ++ [(1, .go)] ++ openToLock 0)
    (fun _ g => (g.thread 0).call.isSome ∧ g.shared.providerLock "sim0" = some 1) (by decide)
  obtain ⟨tr', g', hrun', hend⟩ := call_can_end (valveWorld_start .manual) hrun 0
  exact ⟨tr, g, tr', g', hrun, hcall, hlock, hrun', hend⟩

end Anolis.Proofs.Returns
