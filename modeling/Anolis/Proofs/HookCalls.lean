import Anolis.Proofs.ModeManager

/-!
# What becomes of the calls of the hooks

A hook callback goes through the calls of the hooks that match its transition. A call is passed
to `execute_call` (`hookIssued`), or the latch holds it back (`hookHeld`): it is *handled*.

No failure stops the calls of the before-hooks of a FAULT entry, which cannot be vetoed.
-/

namespace Anolis.Proofs.HookCalls

open Anolis.Runtime Automation Control Lib ModeManager

variable {new : RuntimeMode} {log : List ModeEffect} {e : ModeEffect} {sh : Shared} {t : ThreadId}
  {cfg : SystemConfig} {pc pc' : SetModePc} {c : Choice} {g₀ g : SystemState} {tr : SystemTrace}

/-- Does the step pass a hook's call to `execute_call`. -/
def issuesHook (i : Item) : Bool :=
  match i.2.2 with
  | .mode (.hookIssued _) => true
  | _ => false

/-- The call was passed to `execute_call`, or the latch held it back. -/
def Handled (new : RuntimeMode) (log : List ModeEffect) (h : HookCall) : Prop :=
  .hookIssued (modeHookRequest h.call new) ∈ log ∨ .hookHeld (modeHookRequest h.call new) ∈ log

/-- All the calls of a transition are handled. -/
def AllHandled (hooks : List ModeTransitionHookConfig) (prev new : RuntimeMode)
    (log : List ModeEffect) : Prop :=
  ∀ h ∈ hookCalls hooks prev new, Handled new log h

/-- The calls that a hook callback has still to handle. A callback that gave up handles none. -/
def pendingCalls : HookRun → Option (List HookCall)
  | .next pending | .calling _ pending => some pending
  | .judge h pending | .weigh h _ pending => some (h :: pending)
  | .rejected => none

/-- A hook callback has handled the calls it is past. -/
def HandledTo (hooks : List ModeTransitionHookConfig) (prev new : RuntimeMode) (run : HookRun)
    (log : List ModeEffect) : Prop :=
  ∃ made pending, pendingCalls run = some pending ∧ hookCalls hooks prev new = made ++ pending ∧
    ∀ h ∈ made, Handled new log h

/-! ### Hook callbacks -/

section
variable {hooks : List ModeTransitionHookConfig} {prev : RuntimeMode} {run : HookRun} {n : HookNext}

theorem Handled.mono {h : HookCall} (hh : Handled new log h) (e : ModeEffect) :
    Handled new (log ++ [e]) h :=
  hh.imp (List.mem_append_left _) (List.mem_append_left _)

theorem AllHandled.mono (h : AllHandled hooks prev new log) (e : ModeEffect) :
    AllHandled hooks prev new (log ++ [e]) :=
  fun call hcall => (h call hcall).mono e

theorem handledTo_start (log : List ModeEffect) :
    HandledTo hooks prev new (.next (hookCalls hooks prev new)) log :=
  ⟨[], _, rfl, rfl, by simp⟩

theorem handledTo_more {run' : HookRun} {h : HookCall} {pending : List HookCall}
    (hrun : HandledTo hooks prev new run log) (hpending : pendingCalls run = some (h :: pending))
    (hpending' : pendingCalls run' = some pending) (he : Handled new [e] h) :
    HandledTo hooks prev new run' (log ++ [e]) := by
  obtain ⟨made, pending₀, hp, hcalls, hmade⟩ := hrun
  obtain rfl : pending₀ = h :: pending := Option.some.inj (hp.symm.trans hpending)
  refine ⟨made ++ [h], pending, hpending', by simp [hcalls], fun h' hh' => ?_⟩
  exact forall_snoc (fun h' hh' => (hmade h' hh').mono e)
    (he.imp (List.mem_append_right _) (List.mem_append_right _)) h' hh'

theorem handledTo_same {run' : HookRun} (hrun : HandledTo hooks prev new run log)
    (hpending : pendingCalls run' = pendingCalls run) (e : ModeEffect) :
    HandledTo hooks prev new run' (log ++ [e]) := by
  obtain ⟨made, pending, hp, hcalls, hmade⟩ := hrun
  exact ⟨made, pending, hpending.trans hp, hcalls, fun h hh => (hmade h hh).mono e⟩

/-- What a hook callback has handled after a step with the effect `e`. -/
def NextHandled (hooks : List ModeTransitionHookConfig) (prev new : RuntimeMode)
    (log : List ModeEffect) (e : ModeEffect) : HookNext → Prop
  | .go run | .call run _ => HandledTo hooks prev new run (log ++ [e])
  | .done _ => AllHandled hooks prev new log

theorem handledTo_step (hrun : HandledTo hooks prev new run log)
    (h : run.step sh t new = some (e, n)) : NextHandled hooks prev new log e n := by
  cases run with
  | next pending =>
    cases pending with
    | nil =>
      -- nothing is pending, so what was made is all there is
      cases h
      obtain ⟨made, pending, hp, hcalls, hmade⟩ := hrun
      obtain rfl : [] = pending := Option.some.inj hp
      rw [List.append_nil] at hcalls
      exact fun call hcall => hmade call (hcalls ▸ hcall)
    | cons call pending =>
      simp only [HookRun.step] at h
      split at h
      · -- under the latch a FAULT entry looks the function up first: the call is still pending
        cases h
        exact handledTo_same hrun rfl _
      · cases h
        exact handledTo_more hrun rfl rfl (.inl (List.mem_singleton_self _))
  | judge call pending =>
    simp only [HookRun.step] at h
    split at h
    · cases h
      exact handledTo_more hrun rfl rfl (.inl (List.mem_singleton_self _))
    · cases h
      exact handledTo_same hrun rfl _
  | weigh call spec pending =>
    simp only [HookRun.step] at h
    split at h
    · -- the latch holds the call back: it is handled, as held
      cases h
      exact handledTo_more hrun rfl rfl (.inr (List.mem_singleton_self _))
    · cases h
      exact handledTo_more hrun rfl rfl (.inl (List.mem_singleton_self _))
  | calling call pending => cases h
  | rejected =>
    -- a callback that gave up has handled to nowhere
    obtain ⟨made, pending, hp, -⟩ := hrun
    cases hp

/-- The result of a before-hook's call leaves what is pending: a FAULT entry is not vetoed. -/
theorem handledTo_beforeReturned (result : CallResult)
    (hrun : HandledTo hooks prev .fault run log) :
    HandledTo hooks prev .fault (run.beforeReturned .fault result) log := by
  obtain ⟨made, pending, hp, hcalls⟩ := hrun
  refine ⟨made, pending, ?_, hcalls⟩
  cases run with
  | calling call pending => simpa [HookRun.beforeReturned, pendingCalls] using hp
  | _ => exact hp

theorem handledTo_afterReturned (hrun : HandledTo hooks prev new run log) :
    HandledTo hooks prev new run.afterReturned log := by
  obtain ⟨made, pending, hp, hcalls⟩ := hrun
  refine ⟨made, pending, ?_, hcalls⟩
  cases run <;> exact hp

end

/-! ### The before-hooks of a FAULT entry -/

/-- What a `set_mode(FAULT)` has handled, by its place. -/
def BeforeHookLog (cb : Callbacks) (log : List ModeEffect) : SetModePc → Prop
  | .before shown rest =>
    ∃ asked, cb.before = asked ++ rest ∧
      ∀ hooks, .hooks hooks ∈ asked → AllHandled hooks shown .fault log
  | .beforeHook shown hooks run rest =>
    ∃ asked, cb.before = asked ++ .hooks hooks :: rest ∧
      (∀ hooks, .hooks hooks ∈ asked → AllHandled hooks shown .fault log) ∧
      HandledTo hooks shown .fault run log
  | .relock shown | .recheck shown =>
    ∀ hooks, .hooks hooks ∈ cb.before → AllHandled hooks shown .fault log
  | _ => True

section
variable {n : SetModeNext}

theorem record_of_not_entry (he : e.isEntry = false) : record log e = log ++ [e] := by
  simp [record, he]

theorem hookEffect_not_entry {run : HookRun} {hn : HookNext}
    (h : run.step sh t new = some (e, hn)) : record log e = log ++ [e] :=
  record_of_not_entry (commit?_of_hook h).1

theorem beforeHookLog_step (h : SetModeStep cfg sh t .fault c pc e n)
    (hpc : BeforeHookLog cfg.callbacks log pc) (hn : n.pc? = some pc') :
    BeforeHookLog cfg.callbacks (record log e) pc' := by
  cases h
  case ret => cases hn
  all_goals cases hn
  case enter =>
    simp only [SetModePc.entered]
    repeat' split
    · trivial
    · exact ⟨[], rfl, by simp⟩
    · trivial
  case beforeEnd shown =>
    obtain ⟨asked, hasked, hall⟩ := hpc
    rw [List.append_nil] at hasked
    exact fun hooks hmem => (hall hooks (hasked ▸ hmem)).mono _
  case beforeHooks shown hooks rest =>
    obtain ⟨asked, hasked, hall⟩ := hpc
    exact ⟨asked, hasked, fun hooks hmem => (hall hooks hmem).mono _, handledTo_start _⟩
  case beforeAnswer shown callback rest ok hjudge =>
    rw [SetModePc.answered_fault]
    obtain ⟨asked, hasked, hall⟩ := hpc
    refine ⟨asked ++ [callback], by simp [hasked], fun hooks hmem => ?_⟩
    rcases List.mem_append.mp hmem with hmem | hmem
    · exact (hall hooks hmem).mono _
    · -- a hook callback does not answer in one step
      obtain rfl := List.mem_singleton.mp hmem
      cases hjudge
  case beforeHookEnd shown hooks run rest e ok hrun =>
    rw [SetModePc.answered_fault]
    obtain ⟨asked, hasked, hall, hto⟩ := hpc
    refine ⟨asked ++ [.hooks hooks], by simp [hasked], fun hooks' hmem => ?_⟩
    rcases List.mem_append.mp hmem with hmem | hmem
    · exact (hall hooks' hmem).mono _
    · obtain rfl := BeforeCallback.hooks.inj (List.mem_singleton.mp hmem)
      exact AllHandled.mono (handledTo_step hto hrun) _
  case beforeHookGo shown hooks run run' rest hrun
      | beforeHookCall shown hooks run run' rest request hrun =>
    rw [hookEffect_not_entry hrun]
    obtain ⟨asked, hasked, hall, hto⟩ := hpc
    exact ⟨asked, hasked, fun hooks' hmem => (hall hooks' hmem).mono _, handledTo_step hto hrun⟩
  case relock shown => exact fun hooks hmem => (hpc hooks hmem).mono _
  case recheck shown =>
    simp only [SetModePc.rechecked]
    repeat' split
    all_goals trivial
  all_goals trivial

end

/-- In every state of a run, a `set_mode(FAULT)` has handled the before-hooks' calls of its
place. -/
theorem beforeHooks_run (h0 : SystemStart g₀)
    (h : SystemRun cfg g₀ tr g) : ∀ t m, (g.thread t).mode = some m → m.new = .fault →
      BeforeHookLog cfg.callbacks (callLog t tr) m.pc := by
  refine call_induct h0 (C := fun _ _ => True)
    (K := fun _ m log => m.new = .fault → BeforeHookLog cfg.callbacks log m.pc)
    (fun _ _ _ _ => trivial) ?_ ?_ h (fun _ _ => trivial)
  · rintro tr g t new c pc e n pc' - - - - hs hn hK rfl
    exact beforeHookLog_step hs (hK rfl) hn
  · rintro t ⟨new, pc⟩ result log hK hnew
    obtain rfl : new = .fault := (SetMode.callReturned_new ⟨new, pc⟩ result).symm.trans hnew
    specialize hK rfl
    unfold SetMode.callReturned
    split
    · rename_i shown hooks run rest hpc
      obtain rfl : pc = _ := hpc
      obtain ⟨asked, hasked, hall, hto⟩ := hK
      exact ⟨asked, hasked, hall, handledTo_beforeReturned result hto⟩
    · trivial
    · exact hK

/-! ### The after-hooks of a transition -/

/-- What a call did since its commit. -/
def sinceCommit (log : List ModeEffect) : List ModeEffect :=
  sinceLast (fun e => (commit? e).isSome) log

/-- What a `set_mode` has handled of the after-hooks, by its place. -/
def AfterHookLog (cb : Callbacks) (m : SetMode) (log : List ModeEffect) : Prop :=
  match m.pc with
  | .after prev rest =>
    ∃ ran, cb.after = ran ++ rest ∧
      ∀ hooks, .hooks hooks ∈ ran → AllHandled hooks prev m.new (sinceCommit log)
  | .inAfter prev callback rest =>
    ∃ ran, cb.after = ran ++ callback :: rest ∧ (∀ hooks, callback ≠ .hooks hooks) ∧
      ∀ hooks, .hooks hooks ∈ ran → AllHandled hooks prev m.new (sinceCommit log)
  | .afterHook prev hooks run rest =>
    ∃ ran, cb.after = ran ++ .hooks hooks :: rest ∧
      (∀ hooks, .hooks hooks ∈ ran → AllHandled hooks prev m.new (sinceCommit log)) ∧
      HandledTo hooks prev m.new run (sinceCommit log)
  | .done _ =>
    ∀ prev, logCommits log = [(prev, m.new)] →
      ∀ hooks, .hooks hooks ∈ cb.after → AllHandled hooks prev m.new (sinceCommit log)
  | _ => True

section
variable {n : SetModeNext}

theorem mem_of_mem_sinceCommit (h : e ∈ sinceCommit log) : e ∈ log :=
  (sinceLast_suffix _ _).subset h

theorem sinceCommit_record (hentry : e.isEntry = false) (hcommit : commit? e = none) :
    sinceCommit (record log e) = sinceCommit log ++ [e] := by
  simp [sinceCommit, record, hentry, hcommit]

theorem sinceCommit_commit (hentry : e.isEntry = false) (hcommit : (commit? e).isSome) :
    sinceCommit (record log e) = [e] := by
  simp [sinceCommit, record, hentry, hcommit]

theorem sinceCommit_hookEffect {run : HookRun} {hn : HookNext}
    (h : run.step sh t new = some (e, hn)) : sinceCommit (record log e) = sinceCommit log ++ [e] :=
  sinceCommit_record (commit?_of_hook h).1 (commit?_of_hook h).2

theorem afterHookLog_uncommitted (cb : Callbacks) (ok : Bool) (hlog : logCommits log = []) :
    AfterHookLog cb ⟨new, .done ok⟩ log := by
  intro prev hprev
  rw [hlog] at hprev
  cases hprev

theorem afterHookLog_step (h : SetModeStep cfg sh t new c pc e n)
    (hcommit : CommitLog ⟨new, pc⟩ log)
    (hpc : AfterHookLog cfg.callbacks ⟨new, pc⟩ log) (hn : n.pc? = some pc') :
    AfterHookLog cfg.callbacks ⟨new, pc'⟩ (record log e) := by
  cases h
  case ret => cases hn
  all_goals cases hn
  case enter =>
    simp only [SetModePc.entered]
    repeat' split
    · exact afterHookLog_uncommitted _ _ rfl
    · trivial
    · exact afterHookLog_uncommitted _ _ rfl
  case beforeAnswer shown callback rest ok hjudge | beforeHookEnd shown hooks run rest e ok hrun =>
    simp only [SetModePc.answered]
    split
    · trivial
    · exact afterHookLog_uncommitted _ _ (logCommits_record_nil rfl hcommit)
  case recheck shown =>
    simp only [SetModePc.rechecked]
    repeat' split
    all_goals trivial
  case release ok =>
    exact afterHookLog_uncommitted _ _ (logCommits_record_nil rfl hcommit)
  case commit prev => exact ⟨[], rfl, by simp⟩
  case afterEnd prev =>
    obtain ⟨ran, hran, hall⟩ := hpc
    rw [List.append_nil] at hran
    intro prev' hprev hooks hmem
    -- the only commit of the log is the one the after-callbacks were given
    have hlog : logCommits (record log .silent) = [(prev, new)] := by
      have : logCommits log = [(prev, new)] := hcommit
      simp [logCommits_record, ModeEffect.isEntry, commit?, this]
    rw [hlog] at hprev
    obtain ⟨rfl, -⟩ := Prod.mk.inj (List.head_eq_of_cons_eq hprev)
    rw [sinceCommit_record rfl rfl]
    exact (hall hooks (hran ▸ hmem)).mono _
  case afterHooks prev hooks rest =>
    rw [AfterHookLog, sinceCommit_record rfl rfl]
    obtain ⟨ran, hran, hall⟩ := hpc
    exact ⟨ran, hran, fun hooks hmem => (hall hooks hmem).mono _, handledTo_start _⟩
  case afterStart prev callback rest hcb =>
    rw [AfterHookLog, sinceCommit_record rfl rfl]
    obtain ⟨ran, hran, hall⟩ := hpc
    exact ⟨ran, hran, hcb, fun hooks hmem => (hall hooks hmem).mono _⟩
  case afterFinish prev callback rest =>
    rw [AfterHookLog, sinceCommit_record rfl rfl]
    obtain ⟨ran, hran, hcb, hall⟩ := hpc
    refine ⟨ran ++ [callback], by simp [hran], fun hooks hmem => ?_⟩
    rcases List.mem_append.mp hmem with hmem | hmem
    · exact (hall hooks hmem).mono _
    · -- the callback that has finished is no hook callback
      exact absurd (List.mem_singleton.mp hmem).symm (hcb hooks)
  case afterHookGo prev hooks run run' rest hrun
      | afterHookCall prev hooks run run' rest request hrun =>
    rw [AfterHookLog, sinceCommit_hookEffect hrun]
    obtain ⟨ran, hran, hall, hto⟩ := hpc
    exact ⟨ran, hran, fun hooks' hmem => (hall hooks' hmem).mono _, handledTo_step hto hrun⟩
  case afterHookEnd prev hooks run rest e ok hrun =>
    rw [AfterHookLog, sinceCommit_record rfl rfl]
    obtain ⟨ran, hran, hall, hto⟩ := hpc
    refine ⟨ran ++ [.hooks hooks], by simp [hran], fun hooks' hmem => ?_⟩
    rcases List.mem_append.mp hmem with hmem | hmem
    · exact (hall hooks' hmem).mono _
    · obtain rfl := AfterCallback.hooks.inj (List.mem_singleton.mp hmem)
      exact AllHandled.mono (handledTo_step hto hrun) _
  all_goals trivial

end

/-- In every state of a run, a `set_mode` has handled the after-hooks' calls of its place. -/
theorem afterHooks_run (h0 : SystemStart g₀) (h : SystemRun cfg g₀ tr g) :
    ∀ t m, (g.thread t).mode = some m → AfterHookLog cfg.callbacks m (callLog t tr) := by
  refine call_induct h0 (C := fun _ _ => True)
    (K := fun _ m log => AfterHookLog cfg.callbacks m log)
    (fun _ _ _ => trivial) ?_ ?_ h (fun _ _ => trivial)
  · intro tr g t new c pc e n pc' hrun _ hm _ hs hn hK
    exact afterHookLog_step hs (commitLog_run h0 hrun t _ hm) hK hn
  · rintro t ⟨new, pc⟩ result log hK
    unfold SetMode.callReturned
    split
    · trivial
    · rename_i prev hooks run rest hpc
      obtain rfl : pc = _ := hpc
      obtain ⟨ran, hran, hall, hto⟩ := hK
      exact ⟨ran, hran, hall, handledTo_afterReturned hto⟩
    · exact hK

end Anolis.Proofs.HookCalls
