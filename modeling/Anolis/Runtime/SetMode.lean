import Anolis.Runtime.Call

/-!
# `set_mode`, step by step

`ModeManager::set_mode` as a routine of the thread that runs it: the first section under the
mode lock, the before-callbacks without it, the second section with the commit guards and the
commit, and the after-callbacks without it. A hook callback runs its calls one after the other
through `execute_call` (`HookRun`); the other callbacks answer in one step.

The lock sections whose reads and writes are all in one variable are one step (`enter`). The
second section is several steps that hold the lock, because the guards read other components'
state in between.
-/

namespace Anolis.Runtime

open Automation Control Lib Registry

variable {cfg : SystemConfig} {sh : Shared} {t : ThreadId} {new : RuntimeMode} {c : Choice}
  {e : ModeEffect}

/-! ### Hook callbacks -/

/-- A call of a hook, with the hook's `fail_on_error`. -/
structure HookCall where
  call : ModeTransitionCallConfig
  failOnError : Bool
deriving DecidableEq

/-- The calls a hook callback makes for a transition, in order. -/
def hookCalls (hooks : List ModeTransitionHookConfig) (prev next : RuntimeMode) :
    List HookCall :=
  (hooks.filter fun h => h.fires prev next).flatMap fun h =>
    h.calls.map fun call => ⟨call, h.failOnError⟩

/-- Where a hook callback is. `judge` and `weigh` are inside `latch_refuses`, after it read an
engaged latch and after it resolved the call. -/
inductive HookRun
  | next (pending : List HookCall)
  | judge (h : HookCall) (pending : List HookCall)
  | weigh (h : HookCall) (spec : FunctionSpec) (pending : List HookCall)
  | calling (h : HookCall) (pending : List HookCall)
  | rejected

/-- What a step of a hook callback does: go on, start a call, or end with the callback's
answer. -/
inductive HookNext
  | go (run : HookRun)
  | call (run : HookRun) (request : CallRequest)
  | done (accepted : Bool)

/-- A step of a hook callback for a transition to `new`. -/
def HookRun.step (sh : Shared) (t : ThreadId) (new : RuntimeMode) : HookRun →
    Option (ModeEffect × HookNext)
  | .next [] => some (.silent, .done true)
  | .next (h :: pending) =>
    let request := modeHookRequest h.call new
    -- only a FAULT entry asks the latch before the call is made
    if request.faultEntryHook && sh.latched then some (.silent, .go (.judge h pending))
    else some (.hookIssued request, .call (.calling h pending) request)
  | .judge h pending =>
    let request := modeHookRequest h.call new
    match resolve? sh.registry request with
    | none => some (.hookIssued request, .call (.calling h pending) request)
    | some (_, _, spec, _) => some (.silent, .go (.weigh h spec pending))
  | .weigh h spec pending =>
    let request := modeHookRequest h.call new
    if latchHolds request spec sh.latched (sh.admits t) then
      some (.hookHeld request, .go (.next pending))
    else some (.hookIssued request, .call (.calling h pending) request)
  | .calling _ _ => none
  | .rejected => some (.silent, .done false)

/-- A before-hook's call returned. A failure rejects the transition where the hook says so,
unless the transition is to FAULT. -/
def HookRun.beforeReturned (new : RuntimeMode) (result : CallResult) : HookRun → HookRun
  | .calling h pending =>
    if !result.success && new ≠ .fault && h.failOnError then .rejected else .next pending
  | run => run

/-- An after-hook's call returned. It has no veto. -/
def HookRun.afterReturned : HookRun → HookRun
  | .calling _ pending => .next pending
  | run => run

/-! ### The routine -/

/-- Where a `set_mode` is. `shown` is the mode its first section read, `prev` the mode it
commits from. It holds the mode lock at `recheck`, `guards` and `release`; `guards prev []` is
about to commit. -/
inductive SetModePc
  | enter
  | before (shown : RuntimeMode) (rest : List BeforeCallback)
  | beforeHook (shown : RuntimeMode) (hooks : List ModeTransitionHookConfig) (run : HookRun)
      (rest : List BeforeCallback)
  | relock (shown : RuntimeMode)
  | recheck (shown : RuntimeMode)
  | guards (prev : RuntimeMode) (rest : List CommitGuard)
  | release (ok : Bool)
  | after (prev : RuntimeMode) (rest : List AfterCallback)
  | inAfter (prev : RuntimeMode) (callback : AfterCallback) (rest : List AfterCallback)
  | afterHook (prev : RuntimeMode) (hooks : List ModeTransitionHookConfig) (run : HookRun)
      (rest : List AfterCallback)
  | done (ok : Bool)

/-- A running `set_mode`. -/
structure SetMode where
  new : RuntimeMode
  pc : SetModePc := .enter

/-- What a step of `set_mode` does: go on, start a hook's call, or return. -/
inductive SetModeNext
  | go (pc : SetModePc)
  | call (pc : SetModePc) (request : CallRequest)
  | ret (ok : Bool)

/-- The place after the first section, where the current mode is `current`. -/
def SetModePc.entered (cfg : SystemConfig) (new current : RuntimeMode) : SetModePc :=
  -- a request for the current mode succeeds without a callback
  if current = new then .done true
  else if isValidTransition current new then .before current cfg.callbacks.before
  else .done false

/-- The place after a before-callback answered. FAULT goes on whatever the answer. -/
def SetModePc.answered (new shown : RuntimeMode) (rest : List BeforeCallback)
    (accepted : Bool) : SetModePc :=
  if accepted || new = .fault then .before shown rest else .done false

@[simp] theorem SetModePc.answered_fault (shown : RuntimeMode) (rest : List BeforeCallback)
    (accepted : Bool) : SetModePc.answered .fault shown rest accepted = .before shown rest := by
  simp [SetModePc.answered]

/-- The answer of a before-callback that is no hook callback. One that throws rejects. -/
def BeforeCallback.judge (cfg : SystemConfig) (sh : Shared) (new : RuntimeMode) :
    BeforeCallback → Choice → Option Bool
  | .hooklessGate, _ => some (hooklessAutoCheck sh.registry cfg.automation new)
  | .estopGate, _ => some (estopAutoCheck sh.latched new)
  | .other _, .answer a => some (a = .accept)
  | .other _, _ => none
  | .hooks _, _ => none

/-- The answer of a commit guard. A guard that throws rejects. -/
def CommitGuard.judge (cfg : SystemConfig) (sh : Shared) (new : RuntimeMode) :
    CommitGuard → Choice → Option Bool
  | .hooklessGate, _ => some (hooklessAutoCheck sh.registry cfg.automation new)
  | .estopGate, _ => some (estopAutoCheck sh.latched new)
  | .other _, .answer a => some (a = .accept)
  | .other _, _ => none

/-- The place after the second section's checks, where the current mode is `current`. FAULT
re-bases on a mode that changed meanwhile; every other target gives up. -/
def SetModePc.rechecked (cfg : SystemConfig) (new shown current : RuntimeMode) : SetModePc :=
  -- another thread entered FAULT meanwhile: the request is met, and no callback runs
  if current ≠ shown ∧ new = .fault ∧ current = .fault then .release true
  else if current ≠ shown ∧ new ≠ .fault then .release false
  else if !isValidTransition current new then .release false
  else .guards current (if new = .fault then [] else cfg.callbacks.guards)

/-- One step of `set_mode(new)` on the thread `t`. -/
def setModeNext (cfg : SystemConfig) (sh : Shared) (t : ThreadId) (new : RuntimeMode) :
    SetModePc → Choice → Option (ModeEffect × SetModeNext)
  | .enter, _ =>
    if sh.modeLock.isSome then none
    else some (.readMode new sh.mode, .go (.entered cfg new sh.mode))
  | .before shown [], _ => some (.silent, .go (.relock shown))
  | .before shown (.hooks hooks :: rest), _ =>
    some (.silent, .go (.beforeHook shown hooks (.next (hookCalls hooks shown new)) rest))
  | .before shown (callback :: rest), c =>
    match callback.judge cfg sh new c with
    | none => none
    | some ok =>
      some (.beforeAnswered callback shown new ok, .go (.answered new shown rest ok))
  | .beforeHook shown hooks run rest, _ =>
    match run.step sh t new with
    | none => none
    | some (e, .go run') => some (e, .go (.beforeHook shown hooks run' rest))
    | some (e, .call run' request) => some (e, .call (.beforeHook shown hooks run' rest) request)
    | some (_, .done ok) =>
      some (.beforeAnswered (.hooks hooks) shown new ok, .go (.answered new shown rest ok))
  | .relock shown, _ =>
    if sh.modeLock.isSome then none else some (.lockMode, .go (.recheck shown))
  | .recheck shown, _ => some (.silent, .go (.rechecked cfg new shown sh.mode))
  | .guards prev [], _ => some (.commit prev new, .go (.after prev cfg.callbacks.after))
  | .guards prev (guard :: rest), c =>
    match guard.judge cfg sh new c with
    | none => none
    | some true => some (.guardAnswered guard prev new true, .go (.guards prev rest))
    | some false => some (.guardAnswered guard prev new false, .go (.release false))
  | .release ok, _ => some (.unlockMode, .go (.done ok))
  | .after _ [], _ => some (.silent, .go (.done true))
  | .after prev (.hooks hooks :: rest), _ =>
    some (.afterStarted (.hooks hooks) prev new,
      .go (.afterHook prev hooks (.next (hookCalls hooks prev new)) rest))
  | .after prev (callback :: rest), _ =>
    some (.afterStarted callback prev new, .go (.inAfter prev callback rest))
  -- an exception of an after-callback is logged, and the next one runs
  | .inAfter prev callback rest, _ =>
    some (.afterFinished callback prev new, .go (.after prev rest))
  | .afterHook prev hooks run rest, _ =>
    match run.step sh t new with
    | none => none
    | some (e, .go run') => some (e, .go (.afterHook prev hooks run' rest))
    | some (e, .call run' request) => some (e, .call (.afterHook prev hooks run' rest) request)
    | some (_, .done _) => some (.afterFinished (.hooks hooks) prev new, .go (.after prev rest))
  | .done ok, _ => some (.returned new ok, .ret ok)

/-- A hook's call returned to the `set_mode` that runs it. -/
def SetMode.callReturned (m : SetMode) (result : CallResult) : SetMode :=
  match m.pc with
  | .beforeHook shown hooks run rest =>
    { m with pc := .beforeHook shown hooks (run.beforeReturned m.new result) rest }
  | .afterHook prev hooks run rest =>
    { m with pc := .afterHook prev hooks run.afterReturned rest }
  | _ => m

/-! ### The steps by name -/

/-- The step of a `set_mode` by the place it is taken from. -/
inductive SetModeStep (cfg : SystemConfig) (sh : Shared) (t : ThreadId) (new : RuntimeMode)
    (c : Choice) : SetModePc → ModeEffect → SetModeNext → Prop
  | enter (hfree : sh.modeLock = none) :
      SetModeStep cfg sh t new c .enter (.readMode new sh.mode) (.go (.entered cfg new sh.mode))
  | beforeEnd (shown : RuntimeMode) :
      SetModeStep cfg sh t new c (.before shown []) .silent (.go (.relock shown))
  | beforeHooks (shown : RuntimeMode) (hooks : List ModeTransitionHookConfig)
      (rest : List BeforeCallback) :
      SetModeStep cfg sh t new c (.before shown (.hooks hooks :: rest)) .silent
        (.go (.beforeHook shown hooks (.next (hookCalls hooks shown new)) rest))
  | beforeAnswer (shown : RuntimeMode) (callback : BeforeCallback) (rest : List BeforeCallback)
      (ok : Bool) (hjudge : callback.judge cfg sh new c = some ok) :
      SetModeStep cfg sh t new c (.before shown (callback :: rest))
        (.beforeAnswered callback shown new ok) (.go (.answered new shown rest ok))
  | beforeHookGo (shown : RuntimeMode) (hooks : List ModeTransitionHookConfig)
      (run run' : HookRun) (rest : List BeforeCallback) (e : ModeEffect)
      (hrun : run.step sh t new = some (e, .go run')) :
      SetModeStep cfg sh t new c (.beforeHook shown hooks run rest) e
        (.go (.beforeHook shown hooks run' rest))
  | beforeHookCall (shown : RuntimeMode) (hooks : List ModeTransitionHookConfig)
      (run run' : HookRun) (rest : List BeforeCallback) (e : ModeEffect) (request : CallRequest)
      (hrun : run.step sh t new = some (e, .call run' request)) :
      SetModeStep cfg sh t new c (.beforeHook shown hooks run rest) e
        (.call (.beforeHook shown hooks run' rest) request)
  | beforeHookEnd (shown : RuntimeMode) (hooks : List ModeTransitionHookConfig) (run : HookRun)
      (rest : List BeforeCallback) (e : ModeEffect) (ok : Bool)
      (hrun : run.step sh t new = some (e, .done ok)) :
      SetModeStep cfg sh t new c (.beforeHook shown hooks run rest)
        (.beforeAnswered (.hooks hooks) shown new ok) (.go (.answered new shown rest ok))
  | relock (shown : RuntimeMode) (hfree : sh.modeLock = none) :
      SetModeStep cfg sh t new c (.relock shown) .lockMode (.go (.recheck shown))
  | recheck (shown : RuntimeMode) :
      SetModeStep cfg sh t new c (.recheck shown) .silent
        (.go (.rechecked cfg new shown sh.mode))
  | commit (prev : RuntimeMode) :
      SetModeStep cfg sh t new c (.guards prev []) (.commit prev new)
        (.go (.after prev cfg.callbacks.after))
  | guardAccepts (prev : RuntimeMode) (guard : CommitGuard) (rest : List CommitGuard)
      (hjudge : guard.judge cfg sh new c = some true) :
      SetModeStep cfg sh t new c (.guards prev (guard :: rest))
        (.guardAnswered guard prev new true) (.go (.guards prev rest))
  | guardRejects (prev : RuntimeMode) (guard : CommitGuard) (rest : List CommitGuard)
      (hjudge : guard.judge cfg sh new c = some false) :
      SetModeStep cfg sh t new c (.guards prev (guard :: rest))
        (.guardAnswered guard prev new false) (.go (.release false))
  | release (ok : Bool) :
      SetModeStep cfg sh t new c (.release ok) .unlockMode (.go (.done ok))
  | afterEnd (prev : RuntimeMode) :
      SetModeStep cfg sh t new c (.after prev []) .silent (.go (.done true))
  | afterHooks (prev : RuntimeMode) (hooks : List ModeTransitionHookConfig)
      (rest : List AfterCallback) :
      SetModeStep cfg sh t new c (.after prev (.hooks hooks :: rest))
        (.afterStarted (.hooks hooks) prev new)
        (.go (.afterHook prev hooks (.next (hookCalls hooks prev new)) rest))
  | afterStart (prev : RuntimeMode) (callback : AfterCallback) (rest : List AfterCallback)
      (hcb : ∀ hooks, callback ≠ .hooks hooks) :
      SetModeStep cfg sh t new c (.after prev (callback :: rest))
        (.afterStarted callback prev new) (.go (.inAfter prev callback rest))
  | afterFinish (prev : RuntimeMode) (callback : AfterCallback) (rest : List AfterCallback) :
      SetModeStep cfg sh t new c (.inAfter prev callback rest) (.afterFinished callback prev new)
        (.go (.after prev rest))
  | afterHookGo (prev : RuntimeMode) (hooks : List ModeTransitionHookConfig)
      (run run' : HookRun) (rest : List AfterCallback) (e : ModeEffect)
      (hrun : run.step sh t new = some (e, .go run')) :
      SetModeStep cfg sh t new c (.afterHook prev hooks run rest) e
        (.go (.afterHook prev hooks run' rest))
  | afterHookCall (prev : RuntimeMode) (hooks : List ModeTransitionHookConfig)
      (run run' : HookRun) (rest : List AfterCallback) (e : ModeEffect) (request : CallRequest)
      (hrun : run.step sh t new = some (e, .call run' request)) :
      SetModeStep cfg sh t new c (.afterHook prev hooks run rest) e
        (.call (.afterHook prev hooks run' rest) request)
  | afterHookEnd (prev : RuntimeMode) (hooks : List ModeTransitionHookConfig) (run : HookRun)
      (rest : List AfterCallback) (e : ModeEffect) (ok : Bool)
      (hrun : run.step sh t new = some (e, .done ok)) :
      SetModeStep cfg sh t new c (.afterHook prev hooks run rest)
        (.afterFinished (.hooks hooks) prev new) (.go (.after prev rest))
  | ret (ok : Bool) : SetModeStep cfg sh t new c (.done ok) (.returned new ok) (.ret ok)

section
variable {pc : SetModePc} {n : SetModeNext}

theorem setModeStep_of_next (h : setModeNext cfg sh t new pc c = some (e, n)) :
    SetModeStep cfg sh t new c pc e n := by
  revert h
  fun_cases setModeNext cfg sh t new pc c <;> intro h <;>
    simp only [some_pair, reduceCtorEq] at h
  all_goals obtain ⟨rfl, rfl⟩ := h
  all_goals constructor
  all_goals first | assumption | simp_all

end

/-! ### The mode lock -/

/-- Does a `set_mode` at this place hold the mode lock. -/
def SetModePc.locked : SetModePc → Bool
  | .recheck _ | .guards _ _ | .release _ => true
  | _ => false

/-- Does a `set_mode` hold the mode lock after a step. -/
def SetModeNext.locked : SetModeNext → Bool
  | .go pc | .call pc _ => pc.locked
  | .ret _ => false

section
variable {pc : SetModePc} {n : SetModeNext}

theorem SetModePc.entered_locked (current : RuntimeMode) :
    (SetModePc.entered cfg new current).locked = false := by
  unfold SetModePc.entered
  repeat' split
  all_goals rfl

theorem SetModePc.answered_locked (shown : RuntimeMode) (rest : List BeforeCallback)
    (ok : Bool) : (SetModePc.answered new shown rest ok).locked = false := by
  unfold SetModePc.answered
  split <;> rfl

theorem SetModePc.rechecked_locked (shown current : RuntimeMode) :
    (SetModePc.rechecked cfg new shown current).locked := by
  unfold SetModePc.rechecked
  repeat' split
  all_goals rfl

theorem SetMode.callReturned_locked (m : SetMode) (result : CallResult) :
    (m.callReturned result).pc.locked = m.pc.locked := by
  unfold SetMode.callReturned
  split <;> rename_i h <;> simp [h, SetModePc.locked]

theorem SetMode.callReturned_of_locked {m : SetMode} (result : CallResult)
    (h : m.pc.locked) : m.callReturned result = m := by
  unfold SetMode.callReturned
  split
  · rename_i hpc
    rw [hpc] at h
    cases h
  · rename_i hpc
    rw [hpc] at h
    cases h
  · rfl

@[simp] theorem SetMode.callReturned_new (m : SetMode) (result : CallResult) :
    (m.callReturned result).new = m.new := by
  unfold SetMode.callReturned
  split <;> rfl

variable {run : HookRun} {hn : HookNext}

theorem HookRun.step_effect (h : run.step sh t new = some (e, hn)) :
    e = .silent ∨ ∃ request, e = .hookHeld request ∨ e = .hookIssued request := by
  revert h
  fun_cases HookRun.step sh t new run <;> intro h <;>
    simp only [some_pair, reduceCtorEq] at h
  all_goals
    obtain ⟨rfl, -⟩ := h
    simp

theorem HookRun.step_applyMode (h : run.step sh t new = some (e, hn)) : sh.applyMode t e = sh := by
  obtain rfl | ⟨request, rfl | rfl⟩ := run.step_effect h <;> rfl

/-- A step of `set_mode` leaves the mode lock alone, or takes the free lock, or gives it back
with or without a commit. -/
theorem SetModeStep.locked (h : SetModeStep cfg sh t new c pc e n) :
    ((sh.applyMode t e).modeLock = sh.modeLock ∧ n.locked = pc.locked) ∨
      (e = .lockMode ∧ sh.modeLock = none ∧ pc.locked = false ∧ n.locked) ∨
      ((sh.applyMode t e).modeLock = none ∧ pc.locked ∧ n.locked = false) := by
  cases h with
  | enter => exact .inl ⟨rfl, SetModePc.entered_locked _⟩
  | beforeAnswer | beforeHookEnd => exact .inl ⟨rfl, SetModePc.answered_locked _ _ _⟩
  | beforeHookGo shown hooks run run' rest e hrun
  | beforeHookCall shown hooks run run' rest e request hrun
  | afterHookGo prev hooks run run' rest e hrun
  | afterHookCall prev hooks run run' rest e request hrun =>
    exact .inl ⟨by rw [run.step_applyMode hrun], rfl⟩
  | relock shown hfree => exact .inr (.inl ⟨rfl, hfree, rfl, rfl⟩)
  | recheck => exact .inl ⟨rfl, SetModePc.rechecked_locked _ _⟩
  | guardAccepts | guardRejects => exact .inl ⟨rfl, rfl⟩
  | commit | release => exact .inr (.inr ⟨rfl, rfl, rfl⟩)
  | afterFinish prev callback =>
    refine .inl ⟨?_, rfl⟩
    simp only [Shared.applyMode]
    split <;> rfl
  | afterHookEnd | beforeEnd | beforeHooks | afterEnd | afterHooks | afterStart | ret =>
    exact .inl ⟨rfl, rfl⟩

/-! ### Steps by their effect -/

variable {request : CallRequest}

theorem HookRun.step_call {run' : HookRun} (h : run.step sh t new = some (e, .call run' request)) :
    ∃ call, request = modeHookRequest call new := by
  revert h
  fun_cases HookRun.step sh t new run <;> intro h <;>
    simp only [some_pair, reduceCtorEq, and_false, HookNext.call.injEq] at h
  all_goals
    obtain ⟨-, -, rfl⟩ := h
    exact ⟨_, rfl⟩

theorem SetModeStep.of_call {pc' : SetModePc}
    (h : SetModeStep cfg sh t new c pc e (.call pc' request)) :
    ∃ call, request = modeHookRequest call new := by
  cases h with
  | beforeHookCall shown hooks run run' rest e request hrun
  | afterHookCall prev hooks run run' rest e request hrun => exact HookRun.step_call hrun

theorem HookRun.step_hookHeld (h : run.step sh t new = some (.hookHeld request, hn)) :
    ∃ call spec, request = modeHookRequest call new ∧
      latchHolds request spec sh.latched (sh.admits t) := by
  revert h
  fun_cases HookRun.step sh t new run <;> intro h <;>
    simp only [some_pair, reduceCtorEq, false_and, ModeEffect.hookHeld.injEq] at h
  obtain ⟨rfl, -⟩ := h
  exact ⟨_, _, rfl, by assumption⟩

/-- The place of a `set_mode` whose hook's call is held back. -/
theorem SetModeStep.of_hookHeld (h : SetModeStep cfg sh t new c pc (.hookHeld request) n) :
    ((∃ shown hooks run rest, pc = .beforeHook shown hooks run rest) ∨
        ∃ prev hooks run rest, pc = .afterHook prev hooks run rest) ∧
      ∃ call spec, request = modeHookRequest call new ∧
        latchHolds request spec sh.latched (sh.admits t) := by
  generalize he : ModeEffect.hookHeld request = e at h
  cases h <;> cases he
  case beforeHookGo hrun | beforeHookCall hrun =>
    exact ⟨.inl ⟨_, _, _, _, rfl⟩, HookRun.step_hookHeld hrun⟩
  case afterHookGo hrun | afterHookCall hrun =>
    exact ⟨.inr ⟨_, _, _, _, rfl⟩, HookRun.step_hookHeld hrun⟩

variable {dst : RuntimeMode} {prev : RuntimeMode}

theorem SetModeStep.of_returned {ok : Bool}
    (h : SetModeStep cfg sh t new c pc (.returned dst ok) n) : dst = new ∧ pc = .done ok := by
  generalize he : ModeEffect.returned dst ok = e at h
  cases h <;> cases he
  case ret => exact ⟨rfl, rfl⟩
  all_goals
    rename_i hrun
    simpa using HookRun.step_effect hrun

theorem SetModeStep.of_commit (h : SetModeStep cfg sh t new c pc (.commit prev dst) n) :
    dst = new ∧ pc = .guards prev [] ∧ n = .go (.after prev cfg.callbacks.after) := by
  generalize he : ModeEffect.commit prev dst = e at h
  cases h <;> cases he
  case commit => exact ⟨rfl, rfl, rfl⟩
  all_goals
    rename_i hrun
    simpa using HookRun.step_effect hrun

theorem SetModeStep.of_afterStarted {callback : AfterCallback}
    (h : SetModeStep cfg sh t new c pc (.afterStarted callback prev dst) n) :
    dst = new ∧ ∃ rest, pc = .after prev (callback :: rest) := by
  generalize he : ModeEffect.afterStarted callback prev dst = e at h
  cases h <;> cases he
  case afterHooks | afterStart => exact ⟨rfl, _, rfl⟩
  all_goals
    rename_i hrun
    simpa using HookRun.step_effect hrun

end

end Anolis.Runtime
