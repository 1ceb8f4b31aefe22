import Anolis.Runtime.SetMode

/-!
# What the runtime's threads run

The operations that call `execute_call` and `set_mode`: the e-stop controller's `trigger`,
`hold` and `clear` with the ladder, the main loop's `update_stop_chain`, a tick of the behaviour
tree, and the supervisor's `restart_provider`. An HTTP call and an operator's `set_mode` are the
operations `call` and `setMode`, which only wait for theirs to return.

`opNext` is one step of an operation while it has no call and no `set_mode` running.
-/

namespace Anolis.Runtime

open Automation Control Lib Registry

variable {cfg : SystemConfig} {sh : Shared} {t : ThreadId} {c : Choice} {e : ControlEffect}

/-! ### The ladder -/

/-- Which devices a run of the ladder is for (`only_device`), and which it skips, each with the
reason (`absent`). -/
structure LadderScope where
  onlyDevice : Option String := none
  absent : SortedMap String String := SortedMap.empty

/-- Where a run of the ladder is. -/
inductive LadderPc
  | plan
  | rung (kind : SafeStateKind)
  | run (rest : List RungCall) (result : EstopResult)
  | calling (c : RungCall) (rest : List RungCall) (result : EstopResult)
deriving DecidableEq

/-- What a step of the ladder does. -/
inductive LadderNext
  | go (pc : LadderPc)
  | call (pc : LadderPc) (request : CallRequest)
  | done (result : EstopResult)

/-- One step of `run_ladder`. `none` while a call of it runs. -/
def ladderNext (cfg : SystemConfig) (sh : Shared) (scope : LadderScope) :
    LadderPc → Option LadderNext
  | .plan => some (.go (.rung (plannedSafeStateKind sh.registry cfg.safety)))
  | .rung kind => some (.go (.run (rungCalls kind sh.registry cfg.safety) { kind := kind }))
  | .run [] result => some (.done result)
  -- `only_device` and the absent devices are asked before the entry's request is built
  | .run (c :: rest) result =>
    if scope.onlyDevice.any (fun only => c.deviceHandle ≠ only) then some (.go (.run rest result))
    else
      match scope.absent.find? c.deviceHandle with
      | some reason =>
        some (.go (.run rest { result with
          skipped := result.skipped ++ [(c.deviceHandle, c.skippedFunction, reason)] }))
      | none =>
        match c.request with
        | .error e =>
          some (.go (.run rest { result with
            actions := result.actions ++ [⟨c.deviceHandle, c.function, false, e, .config⟩] }))
        | .ok request => some (.call (.calling c rest result) request)
  | .calling _ _ _ => none

/-- A call of the ladder returned. -/
def LadderPc.callReturned (res : CallResult) : LadderPc → LadderPc
  | .calling c rest result =>
    .run rest { result with actions := result.actions ++ [c.outcome res] }
  | pc => pc

/-! ### The operations -/

/-- Where a `trigger` is. It holds the controller's mutex from `engage` on. `fault` has its
`set_mode(FAULT)` running; the planned rung is `kind`. -/
inductive TriggerPc
  | lock | engage | save
  | ladder (pc : LadderPc)
  | admission (kind : SafeStateKind)
  | fault (kind : SafeStateKind)
  | withdraw | unlock
deriving DecidableEq

/-- Where a `hold` is. It holds the controller's mutex from `engage` to `unlock`; `unwind` is
the way out of an exception. `fault` has its `set_mode(FAULT)` running. -/
inductive HoldPc
  | lock | engage | save | unlock | unwind | fault

/-- Where a `clear` is. -/
inductive ClearPc
  | lock | judge | release | unlock

/-- Where a tick of the tree is. `running` is between the check of the mode and the end of the
tick, `fault` has the `set_mode(FAULT)` of a tick that threw. -/
inductive TickPc
  | mode | running | fault

/-- Where a `restart_provider` is: it stops the old process, starts and inspects the new one,
validates the inventory, publishes it, rebuilds the poll plan, swaps the handle and runs the
preflight; then it re-checks the hookless gate. `fault` has the `set_mode(FAULT)` of a re-check
that refused. -/
inductive RestartPc
  | stop | start | inspect
  | validate (devices : List RegisteredDevice)
  | commit (devices : List RegisteredDevice)
  | rebuild | swap | preflight
  | mode | gate | fault

/-- The places of a restart that end it where they fail. -/
def RestartPc.fallible : RestartPc → Bool
  | .stop | .start | .inspect | .validate _ => true
  | _ => false

/-- The operation of a thread. -/
inductive Op
  | idle
  | call
  | setMode
  | trigger (pc : TriggerPc)
  | hold (pc : HoldPc)
  | clear (pc : ClearPc)
  | ladder (scope : LadderScope) (pc : LadderPc)
  | updateStopChain
  | holds
  | tick (pc : TickPc)
  | restart (providerId : String) (pc : RestartPc)

/-- Has the thread nothing to run. -/
def Op.isIdle : Op → Bool
  | .idle => true
  | _ => false

theorem Op.isIdle_iff {op : Op} : op.isIdle ↔ op = .idle := by
  cases op <;> simp [isIdle]

/-- Where a `trigger` is. -/
def Op.triggerAt? : Op → Option TriggerPc
  | .trigger pc => some pc
  | _ => none

theorem Op.eq_of_triggerAt? {op : Op} {pc : TriggerPc} (h : op.triggerAt? = some pc) :
    op = .trigger pc := by
  cases op with
  | trigger pc' => exact congrArg Op.trigger (Option.some.inj h)
  | _ => cases h

/-- What a step of an operation does: go on, start a call, or start a `set_mode`. -/
inductive OpNext
  | go (op : Op)
  | call (op : Op) (request : CallRequest)
  | setMode (op : Op) (new : RuntimeMode)

/-- The operation an idle thread starts. `update_stop_chain` is the main loop's, and there is a
mode to set and a tree to tick only with automation. -/
def startOp (cfg : SystemConfig) (t : ThreadId) : Start → Option OpNext
  | .call handle id name args => some (.call .call (httpRequest handle id name args))
  | .setMode new => if cfg.automation.enabled then some (.setMode .setMode new) else none
  | .trigger => some (.go (.trigger .lock))
  | .hold => some (.go (.hold .lock))
  | .clear => some (.go (.clear .lock))
  | .ladder only absent => some (.go (.ladder ⟨only, absent⟩ .plan))
  | .updateStopChain =>
    if t = cfg.mainThread ∧ cfg.safety.status.isSome then some (.go .updateStopChain) else none
  | .tick => if cfg.automation.enabled then some (.go (.tick .mode)) else none
  | .restart providerId => some (.go (.restart providerId .stop))

/-- A step of `trigger`. -/
def triggerNext (cfg : SystemConfig) (sh : Shared) : TriggerPc → Choice →
    Option (ControlEffect × OpNext)
  | .lock, _ =>
    if sh.controllerLock.isSome then none else some (.lockController, .go (.trigger .engage))
  -- the latch is up before anything that can fail or wait
  | .engage, _ => some (.engage, .go (.trigger .save))
  -- an exception of the latch's store unwinds the lock guard and skips the ladder
  | .save, .save .threw => some (.silent, .go (.trigger .unlock))
  | .save, .save _ => some (.silent, .go (.trigger (.ladder .plan)))
  | .save, _ => none
  | .ladder pc, _ =>
    match ladderNext cfg sh {} pc with
    | none => none
    | some (.go pc') => some (.silent, .go (.trigger (.ladder pc')))
    | some (.call pc' request) => some (.silent, .call (.trigger (.ladder pc')) request)
    | some (.done result) =>
      -- without a mode manager there is no FAULT to enter
      if cfg.automation.enabled then some (.silent, .go (.trigger (.admission result.kind)))
      else some (.silent, .go (.trigger .unlock))
  | .admission kind, _ =>
    -- the slot is written only under rung none, but cleared after every entry
    if kind = .none then some (.admitHooks, .setMode (.trigger (.fault kind)) .fault)
    else some (.silent, .setMode (.trigger (.fault kind)) .fault)
  | .fault _, _ => none
  | .withdraw, _ => some (.withdraw, .go (.trigger .unlock))
  | .unlock, _ => some (.unlockController, .go .idle)

/-- A step of `hold`. A latch that is already engaged stays as it is. -/
def holdNext (cfg : SystemConfig) (sh : Shared) : HoldPc → Choice → Option (ControlEffect × OpNext)
  | .lock, _ =>
    if sh.controllerLock.isSome then none else some (.lockController, .go (.hold .engage))
  | .engage, _ =>
    -- a hold saves nothing where it engages nothing
    if sh.latched then some (.silent, .go (.hold .unlock)) else some (.engage, .go (.hold .save))
  | .save, .save .threw => some (.silent, .go (.hold .unwind))
  | .save, .save _ => some (.silent, .go (.hold .unlock))
  | .save, _ => none
  | .unlock, _ =>
    -- unlike a trigger, a hold enters FAULT outside the controller's mutex
    if cfg.automation.enabled then some (.unlockController, .setMode (.hold .fault) .fault)
    else some (.unlockController, .go .idle)
  | .unwind, _ => some (.unlockController, .go .idle)
  | .fault, _ => none

/-- A step of `clear`. The clear guard is the stop monitor's refusal, where a status is
configured. -/
def clearNext (cfg : SystemConfig) (sh : Shared) : ClearPc → Option (ControlEffect × OpNext)
  | .lock =>
    if sh.controllerLock.isSome then none else some (.lockController, .go (.clear .judge))
  | .judge =>
    if cfg.safety.status.isSome ∧ sh.stopChain.clearRefusal.isSome then
      some (.silent, .go (.clear .unlock))
    else some (.clearAllowed, .go (.clear .release))
  | .release => some (.unlatch, .go (.clear .unlock))
  | .unlock => some (.unlockController, .go .idle)

/-- A step of a tick. Its nodes' calls, an exception and its end come from the schedule. -/
def tickNext (sh : Shared) : TickPc → Choice → Option (ControlEffect × OpNext)
  | .mode, _ =>
    if sh.modeLock.isSome then none
    -- the only look at the mode that a tick takes
    else if sh.mode = .auto then some (.silent, .go (.tick .running))
    else some (.silent, .go .idle)
  | .running, .treeCall handle name args =>
    some (.silent, .call (.tick .running) (treeRequest handle name args))
  | .running, .treeThrow => some (.silent, .setMode (.tick .fault) .fault)
  | .running, .endTick => some (.silent, .go .idle)
  | .running, _ => none
  | .fault, _ => none

/-- A step of `restart_provider`. What the old and the new process do comes from the schedule:
whether the stop and the start succeed in time, the inventory, and the ownership check's verdict
on it. A failure ends the restart. -/
def restartNext (cfg : SystemConfig) (sh : Shared) (providerId : String) : RestartPc → Choice →
    Option (ControlEffect × OpNext)
  | .stop, .answer .accept => some (.silent, .go (.restart providerId .start))
  | .start, .answer .accept => some (.silent, .go (.restart providerId .inspect))
  | .inspect, .inventory devices =>
    some (.silent,
      .go (.restart providerId (.validate (inspectProviderDevices providerId devices))))
  | .validate devices, .answer .accept =>
    some (.silent, .go (.restart providerId (.commit devices)))
  | .stop, .answer .reject | .start, .answer .reject | .inspect, .answer .reject
  | .validate _, .answer .reject => some (.silent, .go .idle)
  | .stop, _ | .start, _ | .inspect, _ | .validate _, _ => none
  | .commit devices, _ =>
    some (.publish (sh.registry.commitProviderDevices providerId devices),
      .go (.restart providerId .rebuild))
  | .rebuild, _ => some (.silent, .go (.restart providerId .swap))
  | .swap, _ => some (.silent, .go (.restart providerId .preflight))
  | .preflight, _ =>
    if cfg.automation.enabled then some (.silent, .go (.restart providerId .mode))
    else some (.silent, .go .idle)
  -- `enforce_hookless_gate_in_auto`: first the mode, then the gate
  | .mode, _ =>
    if sh.modeLock.isSome then none
    else if sh.mode = .auto then some (.silent, .go (.restart providerId .gate))
    else some (.silent, .go .idle)
  | .gate, _ =>
    if hooklessAutoGateRefused sh.registry cfg.automation then
      some (.silent, .setMode (.restart providerId .fault) .fault)
    else some (.silent, .go .idle)
  | .fault, _ => none

/-- One step of an operation on the thread `t`. -/
def opNext (cfg : SystemConfig) (sh : Shared) (t : ThreadId) : Op → Choice →
    Option (ControlEffect × OpNext)
  | .idle, .start start => (startOp cfg t start).map fun n => (.silent, n)
  | .idle, .advance elapsed => some (.advance elapsed, .go .idle)
  | .idle, .edge edge => some (.edge edge, .go .idle)
  | .idle, _ => none
  | .call, _ | .setMode, _ => some (.silent, .go .idle)
  | .trigger pc, c => triggerNext cfg sh pc c
  | .hold pc, c => holdNext cfg sh pc c
  | .clear pc, _ => clearNext cfg sh pc
  | .ladder scope pc, _ =>
    match ladderNext cfg sh scope pc with
    | none => none
    | some (.go pc') => some (.silent, .go (.ladder scope pc'))
    | some (.call pc' request) => some (.silent, .call (.ladder scope pc') request)
    | some (.done _) => some (.silent, .go .idle)
  | .updateStopChain, .reading value now later nowMs =>
    match cfg.safety.status with
    | none => none
    | some status =>
      -- the reading is taken before the monitor's mutex, so the schedule supplies it
      let read := classifyReading status cfg.staleAfterMs value now later
      let after := sh.stopChain.update read.1 read.2 nowMs
      if after.2 then some (.observe after.1, .go .holds)
      else some (.observe after.1, .go .idle)
  | .updateStopChain, _ => none
  | .holds, _ =>
    if sh.stopChain.state.holds then some (.silent, .go (.hold .lock))
    else some (.silent, .go .idle)
  | .tick pc, c => tickNext sh pc c
  | .restart providerId pc, c => restartNext cfg sh providerId pc c

/-- An operation's call returned. -/
def Op.callReturned (result : CallResult) : Op → Op
  | .trigger (.ladder pc) => .trigger (.ladder (pc.callReturned result))
  | .ladder scope pc => .ladder scope (pc.callReturned result)
  | op => op

/-- An operation's `set_mode` returned. -/
def Op.modeReturned : Op → Op
  | .trigger (.fault _) => .trigger .withdraw
  | .hold .fault => .idle
  | .tick .fault => .idle
  | .restart _ .fault => .idle
  | op => op

/-! ### The steps by name -/

/-- The step of an operation by the place it is taken from. -/
inductive OpStep (cfg : SystemConfig) (sh : Shared) (t : ThreadId) :
    Op → ControlEffect → OpNext → Prop
  | start {n : OpNext} (start : Start) (h : startOp cfg t start = some n) :
      OpStep cfg sh t .idle .silent n
  | advance (elapsed : Nat) : OpStep cfg sh t .idle (.advance elapsed) (.go .idle)
  | edge (edge : ReachabilityEdge) : OpStep cfg sh t .idle (.edge edge) (.go .idle)
  | callEnd : OpStep cfg sh t .call .silent (.go .idle)
  | setModeEnd : OpStep cfg sh t .setMode .silent (.go .idle)
  | triggerLock (hfree : sh.controllerLock = none) :
      OpStep cfg sh t (.trigger .lock) .lockController (.go (.trigger .engage))
  | triggerEngage : OpStep cfg sh t (.trigger .engage) .engage (.go (.trigger .save))
  | triggerThrow : OpStep cfg sh t (.trigger .save) .silent (.go (.trigger .unlock))
  | triggerSaved : OpStep cfg sh t (.trigger .save) .silent (.go (.trigger (.ladder .plan)))
  | triggerLadder (pc pc' : LadderPc) (h : ladderNext cfg sh {} pc = some (.go pc')) :
      OpStep cfg sh t (.trigger (.ladder pc)) .silent (.go (.trigger (.ladder pc')))
  | triggerLadderCall (pc pc' : LadderPc) (request : CallRequest)
      (h : ladderNext cfg sh {} pc = some (.call pc' request)) :
      OpStep cfg sh t (.trigger (.ladder pc)) .silent (.call (.trigger (.ladder pc')) request)
  | triggerLadderEnd (pc : LadderPc) (result : EstopResult)
      (h : ladderNext cfg sh {} pc = some (.done result))
      (henabled : cfg.automation.enabled) :
      OpStep cfg sh t (.trigger (.ladder pc)) .silent (.go (.trigger (.admission result.kind)))
  | triggerLadderLast (pc : LadderPc) (result : EstopResult)
      (h : ladderNext cfg sh {} pc = some (.done result))
      (henabled : cfg.automation.enabled = false) :
      OpStep cfg sh t (.trigger (.ladder pc)) .silent (.go (.trigger .unlock))
  | triggerAdmits :
      OpStep cfg sh t (.trigger (.admission .none)) .admitHooks
        (.setMode (.trigger (.fault .none)) .fault)
  | triggerFault (kind : SafeStateKind) (hkind : kind ≠ .none) :
      OpStep cfg sh t (.trigger (.admission kind)) .silent
        (.setMode (.trigger (.fault kind)) .fault)
  | triggerWithdraw : OpStep cfg sh t (.trigger .withdraw) .withdraw (.go (.trigger .unlock))
  | triggerUnlock : OpStep cfg sh t (.trigger .unlock) .unlockController (.go .idle)
  | holdLock (hfree : sh.controllerLock = none) :
      OpStep cfg sh t (.hold .lock) .lockController (.go (.hold .engage))
  | holdAlready (hlatched : sh.latched) :
      OpStep cfg sh t (.hold .engage) .silent (.go (.hold .unlock))
  | holdEngage (hlatched : sh.latched = false) :
      OpStep cfg sh t (.hold .engage) .engage (.go (.hold .save))
  | holdThrow : OpStep cfg sh t (.hold .save) .silent (.go (.hold .unwind))
  | holdSaved : OpStep cfg sh t (.hold .save) .silent (.go (.hold .unlock))
  | holdFault (henabled : cfg.automation.enabled) :
      OpStep cfg sh t (.hold .unlock) .unlockController (.setMode (.hold .fault) .fault)
  | holdUnlock (henabled : cfg.automation.enabled = false) :
      OpStep cfg sh t (.hold .unlock) .unlockController (.go .idle)
  | holdUnwind : OpStep cfg sh t (.hold .unwind) .unlockController (.go .idle)
  | clearLock (hfree : sh.controllerLock = none) :
      OpStep cfg sh t (.clear .lock) .lockController (.go (.clear .judge))
  | clearRefused : OpStep cfg sh t (.clear .judge) .silent (.go (.clear .unlock))
  | clearAllowed (h : cfg.safety.status.isSome → sh.stopChain.clearRefusal = none) :
      OpStep cfg sh t (.clear .judge) .clearAllowed (.go (.clear .release))
  | clearRelease : OpStep cfg sh t (.clear .release) .unlatch (.go (.clear .unlock))
  | clearUnlock : OpStep cfg sh t (.clear .unlock) .unlockController (.go .idle)
  | ladder (scope : LadderScope) (pc pc' : LadderPc)
      (h : ladderNext cfg sh scope pc = some (.go pc')) :
      OpStep cfg sh t (.ladder scope pc) .silent (.go (.ladder scope pc'))
  | ladderCall (scope : LadderScope) (pc pc' : LadderPc) (request : CallRequest)
      (h : ladderNext cfg sh scope pc = some (.call pc' request)) :
      OpStep cfg sh t (.ladder scope pc) .silent (.call (.ladder scope pc') request)
  | ladderEnd (scope : LadderScope) (pc : LadderPc) (result : EstopResult)
      (h : ladderNext cfg sh scope pc = some (.done result)) :
      OpStep cfg sh t (.ladder scope pc) .silent (.go .idle)
  | observeChange (state : StopChainState) (reason : String) (nowMs : Int)
      (h : (sh.stopChain.update state reason nowMs).2) :
      OpStep cfg sh t .updateStopChain (.observe (sh.stopChain.update state reason nowMs).1)
        (.go .holds)
  | observeSame (state : StopChainState) (reason : String) (nowMs : Int)
      (h : (sh.stopChain.update state reason nowMs).2 = false) :
      OpStep cfg sh t .updateStopChain (.observe (sh.stopChain.update state reason nowMs).1)
        (.go .idle)
  | holds (h : sh.stopChain.state.holds) :
      OpStep cfg sh t .holds .silent (.go (.hold .lock))
  | holdsNot (h : sh.stopChain.state.holds = false) : OpStep cfg sh t .holds .silent (.go .idle)
  | tickMode (hfree : sh.modeLock = none) (hauto : sh.mode = .auto) :
      OpStep cfg sh t (.tick .mode) .silent (.go (.tick .running))
  | tickSkip : OpStep cfg sh t (.tick .mode) .silent (.go .idle)
  | treeCall (handle name : String) (args : Protocol.ArgMap) :
      OpStep cfg sh t (.tick .running) .silent
        (.call (.tick .running) (treeRequest handle name args))
  | treeThrow : OpStep cfg sh t (.tick .running) .silent (.setMode (.tick .fault) .fault)
  | tickEnd : OpStep cfg sh t (.tick .running) .silent (.go .idle)
  | restartStop (p : String) :
      OpStep cfg sh t (.restart p .stop) .silent (.go (.restart p .start))
  | restartStart (p : String) :
      OpStep cfg sh t (.restart p .start) .silent (.go (.restart p .inspect))
  | restartInspect (p : String) (devices : List RegisteredDevice) :
      OpStep cfg sh t (.restart p .inspect) .silent
        (.go (.restart p (.validate (inspectProviderDevices p devices))))
  | restartValidate (p : String) (devices : List RegisteredDevice) :
      OpStep cfg sh t (.restart p (.validate devices)) .silent
        (.go (.restart p (.commit devices)))
  | restartCommit (p : String) (devices : List RegisteredDevice) :
      OpStep cfg sh t (.restart p (.commit devices))
        (.publish (sh.registry.commitProviderDevices p devices)) (.go (.restart p .rebuild))
  | restartRebuild (p : String) :
      OpStep cfg sh t (.restart p .rebuild) .silent (.go (.restart p .swap))
  | restartSwap (p : String) :
      OpStep cfg sh t (.restart p .swap) .silent (.go (.restart p .preflight))
  | restartPreflight (p : String) (henabled : cfg.automation.enabled) :
      OpStep cfg sh t (.restart p .preflight) .silent (.go (.restart p .mode))
  | restartLast (p : String) (henabled : cfg.automation.enabled = false) :
      OpStep cfg sh t (.restart p .preflight) .silent (.go .idle)
  | restartMode (p : String) (hfree : sh.modeLock = none) (hauto : sh.mode = .auto) :
      OpStep cfg sh t (.restart p .mode) .silent (.go (.restart p .gate))
  | restartSkip (p : String) (hfree : sh.modeLock = none) (hauto : sh.mode ≠ .auto) :
      OpStep cfg sh t (.restart p .mode) .silent (.go .idle)
  | restartFault (p : String) (h : hooklessAutoGateRefused sh.registry cfg.automation) :
      OpStep cfg sh t (.restart p .gate) .silent (.setMode (.restart p .fault) .fault)
  | restartPasses (p : String) (h : hooklessAutoGateRefused sh.registry cfg.automation = false) :
      OpStep cfg sh t (.restart p .gate) .silent (.go .idle)
  | restartFails (p : String) (pc : RestartPc) (hpc : pc.fallible) :
      OpStep cfg sh t (.restart p pc) .silent (.go .idle)

section
variable {op : Op} {n : OpNext}

theorem opStep_of_triggerNext {pc : TriggerPc} (h : triggerNext cfg sh pc c = some (e, n)) :
    OpStep cfg sh t (.trigger pc) e n := by
  revert h
  fun_cases triggerNext cfg sh pc c <;> intro h <;>
    simp only [some_pair, reduceCtorEq] at h
  all_goals
    obtain ⟨rfl, rfl⟩ := h
    try subst_vars
  all_goals constructor
  all_goals first | assumption | simp_all

theorem opStep_of_holdNext {pc : HoldPc} (h : holdNext cfg sh pc c = some (e, n)) :
    OpStep cfg sh t (.hold pc) e n := by
  revert h
  fun_cases holdNext cfg sh pc c <;> intro h <;>
    simp only [some_pair, reduceCtorEq] at h
  all_goals obtain ⟨rfl, rfl⟩ := h
  all_goals constructor
  all_goals simp_all

theorem opStep_of_clearNext {pc : ClearPc} (h : clearNext cfg sh pc = some (e, n)) :
    OpStep cfg sh t (.clear pc) e n := by
  revert h
  fun_cases clearNext cfg sh pc <;> intro h <;>
    simp only [some_pair, reduceCtorEq] at h
  all_goals obtain ⟨rfl, rfl⟩ := h
  all_goals constructor
  all_goals simp_all

theorem opStep_of_tickNext {pc : TickPc} (h : tickNext sh pc c = some (e, n)) :
    OpStep cfg sh t (.tick pc) e n := by
  revert h
  fun_cases tickNext sh pc c <;> intro h <;>
    simp only [some_pair, reduceCtorEq] at h
  all_goals obtain ⟨rfl, rfl⟩ := h
  all_goals constructor
  all_goals simp_all

theorem opStep_of_restartNext {p : String} {pc : RestartPc}
    (h : restartNext cfg sh p pc c = some (e, n)) : OpStep cfg sh t (.restart p pc) e n := by
  revert h
  fun_cases restartNext cfg sh p pc c <;> intro h <;>
    simp only [some_pair, reduceCtorEq] at h
  all_goals obtain ⟨rfl, rfl⟩ := h
  all_goals constructor
  all_goals first | assumption | rfl | simp_all

theorem opStep_of_next (h : opNext cfg sh t op c = some (e, n)) : OpStep cfg sh t op e n := by
  revert h
  fun_cases opNext cfg sh t op c <;> intro h
  case case1 start =>
    obtain ⟨n', hn, heq⟩ := Option.map_eq_some_iff.mp h
    cases heq
    exact .start start hn
  all_goals first
    | exact opStep_of_triggerNext h
    | exact opStep_of_holdNext h
    | exact opStep_of_clearNext h
    | exact opStep_of_tickNext h
    | exact opStep_of_restartNext h
    | simp only [some_pair, reduceCtorEq] at h
  all_goals obtain ⟨rfl, rfl⟩ := h
  all_goals constructor
  all_goals first
    | assumption
    | exact Bool.eq_false_of_not_eq_true (by assumption)

end

/-! ### The controller's mutex -/

/-- Does a thread with this operation hold the controller's mutex. -/
def Op.locked : Op → Bool
  | .trigger .lock | .hold .lock | .hold .fault | .clear .lock => false
  | .trigger _ | .hold _ | .clear _ => true
  | _ => false

/-- The operation after a step. -/
def OpNext.op : OpNext → Op
  | .go op | .call op _ | .setMode op _ => op

section
variable {op : Op} {n : OpNext}

theorem startOp_locked {start : Start} (h : startOp cfg t start = some n) :
    n.op.locked = false := by
  revert h
  fun_cases startOp cfg t start <;> intro h <;> simp only [Option.some.injEq, reduceCtorEq] at h
  all_goals
    subst h
    rfl

/-- A step of an operation leaves the controller's mutex alone, or takes the free mutex, or
gives it back. -/
theorem OpStep.locked (h : OpStep cfg sh t op e n) :
    ((sh.applyControl t e).controllerLock = sh.controllerLock ∧ n.op.locked = op.locked) ∨
      (e = .lockController ∧ sh.controllerLock = none ∧ op.locked = false ∧
        n.op.locked) ∨ (e = .unlockController ∧ op.locked ∧ n.op.locked = false) := by
  cases h with
  | start start h => exact .inl ⟨rfl, startOp_locked h⟩
  | triggerLock hfree | holdLock hfree | clearLock hfree => exact .inr (.inl ⟨rfl, hfree, rfl, rfl⟩)
  | triggerUnlock | holdFault | holdUnlock | holdUnwind | clearUnlock =>
    exact .inr (.inr ⟨rfl, rfl, rfl⟩)
  | _ => exact .inl ⟨rfl, rfl⟩

end

theorem Op.callReturned_locked (op : Op) (result : CallResult) :
    (op.callReturned result).locked = op.locked := by
  unfold Op.callReturned
  split <;> rfl

theorem Op.modeReturned_locked (op : Op) : op.modeReturned.locked = op.locked := by
  unfold Op.modeReturned
  split <;> rfl

end Anolis.Runtime
