import Anolis.Runtime.Operations

/-!
# The runtime's threads

A thread runs an operation; the operation may have a `set_mode` running, and the two may have
a call running. So a thread is three places, and its step is the innermost one's. The machine
of these threads is the runtime: its runs are all interleavings of HTTP calls, mode changes,
e-stops, holds, clears, stop-chain updates, ticks and provider restarts on any number of threads.

`system_step` is the inversion of a step. `shaped_run` says which operations have a `set_mode`
or a call running. The lock invariants are at the end: in every state
of a run, the holder of the mode lock is the thread inside its sections (`modeLock_run`), and
so for the controller's mutex (`controllerLock_run`) and each provider's lock
(`providerLock_run`).
-/

namespace Anolis.Runtime

open Automation Control Lib Lib.Machine

variable {cfg : SystemConfig} {sh : Shared} {t : ThreadId} {e : Effect} {request : CallRequest}

/-! ### Threads -/

/-- A thread: its operation, and the `set_mode` and the call that it is inside of. -/
structure Thread where
  op : Op := .idle
  mode : Option SetMode := none
  call : Option CallState := none

/-- The thread after a step of its call. A result goes to the `set_mode` that made the call,
else to the operation. -/
def Thread.withCall (th : Thread) (request : CallRequest) : CallNext → Thread
  | .go pc => { th with call := some ⟨request, pc⟩ }
  | .ret result =>
    match th.mode with
    | some m => { th with mode := some (m.callReturned result), call := none }
    | none => { th with op := th.op.callReturned result, call := none }

/-- The thread after a step of its `set_mode`. -/
def Thread.withMode (th : Thread) (new : RuntimeMode) : SetModeNext → Thread
  | .go pc => { th with mode := some ⟨new, pc⟩ }
  | .call pc request => { th with mode := some ⟨new, pc⟩, call := some { request := request } }
  | .ret _ => { th with mode := none, op := th.op.modeReturned }

/-- The thread after a step of its operation. -/
def Thread.withOp (th : Thread) : OpNext → Thread
  | .go op => { th with op := op }
  | .call op request => { th with op := op, call := some { request := request } }
  | .setMode op new => { th with op := op, mode := some { new := new } }

@[simp]
theorem Thread.op_withOp (th : Thread) (n : OpNext) : (th.withOp n).op = n.op := by
  cases n <;> rfl

/-- One step of a thread: of its call, else of its `set_mode`, else of its operation. -/
def Thread.next (cfg : SystemConfig) (sh : Shared) (t : ThreadId) (th : Thread) (c : Choice) :
    Option (Effect × Thread) :=
  match th.call, th.mode with
  | some ⟨request, pc⟩, _ =>
    (callNext cfg sh t request pc c).map fun r => (.call r.1, th.withCall request r.2)
  | none, some ⟨new, pc⟩ =>
    (setModeNext cfg sh t new pc c).map fun r => (.mode r.1, th.withMode new r.2)
  | none, none => (opNext cfg sh t th.op c).map fun r => (.control r.1, th.withOp r.2)

/-- The runtime. -/
def system (cfg : SystemConfig) : Machine Shared Thread Effect Choice where
  next := Thread.next cfg
  apply := Shared.apply

/-- A state of the runtime. -/
abbrev SystemState := Global Shared Thread

/-- A trace of the runtime: the steps taken, each with the state it was taken in. -/
abbrev SystemTrace := Trace SystemState (ThreadId × Effect)

/-- A run of the runtime. -/
abbrev SystemRun (cfg : SystemConfig) (g₀ : SystemState) (tr : SystemTrace) (g : SystemState) :
    Prop :=
  Run (system cfg).lts g₀ tr g

/-- A state to start in: every thread is idle, and no lock is held. The mode, the latch, the
stop status, the registry and the loss latches are any: the latch may have been restored. -/
structure SystemStart (g : SystemState) : Prop where
  idle : ∀ t, g.thread t = {}
  modeLock : g.shared.modeLock = none
  controllerLock : g.shared.controllerLock = none
  providerLock : ∀ p, g.shared.providerLock p = none
  admitted : g.shared.admitted = none

/-- A runtime in MANUAL with no devices. -/
def manualWorld : SystemState where
  shared := { mode := .manual }
  thread _ := {}

theorem manualWorld_start : SystemStart manualWorld :=
  ⟨fun _ => rfl, rfl, rfl, fun _ => rfl, rfl⟩

/-! ### Steps -/

/-- The step of a thread by the place that takes it. -/
inductive ThreadStep (cfg : SystemConfig) (sh : Shared) (t : ThreadId) (th : Thread) :
    Effect → Thread → Prop
  | call {request : CallRequest} {pc : CallPc} {c : Choice} {e : CallEffect} {n : CallNext}
      (hcall : th.call = some ⟨request, pc⟩)
      (h : callNext cfg sh t request pc c = some (e, n)) :
      ThreadStep cfg sh t th (.call e) (th.withCall request n)
  | mode {new : RuntimeMode} {pc : SetModePc} {c : Choice} {e : ModeEffect} {n : SetModeNext}
      (hcall : th.call = none) (hmode : th.mode = some ⟨new, pc⟩)
      (h : SetModeStep cfg sh t new c pc e n) :
      ThreadStep cfg sh t th (.mode e) (th.withMode new n)
  | op {op : Op} {e : ControlEffect} {n : OpNext} (hcall : th.call = none)
      (hmode : th.mode = none) (hop : th.op = op) (h : OpStep cfg sh t op e n) :
      ThreadStep cfg sh t th (.control e) (th.withOp n)

theorem threadStep_of_next {th th' : Thread} {c : Choice} (h : th.next cfg sh t c = some (e, th')) :
    ThreadStep cfg sh t th e th' := by
  unfold Thread.next at h
  split at h <;> obtain ⟨⟨e', n⟩, hn, heq⟩ := Option.map_eq_some_iff.mp h <;>
    cases heq
  · rename_i hk
    exact .call hk hn
  · rename_i hk hm
    exact .mode hk hm (setModeStep_of_next hn)
  · rename_i hk hm
    exact .op hk hm rfl (opStep_of_next hn)

/-- What one step of the runtime is: a step of one thread, its effect on the shared state, and
the other threads as they were. -/
theorem system_step {g g' : SystemState} (h : (system cfg).lts.step g (t, e) g') :
    ∃ th', g'.thread t = th' ∧ ThreadStep cfg g.shared t (g.thread t) e th' ∧
      g'.shared = g.shared.apply t e ∧ ∀ u, u ≠ t → g'.thread u = g.thread u := by
  obtain ⟨c, th', hnext, hsh, hth, hother⟩ := Machine.step_inv h
  exact ⟨th', hth, threadStep_of_next hnext, hsh, hother⟩

/-- What every step of a thread keeps, in runs whose steps all meet the condition `C`, holds of
every thread. -/
theorem thread_run {g₀ g : SystemState} {tr : SystemTrace}
    {C : SystemState → ThreadId × Effect → Prop} {P : ThreadId → Thread → Prop}
    (h0 : SystemStart g₀) (hidle : ∀ t, P t {})
    (hkeep : ∀ g t e th', C g (t, e) → ThreadStep cfg g.shared t (g.thread t) e th' →
      P t (g.thread t) → P t th')
    (h : SystemRun cfg g₀ tr g) (hC : ∀ i ∈ tr, C i.1 i.2) : ∀ t, P t (g.thread t) := by
  refine Machine.thread_inv (C := C) (fun t => ?_) (fun g t c e th' hc hnext hp => ?_) h hC
  · rw [h0.idle]
    exact hidle t
  · exact hkeep g t e th' hc (threadStep_of_next hnext) hp

/-- What a step of a thread does to its operation: a step of it, or a call or a `set_mode` of it
goes on or returns. -/
theorem ThreadStep.op_cases {th th' : Thread} (h : ThreadStep cfg sh t th e th') :
    (∃ op e' n, e = .control e' ∧ th.call = none ∧ th.mode = none ∧ th.op = op ∧
        OpStep cfg sh t op e' n ∧ th'.op = n.op) ∨
      ((∀ e', e ≠ .control e') ∧ (th'.op = th.op ∨ (∃ result, th'.op = th.op.callReturned result) ∨
        th'.op = th.op.modeReturned)) := by
  cases h with
  | @call request pc c e n hcall h =>
    refine .inr ⟨by simp, ?_⟩
    cases n with
    | go pc => exact .inl rfl
    | ret result =>
      simp only [Thread.withCall]
      split
      · exact .inl rfl
      · exact .inr (.inl ⟨result, rfl⟩)
  | @mode new pc c e n hcall hmode h =>
    refine .inr ⟨by simp, ?_⟩
    cases n with
    | ret ok => exact .inr (.inr rfl)
    | _ => exact .inl rfl
  | @op op e n hcall hmode hop h =>
    exact .inl ⟨op, e, n, rfl, hcall, hmode, hop, h, by cases n <;> rfl⟩

/-- Where the call after a step of its thread comes from: it starts, or a step of its own takes
it there. -/
theorem ThreadStep.call_cases {th th' : Thread} (h : ThreadStep cfg sh t th e th') {pc : CallPc}
    (hcall : th'.call = some ⟨request, pc⟩) : (th.call = none ∧ pc = .idleGate) ∨
      ∃ pc₀ c e', e = .call e' ∧ th.call = some ⟨request, pc₀⟩ ∧
        callNext cfg sh t request pc₀ c = some (e', .go pc) := by
  cases h with
  | @call request₀ pc₀ c e n hcall₀ h =>
    refine .inr ?_
    cases n with
    | go pc₁ =>
      cases hcall
      exact ⟨pc₀, c, e, rfl, hcall₀, h⟩
    | ret result =>
      simp only [Thread.withCall] at hcall
      split at hcall <;> cases hcall
  | @mode new pc₀ c e n hcall₀ hm h =>
    refine .inl ⟨hcall₀, ?_⟩
    cases n with
    | call pc₁ request₁ =>
      cases hcall
      rfl
    | go pc₁ | ret ok =>
      simp only [Thread.withMode, hcall₀] at hcall
      cases hcall
  | @op op e n hcall₀ hm hop h =>
    refine .inl ⟨hcall₀, ?_⟩
    cases n with
    | call op₁ request₁ =>
      cases hcall
      rfl
    | go op₁ | setMode op₁ new =>
      simp only [Thread.withOp, hcall₀] at hcall
      cases hcall

theorem ThreadStep.of_dispatch {th th' : Thread} {target : Target} {args : Protocol.ArgMap}
    (h : ThreadStep cfg sh t th (.call (.dispatch target request args)) th') :
    th.call = some ⟨request, .dispatch target args⟩ ∧
      th' = th.withCall request (.go (.reply target)) := by
  generalize he : Effect.call (.dispatch target request args) = e at h
  cases h with
  | call hcall h =>
    obtain rfl := Effect.call.inj he
    obtain ⟨rfl, rfl, rfl⟩ := callNext_dispatch_at h
    exact ⟨hcall, rfl⟩
  | mode | op => cases he

/-! ### What an operation waits for -/

/-- The operations that have a `set_mode` running. -/
def Op.awaitsMode : Op → Bool
  | .setMode | .trigger (.fault _) | .hold .fault | .tick .fault | .restart _ .fault => true
  | _ => false

/-- The operations that have a call of their own running. -/
def Op.awaitsCall : Op → Bool
  | .call | .trigger (.ladder (.calling _ _ _)) | .ladder _ (.calling _ _ _) | .tick .running =>
    true
  | _ => false

/-- A thread has a `set_mode` or a call running only where its operation waits for one. -/
structure Thread.Shaped (th : Thread) : Prop where
  mode : th.mode.isSome → th.op.awaitsMode
  call : th.call.isSome → th.mode.isSome ∨ th.op.awaitsCall

theorem Thread.Shaped.quiet {th : Thread} (h : th.Shaped) (hmode : th.op.awaitsMode = false)
    (hcall : th.op.awaitsCall = false) : th.mode = none ∧ th.call = none := by
  have hm : th.mode = none := by
    by_contra hne
    rw [h.mode (Option.isSome_iff_ne_none.mpr hne)] at hmode
    cases hmode
  refine ⟨hm, ?_⟩
  by_contra hne
  rcases h.call (Option.isSome_iff_ne_none.mpr hne) with hm' | hc
  · simp [hm] at hm'
  · rw [hc] at hcall
    cases hcall

section
variable {th th' : Thread}

/-- A thread whose operation waits for neither takes a step of the operation. -/
theorem Thread.Shaped.op_step {op : Op} (hshaped : th.Shaped) (h : ThreadStep cfg sh t th e th')
    (hop : th.op = op) (hmode : op.awaitsMode = false) (hcall : op.awaitsCall = false) :
    th.call = none ∧ ∃ e' n, e = .control e' ∧ th' = th.withOp n ∧ OpStep cfg sh t op e' n := by
  subst hop
  obtain ⟨hm, hc⟩ := hshaped.quiet hmode hcall
  cases h with
  | call hcall' => simp [hc] at hcall'
  | mode _ hmode' => simp [hm] at hmode'
  | op _ _ hop h => exact ⟨hc, _, _, rfl, rfl, hop ▸ h⟩

theorem ladderNext_awaitsCall {scope : LadderScope} {pc pc' : LadderPc}
    (h : ladderNext cfg sh scope pc = some (.call pc' request)) :
    ∃ c rest result, pc' = .calling c rest result := by
  revert h
  fun_cases ladderNext cfg sh scope pc <;> intro h <;>
    simp only [Option.some.injEq, LadderNext.call.injEq, reduceCtorEq] at h
  exact ⟨_, _, _, h.1.symm⟩

theorem startOp_shaped {start : Start} {n : OpNext} (h : startOp cfg t start = some n) :
    (∀ op request, n = .call op request → op.awaitsCall) ∧
      ∀ op new, n = .setMode op new → op.awaitsMode := by
  revert h
  fun_cases startOp cfg t start <;> intro h <;> simp only [Option.some.injEq, reduceCtorEq] at h
  all_goals
    subst h
    simp [Op.awaitsCall, Op.awaitsMode]

theorem OpStep.shaped {op : Op} {e : ControlEffect} {n : OpNext} (h : OpStep cfg sh t op e n) :
    (∀ op request, n = .call op request → op.awaitsCall) ∧
      ∀ op new, n = .setMode op new → op.awaitsMode := by
  cases h
  case start start h => exact startOp_shaped h
  case triggerLadderCall h | ladderCall h =>
    obtain ⟨c, rest, result, rfl⟩ := ladderNext_awaitsCall h
    simp [Op.awaitsCall]
  all_goals simp [Op.awaitsCall, Op.awaitsMode]

theorem ThreadStep.shaped (h : ThreadStep cfg sh t th e th') (hth : th.Shaped) : th'.Shaped := by
  cases h with
  | @call request pc c e n hcall h =>
    cases n with
    | go pc => exact ⟨hth.mode, fun _ => hth.call (by simp [hcall])⟩
    | ret result =>
      simp only [Thread.withCall]
      split
      · rename_i m hm
        exact ⟨fun _ => hth.mode (by simp [hm]), by simp⟩
      · rename_i hm
        exact ⟨by simp [hm], by simp⟩
  | @mode new pc c e n hcall hmode h =>
    have hop : th.op.awaitsMode := hth.mode (by simp [hmode])
    cases n with
    | go pc | call pc request => exact ⟨fun _ => hop, by simp [Thread.withMode]⟩
    | ret ok => exact ⟨by simp [Thread.withMode], by simp [Thread.withMode, hcall]⟩
  | @op op e n hcall hmode hop h =>
    cases n with
    | go op => exact ⟨by simp [Thread.withOp, hmode], by simp [Thread.withOp, hcall]⟩
    | call op request => exact ⟨by simp [Thread.withOp, hmode], fun _ => .inr (h.shaped.1 _ _ rfl)⟩
    | setMode op new => exact ⟨fun _ => h.shaped.2 _ _ rfl, by simp [Thread.withOp, hcall]⟩

end

theorem shaped_run {g₀ g : SystemState} {tr : SystemTrace} (h0 : SystemStart g₀)
    (h : SystemRun cfg g₀ tr g) : ∀ t, (g.thread t).Shaped := by
  refine thread_run (C := fun _ _ => True) (P := fun _ th => th.Shaped) h0 (fun _ => ?_) ?_ h
    (fun _ _ => trivial)
  · exact ⟨by simp, by simp⟩
  · intro g t e th' _ hts hth
    exact hts.shaped hth

/-! ### Locks -/

/-- Is the thread inside a section of the mode lock. -/
def Thread.holdsMode (th : Thread) : Bool := th.mode.any fun m => m.pc.locked

/-- Is the thread inside the controller's mutex. -/
def Thread.holdsController (th : Thread) : Bool := th.op.locked

/-- Is the thread's call inside the lock of the provider `p`. -/
def Thread.holdsProvider (p : String) (th : Thread) : Bool :=
  th.call.any fun k => k.pc.held = some p

section
variable {th th' : Thread}

theorem Thread.withCall_holdsMode (th : Thread) (request : CallRequest) (n : CallNext) :
    (th.withCall request n).holdsMode = th.holdsMode := by
  cases n with
  | go pc => rfl
  | ret result =>
    cases hm : th.mode with
    | none => simp [Thread.withCall, Thread.holdsMode, hm]
    | some m => simp [Thread.withCall, Thread.holdsMode, hm, SetMode.callReturned_locked]

theorem ThreadStep.modeLock (h : ThreadStep cfg sh t th e th') :
    LockStep t sh.modeLock (sh.apply t e).modeLock th.holdsMode th'.holdsMode := by
  cases h with
  | call hcall h => exact .inl ⟨by simp [Shared.apply], Thread.withCall_holdsMode _ _ _⟩
  | @mode new pc c e n hcall hmode h =>
    have hbefore : th.holdsMode = pc.locked := by simp [Thread.holdsMode, hmode]
    have hafter : (th.withMode new n).holdsMode = n.locked := by cases n <;> rfl
    rw [hbefore, hafter]
    rcases h.locked with ⟨hl, hn⟩ | ⟨rfl, hfree, hpc, hn⟩ | ⟨hl, hpc, hn⟩
    · exact .inl ⟨hl, hn⟩
    · exact .inr (.inl ⟨hfree, rfl, hpc, hn⟩)
    · exact .inr (.inr ⟨hl, hpc, hn⟩)
  | @op op e n hcall hmode hop h =>
    -- a `set_mode` starts outside the lock
    refine .inl ⟨by simp [Shared.apply], ?_⟩
    cases n <;> simp [Thread.withOp, Thread.holdsMode, hmode, SetModePc.locked]

theorem ThreadStep.controllerLock (h : ThreadStep cfg sh t th e th') :
    LockStep t sh.controllerLock (sh.apply t e).controllerLock th.holdsController
      th'.holdsController := by
  cases h with
  | @call request pc c e n hcall h =>
    refine .inl ⟨by simp [Shared.apply], ?_⟩
    cases n with
    | go pc => rfl
    | ret result =>
      simp only [Thread.withCall, Thread.holdsController]
      split
      · rfl
      · exact Op.callReturned_locked _ _
  | @mode new pc c e n hcall hmode h =>
    refine .inl ⟨by simp [Shared.apply], ?_⟩
    cases n with
    | ret ok => exact Op.modeReturned_locked _
    | _ => rfl
  | @op op e n hcall hmode hop h =>
    have hafter : (th.withOp n).holdsController = n.op.locked := by cases n <;> rfl
    rw [hafter, Thread.holdsController, hop]
    rcases h.locked with ⟨hl, hn⟩ | ⟨rfl, hfree, hop, hn⟩ | ⟨rfl, hop, hn⟩
    · exact .inl ⟨hl, hn⟩
    · exact .inr (.inl ⟨hfree, rfl, hop, hn⟩)
    · exact .inr (.inr ⟨rfl, hop, hn⟩)

theorem ThreadStep.providerLock (p : String) (h : ThreadStep cfg sh t th e th') :
    LockStep t (sh.providerLock p) ((sh.apply t e).providerLock p) (th.holdsProvider p)
      (th'.holdsProvider p) := by
  cases h with
  | @call request pc c e n hcall h =>
    have hbefore : th.holdsProvider p = decide (pc.held = some p) := by
      simp [Thread.holdsProvider, hcall]
    have hafter : (th.withCall request n).holdsProvider p = decide (n.held = some p) := by
      cases n with
      | go pc => rfl
      | ret result =>
        simp only [Thread.withCall, Thread.holdsProvider, CallNext.held]
        split <;> rfl
    rw [hbefore, hafter]
    rcases callNext_held h with ⟨hl, hn⟩ | ⟨q, rfl, hfree, hpc, hn⟩ | ⟨q, rfl, hpc, hn⟩
    · exact .inl ⟨congrFun hl p, by rw [hn]⟩
    · rcases eq_or_ne q p with rfl | hq
      · exact .inr (.inl ⟨hfree, Function.update_self .., by simp [hpc], by simp [hn]⟩)
      · exact .inl ⟨Function.update_of_ne (Ne.symm hq) .., by simp [hpc, hn, hq]⟩
    · rcases eq_or_ne q p with rfl | hq
      · exact .inr (.inr ⟨Function.update_self .., by simp [hpc], by simp [hn]⟩)
      · exact .inl ⟨Function.update_of_ne (Ne.symm hq) .., by simp [hpc, hn, hq]⟩
  | @mode new pc c e n hcall hmode h =>
    -- a hook's call starts outside the lock
    refine .inl ⟨by simp [Shared.apply], ?_⟩
    cases n <;> simp [Thread.withMode, Thread.holdsProvider, hcall, CallPc.held]
  | @op op e n hcall hmode hop h =>
    refine .inl ⟨by simp [Shared.apply], ?_⟩
    cases n <;> simp [Thread.withOp, Thread.holdsProvider, hcall, CallPc.held]

end

section
variable {g₀ g : SystemState} {tr : SystemTrace} (h0 : SystemStart g₀) (h : SystemRun cfg g₀ tr g)
include h0 h

theorem modeLock_run : LockInv Shared.modeLock Thread.holdsMode g :=
  Machine.lock_inv (fun _ _ _ _ _ _ hn => (threadStep_of_next hn).modeLock) h fun t => by
    rw [h0.idle, h0.modeLock]
    simp [Thread.holdsMode]

theorem controllerLock_run : LockInv Shared.controllerLock Thread.holdsController g :=
  Machine.lock_inv (fun _ _ _ _ _ _ hn => (threadStep_of_next hn).controllerLock) h fun t => by
    rw [h0.idle, h0.controllerLock]
    simp [Thread.holdsController, Op.locked]

theorem providerLock_run (p : String) :
    LockInv (fun sh => sh.providerLock p) (Thread.holdsProvider p) g :=
  Machine.lock_inv (fun _ _ _ _ _ _ hn => (threadStep_of_next hn).providerLock p) h fun t => by
    rw [h0.idle, h0.providerLock]
    simp [Thread.holdsProvider]

end

end Anolis.Runtime
