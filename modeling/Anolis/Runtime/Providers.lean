import Anolis.Runtime.System

/-!
# The provider registry under the runtime's threads

The runtime of `Runtime.System` takes from the schedule whether a call finds its provider and
whether that is available, and a dispatch there says nothing of what leaves for which process. Here
the provider registry and the sessions are part of the state, and answer these questions:

* `execute_call` gets its handle from the registry (`get_provider`), asks it `is_available`, and
  gives it its `Call`. `send_request` takes the session's mutex, looks at the health of the session,
  and only then writes the frame.
* `restart_provider` stops the registered handle under the session's mutex, discovers the devices of
  a new process, and after the commit of the inventory registers the new handle.
* The main loop runs one restart at a time, of a registered provider.

A handle stands for its process. It is numbered when its devices are discovered; before that no
other thread can see it. `published` says of each provider which process the devices in the registry
are from.

`world` has the threads of `system` with these answers, and a run of it is a run of `system`
(`world_refines_system`). A session may fail at any time: polls, probes and other requests run on it
too.
-/

namespace Anolis.Runtime

open Control Lib Protocol Registry

/-- A `Call` on its way to a provider. -/
structure CallFrame where
  target : Target
  request : CallRequest
  args : ArgMap

/-- The provider registry and the handles. -/
structure Providers where
  registered : String → Option Nat
  owner : Nat → String
  healthy : Nat → Bool
  session : Nat → Option ThreadId
  inventory : Nat → List RegisteredDevice
  published : String → Option Nat
  fresh : Nat
  restarting : Option ThreadId

inductive ProviderEffect
  | silent
  -- a request of a poll, a probe or a call fails, or the process dies
  | lost (handle : Nat)
  | lock (handle : Nat)
  | unlock (handle : Nat)
  -- `stop` marks the session
  | stopped (handle : Nat)
  | beginRestart
  | discover (providerId : String) (devices : List RegisteredDevice)
  | publish (providerId : String) (handle : Nat)
  | register (providerId : String) (handle : Nat)
  -- a frame to the process of `handle`; its call read a device of the process `source`
  | wrote (handle : Nat) (source : Option Nat) (frame : CallFrame)

/-- What an effect of the thread `t` does to the registry and the handles. -/
def Providers.apply (P : Providers) (t : ThreadId) : ProviderEffect → Providers
  | .silent | .wrote _ _ _ => P
  | .lost h | .stopped h => { P with healthy := Function.update P.healthy h false }
  | .lock h => { P with session := Function.update P.session h (some t) }
  | .unlock h => { P with session := Function.update P.session h none }
  | .beginRestart => { P with restarting := some t }
  | .discover p devices =>
    { P with
      owner := Function.update P.owner P.fresh p
      healthy := Function.update P.healthy P.fresh true
      inventory := Function.update P.inventory P.fresh devices
      fresh := P.fresh + 1 }
  | .publish p h => { P with published := Function.update P.published p (some h) }
  | .register p h => { P with registered := Function.update P.registered p (some h) }

/-- Where the `send_request` of a call is. -/
inductive SendPhase
  | idle
  | lock (frame : CallFrame)
  | health (frame : CallFrame)
  | write (frame : CallFrame)
  | unlock

def SendPhase.isIdle : SendPhase → Bool
  | .idle => true
  | _ => false

/-- Where the `stop` of a restart is. -/
inductive StopPhase
  | idle
  | mark (handle : Nat)
  | stopped (handle : Nat)

/-- What a thread has of the providers: the handle of its call and the process that its device is
from, its `send_request`, and of a restart its `stop` and its new handle. -/
structure Holdings where
  handle : Option Nat := none
  source : Option Nat := none
  send : SendPhase := .idle
  stop : StopPhase := .idle
  replacement : Option Nat := none

/-! ### The answers -/

/-- What the step of a call from `pc` does with the providers, and which answers it can have. -/
def callBooks (sh : Shared) (P : Providers) (loc : Holdings) (request : CallRequest) :
    CallPc → Choice → Option Holdings
  -- `get_provider`
  | .provider, .found yes =>
    match parseDeviceHandle request.deviceHandle with
    | .ok (p, _) =>
      if yes = (P.registered p).isSome then
        some { loc with handle := P.registered p, source := none }
      else none
    | .error _ => some loc
  -- `is_available` asks the session and the process
  | .available _ _, .available yes =>
    if yes && !loc.handle.any P.healthy then none else some loc
  | .device p d, _ =>
    some { loc with
      source := (sh.registry.getDeviceCopy p d).bind fun device => P.published device.providerId }
  | .dispatch target args, _ => some { loc with send := .lock ⟨target, request, args⟩ }
  -- the reply comes after the exchange
  | .reply _, _ => if loc.send.isIdle then some loc else none
  | _, _ => some loc

/-- What the step of a restart from `pc` does with the providers. -/
def restartBooks (P : Providers) (loc : Holdings) (p : String) :
    RestartPc → Choice → Option (ProviderEffect × Holdings)
  | .stop, .answer a =>
    match loc.stop, P.registered p with
    | .stopped h, _ => some (.unlock h, { loc with stop := .idle })
    | .idle, none => if a = .accept then some (.silent, loc) else none
    | _, _ => none
  | .inspect, .inventory devices =>
    some (.discover p (inspectProviderDevices p devices), { loc with replacement := some P.fresh })
  | .commit _, _ => loc.replacement.map fun h => (.publish p h, loc)
  | .swap, _ => loc.replacement.map fun h => (.register p h, { loc with replacement := none })
  | _, _ => some (.silent, loc)

/-- What the step of an operation does with the providers. The main loop restarts a registered
provider, and one at a time. -/
def opBooks (P : Providers) (loc : Holdings) : Op → Choice → Option (ProviderEffect × Holdings)
  | .restart p pc, c => restartBooks P loc p pc c
  | .idle, .start (.restart p) =>
    if (P.registered p).isSome && P.restarting.isNone then some (.beginRestart, loc) else none
  | _, _ => some (.silent, loc)

/-- What the next step of a thread does with the providers. -/
def books (sh : Shared) (P : Providers) (th : Thread) (loc : Holdings) (c : Choice) :
    Option (ProviderEffect × Holdings) :=
  match th.call, th.mode with
  | some ⟨request, pc⟩, _ => (callBooks sh P loc request pc c).map fun l => (.silent, l)
  | none, some _ => some (.silent, loc)
  | none, none => opBooks P loc th.op c

/-- A step inside a session's mutex: of the `send_request` of the thread's call, else of the `stop`
of its restart. `written` is whether the frame can be written. -/
def sessionStep (P : Providers) (th : Thread) (loc : Holdings) (written : Bool) :
    Option (ProviderEffect × Holdings) :=
  match loc.send, loc.handle with
  | .lock frame, some h =>
    if (P.session h).isSome then none else some (.lock h, { loc with send := .health frame })
  | .health frame, some h =>
    if P.healthy h then some (.silent, { loc with send := .write frame })
    else some (.silent, { loc with send := .unlock })
  | .write frame, some h =>
    if written then some (.wrote h loc.source frame, { loc with send := .unlock })
    else some (.silent, { loc with send := .unlock })
  | .unlock, some h => some (.unlock h, { loc with send := .idle })
  | .idle, _ =>
    match th.op, loc.stop with
    | .restart p .stop, .idle =>
      match P.registered p with
      | some h =>
        if (P.session h).isSome then none else some (.lock h, { loc with stop := .mark h })
      | none => none
    | .restart _ .stop, .mark h => some (.stopped h, { loc with stop := .stopped h })
    | _, _ => none
  | _, none => none

/-! ### The machine -/

structure World where
  shared : Shared
  providers : Providers

structure Worker where
  th : Thread := {}
  loc : Holdings := {}

/-- The effect of a step: that of the runtime's thread where it takes a step, that on the providers,
and whether a restart ends. -/
structure WorldEffect where
  runtime : Option Effect
  provider : ProviderEffect
  ends : Bool := false

def World.apply (w : World) (t : ThreadId) (e : WorldEffect) : World where
  shared := (e.runtime.map (w.shared.apply t)).getD w.shared
  providers :=
    { w.providers.apply t e.provider with
      restarting := if e.ends then none else (w.providers.apply t e.provider).restarting }

inductive WorldChoice
  | run (c : Choice)
  | session (written : Bool)
  | lose (handle : Nat)

def Op.isRestart : Op → Bool
  | .restart _ _ => true
  | _ => false

/-- One step of a thread. -/
def Worker.next (cfg : SystemConfig) (w : World) (t : ThreadId) (wk : Worker) :
    WorldChoice → Option (WorldEffect × Worker)
  | .run c =>
    match books w.shared w.providers wk.th wk.loc c, wk.th.next cfg w.shared t c with
    | some (pe, loc), some (e, th) =>
      some (⟨some e, pe, wk.th.op.isRestart && !th.op.isRestart⟩, ⟨th, loc⟩)
    | _, _ => none
  | .session written =>
    (sessionStep w.providers wk.th wk.loc written).map fun r =>
      (⟨none, r.1, false⟩, ⟨wk.th, r.2⟩)
  | .lose h => some (⟨none, .lost h, false⟩, wk)

/-- The runtime with its provider registry. -/
def world (cfg : SystemConfig) : Machine World Worker WorldEffect WorldChoice where
  next := Worker.next cfg
  apply := World.apply

abbrev WorldState := Global World Worker

abbrev WorldTrace := Trace WorldState (ThreadId × WorldEffect)

/-! ### Steps -/

/-- The steps of a thread: of its operation with what it does to the providers, inside a session's
mutex, or the loss of a session. -/
inductive WorkerStep (cfg : SystemConfig) (w : World) (t : ThreadId) (wk : Worker) :
    WorldEffect → Worker → Prop
  | run {c : Choice} {pe : ProviderEffect} {loc : Holdings} {e : Effect} {th : Thread}
      (hbooks : books w.shared w.providers wk.th wk.loc c = some (pe, loc))
      (hnext : wk.th.next cfg w.shared t c = some (e, th)) :
      WorkerStep cfg w t wk ⟨some e, pe, wk.th.op.isRestart && !th.op.isRestart⟩ ⟨th, loc⟩
  | session {written : Bool} {pe : ProviderEffect} {loc : Holdings}
      (h : sessionStep w.providers wk.th wk.loc written = some (pe, loc)) :
      WorkerStep cfg w t wk ⟨none, pe, false⟩ ⟨wk.th, loc⟩
  | lose (h : Nat) : WorkerStep cfg w t wk ⟨none, .lost h, false⟩ wk

variable {cfg : SystemConfig} {t : ThreadId} {e : WorldEffect}

theorem workerStep_of_next {w : World} {wk wk' : Worker}
    {c : WorldChoice} (h : wk.next cfg w t c = some (e, wk')) : WorkerStep cfg w t wk e wk' := by
  cases c with
  | run c =>
    simp only [Worker.next] at h
    split at h
    · rename_i hbooks hnext
      cases h
      exact .run hbooks hnext
    · cases h
  | session written =>
    obtain ⟨⟨pe, loc⟩, hstep, heq⟩ := Option.map_eq_some_iff.mp h
    cases heq
    exact .session hstep
  | lose handle =>
    cases h
    exact .lose handle

variable {g : WorldState} {g' : WorldState}

theorem world_step (h : (world cfg).lts.step g (t, e) g') :
    WorkerStep cfg g.shared t (g.thread t) e (g'.thread t) ∧ g'.shared = g.shared.apply t e ∧
      ∀ u, u ≠ t → g'.thread u = g.thread u := by
  obtain ⟨c, wk', hnext, hsh, hth, hother⟩ := Machine.step_inv h
  have hth : g'.thread t = wk' := hth
  rw [hth]
  exact ⟨workerStep_of_next hnext, hsh, hother⟩

/-! ### The runtime below -/

/-- The state of the runtime. -/
def WorldState.runtime (g : WorldState) : SystemState where
  shared := g.shared.shared
  thread t := (g.thread t).th

/-- The step of the runtime in a step, where there is one. -/
def runtimeStep? (i : WorldState × ThreadId × WorldEffect) :
    Option (SystemState × ThreadId × Effect) :=
  i.2.2.runtime.map fun e => (WorldState.runtime i.1, i.2.1, e)

theorem runtime_eq (hsh : g'.shared.shared = g.shared.shared)
    (hth : (g'.thread t).th = (g.thread t).th) (hother : ∀ u, u ≠ t → g'.thread u = g.thread u) :
    WorldState.runtime g' = WorldState.runtime g := by
  have hthreads : ∀ u, (g'.thread u).th = (g.thread u).th := by
    intro u
    by_cases hu : u = t
    · rw [hu, hth]
    · rw [hother u hu]
  simp only [WorldState.runtime, hsh, hthreads]

/-- A run of the runtime with its provider registry is a run of the runtime. -/
theorem world_refines_system {g₀ : WorldState} {tr : WorldTrace} (h : Run (world cfg).lts g₀ tr g) :
    SystemRun cfg (WorldState.runtime g₀) (tr.filterMap runtimeStep?) (WorldState.runtime g) := by
  refine Run.refines ?_ ?_ h
  · rintro tr g ⟨t, e⟩ g' - hstep hview
    obtain ⟨hwk, hsh, hother⟩ := world_step hstep
    generalize hth : g'.thread t = wk' at hwk
    cases hwk with
    | run hbooks hnext => cases hview
    | session | lose => exact runtime_eq (by rw [hsh]; rfl) (by rw [hth]) hother
  · rintro tr g ⟨t, e⟩ g' j - hstep hview
    obtain ⟨hwk, hsh, hother⟩ := world_step hstep
    generalize hth : g'.thread t = wk' at hwk
    cases hwk with
    | run hbooks hnext =>
      cases hview
      refine ⟨rfl, Machine.step_of_next (M := system cfg) hnext ?_ ?_ fun u hu => ?_⟩
      · show g'.shared.shared = _
        rw [hsh]
        rfl
      · show (g'.thread t).th = _
        rw [hth]
      · show (g'.thread u).th = (g.thread u).th
        rw [hother u hu]
    | session | lose => cases hview

end Anolis.Runtime
