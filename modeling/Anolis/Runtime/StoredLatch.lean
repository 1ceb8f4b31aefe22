import Anolis.Control.LatchStore
import Anolis.Runtime.System

/-!
# The runtime with its latch store

The runtime of `Runtime.System` takes the outcome of a latch's `save` from the schedule and does not
see the `remove` of a `clear`. Here the latch store of `Control.LatchStore` is attached to the
e-stop controller, and the thread that engages or clears the latch takes the steps of `save` and
`remove` inside the controller's mutex:

* the step of `trigger` or `hold` that engages the latch begins a `save`, and the operation goes on
  when that returns or throws;
* the step of `clear` that commits begins a `remove`, and the mutex is given back after it.

`latchedAtMs` and `restoredReason` are written in the same sections as the latch. They are under the
controller's mutex, so the write of the three is one step.

`stored` has the threads of `system` with these steps, and a run of it is a run of `system`
(`stored_refines_system`). `life` adds the death of the process: it may be killed in any state, and
the next process finds the disk as it is (`attachLatchStore`).
-/

namespace Anolis.Runtime

open Control Lib

/-! ### Attaching the store -/

/-- What a new controller has of the latch once its store is attached. -/
structure AttachedLatch where
  latched : Bool := false
  latchedAtMs : Option Int64 := none
  restoredReason : Option Bytes := none
deriving DecidableEq

/-- `attach_latch_store`. A file that cannot say when gets the time it was found. -/
def attachLatchStore (store : LatchStore) (disk : Disk Bytes) (io : LoadIo)
    (nowEpochMs : Int64) : AttachedLatch :=
  let persisted := store.load disk io
  if persisted.state = .absent then {}
  else
    { latched := true
      latchedAtMs := some (persisted.latchedAtEpochMs.getD nowEpochMs)
      restoredReason := some (ascii "started latched: " ++ persisted.detail) }

/-! ### The machine -/

structure Stored where
  shared : Shared
  latchedAtMs : Option Int64 := none
  restoredReason : Option Bytes := none
  disk : Disk Bytes

/-- A thread, and what it does with the latch file. -/
structure StoredThread where
  th : Thread := {}
  file : FileOp := .idle

/-- The effect of a step: that of the runtime's thread where it takes a step, and what happens to
the latch file. -/
structure StoredEffect where
  runtime : Option Effect
  file : StoreEvent := .other

def Stored.apply (s : Stored) (t : ThreadId) (e : StoredEffect) : Stored where
  shared := (e.runtime.map (s.shared.apply t)).getD s.shared
  latchedAtMs :=
    match e.file with
    | .save ms _ => some ms
    | .remove => none
    | _ => s.latchedAtMs
  restoredReason :=
    match e.file with
    | .save _ _ | .remove => none
    | _ => s.restoredReason
  disk :=
    match e.file with
    | .file effect _ => effect.apply s.disk
    | _ => s.disk

/-- A step that engages the latch has the time and the reason from the schedule. -/
inductive StoredChoice
  | run (c : Choice)
  | engage (nowEpochMs : Int64) (reason : Bytes)
  | file (c : FileChoice)

/-- What a `save` comes to for the operation that waits for it. -/
def saveOutcome : FileResult → Option SaveOutcome
  | .saved ok _ => some (if ok then .saved else .failed)
  | .threw => some .threw
  | .removed _ _ => none

/-- One step of a thread. -/
def StoredThread.next (cfg : SystemConfig) (store : LatchStore) (s : Stored) (t : ThreadId)
    (w : StoredThread) : StoredChoice → Option (StoredEffect × StoredThread)
  | .run c =>
    match w.file, w.th.next cfg s.shared t c with
    | .idle, some (.control .engage, _) => none
    | .idle, some (.control .unlatch, th) =>
      some (⟨some (.control .unlatch), .remove⟩, ⟨th, .remove .unlink⟩)
    | .idle, some (e, th) => some (⟨some e, .other⟩, ⟨th, .idle⟩)
    | _, _ => none
  | .engage now reason =>
    match w.file, w.th.next cfg s.shared t .go with
    | .idle, some (.control .engage, th) =>
      some (⟨some (.control .engage), .save now reason⟩, ⟨th, .save now reason .createDir⟩)
    | _, _ => none
  | .file c =>
    match fileNext store s.disk w.file c with
    | none => none
    | some (effect, file) =>
      match effect.result.bind saveOutcome with
      | none => some (⟨none, .file effect file⟩, ⟨w.th, file⟩)
      -- the operation goes on with the outcome of its `save`
      | some outcome =>
        (w.th.next cfg s.shared t (.save outcome)).map fun r =>
          (⟨some r.1, .file effect file⟩, ⟨r.2, file⟩)

/-- The runtime with its latch store. -/
def stored (cfg : SystemConfig) (store : LatchStore) :
    Machine Stored StoredThread StoredEffect StoredChoice where
  next := StoredThread.next cfg store
  apply := Stored.apply

abbrev StoredState := Global Stored StoredThread

abbrev StoredTrace := Trace StoredState (ThreadId × StoredEffect)

/-! ### Steps -/

/-- The steps of a thread: of its operation, with the beginning of a `save` or a `remove` where it
engages or clears the latch, and of its `save` or `remove`, whose last step may be one of the
operation too. -/
inductive StoredStep (cfg : SystemConfig) (store : LatchStore) (s : Stored) (t : ThreadId)
    (w : StoredThread) : StoredEffect → StoredThread → Prop
  | run {c : Choice} {e : Effect} {th : Thread} (hfile : w.file = .idle)
      (hnext : w.th.next cfg s.shared t c = some (e, th)) (hengage : e ≠ .control .engage)
      (hunlatch : e ≠ .control .unlatch) : StoredStep cfg store s t w ⟨some e, .other⟩ ⟨th, .idle⟩
  | engage (now : Int64) (reason : Bytes) {c : Choice} {th : Thread} (hfile : w.file = .idle)
      (hnext : w.th.next cfg s.shared t c = some (.control .engage, th)) :
      StoredStep cfg store s t w ⟨some (.control .engage), .save now reason⟩
        ⟨th, .save now reason .createDir⟩
  | unlatch {c : Choice} {th : Thread} (hfile : w.file = .idle)
      (hnext : w.th.next cfg s.shared t c = some (.control .unlatch, th)) :
      StoredStep cfg store s t w ⟨some (.control .unlatch), .remove⟩ ⟨th, .remove .unlink⟩
  | file {c : FileChoice} {effect : FileEffect} {file : FileOp}
      (hfile : fileNext store s.disk w.file c = some (effect, file))
      (hresult : effect.result.bind saveOutcome = none) :
      StoredStep cfg store s t w ⟨none, .file effect file⟩ ⟨w.th, file⟩
  | saved {c : FileChoice} {effect : FileEffect} {file : FileOp} {outcome : SaveOutcome}
      {e : Effect} {th : Thread} (hfile : fileNext store s.disk w.file c = some (effect, file))
      (hresult : effect.result.bind saveOutcome = some outcome)
      (hnext : w.th.next cfg s.shared t (.save outcome) = some (e, th)) :
      StoredStep cfg store s t w ⟨some e, .file effect file⟩ ⟨th, file⟩

variable {e : StoredEffect} {w w' : StoredThread}

theorem storedStep_of_next {cfg : SystemConfig} {store : LatchStore} {s : Stored} {t : ThreadId}
    {c : StoredChoice}
    (h : w.next cfg store s t c = some (e, w')) : StoredStep cfg store s t w e w' := by
  cases c with
  | run c =>
    simp only [StoredThread.next] at h
    split at h
    · cases h
    · rename_i hfile hnext
      cases h
      exact .unlatch hfile hnext
    · rename_i hengage hunlatch hfile hnext
      cases h
      exact .run hfile hnext (fun he => hengage (by rw [he])) (fun he => hunlatch (by rw [he]))
    · cases h
  | engage now reason =>
    simp only [StoredThread.next] at h
    split at h
    · rename_i hfile hnext
      cases h
      exact .engage now reason hfile hnext
    · cases h
  | file c =>
    simp only [StoredThread.next] at h
    split at h
    · cases h
    · rename_i hfile
      split at h
      · rename_i hresult
        cases h
        exact .file hfile hresult
      · rename_i hresult
        obtain ⟨⟨e, th⟩, hnext, heq⟩ := Option.map_eq_some_iff.mp h
        cases heq
        exact .saved hfile hresult hnext

theorem stored_step {cfg : SystemConfig} {store : LatchStore} {g g' : StoredState} {t : ThreadId}
    (h : (stored cfg store).lts.step g (t, e) g') :
    StoredStep cfg store g.shared t (g.thread t) e (g'.thread t) ∧
      g'.shared = g.shared.apply t e ∧ ∀ u, u ≠ t → g'.thread u = g.thread u := by
  obtain ⟨c, w', hnext, hsh, hth, hother⟩ := Machine.step_inv h
  have hth : g'.thread t = w' := hth
  rw [hth]
  exact ⟨storedStep_of_next hnext, hsh, hother⟩

/-! ### The runtime below -/

/-- The state of the runtime. -/
def StoredState.runtime (g : StoredState) : SystemState where
  shared := g.shared.shared
  thread t := (g.thread t).th

/-- The step of the runtime in a step, where there is one. -/
def storedRuntimeStep? (i : StoredState × ThreadId × StoredEffect) :
    Option (SystemState × ThreadId × Effect) :=
  i.2.2.runtime.map fun e => (StoredState.runtime i.1, i.2.1, e)

section
variable {cfg : SystemConfig} {store : LatchStore} {g g' : StoredState} {t : ThreadId}

/-- What a step is for the runtime: a step of the same thread, or none. -/
theorem StoredStep.runtime {s : Stored}
    (h : StoredStep cfg store s t w e w') : (e.runtime = none ∧ w'.th = w.th) ∨
      ∃ c e', e.runtime = some e' ∧ w.th.next cfg s.shared t c = some (e', w'.th) := by
  cases h with
  | run _ hnext | engage _ _ _ hnext | unlatch _ hnext | saved _ _ hnext =>
    exact .inr ⟨_, _, rfl, hnext⟩
  | file => exact .inl ⟨rfl, rfl⟩

theorem runtime_step (h : (stored cfg store).lts.step g (t, e) g') :
    (e.runtime = none ∧ StoredState.runtime g' = StoredState.runtime g) ∨
      ∃ e', e.runtime = some e' ∧
        (system cfg).lts.step (StoredState.runtime g) (t, e') (StoredState.runtime g') := by
  obtain ⟨hstep, hshared, hother⟩ := stored_step h
  rcases hstep.runtime with ⟨hnone, hth⟩ | ⟨c, e', hsome, hnext⟩
  · have hthreads : ∀ u, (g'.thread u).th = (g.thread u).th := by
      intro u
      by_cases hu : u = t
      · rw [hu, hth]
      · rw [hother u hu]
    refine .inl ⟨hnone, ?_⟩
    simp only [StoredState.runtime, hshared, hthreads, Stored.apply, hnone, Option.map_none,
      Option.getD_none]
  · refine .inr ⟨e', hsome, Machine.step_of_next (M := system cfg) hnext ?_ rfl fun u hu => ?_⟩
    · show g'.shared.shared = _
      rw [hshared, Stored.apply, hsome]
      rfl
    · show (g'.thread u).th = (g.thread u).th
      rw [hother u hu]

/-- A run of the runtime with its latch store is a run of the runtime. -/
theorem stored_refines_system {g₀ : StoredState} {tr : StoredTrace}
    (h : Run (stored cfg store).lts g₀ tr g) :
    SystemRun cfg (StoredState.runtime g₀) (tr.filterMap storedRuntimeStep?)
      (StoredState.runtime g) := by
  refine Run.refines ?_ ?_ h
  · rintro tr g ⟨t, e⟩ g' - hstep hview
    rcases runtime_step hstep with ⟨-, heq⟩ | ⟨e', hsome, -⟩
    · exact heq
    · simp [storedRuntimeStep?, hsome] at hview
  · rintro tr g ⟨t, e⟩ g' j - hstep hview
    rcases runtime_step hstep with ⟨hnone, -⟩ | ⟨e', hsome, hsys⟩
    · simp [storedRuntimeStep?, hnone] at hview
    · obtain rfl : (StoredState.runtime g, t, e') = j := by
        simpa [storedRuntimeStep?, hsome] using hview
      exact ⟨rfl, hsys⟩

end

/-! ### One process after the other -/

inductive LifeEvent
  | step (t : ThreadId) (e : StoredEffect)
  | restart

/-- A new process: nothing runs in it yet, and it has the latch that `attach_latch_store` finds. -/
structure Restarted (store : LatchStore) (disk : Disk Bytes) (io : LoadIo) (nowEpochMs : Int64)
    (g : StoredState) : Prop where
  start : SystemStart (StoredState.runtime g)
  files : ∀ t, (g.thread t).file = .idle
  kept : g.shared.disk = disk
  latch : ⟨g.shared.shared.latched, g.shared.latchedAtMs, g.shared.restoredReason⟩ =
    attachLatchStore store disk io nowEpochMs

/-- The steps of the processes. A process may be killed in any state. -/
inductive LifeStep (cfg : SystemConfig) (store : LatchStore) (g : StoredState) :
    LifeEvent → StoredState → Prop
  | step {t : ThreadId} {e : StoredEffect} {g' : StoredState}
      (h : (stored cfg store).lts.step g (t, e) g') : LifeStep cfg store g (.step t e) g'
  | restart (io : LoadIo) (nowEpochMs : Int64) {g' : StoredState}
      (h : Restarted store g.shared.disk io nowEpochMs g') : LifeStep cfg store g .restart g'

/-- The runtime, killed and started again any number of times. -/
def life (cfg : SystemConfig) (store : LatchStore) : Lts StoredState LifeEvent where
  step := LifeStep cfg store

abbrev LifeTrace := Trace StoredState LifeEvent

end Anolis.Runtime
