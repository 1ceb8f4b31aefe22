import Anolis.Proofs.LatchFile
import Anolis.Runtime.StoredLatch

/-!
# The latch file of a running controller

A thread works on the latch file only inside the controller's mutex (`FileSound`), so at most one
`save` or `remove` runs at a time. What the processes do with the file is then one history of
`storeMachine`: `history` shows of a state the disk and the work of the mutex's holder, and a run of
`life` is seen as a run of the store (`history_run`), a restart as a kill. So what is proved of the
histories of a latch file holds under the controller.
-/

namespace Anolis.Proofs.StoredHistory

open Anolis.Runtime Control LatchFile Lib Lib.Machine

variable {cfg : SystemConfig} {t : ThreadId} {store : LatchStore}

/-! ### The places where the controller works on the file -/

/-- The operation waits for its `save`. -/
def awaitsSave : Op → Bool
  | .trigger .save | .hold .save => true
  | _ => false

theorem locked_of_awaitsSave {op : Op} (h : awaitsSave op) : op.locked := by
  unfold awaitsSave at h
  split at h
  · rfl
  · rfl
  · cases h

section
variable {sh : Shared} {th th' : Thread} {e : Effect} {c : Choice}

theorem awaitsSave_callReturned (op : Op) (result : CallResult) :
    awaitsSave (op.callReturned result) = awaitsSave op := by
  unfold Op.callReturned
  split <;> rfl

theorem awaitsSave_modeReturned (op : Op) : awaitsSave op.modeReturned = awaitsSave op := by
  unfold Op.modeReturned
  split <;> rfl

theorem awaitsSave_step (h : ThreadStep cfg sh t th e th') (he : e ≠ .control .engage)
    (hth : awaitsSave th.op = false) : awaitsSave th'.op = false := by
  rcases h.op_cases with ⟨op, e', n, rfl, -, -, -, hop, hn⟩ | ⟨-, hop⟩
  · rw [hn]
    cases hop
    case start start hstart =>
      revert hstart
      fun_cases startOp cfg t start <;> intro hstart <;> cases hstart <;> rfl
    case triggerEngage | holdEngage => exact absurd rfl he
    all_goals rfl
  · rcases hop with hop | ⟨result, hop⟩ | hop
    · rw [hop, hth]
    · rw [hop, awaitsSave_callReturned, hth]
    · rw [hop, awaitsSave_modeReturned, hth]

theorem of_engage (h : ThreadStep cfg sh t th (.control .engage) th') :
    th.op.locked ∧ awaitsSave th'.op := by
  rcases h.op_cases with ⟨op, e', n, he, -, -, hth, hop, hn⟩ | ⟨hne, -⟩
  · cases he
    rw [hth, hn]
    cases hop <;> exact ⟨rfl, rfl⟩
  · exact absurd rfl (hne _)

theorem of_unlatch (h : ThreadStep cfg sh t th (.control .unlatch) th') :
    th.op.locked ∧ th'.op = .clear .unlock := by
  rcases h.op_cases with ⟨op, e', n, he, -, -, hth, hop, hn⟩ | ⟨hne, -⟩
  · cases he
    rw [hth, hn]
    cases hop
    exact ⟨rfl, rfl⟩
  · exact absurd rfl (hne _)

theorem of_awaitsSave (h : ThreadStep cfg sh t th e th') (hshaped : th.Shaped)
    (hth : awaitsSave th.op) :
    e = .control .silent ∧ th'.op.locked ∧ awaitsSave th'.op = false := by
  have hquiet : th.mode = none ∧ th.call = none := by
    unfold awaitsSave at hth
    split at hth
    case h_3 => cases hth
    all_goals
      rename_i hop
      exact hshaped.quiet (by rw [hop]; rfl) (by rw [hop]; rfl)
  cases h with
  | call hcall => simp [hquiet.2] at hcall
  | mode _ hmode => simp [hquiet.1] at hmode
  | op _ _ hop h =>
    rw [hop] at hth
    rw [Thread.op_withOp]
    cases h
    case triggerThrow | triggerSaved | holdThrow | holdSaved => exact ⟨rfl, rfl, rfl⟩
    all_goals cases hth

end

/-! ### A thread and its file -/

/-- A `save` runs where the operation waits for it, and a `remove` before `clear` gives the mutex
back. -/
def FileSound (w : StoredThread) : Prop :=
  match w.file with
  | .idle => awaitsSave w.th.op = false
  | .save _ _ _ => awaitsSave w.th.op
  | .remove _ => w.th.op = .clear .unlock

theorem FileSound.locked {w : StoredThread} (h : FileSound w) (hfile : w.file ≠ .idle) :
    w.th.op.locked := by
  unfold FileSound at h
  split at h
  · exact absurd ‹_› hfile
  · exact locked_of_awaitsSave h
  · rw [h]
    rfl

section
variable {disk disk' : Disk Bytes} {result : Option FileResult} {next : FileOp}

theorem of_saveStep {ms : Int64} {reason : Bytes} {pc : SavePc}
    (h : FileStep store disk (.save ms reason pc) disk' result next) :
    (result = none ∧ ∃ pc', next = .save ms reason pc') ∨
      (next = .idle ∧ ∃ outcome, result.bind saveOutcome = some outcome) := by
  cases h with
  | quiet h =>
    cases h with
    | threw | saveFails => exact .inr ⟨rfl, _, rfl⟩
    | _ => exact .inl ⟨rfl, _, rfl⟩
  | syncDir | discard => exact .inr ⟨rfl, _, rfl⟩
  | _ => exact .inl ⟨rfl, _, rfl⟩

theorem of_removeStep {pc : RemovePc} (h : FileStep store disk (.remove pc) disk' result next) :
    (next = .idle ∨ ∃ pc', next = .remove pc') ∧ result.bind saveOutcome = none := by
  cases h with
  | quiet h =>
    cases h
    exact ⟨.inl rfl, rfl⟩
  | unlink => exact ⟨.inr ⟨_, rfl⟩, rfl⟩
  | syncRemoved => exact ⟨.inl rfl, rfl⟩

theorem fileNext_idle {c : FileChoice} : fileNext store disk .idle c = none := rfl

end

section
variable {s : Stored} {w w' : StoredThread} {e : StoredEffect}

/-- The last step of a `save` has its operation waiting for it. -/
theorem awaitsSave_of_saved {c : FileChoice} {effect : FileEffect} {file : FileOp}
    {outcome : SaveOutcome} (hfile : fileNext store s.disk w.file c = some (effect, file))
    (hresult : effect.result.bind saveOutcome = some outcome) (hw : FileSound w) :
    awaitsSave w.th.op ∧ file = .idle := by
  have hstep := fileStep_of_next hfile
  unfold FileSound at hw
  split at hw
  · rename_i hidle
    rw [hidle, fileNext_idle] at hfile
    cases hfile
  · rename_i hsave
    rw [hsave] at hstep
    rcases of_saveStep hstep with ⟨hnone, -⟩ | ⟨hidle, -⟩
    · simp [hnone] at hresult
    · exact ⟨hw, hidle⟩
  · rename_i hremove
    rw [hremove] at hstep
    rw [(of_removeStep hstep).2] at hresult
    cases hresult

variable (h : StoredStep cfg store s t w e w') (hshaped : w.th.Shaped) (hw : FileSound w)
include h hshaped hw

theorem fileSound_step : FileSound w' := by
  cases h with
  | run hfile hnext hengage hunlatch =>
    rw [FileSound, hfile] at hw
    exact awaitsSave_step (threadStep_of_next hnext) hengage hw
  | engage now reason hfile hnext => exact (of_engage (threadStep_of_next hnext)).2
  | unlatch hfile hnext => exact (of_unlatch (threadStep_of_next hnext)).2
  | @file c effect file hfile hresult =>
    have hstep := fileStep_of_next hfile
    unfold FileSound at hw
    split at hw
    · rename_i hidle
      rw [hidle, fileNext_idle] at hfile
      cases hfile
    · rename_i hsave
      rw [hsave] at hstep
      rcases of_saveStep hstep with ⟨-, pc', rfl⟩ | ⟨-, outcome, hsome⟩
      · exact hw
      · simp [hresult] at hsome
    · rename_i hremove
      rw [hremove] at hstep
      rcases (of_removeStep hstep).1 with rfl | ⟨pc', rfl⟩
      · show awaitsSave w.th.op = false
        rw [hw]
        rfl
      · exact hw
  | saved hfile hresult hnext =>
    obtain ⟨hop, rfl⟩ := awaitsSave_of_saved hfile hresult hw
    exact (of_awaitsSave (threadStep_of_next hnext) hshaped hop).2.2

theorem locked_of_step (he : e.file ≠ .other) : w.th.op.locked ∧ w'.th.op.locked := by
  have hw' : FileSound w' := fileSound_step h hshaped hw
  cases h with
  | run => exact absurd rfl he
  | engage now reason hfile hnext =>
    exact ⟨(of_engage (threadStep_of_next hnext)).1, hw'.locked (by simp)⟩
  | unlatch hfile hnext => exact ⟨(of_unlatch (threadStep_of_next hnext)).1, hw'.locked (by simp)⟩
  | file hfile hresult =>
    have hlocked : w.th.op.locked := by
      refine hw.locked fun hidle => ?_
      rw [hidle, fileNext_idle] at hfile
      cases hfile
    exact ⟨hlocked, hlocked⟩
  | saved hfile hresult hnext =>
    obtain ⟨hop, -⟩ := awaitsSave_of_saved hfile hresult hw
    exact ⟨locked_of_awaitsSave hop, (of_awaitsSave (threadStep_of_next hnext) hshaped hop).2.1⟩

theorem latchedAt_step (hs : s.shared.latched ↔ s.latchedAtMs.isSome) :
    (s.apply t e).shared.latched ↔ (s.apply t e).latchedAtMs.isSome := by
  cases h with
  | run hfile hnext hengage hunlatch =>
    rw [show (s.apply t ⟨some _, .other⟩).latchedAtMs = s.latchedAtMs from rfl, ← hs]
    exact ⟨Shared.latched_of_apply hengage, Shared.latched_apply hunlatch⟩
  | engage => exact ⟨fun _ => rfl, fun _ => rfl⟩
  | unlatch => simp [Stored.apply, Shared.apply, Shared.applyControl]
  | file => exact hs
  | saved hfile hresult hnext =>
    obtain ⟨hop, -⟩ := awaitsSave_of_saved hfile hresult hw
    obtain ⟨rfl, -⟩ := of_awaitsSave (threadStep_of_next hnext) hshaped hop
    exact hs

end

/-- In every state of one process, every thread works on the file where its operation lets it. -/
theorem fileSound_run {g₀ g : StoredState} {tr : StoredTrace}
    (hstart : SystemStart (StoredState.runtime g₀)) (hfiles : ∀ t, (g₀.thread t).file = .idle)
    (h : Run (stored cfg store).lts g₀ tr g) : ∀ t, FileSound (g.thread t) := by
  refine Run.induct (J := fun _ g => ∀ t, FileSound (g.thread t)) ?_ ?_ h
  · intro t
    have hidle : (g₀.thread t).th = {} := hstart.idle t
    rw [FileSound, hfiles t, hidle]
    rfl
  · rintro tr g ⟨u, e⟩ g' hrun hg hstep t
    obtain ⟨hstep, -, hother⟩ := stored_step hstep
    rcases eq_or_ne t u with rfl | ht
    · exact fileSound_step hstep (shaped_run hstart (stored_refines_system hrun) t) (hg t)
    · rw [hother t ht]
      exact hg t

/-! ### What holds in every state -/

/-- A state to start in: a process in which nothing runs, over a disk with `data_dir`. -/
structure LifeStart (store : LatchStore) (g : StoredState) : Prop where
  start : SystemStart (StoredState.runtime g)
  files : ∀ t, (g.thread t).file = .idle
  latch : g.shared.shared.latched ↔ g.shared.latchedAtMs.isSome
  rooted : Rooted store g.shared.disk
  noLinks : g.shared.disk.NoLinks

structure LifeSound (g : StoredState) : Prop where
  lock : LockInv Shared.controllerLock Thread.holdsController (StoredState.runtime g)
  shaped : ∀ t, (g.thread t).th.Shaped
  files : ∀ t, FileSound (g.thread t)
  latch : g.shared.shared.latched ↔ g.shared.latchedAtMs.isSome

section
variable {g₀ g g' : StoredState} {tr : LifeTrace} {l : LifeEvent}

theorem lifeSound_of_start (hstart : SystemStart (StoredState.runtime g))
    (hfiles : ∀ t, (g.thread t).file = .idle)
    (hlatch : g.shared.shared.latched ↔ g.shared.latchedAtMs.isSome) : LifeSound g where
  lock t := by
    rw [hstart.idle t, hstart.controllerLock]
    simp [Thread.holdsController, Op.locked]
  shaped t := by
    have hidle : (g.thread t).th = {} := hstart.idle t
    rw [hidle]
    exact ⟨by simp, by simp⟩
  files t := by
    have hidle : (g.thread t).th = {} := hstart.idle t
    rw [FileSound, hfiles t, hidle]
    rfl
  latch := hlatch

theorem attached_latch (store : LatchStore) (disk : Disk Bytes) (io : LoadIo) (now : Int64) :
    (attachLatchStore store disk io now).latched ↔
      (attachLatchStore store disk io now).latchedAtMs.isSome := by
  simp only [attachLatchStore]
  split <;> simp

theorem LifeSound.step (hg : LifeSound g) (h : LifeStep cfg store g l g') : LifeSound g' := by
  cases h with
  | @step t e _ h =>
    obtain ⟨hstep, hshared, hother⟩ := stored_step h
    have hlock : LockInv Shared.controllerLock Thread.holdsController (StoredState.runtime g') := by
      rcases runtime_step h with ⟨-, heq⟩ | ⟨e', -, hsys⟩
      · rw [heq]
        exact hg.lock
      · exact Machine.lock_step
          (fun _ _ _ _ _ _ hn => (threadStep_of_next hn).controllerLock) hg.lock hsys
    refine ⟨hlock, fun u => ?_, fun u => ?_, ?_⟩
    · rcases eq_or_ne u t with rfl | hu
      · rcases hstep.runtime with ⟨-, hth⟩ | ⟨c, e', -, hnext⟩
        · rw [hth]
          exact hg.shaped u
        · exact (threadStep_of_next hnext).shaped (hg.shaped u)
      · rw [hother u hu]
        exact hg.shaped u
    · rcases eq_or_ne u t with rfl | hu
      · exact fileSound_step hstep (hg.shaped u) (hg.files u)
      · rw [hother u hu]
        exact hg.files u
    · rw [hshared]
      exact latchedAt_step hstep (hg.shaped t) (hg.files t) hg.latch
  | restart io now h =>
    refine lifeSound_of_start h.start h.files ?_
    have hlatch := attached_latch store g.shared.disk io now
    rwa [← h.latch] at hlatch

theorem lifeSound_run (h0 : LifeStart store g₀) (h : Run (life cfg store) g₀ tr g) : LifeSound g :=
  Run.induct (J := fun _ g => LifeSound g) (lifeSound_of_start h0.start h0.files h0.latch)
    (fun _ _ _ _ _ hg hstep => hg.step hstep) h

/-! ### The history of the file -/

/-- What is done with the latch file: the work of the mutex's holder. -/
def fileWork (g : StoredState) : FileOp :=
  match g.shared.shared.controllerLock with
  | none => .idle
  | some t => (g.thread t).file

def history (g : StoredState) : Global StoreState Unit where
  shared := { disk := g.shared.disk, op := fileWork g }
  thread _ := ()

def storeEvent : LifeEvent → StoreEvent
  | .step _ e => e.file
  | .restart => .killed

def historyStep (i : StoredState × LifeEvent) :
    Global StoreState Unit × ThreadId × StoreEvent :=
  (history i.1, 0, storeEvent i.2)

theorem fileWork_of_locked (hg : LifeSound g) (ht : (g.thread t).th.op.locked) :
    fileWork g = (g.thread t).file := by
  have howner : g.shared.shared.controllerLock = some t := (hg.lock t).mp ht
  rw [fileWork, howner]

theorem fileWork_congr (hg : LifeSound g) (hg' : LifeSound g')
    (hfiles : ∀ t, (g'.thread t).file = (g.thread t).file) : fileWork g' = fileWork g := by
  by_cases hwork : ∃ t, (g.thread t).file ≠ .idle
  · obtain ⟨t, ht⟩ := hwork
    have ht' : (g'.thread t).file ≠ .idle := by rwa [hfiles t]
    rw [fileWork_of_locked hg ((hg.files t).locked ht),
      fileWork_of_locked hg' ((hg'.files t).locked ht'), hfiles t]
  · have hidle : ∀ t, (g.thread t).file = .idle := by
      intro t
      by_contra ht
      exact hwork ⟨t, ht⟩
    have hnone : ∀ g : StoredState, (∀ t, (g.thread t).file = .idle) → fileWork g = .idle := by
      intro g hg
      unfold fileWork
      split
      · rfl
      · exact hg _
    rw [hnone g hidle, hnone g' fun t => (hfiles t).trans (hidle t)]

theorem store_step_of_next {s s' : Global StoreState Unit} {c : StoreChoice} {e : StoreEvent}
    (h : storeNext store s.shared c = some e) (hs : s'.shared = s.shared.apply store e) :
    (storeMachine store).lts.step s (t, e) s' := by
  have hnext : (storeMachine store).next s.shared t (s.thread t) c = some (e, ()) := by
    simp [storeMachine, h]
  exact Machine.step_of_next hnext hs rfl fun _ _ => rfl

theorem history_step (hg : LifeSound g) (h : LifeStep cfg store g l g') :
    (storeMachine store).lts.step (history g) (0, storeEvent l) (history g') := by
  have hg' : LifeSound g' := hg.step h
  cases h with
  | @step t e _ h =>
    obtain ⟨hstep, hshared, hother⟩ := stored_step h
    by_cases he : e.file = .other
    · have hfiles : ∀ u, (g'.thread u).file = (g.thread u).file := by
        intro u
        rcases eq_or_ne u t with rfl | hu
        · generalize hw' : g'.thread u = w' at hstep
          cases hstep with
          | run hfile => exact hfile.symm
          | engage | unlatch | file | saved => cases he
        · rw [hother u hu]
      have hdisk : g'.shared.disk = g.shared.disk := by rw [hshared, Stored.apply, he]
      refine store_step_of_next (c := .other) (by rw [storeEvent, he]; rfl) ?_
      rw [storeEvent, he]
      show StoreState.mk _ _ = StoreState.mk _ _
      rw [hdisk, fileWork_congr hg hg' hfiles]
    · obtain ⟨hlocked, hlocked'⟩ := locked_of_step hstep (hg.shaped t) (hg.files t) he
      have hbefore : fileWork g = (g.thread t).file := fileWork_of_locked hg hlocked
      have hafter : fileWork g' = (g'.thread t).file := fileWork_of_locked hg' hlocked'
      have hs' : (history g').shared = ⟨(g.shared.apply t e).disk, (g'.thread t).file⟩ := by
        rw [history, hafter, hshared]
      generalize hw' : g'.thread t = w' at hstep hs'
      cases hstep with
      | run => exact absurd rfl he
      | engage now reason hfile =>
        refine store_step_of_next (c := .save now reason) ?_ hs'
        simp [storeNext, history, hbefore, hfile, storeEvent]
      | unlatch hfile =>
        refine store_step_of_next (c := .remove) ?_ hs'
        simp [storeNext, history, hbefore, hfile, storeEvent]
      | @file c effect file hfile | @saved c effect file outcome e th hfile =>
        refine store_step_of_next (c := .file c) ?_ hs'
        simp [storeNext, history, hbefore, hfile, storeEvent]
  | restart io now h =>
    have hnone : g'.shared.shared.controllerLock = none := h.start.controllerLock
    refine store_step_of_next (c := .kill) rfl ?_
    show StoreState.mk g'.shared.disk (fileWork g') = ⟨g.shared.disk, .idle⟩
    rw [h.kept, fileWork, hnone]

theorem history_run (h0 : LifeStart store g₀) (h : Run (life cfg store) g₀ tr g) :
    Run (storeMachine store).lts (history g₀) (tr.map historyStep) (history g) := by
  rw [← List.filterMap_eq_map]
  refine Run.refines ?_ ?_ h
  · intro tr g l g' hrun hstep hview
    cases hview
  · intro tr g l g' j hrun hstep hview
    cases hview
    exact ⟨rfl, history_step (lifeSound_run h0 hrun) hstep⟩

theorem history_start (h0 : LifeStart store g₀) : StoreStart store (history g₀) := by
  refine ⟨h0.rooted, ?_⟩
  have hnone : g₀.shared.shared.controllerLock = none := h0.start.controllerLock
  show fileWork g₀ = .idle
  rw [fileWork, hnone]

end

end Anolis.Proofs.StoredHistory
