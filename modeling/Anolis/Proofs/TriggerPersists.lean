import Anolis.Proofs.EstopBarrier
import Anolis.Proofs.LadderRun
import Anolis.Proofs.LatchPowerLoss
import Anolis.Proofs.StoredHistory

/-!
# The latch store between the latch and the ladder

A `trigger` saves its latch before it runs the ladder. Every failure of the store that `save`
reports is logged and the ladder runs, but `save` makes its text with `dump`, which throws where a
string is not UTF-8. So with a config directory and a reason that are UTF-8, a trigger runs its rung
and requests FAULT whatever the file system does (`trigger_runs_its_rung`), and with a reason that
is not it does neither (`unreadable_reason_stops_the_trigger`).
-/

namespace Anolis.Proofs.TriggerPersists

open Anolis.Runtime Control LadderRun LatchFile Lib StoredHistory

/-- A state to start in: a process in which nothing runs, over any disk. -/
structure StoredStart (g : StoredState) : Prop where
  start : SystemStart (StoredState.runtime g)
  files : ∀ t, (g.thread t).file = .idle

/-- A step in which the trigger of `t` plans its rung. -/
def Plans (t : ThreadId) (i : SystemState × ThreadId × Effect) : Prop :=
  i.2.1 = t ∧ (i.1.thread t).op = .trigger (.ladder .plan)

/-- The trigger of `t` is in its `save`, or is about to plan its rung, or has planned it. -/
def PlanDue (t : ThreadId) (ms : Int64) (reason : Bytes) (tr : StoredTrace) (s : StoredState) :
    Prop :=
  (∃ pc, (s.thread t).th.op = .trigger .save ∧ (s.thread t).file = .save ms reason pc) ∨
    (s.thread t).th.op = .trigger (.ladder .plan) ∨
    ∃ k ∈ tr.filterMap storedRuntimeStep?, Plans t k

section
variable {cfg : SystemConfig} {store : LatchStore} {t : ThreadId} {ms : Int64} {reason : Bytes}
  {g₀ g s s' : StoredState} {tr tr₁ tr₂ : StoredTrace} {l : ThreadId × StoredEffect}
  {outcome : SaveOutcome}

theorem outcome_ne_threw {effect : FileEffect} {c : FileChoice} {file : FileOp} {pc : SavePc}
    (hdir : Utf8.valid store.configDir) (hreason : Utf8.valid reason)
    (hfile : fileNext store s.shared.disk (.save ms reason pc) c = some (effect, file))
    (hresult : effect.result.bind saveOutcome = some outcome) : outcome ≠ .threw := by
  rintro rfl
  have hthrew : effect.result = some .threw := by
    obtain ⟨result, hsome, hout⟩ := Option.bind_eq_some_iff.mp hresult
    cases result with
    | saved ok error => cases ok <;> cases hout
    | threw => exact hsome
    | removed => cases hout
  have hstep := fileStep_of_next hfile
  rw [hthrew] at hstep
  generalize effect.apply s.shared.disk = disk' at hstep
  cases hstep with
  | quiet h =>
    cases h with
    | threw _ _ _ hdump =>
      rw [dump_record, hdir, hreason] at hdump
      cases hdump

/-- A trigger whose `save` returned goes on with the ladder. -/
theorem plan_of_saved {sh : Shared} {th th' : Thread} {e : Effect}
    (h : th.next cfg sh t (.save outcome) = some (e, th')) (hshaped : th.Shaped)
    (hop : th.op = .trigger .save) (houtcome : outcome ≠ .threw) :
    th'.op = .trigger (.ladder .plan) := by
  obtain ⟨hmode, hcall⟩ := hshaped.quiet (by rw [hop]; rfl) (by rw [hop]; rfl)
  simp only [Thread.next, hmode, hcall, hop, opNext] at h
  obtain ⟨r, hnext, heq⟩ := Option.map_eq_some_iff.mp h
  cases outcome with
  | threw => exact absurd rfl houtcome
  | saved | failed =>
    cases hnext
    cases heq
    rfl

theorem planDue_step (hdir : Utf8.valid store.configDir)
    (hreason : Utf8.valid reason) (hshaped : (s.thread t).th.Shaped)
    (hsound : FileSound (s.thread t)) (hstep : (stored cfg store).lts.step s l s')
    (hdue : PlanDue t ms reason tr s) : PlanDue t ms reason (tr ++ [(s, l)]) s' := by
  obtain ⟨u, e⟩ := l
  obtain ⟨hstored, -, hother⟩ := stored_step hstep
  unfold PlanDue
  rw [List.filterMap_append]
  rcases hdue with hsave | hplan | ⟨k, hk, hplans⟩
  · rcases eq_or_ne t u with rfl | hu
    · obtain ⟨pc, hop, hfile⟩ := hsave
      generalize s'.thread t = w' at hstored
      cases hstored with
      | run hidle | engage _ _ hidle | unlatch hidle => simp [hidle] at hfile
      | file hnext hresult =>
        rw [hfile] at hnext
        rcases of_saveStep (fileStep_of_next hnext) with ⟨-, pc', rfl⟩ | ⟨-, outcome, hsome⟩
        · exact .inl ⟨pc', hop, rfl⟩
        · rw [hresult] at hsome
          cases hsome
      | saved hnext hresult hth =>
        rw [hfile] at hnext
        have houtcome := outcome_ne_threw hdir hreason hnext hresult
        exact .inr (.inl (plan_of_saved hth hshaped hop houtcome))
    · rw [hother t hu]
      exact .inl hsave
  · rcases eq_or_ne t u with rfl | hu
    · -- outside its `save`, a step of the thread is one of its operation
      have hidle : (s.thread t).file = .idle := by
        by_contra hne
        unfold FileSound at hsound
        split at hsound
        · exact hne ‹_›
        all_goals
          rw [hplan] at hsound
          cases hsound
      obtain ⟨e', hruntime⟩ : ∃ e', e.runtime = some e' := by
        generalize s'.thread t = w' at hstored
        cases hstored with
        | run | engage | unlatch => exact ⟨_, rfl⟩
        | file hnext | saved hnext =>
          rw [hidle, fileNext_idle] at hnext
          cases hnext
      refine .inr (.inr ⟨(StoredState.runtime s, t, e'), ?_, rfl, hplan⟩)
      exact List.mem_append_right _ (by simp [storedRuntimeStep?, hruntime])
    · rw [hother t hu]
      exact .inr (.inl hplan)
  · exact .inr (.inr ⟨k, List.mem_append_left _ hk, hplans⟩)

/-- A run of one process, seen as one of the runtime and cut at a step of it. -/
theorem runtime_cut {k : SystemState × ThreadId × Effect}
    (h : Run (stored cfg store).lts g₀ (tr₁ ++ tr₂) g) (hk : k ∈ tr₂.filterMap storedRuntimeStep?) :
    ∃ before after, tr₂.filterMap storedRuntimeStep? = before ++ k :: after ∧
      SystemRun cfg (StoredState.runtime g₀)
        ((tr₁.filterMap storedRuntimeStep? ++ before) ++ k :: after) (StoredState.runtime g) := by
  obtain ⟨before, after, hcut⟩ := List.append_of_mem hk
  refine ⟨before, after, hcut, ?_⟩
  have hrun := stored_refines_system h
  rwa [List.filterMap_append, hcut, ← List.append_assoc] at hrun

theorem RungRun.mono {s : SystemState} {tr tr' : SystemTrace} (hsub : tr ⊆ tr')
    (h : RungRun cfg t s tr) : RungRun cfg t s tr' := by
  obtain ⟨⟨m, hm, hmt, hmop, hcalls⟩, hfault⟩ := h
  refine ⟨⟨m, hsub hm, hmt, hmop, fun c hc request hrequest => ?_⟩, fun henabled => ?_⟩
  · obtain ⟨k, hk, hissues⟩ := hcalls c hc request hrequest
    exact ⟨k, hsub hk, hissues⟩
  · obtain ⟨k, hk, hrequests⟩ := hfault henabled
    exact ⟨k, hsub hk, hrequests⟩

/-- With a config directory and a reason that are UTF-8, a trigger that is about to return has
planned its rung, issued every call of it and, on an automation machine, requested FAULT, whatever
became of its latch file. -/
theorem trigger_runs_its_rung {i : StoredState × ThreadId × StoredEffect} (h0 : StoredStart g₀)
    (h : Run (stored cfg store).lts g₀ (tr₁ ++ i :: tr₂) g)
    (hengage : i.2 = (t, ⟨some (.control .engage), .save ms reason⟩))
    (htrigger : (i.1.thread t).th.op = .trigger .engage)
    (hdir : Utf8.valid store.configDir) (hreason : Utf8.valid reason)
    (hreturn : (g.thread t).th.op = .trigger .unlock) :
    ∃ k ∈ tr₂.filterMap storedRuntimeStep?, Plans t k ∧
      RungRun cfg t k.1 (tr₂.filterMap storedRuntimeStep?) := by
  obtain ⟨s₀, l⟩ := i
  obtain rfl := hengage
  have hdue : PlanDue t ms reason tr₂ g := by
    refine Run.after_step (T := (stored cfg store).lts)
      (K := fun behind g => PlanDue t ms reason behind g) ?_ ?_ h
    · intro s' hrun hstep
      obtain ⟨hstored, -⟩ := stored_step hstep
      generalize hw : s'.thread t = w' at hstored
      cases hstored with
      | engage _ _ hfile hnext =>
        refine Or.inl ⟨.createDir, ?_, by rw [hw]⟩
        rw [hw]
        rcases (threadStep_of_next hnext).op_cases with ⟨op, e', n, he, -, -, hop, hstep, hn⟩ |
            ⟨hne, -⟩
        · obtain rfl := htrigger.symm.trans hop
          cases he
          cases hstep with
          | triggerEngage => exact hn
        · exact absurd rfl (hne _)
    · intro tr s l s' behind hrun hstep hk
      exact planDue_step hdir hreason (shaped_run h0.start (stored_refines_system hrun) t)
        (fileSound_run h0.start h0.files hrun t) hstep hk
  rcases hdue with ⟨pc, hop, -⟩ | hop | ⟨k, hk, hkt, hkop⟩
  · rw [hreturn] at hop
    cases hop
  · rw [hreturn] at hop
    cases hop
  · have hcut : Run (stored cfg store).lts g₀
        ((tr₁ ++ [(s₀, t, ⟨some (.control .engage), .save ms reason⟩)]) ++ tr₂) g := by
      rwa [List.append_assoc]
    obtain ⟨before, after, hsplit, hrun⟩ := runtime_cut hcut hk
    have hdone : RungRun cfg t k.1 after := rung_run h0.start hrun hkt hkop hreturn
    refine ⟨k, hk, ⟨hkt, hkop⟩, RungRun.mono ?_ hdone⟩
    rw [hsplit]
    intro j hj
    exact List.mem_append_right _ (List.mem_cons_of_mem _ hj)

end

/-! ### A valve to close -/

open EstopBarrier (valveWorld valveWorld_start)
open LatchPowerLoss (simStore emptyData)

/-- The e-stop closes the valve and enters FAULT. -/
def closeConfig : SystemConfig where
  automation := { enabled := true }
  safety := { safeState := { hooks := [{ deviceHandle := "sim0/valve", functionName :=
    "close" }] } }

def closeWorld : StoredState where
  shared := { shared := (valveWorld .manual).shared, disk := emptyData.shared.disk }
  thread _ := {}

theorem closeWorld_start : StoredStart closeWorld :=
  ⟨valveWorld_start .manual, fun _ => rfl⟩

/-- A step of thread 1 that engages the latch with the time and the reason. -/
def engagesWith (ms : Int64) (reason : Bytes) : ThreadId × StoredEffect → Bool
  | (1, ⟨some (.control .engage), .save ms' reason'⟩) => ms' = ms && reason' = reason
  | _ => false

theorem of_engagesWith {ms : Int64} {reason : Bytes} {l : ThreadId × StoredEffect}
    (h : engagesWith ms reason l) : l = (1, ⟨some (.control .engage), .save ms reason⟩) := by
  unfold engagesWith at h
  split at h
  · obtain ⟨hms, hreason⟩ := Bool.and_eq_true_iff.mp h
    rw [of_decide_eq_true hms, of_decide_eq_true hreason]
  · cases h

/-- Thread 1 calls `trigger` and takes the mutex. -/
def triggerLocks : List (ThreadId × StoredChoice) := [(1, .run (.start .trigger)), (1, .run .go)]

/-- The disk refuses the directory; the trigger closes the valve and enters FAULT. -/
def closesValve : List (ThreadId × StoredChoice) :=
  [(1, .engage 0 (ascii "button")), (1, .file (.failed (ascii "no space")))] ++
    List.replicate 5 (1, .run .go) ++ [(1, .run (.found true)), (1, .run (.available true))] ++
    List.replicate 10 (1, .run .go) ++ [(1, .run (.reply (.ok SortedMap.empty)))] ++
    List.replicate 17 (1, .run .go)

/-- A trigger that cannot save its latch runs its rung. -/
theorem trigger_runs_its_rung_unsaved :
    ∃ tr₁ i tr₂ g, Run (stored closeConfig simStore).lts closeWorld (tr₁ ++ i :: tr₂) g ∧
      ∃ k ∈ tr₂.filterMap storedRuntimeStep?, Plans 1 k ∧
        RungRun closeConfig 1 k.1 (tr₂.filterMap storedRuntimeStep?) := by
  obtain ⟨tr₁, g₁, tr₂, g, hrun₁, hrun₂, hp⟩ := Machine.runs_of_passesThen
    (stored closeConfig simStore) closeWorld triggerLocks closesValve
    (fun _ _ tr₂ g => (∃ i ∈ tr₂.head?, engagesWith 0 (ascii "button") i.2 ∧
      (i.1.thread 1).th.op.triggerAt? = some .engage) ∧
      (g.thread 1).th.op.triggerAt? = some .unlock) (by decide)
  obtain ⟨⟨i, hi, hengage, hat⟩, hunlock⟩ := hp
  have hrun := hrun₁.append hrun₂
  rw [← List.cons_head?_tail hi] at hrun
  exact ⟨tr₁, i, tr₂.tail, g, hrun, trigger_runs_its_rung closeWorld_start hrun
    (of_engagesWith hengage) (Op.eq_of_triggerAt? hat) (by decide) (by decide)
    (Op.eq_of_triggerAt? hunlock)⟩

/-- The reason is a byte that is no UTF-8. -/
def throwsInSave : List (ThreadId × StoredChoice) :=
  (1, .engage 0 [0xFF]) :: List.replicate 3 (1, .file .ok)

def inLadder : Op → Bool
  | .trigger (.ladder _) => true
  | _ => false

def isControl : Effect → Bool
  | .control _ => true
  | _ => false

/-- A step outside the ladder that makes no call and sets no mode does nothing of the rung. -/
theorem of_outsideLadder {i : SystemState × ThreadId × Effect}
    (hop : inLadder (i.1.thread 1).op = false) (he : isControl i.2.2) :
    ¬ Plans 1 i ∧ (∀ request, ¬ Issues 1 request i) ∧ ¬ RequestsFault 1 i := by
  refine ⟨?_, ?_, ?_⟩
  · rintro ⟨-, hplan⟩
    rw [hplan] at hop
    cases hop
  · rintro request ⟨e', c, rest, result, -, -, hcalling⟩
    rw [hcalling] at hop
    cases hop
  · rintro ⟨shown, hlabel⟩
    rw [hlabel] at he
    cases he

/-- A trigger whose reason is not UTF-8 leaves through the exception of `dump`: the valve is not
closed and FAULT is not requested. -/
theorem unreadable_reason_stops_the_trigger : ∃ tr₁ i tr₂ g, StoredStart closeWorld ∧
      Run (stored closeConfig simStore).lts closeWorld (tr₁ ++ i :: tr₂) g ∧
      i.2 = (1, ⟨some (.control .engage), .save 0 [0xFF]⟩) ∧
      (i.1.thread 1).th.op = .trigger .engage ∧ (g.thread 1).th.op = .trigger .unlock ∧
      (rungCalls (plannedSafeStateKind closeWorld.shared.shared.registry closeConfig.safety)
        closeWorld.shared.shared.registry closeConfig.safety).length = 1 ∧
      closeConfig.automation.enabled ∧
      ∀ k ∈ tr₂.filterMap storedRuntimeStep?,
        ¬ Plans 1 k ∧ (∀ request, ¬ Issues 1 request k) ∧ ¬ RequestsFault 1 k := by
  obtain ⟨tr₁, g₁, tr₂, g, hrun₁, hrun₂, hp⟩ := Machine.runs_of_passesThen
    (stored closeConfig simStore) closeWorld triggerLocks throwsInSave
    (fun _ _ tr₂ g => (∃ i ∈ tr₂.head?, engagesWith 0 [0xFF] i.2 ∧
      (i.1.thread 1).th.op.triggerAt? = some .engage) ∧
      (g.thread 1).th.op.triggerAt? = some .unlock ∧
      ∀ i ∈ tr₂.tail.filterMap storedRuntimeStep?,
        inLadder (i.1.thread 1).op = false ∧ isControl i.2.2) (by decide)
  obtain ⟨⟨i, hi, hengage, hat⟩, hunlock, hall⟩ := hp
  have hrun := hrun₁.append hrun₂
  rw [← List.cons_head?_tail hi] at hrun
  exact ⟨tr₁, i, tr₂.tail, g, closeWorld_start, hrun, of_engagesWith hengage,
    Op.eq_of_triggerAt? hat, Op.eq_of_triggerAt? hunlock, rfl, rfl,
    fun k hk => of_outsideLadder (hall k hk).1 (hall k hk).2⟩

end Anolis.Proofs.TriggerPersists
