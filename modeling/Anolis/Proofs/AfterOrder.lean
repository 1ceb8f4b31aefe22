import Anolis.Proofs.EstopBarrier
import Anolis.Proofs.ModeManager

/-!
# In which order the after-callbacks run

The after-callbacks run without the mode lock, on the thread that committed. So they are ordered
with those of another transition only if the threads are: `after_effects_overtaken` is a run in
which the hooks of `MANUAL -> AUTO` are dispatched after those of a later `AUTO -> FAULT`, and the
last notification says AUTO in FAULT.

`after_effects_in_order` is what holds.
-/

namespace Anolis.Proofs.AfterOrder

open Anolis.Runtime Automation Control EstopBarrier Lib ModeManager

/-! ### The after-callbacks of one call -/

/-- The start or the end of an after-callback. -/
def isAfterEvent : ModeEffect → Bool
  | .afterStarted _ _ _ | .afterFinished _ _ _ => true
  | _ => false

/-- The starts and the ends of after-callbacks in the log of a call. -/
def afterEvents (log : List ModeEffect) : List ModeEffect := log.filter isAfterEvent

/-- The callbacks run one after the other, each to its end. -/
def ranEvents (callbacks : List AfterCallback) (prev new : RuntimeMode) : List ModeEffect :=
  callbacks.flatMap fun callback =>
    [.afterStarted callback prev new, .afterFinished callback prev new]

theorem afterEvents_append (l l' : List ModeEffect) :
    afterEvents (l ++ l') = afterEvents l ++ afterEvents l' :=
  List.filter_append ..

theorem ranEvents_snoc (ran : List AfterCallback) (callback : AfterCallback)
    (prev new : RuntimeMode) : ranEvents (ran ++ [callback]) prev new = ranEvents ran prev new ++
      [.afterStarted callback prev new, .afterFinished callback prev new] := by
  simp [ranEvents]

/-- What the log of a call holds of after-callbacks, by its place. -/
def AfterLog (cb : Callbacks) (m : SetMode) (log : List ModeEffect) : Prop :=
  match m.pc with
  | .enter => True
  | .after prev rest =>
    ∃ ran, cb.after = ran ++ rest ∧ afterEvents log = ranEvents ran prev m.new
  | .inAfter prev callback rest =>
    ∃ ran, cb.after = ran ++ callback :: rest ∧
      afterEvents log = ranEvents ran prev m.new ++ [.afterStarted callback prev m.new]
  | .afterHook prev hooks _ rest =>
    ∃ ran, cb.after = ran ++ .hooks hooks :: rest ∧
      afterEvents log = ranEvents ran prev m.new ++ [.afterStarted (.hooks hooks) prev m.new]
  | .done _ => ∀ prev, logCommits log = [(prev, m.new)] →
      afterEvents log = ranEvents cb.after prev m.new
  | _ => afterEvents log = []

section
variable {cfg : SystemConfig} {sh : Shared} {t : ThreadId} {new prev : RuntimeMode}
  {pc pc' : SetModePc} {c : Choice} {e : ModeEffect} {n : SetModeNext}
  {log : List ModeEffect}

theorem afterEvents_record (he : e.isEntry = false) :
    afterEvents (record log e) = afterEvents log ++ afterEvents [e] := by
  simp [record, he, afterEvents]

theorem afterEvents_record_nil (he : isAfterEvent e = false) (h : afterEvents log = []) :
    afterEvents (record log e) = [] := by
  unfold record
  split
  · simp [afterEvents, he]
  · rw [afterEvents_append, h]
    simp [afterEvents, he]

theorem isAfterEvent_of_hook {run : HookRun} {hn : HookNext}
    (h : run.step sh t new = some (e, hn)) : isAfterEvent e = false := by
  obtain rfl | ⟨request, rfl | rfl⟩ := run.step_effect h <;> rfl

theorem afterLog_of_nil (cb : Callbacks) (hevents : afterEvents log = [])
    (hcommits : logCommits log = []) (hpc : afterRest? pc = none) : AfterLog cb ⟨new, pc⟩ log := by
  cases pc with
  | enter => trivial
  | after | inAfter | afterHook => cases hpc
  | done ok =>
    intro prev hprev
    rw [hcommits] at hprev
    cases hprev
  | _ => exact hevents

theorem afterLog_uncommitted (cb : Callbacks) (e : ModeEffect) (he : isAfterEvent e = false)
    (hcommit : commit? e = none) (hlog : afterEvents log = [])
    (hcommits : logCommits log = []) (hpc : afterRest? pc = none) :
    AfterLog cb ⟨new, pc⟩ (record log e) :=
  afterLog_of_nil cb (afterEvents_record_nil he hlog)
    (logCommits_record_nil hcommit hcommits) hpc

theorem afterLog_step (h : SetModeStep cfg sh t new c pc e n)
    (hcommit : CommitLog ⟨new, pc⟩ log) (hpc : AfterLog cfg.callbacks ⟨new, pc⟩ log)
    (hn : n.pc? = some pc') : AfterLog cfg.callbacks ⟨new, pc'⟩ (record log e) := by
  cases h
  case ret => cases hn
  all_goals cases hn
  case enter => exact afterLog_of_nil _ rfl rfl (afterRest?_entered _)
  case beforeAnswer | beforeHookEnd =>
    exact afterLog_uncommitted _ _ rfl rfl hpc hcommit (afterRest?_answered _ _ _)
  case recheck => exact afterLog_uncommitted _ _ rfl rfl hpc hcommit (afterRest?_rechecked _ _)
  case beforeHookGo hrun | beforeHookCall hrun =>
    exact afterLog_uncommitted _ _ (isAfterEvent_of_hook hrun)
      (commit?_of_hook hrun).2 hpc hcommit rfl
  case beforeEnd | beforeHooks | relock | guardAccepts | guardRejects | release =>
    exact afterLog_uncommitted _ _ rfl rfl hpc hcommit rfl
  case commit prev => exact ⟨[], rfl, afterEvents_record_nil rfl hpc⟩
  case afterEnd prev =>
    obtain ⟨ran, hran, hlog⟩ := hpc
    rw [List.append_nil] at hran
    intro prev' hprev
    -- the only commit of the log is the one the after-callbacks were given
    rw [logCommits_record, show logCommits log = [(prev, new)] from hcommit] at hprev
    obtain ⟨rfl, -⟩ := Prod.mk.inj (List.head_eq_of_cons_eq hprev)
    rw [afterEvents_record rfl, hlog, hran]
    exact List.append_nil _
  case afterHooks prev hooks rest | afterStart prev callback rest hcb =>
    obtain ⟨ran, hran, hlog⟩ := hpc
    exact ⟨ran, hran, by rw [afterEvents_record rfl, hlog]; rfl⟩
  case afterFinish prev callback rest =>
    obtain ⟨ran, hran, hlog⟩ := hpc
    refine ⟨ran ++ [callback], by simp [hran], ?_⟩
    rw [afterEvents_record rfl, hlog, ranEvents_snoc, List.append_assoc]
    rfl
  case afterHookEnd prev hooks run rest e ok hrun =>
    obtain ⟨ran, hran, hlog⟩ := hpc
    refine ⟨ran ++ [.hooks hooks], by simp [hran], ?_⟩
    rw [afterEvents_record rfl, hlog, ranEvents_snoc, List.append_assoc]
    rfl
  case afterHookGo hrun | afterHookCall hrun =>
    obtain ⟨ran, hran, hlog⟩ := hpc
    refine ⟨ran, hran, ?_⟩
    rw [afterEvents_record (commit?_of_hook hrun).1, hlog]
    simp [afterEvents, isAfterEvent_of_hook hrun]

theorem afterLog_callReturned (cb : Callbacks) (m : SetMode) (result : CallResult)
    (h : AfterLog cb m log) : AfterLog cb (m.callReturned result) log := by
  unfold SetMode.callReturned
  split
  case h_3 => exact h
  all_goals
    rename_i hpc
    simpa [AfterLog, hpc] using h

end

variable {g₀ g : SystemState} {tr : SystemTrace}

/-- In every state of a run, the log of every running `set_mode` holds the after-callbacks of its
place. -/
theorem afterLog_run {cfg : SystemConfig} (h0 : SystemStart g₀) (h : SystemRun cfg g₀ tr g) :
    ∀ t m, (g.thread t).mode = some m → AfterLog cfg.callbacks m (callLog t tr) :=
  call_induct h0 (C := fun _ _ => True) (K := fun _ m log => AfterLog cfg.callbacks m log)
    (fun _ _ _ => trivial)
    (fun _ _ t _ _ _ _ _ _ hrun _ hm _ hs hn hK =>
      afterLog_step hs (commitLog_run h0 hrun t _ hm) hK hn)
    (fun _ m result _ hK => afterLog_callReturned _ m result hK) h (fun _ _ => trivial)

/-! ### A call that has returned is over -/

/-- After a return, whatever a thread has done in a `set_mode` it has done since. -/
theorem callTrace_since_return {cfg : SystemConfig} {tr₁ tr₂ : SystemTrace}
    {s : SystemState} {t : ThreadId} {new : RuntimeMode} {ok : Bool}
    (h : SystemRun cfg g₀ (tr₁ ++ (s, t, .mode (.returned new ok)) :: tr₂) g) {m : SetMode}
    (hm : (g.thread t).mode = some m) (hpc : m.pc ≠ .enter) :
    ∀ i ∈ callTrace t (tr₁ ++ (s, t, .mode (.returned new ok)) :: tr₂), i ∈ tr₂ := by
  obtain ⟨-, s₁, hret, hrun⟩ := h.at_step
  refine Run.induct (J := fun tr g => ∀ m, (g.thread t).mode = some m → m.pc ≠ .enter →
    ∀ i ∈ callTrace t (tr₁ ++ (s, t, .mode (.returned new ok)) :: tr), i ∈ tr) ?_ ?_ hrun m hm hpc
  · -- the step that returns leaves the thread outside of `set_mode`
    intro m hm
    obtain ⟨th', hth, hts, -⟩ := system_step hret
    rw [hth] at hm
    rcases hts.mode_cases hm with ⟨-, -, e', he⟩ | ⟨pc, c, e', n, he, -, -, hs, hn⟩ | ⟨⟨e', he⟩, -⟩
    · cases he
    · obtain rfl := Effect.mode.inj he
      obtain ⟨-, rfl⟩ := hs.of_returned
      cases hs
      cases hn
    · cases he
  · rintro tr g ⟨u, e⟩ g' - ih hstep m hm hpc i hi
    obtain ⟨th', hth, hts, -, hother⟩ := system_step hstep
    rw [← List.cons_append, ← List.append_assoc, callTrace, sinceLast_snoc] at hi
    split at hi
    · exact List.mem_append_right _ hi
    · rename_i hentry
      -- the call was past its entry before the step, so all of it is in `tr`
      rcases List.mem_append.mp hi with hold | hnew
      swap
      · exact List.mem_append_right _ hnew
      refine List.mem_append_left _ ?_
      rcases eq_or_ne t u with rfl | htu
      · rw [hth] at hm
        rcases hts.mode_cases hm with ⟨-, henter, -⟩ | ⟨pc, c, e', n, rfl, -, hm₀, hs, -⟩ |
          ⟨-, hm₀ | ⟨m₀, result, hm₀, rfl⟩⟩
        · exact absurd henter hpc
        · refine ih _ hm₀ (fun henter => hentry ?_) i hold
          obtain rfl : pc = .enter := henter
          simp [hs.isEntry_of_enter]
        · exact ih m hm₀ hpc i hold
        · exact ih m₀ hm₀ (fun henter => hpc (SetMode.callReturned_enter result henter)) i hold
      · rw [hother t htu] at hm
        exact ih m hm hpc i hold

/-! ### The last notification -/

/-- The mode that a step notifies the listeners of. -/
def notified? (i : Item) : Option RuntimeMode :=
  match i.2.2 with
  | .mode (.afterFinished .notify _ new) => some new
  | _ => none

/-- The notifications of a run, in order. -/
def notifications (tr : SystemTrace) : List RuntimeMode := tr.filterMap notified?

/-- The condition on a step: it commits no transition while the after-callbacks of another one
are running. -/
def Serial (s : SystemState) (l : ThreadId × Effect) : Prop :=
  ∀ prev new, l.2 = .mode (.commit prev new) → ∀ t, afterWork (s.thread t) = none

/-- Where the notifications of a run stand: one thread has after-callbacks to finish, and its
mode is the last notified unless the notification is among them; or no thread has. -/
inductive Notified (tr : SystemTrace) (g : SystemState) : Prop
  | running (t : ThreadId) (rest : List AfterCallback)
      (hwork : afterWork (g.thread t) = some (g.shared.mode, rest))
      (hothers : ∀ u, u ≠ t → afterWork (g.thread u) = none)
      (hlast : .notify ∉ rest → (notifications tr).getLast? = some g.shared.mode)
  | quiet (hnone : ∀ u, afterWork (g.thread u) = none)
      (hlast : commits tr ≠ [] → (notifications tr).getLast? = some g.shared.mode)

/-- The thread with after-callbacks to finish is the one that is running. -/
theorem Notified.of_work (h : Notified tr g) {t : ThreadId}
    {new : RuntimeMode} {rest : List AfterCallback}
    (hwork : afterWork (g.thread t) = some (new, rest)) :
    new = g.shared.mode ∧ (∀ u, u ≠ t → afterWork (g.thread u) = none) ∧
      (.notify ∉ rest → (notifications tr).getLast? = some g.shared.mode) := by
  cases h with
  | running t' rest' hwork' hothers hlast =>
    obtain rfl : t = t' := by
      by_contra htt
      rw [hothers t htt] at hwork
      cases hwork
    cases hwork.symm.trans hwork'
    exact ⟨rfl, hothers, hlast⟩
  | quiet hnone =>
    rw [hnone t] at hwork
    cases hwork

theorem notified?_eq_none {t : ThreadId} {e : Effect}
    (h : ∀ callback prev new, e ≠ .mode (.afterFinished callback prev new)) :
    notified? (g, t, e) = none := by
  unfold notified?
  split
  · rename_i he
    exact absurd he (h _ _ _)
  · rfl

/-- In a serial run, the last notification names the mode, up to the after-callbacks that are
left. -/
theorem notified_run {cfg : SystemConfig} (hnotify : .notify ∈ cfg.callbacks.after)
    (h0 : SystemStart g₀) (h : SystemRun cfg g₀ tr g)
    (hserial : ∀ i ∈ tr, Serial i.1 i.2) : Notified tr g := by
  refine Run.induct_of (C := Serial) (J := Notified) ?_ ?_ h hserial
  · exact .quiet (fun u => by rw [h0.idle]; rfl) (fun h => absurd rfl h)
  · rintro tr g ⟨t, e⟩ g' - - ih hserial hstep
    obtain ⟨th', hth, hts, hsh, hother⟩ := system_step hstep
    have hmode : g'.shared.mode = (g.shared.apply t e).mode := by rw [hsh]
    -- an effect other than a commit leaves the mode and the commits
    have hkeep : (∀ prev new, e ≠ .mode (.commit prev new)) →
        g'.shared.mode = g.shared.mode ∧ commits (tr ++ [(g, t, e)]) = commits tr := by
      intro hne
      refine ⟨?_, by simp [commits, stepCommit?_eq_none hne]⟩
      rcases hts.mode_eq with ⟨hsame, -⟩ | ⟨prev, new, he, -⟩
      · rw [hmode, hsame]
      · exact absurd he (hne prev new)
    rcases ThreadStep.afterWork_cases hts with ⟨prev, new, rfl, hwork⟩ |
      ⟨callback, prev, new, rest, rfl, hwork, hwork'⟩ | ⟨new, rfl, hwork, hwork'⟩ |
      ⟨hsame, hcommit, hfinished⟩
    · -- a commit: nothing else is running, and the notification is still to come
      have hnone : ∀ u, afterWork (g.thread u) = none := hserial prev new rfl
      refine .running t cfg.callbacks.after ?_ (fun u hu => ?_) (fun h => absurd hnotify h)
      · rw [hth, hwork, hmode]
        rfl
      · rw [hother u hu, hnone u]
    · -- the running thread finishes a callback, maybe the notification
      obtain ⟨rfl, hothers, hlast⟩ := ih.of_work hwork
      obtain ⟨hsame, -⟩ := hkeep (by simp)
      refine .running t rest (by rw [hth, hwork', hsame]) (fun u hu => ?_) (fun hrest => ?_)
      · rw [hother u hu, hothers u hu]
      · rw [hsame]
        by_cases hcb : callback = .notify
        · simp [notifications, notified?, hcb]
        · have hquiet :
              notified? (g, t, .mode (.afterFinished callback prev g.shared.mode)) = none := by
            cases callback <;> simp_all [notified?]
          simp only [notifications, List.filterMap_append, List.filterMap_cons, hquiet,
            List.filterMap_nil, List.append_nil]
          exact hlast (by simp [hrest, Ne.symm hcb])
    · -- the running thread has no callback left
      obtain ⟨rfl, hothers, hlast⟩ := ih.of_work hwork
      obtain ⟨hsame, -⟩ := hkeep (by simp)
      refine .quiet (fun u => ?_) (fun _ => ?_)
      · by_cases hu : u = t
        · rw [hu, hth, hwork']
        · rw [hother u hu, hothers u hu]
      · rw [hsame]
        simpa [notifications, notified?] using hlast (by simp)
    · -- anything else leaves everything
      obtain ⟨hmode', hcommits⟩ := hkeep hcommit
      have hnot : notifications (tr ++ [(g, t, e)]) = notifications tr := by
        simp [notifications, notified?_eq_none hfinished]
      have hwork : ∀ u, afterWork (g'.thread u) = afterWork (g.thread u) := by
        intro u
        by_cases hu : u = t
        · rw [hu, hth, hsame]
        · rw [hother u hu]
      cases ih with
      | running t' rest hwork' hothers hlast =>
        refine .running t' rest ?_ (fun u hu => ?_) ?_
        · rw [hwork, hwork', hmode']
        · rw [hwork, hothers u hu]
        · rw [hnot, hmode']
          exact hlast
      | quiet hnone hlast =>
        refine .quiet (fun u => ?_) ?_
        · rw [hwork, hnone u]
        · rw [hnot, hmode', hcommits]
          exact hlast

/-! ### The order of the after-callbacks -/

/-- In every run:

- when a `set_mode` that committed a transition returns, it has run the after-callbacks of the
  transition, all of them in the order of their registration, each to its end; an after-callback
  that its thread starts later belongs to a transition it commits later; and a transition that
  any thread commits later has started none of its own before;
- an after-callback starts after the one commit of its own call;
- if no transition was committed while another one's after-callbacks were running, and none is
  running now, the last notification names the current mode. -/
theorem after_effects_in_order (cfg : SystemConfig) {g₀ g : SystemState} {tr : SystemTrace}
    (h0 : SystemStart g₀) (hrun : SystemRun cfg g₀ tr g) :
    (∀ tr₁ s t new ok tr₂ prev, tr = tr₁ ++ (s, t, .mode (.returned new ok)) :: tr₂ →
      .commit prev new ∈ callLog t tr₁ →
      afterEvents (callLog t tr₁) = ranEvents cfg.callbacks.after prev new ∧
      (∀ mid s' callback prev' new' rest,
        tr₂ = mid ++ (s', t, .mode (.afterStarted callback prev' new')) :: rest →
        ∃ i ∈ mid, i.2 = (t, .mode (.commit prev' new'))) ∧
      ∀ mid s' u prev' new' rest, tr₂ = mid ++ (s', u, .mode (.commit prev' new')) :: rest →
        afterEvents (callLog u (tr₁ ++ (s, t, .mode (.returned new ok)) :: mid)) = []) ∧
    (∀ tr₁ s t callback prev new tr₂,
      tr = tr₁ ++ (s, t, .mode (.afterStarted callback prev new)) :: tr₂ →
      logCommits (callLog t tr₁) = [(prev, new)]) ∧
    (.notify ∈ cfg.callbacks.after → (∀ i ∈ tr, Serial i.1 i.2) →
      (∀ t, afterWork (g.thread t) = none) → commits tr ≠ [] →
      (notifications tr).getLast? = some g.shared.mode) := by
  refine ⟨?_, ?_, fun hnotify hserial hquiet hcommits => ?_⟩
  · rintro tr₁ s t new ok tr₂ prev rfl hcommit
    refine ⟨?_, ?_, ?_⟩
    · obtain ⟨hrun₁, new, pc, c, n, hm, hs⟩ := call_at hrun
      obtain ⟨rfl, rfl⟩ := hs.of_returned
      exact afterLog_run h0 hrun₁ t _ hm prev (logCommits_of_mem h0 hrun₁ hm hcommit)
    · rintro mid s' callback prev' new' rest rfl
      rw [← List.cons_append, ← List.append_assoc] at hrun
      obtain ⟨hrun₁, new₁, pc, c, n, hm, hs⟩ := call_at hrun
      obtain ⟨rfl, rest', rfl⟩ := hs.of_afterStarted
      obtain ⟨i, hi, hcommit', -⟩ := commit_mem h0 hrun₁ (commitLog_run h0 hrun₁ t _ hm)
      exact ⟨i, callTrace_since_return hrun₁ hm (by simp) i hi, hcommit'⟩
    · rintro mid s' u prev' new' rest rfl
      rw [← List.cons_append, ← List.append_assoc] at hrun
      obtain ⟨hrun₁, new₁, pc, c, n, hm, hs⟩ := call_at hrun
      obtain ⟨rfl, rfl, -⟩ := hs.of_commit
      exact afterLog_run h0 hrun₁ u _ hm
  · rintro tr₁ s t callback prev new tr₂ rfl
    exact logCommits_of_afterStarted h0 hrun
  · cases notified_run hnotify h0 hrun hserial with
    | running t rest hwork =>
      rw [hquiet t] at hwork
      cases hwork
    | quiet hnone hlast => exact hlast hcommits

/-! ### Two transitions -/

/-- After-hooks that open the valve on the way into AUTO and close it on `AUTO -> FAULT`. -/
def orderConfig : SystemConfig where
  automation :=
    { enabled := true
      afterTransition :=
        [{ src := "MANUAL", dst := "AUTO",
           calls := [{ deviceHandle := "sim0/valve", functionName := "open" }] },
         { src := "AUTO", dst := "FAULT",
           calls := [{ deviceHandle := "sim0/valve", functionName := "close" }] }] }

/-- A thread starts a `set_mode` and takes it past its commit, to its hooks. -/
def enterMode (t : ThreadId) (new : RuntimeMode) (steps : Nat) : List (ThreadId × Choice) :=
  (t, .start (.setMode new)) :: List.replicate steps (t, .go)

/-- The thread runs its hook, whose call is dispatched and succeeds, and its notification, up to
the return. -/
def runHooks (t : ThreadId) : List (ThreadId × Choice) :=
  List.replicate 4 (t, .go) ++ callThrough t 5

/-- The calls that a run dispatches: the thread and the function. -/
def dispatches (tr : SystemTrace) : List (ThreadId × String) :=
  tr.filterMap fun i => (dispatched? (fun _ => i.2.1) i).map Prod.swap

/-- Thread 1 enters AUTO and returns; then thread 2 enters FAULT. The after-callbacks follow the
commits. -/
theorem after_effects_in_order_auto_fault :
    ∃ tr₁ s tr₂ g, SystemRun orderConfig (valveWorld .manual)
        (tr₁ ++ (s, 1, .mode (.returned .auto true)) :: tr₂) g ∧
      afterEvents (callLog 1 tr₁) = ranEvents orderConfig.callbacks.after .manual .auto ∧
      (notifications (tr₁ ++ (s, 1, .mode (.returned .auto true)) :: tr₂)).getLast? =
        some .fault := by
  obtain ⟨tr₁, s, tr₂, g, hrun₁, hrun₂, hp⟩ := Machine.runs_of_passesThen (system orderConfig)
    (valveWorld .manual) (enterMode 1 .auto 11 ++ runHooks 1)
    ((1, .go) :: enterMode 2 .fault 9 ++ runHooks 2 ++ [(2, .go)])
    (fun tr₁ _ tr₂ g => .commit .manual .auto ∈ callLog 1 tr₁ ∧
      tr₂.head?.bind (modeEffect? 1) = some (.returned .auto true) ∧
      (∀ i ∈ tr₁ ++ tr₂, i.2.1 ∈ [1, 2] ∧ (stepCommit? i = none ∨
        ∀ t ∈ [1, 2], afterWork (i.1.thread t) = none)) ∧
      (∀ t ∈ [1, 2], afterWork (g.thread t) = none) ∧
      commits (tr₁ ++ tr₂) ≠ [] ∧ g.shared.mode = .fault) (by decide)
  obtain ⟨hcommit, hret, hall, hquiet, hcommits, hmode⟩ := hp
  have hrun := hrun₁.append hrun₂
  have hthreads := Machine.all_threads (P := fun th => afterWork th = none) hrun
    (fun i hi => (hall i hi).1) fun _ => rfl
  have hserial : ∀ i ∈ tr₁ ++ tr₂, Serial i.1 i.2 := by
    intro i hi prev new he
    have hcheck := (hall i hi).2
    exact hthreads.2 i hi (by simpa [stepCommit?, commit?, he] using hcheck)
  cases tr₂ with
  | nil => cases hret
  | cons i tr₂ =>
    obtain ⟨s', l⟩ := i
    obtain rfl : l = (1, .mode (.returned .auto true)) := eq_of_modeEffect? hret
    have horder := after_effects_in_order orderConfig (valveWorld_start .manual) hrun
    refine ⟨tr₁, s', tr₂, g, hrun, (horder.1 tr₁ s' 1 .auto true tr₂ .manual rfl hcommit).1, ?_⟩
    rw [← hmode]
    exact horder.2.2 (by decide) hserial (hthreads.1 hquiet) hcommits

/-- `MANUAL -> AUTO` is committed before `AUTO -> FAULT`; but the hook of the first one opens the
valve after the hook of the second one has closed it, and the last notification says AUTO, in
FAULT. -/
theorem after_effects_overtaken : ∃ tr g, SystemRun orderConfig (valveWorld .manual) tr g ∧
      commits tr = [(.manual, .auto), (.auto, .fault)] ∧
      dispatches tr = [(2, "close"), (1, "open")] ∧
      notifications tr = [.fault, .auto] ∧ g.shared.mode = .fault := by
  obtain ⟨tr, g, hrun, hp⟩ := Machine.run_of_passes (system orderConfig) (valveWorld .manual)
    (enterMode 1 .auto 11 ++ enterMode 2 .fault 9 ++ runHooks 2 ++ [(2, .go)] ++ runHooks 1 ++
      [(1, .go)])
    (fun tr g => commits tr = [(.manual, .auto), (.auto, .fault)] ∧
      dispatches tr = [(2, "close"), (1, "open")] ∧
      notifications tr = [.fault, .auto] ∧ g.shared.mode = .fault) (by decide)
  exact ⟨tr, g, hrun, hp⟩

end Anolis.Proofs.AfterOrder
