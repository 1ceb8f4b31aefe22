import Anolis.Proofs.Returns

/-!
# `set_mode` linearizes

`set_mode` looks at the mode twice, with its before-callbacks in between and the lock released.
`mode_manager_linearizes` says what is left of atomicity, for any callbacks and any
interleaving (`Linearized`).

The proofs read a call off its log. `CommitLog` follows what a call has committed, `AnswerLog`
what its callbacks and guards have answered.
-/

namespace Anolis.Proofs.ModeManager

open Anolis.Runtime Automation Lib

variable {cfg : SystemConfig} {sh : Shared} {t : ThreadId} {new : RuntimeMode} {pc pc' : SetModePc}
  {c : Choice} {e : ModeEffect} {n : SetModeNext} {log : List ModeEffect}

/-! ### The commits of a run -/

/-- The transition that a `set_mode` effect commits. -/
def commit? : ModeEffect → Option (RuntimeMode × RuntimeMode)
  | .commit prev new => some (prev, new)
  | _ => none

/-- The transition that a step commits. -/
def stepCommit? (i : Item) : Option (RuntimeMode × RuntimeMode) :=
  match i.2.2 with
  | .mode e => commit? e
  | _ => none

/-- The transitions that a run commits, in order. -/
def commits (tr : SystemTrace) : List (RuntimeMode × RuntimeMode) := tr.filterMap stepCommit?

theorem stepCommit?_eq_none {g : SystemState} {e : Effect}
    (h : ∀ prev new, e ≠ .mode (.commit prev new)) : stepCommit? (g, t, e) = none := by
  cases e with
  | mode e =>
    cases e with
    | commit prev new => exact absurd rfl (h prev new)
    | _ => rfl
  | _ => rfl

/-- A path of the documented transition graph, given by its edges. -/
def Path : RuntimeMode → List (RuntimeMode × RuntimeMode) → RuntimeMode → Prop
  | a, [], b => a = b
  | a, (prev, new) :: rest, b => prev = a ∧ Documented a new ∧ Path new rest b

theorem Path.snoc {a b c : RuntimeMode} {l : List (RuntimeMode × RuntimeMode)}
    (h : Path a l b) (hbc : Documented b c) : Path a (l ++ [(b, c)]) c := by
  induction l generalizing a with
  | nil =>
    obtain rfl : a = b := h
    exact ⟨rfl, hbc, rfl⟩
  | cons e l ih => exact ⟨h.1, h.2.1, ih h.2.2⟩

variable {g₀ g : SystemState}

variable {tr : SystemTrace}

theorem path_run (h0 : SystemStart g₀)
    (h : SystemRun cfg g₀ tr g) : Path g₀.shared.mode (commits tr) g.shared.mode := by
  refine Run.induct (J := fun tr g => Path g₀.shared.mode (commits tr) g.shared.mode) rfl ?_ h
  rintro tr g ⟨t, e⟩ g' hrun ih hstep
  obtain ⟨th', -, hts, hsh, -⟩ := system_step hstep
  rw [commits, List.filterMap_append, ← commits, hsh]
  -- the step leaves the mode alone, or it commits from the mode its call has read
  rcases hts.mode_eq with ⟨hsame, hne⟩ | ⟨prev, new, rfl, -, hm, -⟩
  · rw [List.filterMap_cons_none (stepCommit?_eq_none hne), List.filterMap_nil, List.append_nil,
      hsame]
    exact ih
  · obtain ⟨rfl, hne, hvalid, -⟩ := placed_run h0 hrun t _ hm
    exact ih.snoc ((documented_iff hne).mp hvalid)

/-! ### What a call has committed -/

/-- The commits in the log of a call. -/
def logCommits (log : List ModeEffect) : List (RuntimeMode × RuntimeMode) := log.filterMap commit?

theorem logCommits_record (log : List ModeEffect) (e : ModeEffect) :
    logCommits (record log e) = if e.isEntry then [] else logCommits log ++ (commit? e).toList := by
  unfold record
  cases e <;> simp [logCommits, ModeEffect.isEntry, commit?]

theorem logCommits_record_nil (he : commit? e = none) (h : logCommits log = []) :
    logCommits (record log e) = [] := by
  simp [logCommits_record, he, h]

/-- What the log of a call holds of commits, by its place: one after the commit, and none before
it or where the call fails. -/
def CommitLog (m : SetMode) (log : List ModeEffect) : Prop :=
  match m.pc with
  | .enter => True
  | .after prev _ | .inAfter prev _ _ | .afterHook prev _ _ _ => logCommits log = [(prev, m.new)]
  | .done ok => logCommits log = [] ∨ (ok ∧ ∃ prev, logCommits log = [(prev, m.new)])
  | _ => logCommits log = []

theorem commit?_of_hook {run : HookRun} {hn : HookNext} (h : run.step sh t new = some (e, hn)) :
    e.isEntry = false ∧ commit? e = none := by
  obtain rfl | ⟨request, rfl | rfl⟩ := run.step_effect h <;> exact ⟨rfl, rfl⟩

/-- A call that has committed nothing is anywhere but at its after-callbacks. -/
theorem commitLog_of_nil (hlog : logCommits log = []) (hpc : ∀ prev rest, pc ≠ .after prev rest)
    (hin : ∀ prev callback rest, pc ≠ .inAfter prev callback rest)
    (hhook : ∀ prev hooks run rest, pc ≠ .afterHook prev hooks run rest) :
    CommitLog ⟨new, pc⟩ log := by
  cases pc with
  | after prev rest => exact absurd rfl (hpc prev rest)
  | inAfter prev callback rest => exact absurd rfl (hin prev callback rest)
  | afterHook prev hooks run rest => exact absurd rfl (hhook prev hooks run rest)
  | enter => trivial
  | done ok => exact .inl hlog
  | _ => exact hlog

theorem commitLog_step (h : SetModeStep cfg sh t new c pc e n)
    (hpc : CommitLog ⟨new, pc⟩ log) (hn : n.pc? = some pc') :
    CommitLog ⟨new, pc'⟩ (record log e) := by
  cases h
  case ret => cases hn
  all_goals cases hn
  case enter =>
    have hlog : logCommits (record log (.readMode new sh.mode)) = [] := rfl
    simp only [SetModePc.entered]
    repeat' split
    all_goals exact commitLog_of_nil hlog (by simp) (by simp) (by simp)
  case beforeAnswer shown callback rest ok hjudge =>
    have hlog : logCommits (record log (.beforeAnswered callback shown new ok)) = [] :=
      logCommits_record_nil rfl hpc
    simp only [SetModePc.answered]
    split
    all_goals exact commitLog_of_nil hlog (by simp) (by simp) (by simp)
  case beforeHookEnd shown hooks run rest e ok hrun =>
    have hlog : logCommits (record log (.beforeAnswered (.hooks hooks) shown new ok)) = [] :=
      logCommits_record_nil rfl hpc
    simp only [SetModePc.answered]
    split
    all_goals exact commitLog_of_nil hlog (by simp) (by simp) (by simp)
  case recheck shown =>
    have hlog : logCommits (record log .silent) = [] := logCommits_record_nil rfl hpc
    simp only [SetModePc.rechecked]
    repeat' split
    all_goals exact commitLog_of_nil hlog (by simp) (by simp) (by simp)
  case beforeHookGo hrun | beforeHookCall hrun | afterHookGo hrun | afterHookCall hrun =>
    obtain ⟨hentry, hcommit⟩ := commit?_of_hook hrun
    simpa [CommitLog, logCommits_record, hentry, hcommit] using hpc
  all_goals
    simp_all [CommitLog, logCommits_record, ModeEffect.isEntry, commit?]

theorem commitLog_callReturned (m : SetMode) (result : Control.CallResult)
    (h : CommitLog m log) : CommitLog (m.callReturned result) log := by
  unfold SetMode.callReturned
  split <;> rename_i hpc <;> simpa [CommitLog, hpc] using h

/-- In every state of a run, the log of every running `set_mode` holds the commit of its
place. -/
theorem commitLog_run (h0 : SystemStart g₀)
    (h : SystemRun cfg g₀ tr g) : ∀ t m, (g.thread t).mode = some m → CommitLog m (callLog t tr) :=
  call_induct h0 (C := fun _ _ => True) (K := fun _ m log => CommitLog m log)
    (fun _ _ _ => trivial)
    (fun _ _ _ _ _ _ _ _ _ _ _ _ _ hs hn hK => commitLog_step hs hK hn)
    (fun _ m result _ hK => commitLog_callReturned m result hK) h (fun _ _ => trivial)

/-! ### What the callbacks and the guards have answered -/

/-- A before-callback's answer: the callback, the mode and the target it was shown, and whether
it accepted. -/
def beforeAnswer? : ModeEffect → Option (BeforeCallback × RuntimeMode × RuntimeMode × Bool)
  | .beforeAnswered callback shown new ok => some (callback, shown, new, ok)
  | _ => none

/-- The answers of the before-callbacks in the log of a call. -/
def answers (log : List ModeEffect) :
    List (BeforeCallback × RuntimeMode × RuntimeMode × Bool) :=
  log.filterMap beforeAnswer?

theorem answers_record (log : List ModeEffect) (he : e.isEntry = false) :
    answers (record log e) = answers log ++ (beforeAnswer? e).toList := by
  simp only [record, he, answers]
  cases e <;> simp [beforeAnswer?]

theorem answers_record_none (he : e.isEntry = false) (hanswer : beforeAnswer? e = none) :
    answers (record log e) = answers log := by
  rw [answers_record log he, hanswer, Option.toList_none, List.append_nil]

/-- All of the callbacks accepted the transition. -/
def accepted (callbacks : List BeforeCallback) (shown new : RuntimeMode) :
    List (BeforeCallback × RuntimeMode × RuntimeMode × Bool) :=
  callbacks.map fun callback => (callback, shown, new, true)

/-- The log of a call that has taken the lock and whose guards `asked` accepted. -/
def guarded (before : List ModeEffect) (asked : List CommitGuard) (prev new : RuntimeMode) :
    List ModeEffect :=
  before ++ .lockMode :: .silent :: asked.map fun guard => .guardAnswered guard prev new true

/-- What the log of a call whose target is not FAULT holds of answers, by its place. -/
def AnswerLog (cb : Callbacks) (m : SetMode) (log : List ModeEffect) : Prop :=
  match m.pc with
  | .before shown rest =>
    ∃ asked, cb.before = asked ++ rest ∧ answers log = accepted asked shown m.new
  | .beforeHook shown hooks _ rest =>
    ∃ asked, cb.before = asked ++ .hooks hooks :: rest ∧ answers log = accepted asked shown m.new
  | .relock shown => answers log = accepted cb.before shown m.new
  | .recheck shown =>
    ∃ before, log = before ++ [.lockMode] ∧ answers before = accepted cb.before shown m.new
  | .guards prev rest =>
    ∃ before asked, log = guarded before asked prev m.new ∧ cb.guards = asked ++ rest ∧
      answers before = accepted cb.before prev m.new
  | _ => True

theorem beforeAnswer?_of_hook {run : HookRun} {hn : HookNext}
    (h : run.step sh t new = some (e, hn)) : e.isEntry = false ∧ beforeAnswer? e = none := by
  obtain rfl | ⟨request, rfl | rfl⟩ := run.step_effect h <;> exact ⟨rfl, rfl⟩

theorem answerLog_answered {cb : Callbacks} {callback : BeforeCallback}
    {asked rest : List BeforeCallback} {shown : RuntimeMode} (ok : Bool) (hnew : new ≠ .fault)
    (hasked : cb.before = asked ++ callback :: rest)
    (hlog : answers log = accepted asked shown new) :
    AnswerLog cb ⟨new, .answered new shown rest ok⟩
      (record log (.beforeAnswered callback shown new ok)) := by
  simp only [SetModePc.answered, hnew, decide_false, Bool.or_false]
  split
  · rename_i hok
    subst hok
    refine ⟨asked ++ [callback], by simp [hasked], ?_⟩
    rw [answers_record _ rfl, hlog]
    simp [accepted, beforeAnswer?]
  · trivial

theorem answerLog_step (hnew : new ≠ .fault) (h : SetModeStep cfg sh t new c pc e n)
    (hpc : AnswerLog cfg.callbacks ⟨new, pc⟩ log) (hn : n.pc? = some pc') :
    AnswerLog cfg.callbacks ⟨new, pc'⟩ (record log e) := by
  cases h
  case ret => cases hn
  all_goals cases hn
  case enter =>
    simp only [SetModePc.entered]
    repeat' split
    · trivial
    · exact ⟨[], rfl, rfl⟩
    · trivial
  case beforeEnd shown =>
    obtain ⟨asked, hasked, hlog⟩ := hpc
    rw [List.append_nil] at hasked
    subst hasked
    exact (answers_record_none rfl rfl).trans hlog
  case beforeHooks shown hooks rest =>
    obtain ⟨asked, hasked, hlog⟩ := hpc
    exact ⟨asked, hasked, (answers_record_none rfl rfl).trans hlog⟩
  case beforeAnswer shown callback rest ok hjudge | beforeHookEnd shown hooks run rest e ok hrun =>
    obtain ⟨asked, hasked, hlog⟩ := hpc
    exact answerLog_answered ok hnew hasked hlog
  case beforeHookGo hrun | beforeHookCall hrun =>
    obtain ⟨hentry, hanswer⟩ := beforeAnswer?_of_hook hrun
    obtain ⟨asked, hasked, hlog⟩ := hpc
    exact ⟨asked, hasked, (answers_record_none hentry hanswer).trans hlog⟩
  case relock shown => exact ⟨log, rfl, hpc⟩
  case recheck shown =>
    obtain ⟨before, rfl, hlog⟩ := hpc
    simp only [SetModePc.rechecked]
    split
    · trivial
    · split
      · trivial
      · rename_i hsame
        split
        · trivial
        · -- the mode is the one the callbacks were shown
          have hmode : sh.mode = shown := by
            by_contra hne
            exact hsame ⟨hne, hnew⟩
          exact ⟨before, [], by simp [guarded, record, ModeEffect.isEntry], rfl,
            by rw [hmode]; exact hlog⟩
  case guardAccepts prev guard rest hjudge =>
    obtain ⟨before, asked, rfl, hguards, hlog⟩ := hpc
    exact ⟨before, asked ++ [guard], by simp [guarded, record, ModeEffect.isEntry],
      by simp [hguards], hlog⟩
  all_goals trivial

theorem answerLog_callReturned (cb : Callbacks) (m : SetMode) (result : Control.CallResult)
    (h : AnswerLog cb m log) : AnswerLog cb (m.callReturned result) log := by
  unfold SetMode.callReturned
  split
  · rename_i hpc
    simpa [AnswerLog, hpc] using h
  · trivial
  · exact h

/-- In every state of a run, the log of every running `set_mode` to another target than FAULT
holds the answers of its place. -/
theorem answerLog_run (h0 : SystemStart g₀)
    (h : SystemRun cfg g₀ tr g) : ∀ t m, (g.thread t).mode = some m → m.new ≠ .fault →
      AnswerLog cfg.callbacks m (callLog t tr) :=
  call_induct h0 (C := fun _ _ => True)
    (K := fun _ m log => m.new ≠ .fault → AnswerLog cfg.callbacks m log)
    (fun _ _ _ _ => trivial)
    (fun _ _ _ _ _ _ _ _ _ _ _ _ _ hs hn hK hnew => answerLog_step hnew hs (hK hnew) hn)
    (fun _ m result _ hK hnew =>
      answerLog_callReturned _ m result (hK (m.callReturned_new result ▸ hnew)))
    h (fun _ _ => trivial)

/-! ### The lock section -/

/-- Is the step one in which the thread `t` takes the mode lock. -/
def takesLock (t : ThreadId) (i : Item) : Bool :=
  match modeEffect? t i with
  | some .lockMode => true
  | _ => false

/-- The run since the thread `t` last took the mode lock. -/
def lockTrace (t : ThreadId) (tr : SystemTrace) : SystemTrace := sinceLast (takesLock t) tr

theorem lockMode_of_apply {e : Effect} (hfree : sh.modeLock = none)
    (h : (sh.apply t e).modeLock = some t) : e = .mode .lockMode := by
  cases e with
  | call e | control e => simp [Shared.apply, hfree] at h
  | mode e =>
    cases e with
    | lockMode => rfl
    | afterFinished =>
      simp only [Shared.apply, Shared.applyMode] at h
      split at h <;> simp [hfree] at h
    | _ => simp [Shared.apply, Shared.applyMode, hfree] at h

/-- While a thread holds the mode lock, the mode is what it was when it took the lock. -/
theorem mode_since_lock (h0 : SystemStart g₀)
    (h : SystemRun cfg g₀ tr g) :
    ∀ t, (g.thread t).holdsMode → ∀ i ∈ lockTrace t tr, i.1.shared.mode = g.shared.mode := by
  refine Run.induct (J := fun tr g => ∀ t, (g.thread t).holdsMode →
    ∀ i ∈ lockTrace t tr, i.1.shared.mode = g.shared.mode) ?_ ?_ h
  · intro t ht
    rw [h0.idle] at ht
    cases ht
  · rintro tr g ⟨u, e⟩ g' hrun ih hstep t ht i hi
    obtain ⟨th', hth, hts, hsh, hother⟩ := system_step hstep
    -- a commit leaves its thread outside the lock, and no other thread is inside
    have hmode : g'.shared.mode = g.shared.mode := by
      rw [hsh]
      rcases hts.mode_eq with ⟨hsame, -⟩ | ⟨prev, new, -, -, hm, rfl⟩
      · exact hsame
      · exfalso
        rcases eq_or_ne t u with rfl | htu
        · rw [hth] at ht
          cases ht
        · refine htu (Machine.lock_excl (modeLock_run h0 hrun) (hother t htu ▸ ht) ?_)
          simp [Thread.holdsMode, hm, SetModePc.locked]
    rw [hmode]
    rw [lockTrace, sinceLast_snoc] at hi
    split at hi
    · rw [List.mem_singleton.mp hi]
    · rename_i hno
      rcases List.mem_append.mp hi with hi | hi
      · refine ih t ?_ i hi
        rcases eq_or_ne t u with rfl | htu
        · -- the thread was inside: it does not take the lock in this step
          rw [hth] at ht
          rcases hts.modeLock with ⟨-, hb⟩ | howner | ⟨-, -, hb⟩
          · exact hb ▸ ht
          · exact absurd (lockMode_of_apply howner.1 howner.2.1) fun he => by
              simp [takesLock, he] at hno
          · rw [hb] at ht
            cases ht
        · exact hother t htu ▸ ht
      · rw [List.mem_singleton.mp hi]

/-! ### FAULT -/

/-- A settled `set_mode(FAULT)` has seen FAULT since it began. -/
theorem fault_seen (h0 : SystemStart g₀)
    (h : SystemRun cfg g₀ tr g) : ∀ t pc, (g.thread t).mode = some ⟨.fault, pc⟩ → settledPc pc →
      g.shared.mode = .fault ∨ ∃ i ∈ callTrace t tr, i.1.shared.mode = .fault := by
  refine Run.induct (J := fun tr g => ∀ t pc, (g.thread t).mode = some ⟨.fault, pc⟩ →
    settledPc pc → g.shared.mode = .fault ∨
      ∃ i ∈ callTrace t tr, i.1.shared.mode = .fault) ?_ ?_ h
  · intro t pc hm
    rw [h0.idle] at hm
    cases hm
  · rintro tr g ⟨u, e⟩ g' hrun ih hstep t pc hm hpc
    obtain ⟨th', hth, hts, hsh, hother⟩ := system_step hstep
    -- a call that was settled before has the state it was seen in, or this one, in its trace
    have hold : ∀ pc₀, (g.thread t).mode = some ⟨.fault, pc₀⟩ → settledPc pc₀ →
        (modeEffect? t (g, u, e)).any ModeEffect.isEntry = false →
        ∃ i ∈ callTrace t (tr ++ [(g, u, e)]), i.1.shared.mode = .fault := by
      intro pc₀ hm₀ hpc₀ hno
      rcases ih t pc₀ hm₀ hpc₀ with hnow | ⟨i, hi, hfault⟩
      · exact ⟨(g, u, e), mem_callTrace_snoc hno (.inr rfl), hnow⟩
      · exact ⟨i, mem_callTrace_snoc hno (.inl hi), hfault⟩
    rcases eq_or_ne t u with rfl | htu
    · rw [hth] at hm
      rcases hts.mode_cases hm with ⟨-, hpc', -⟩ | ⟨pc₀, c, e', n, rfl, -, hm₀, hs, hn⟩ |
        ⟨⟨e', rfl⟩, hsame | ⟨m₀, result, hm₀, heq⟩⟩
      · obtain rfl : pc = .enter := hpc'
        cases hpc
      · cases hpc₀ : settledPc pc₀ with
        | false =>
          -- the step that settles the call leaves the mode FAULT
          left
          rw [hsh]
          exact (settledPc_step hs (placed_run h0 hrun t _ hm₀) hpc₀ hn hpc).1
        | true =>
          refine .inr (hold pc₀ hm₀ hpc₀ ?_)
          -- a call begins where it is not settled
          rw [modeEffect?_self, Option.any_some]
          refine Bool.eq_false_of_not_eq_true fun he => ?_
          rw [hs.of_isEntry he] at hpc₀
          cases hpc₀
      · exact .inr (hold pc hsame hpc rfl)
      · obtain ⟨new₀, pc₀⟩ := m₀
        obtain rfl : new₀ = .fault :=
          (SetMode.callReturned_new ⟨new₀, pc₀⟩ result).symm.trans (congrArg SetMode.new heq.symm)
        refine .inr (hold pc₀ hm₀ ?_ rfl)
        rw [← settledPc_callReturned ⟨.fault, pc₀⟩ result, ← heq]
        exact hpc
    · rw [hother t htu] at hm
      refine .inr (hold pc hm hpc ?_)
      rw [modeEffect?_of_ne (Ne.symm htu)]
      rfl

/-! ### The contract -/

/-- What the mode manager guarantees of a run. A call of the thread `t` that is in progress after
the steps `tr₁` is read off `callTrace t tr₁` and `callLog t tr₁`. -/
structure Linearized (cfg : SystemConfig) (g₀ : SystemState) (tr : SystemTrace)
    (g : SystemState) : Prop where
  /-- The commits are a path of the documented graph. -/
  path : Path g₀.shared.mode (commits tr) g.shared.mode
  /-- An after-callback is given the mode that its own commit, the only one of its call,
  overwrote. -/
  overwritten : ∀ tr₁ s t callback prev new tr₂,
    tr = tr₁ ++ (s, t, .mode (.afterStarted callback prev new)) :: tr₂ →
    logCommits (callLog t tr₁) = [(prev, new)] ∧
      ∃ i ∈ callTrace t tr₁, i.2 = (t, .mode (.commit prev new)) ∧ i.1.shared.mode = prev
  /-- A `set_mode(FAULT)` that returns answers `true`, and the mode was FAULT in between. -/
  fault : ∀ tr₁ s t ok tr₂, tr = tr₁ ++ (s, t, .mode (.returned .fault ok)) :: tr₂ →
    ok = true ∧ ∃ i ∈ callTrace t tr₁ ++ [(s, t, .mode (.returned .fault ok))],
      i.1.shared.mode = .fault
  /-- A `set_mode(FAULT)` in progress returns: its own steps are bounded, and a run leads to its
  return. -/
  returns : ∀ t pc, (g.thread t).mode = some ⟨.fault, pc⟩ →
    (∃ bound, ∀ tr' g', SystemRun cfg g tr' g' →
      (∀ i ∈ tr', ∀ new ok, i.2 ≠ (t, .mode (.returned new ok))) →
      (tr'.countP fun i => i.2.1 = t) ≤ bound) ∧
    ∃ tr' s g', SystemRun cfg g (tr' ++ [(s, t, .mode (.returned .fault true))]) g'
  /-- A commit of another mode: every before-callback of the call was shown the mode that the
  commit overwrites and accepted; then the call took the lock, every guard accepted, and the mode
  did not change from the lock to the commit. -/
  accepted : ∀ tr₁ s t prev new tr₂, tr = tr₁ ++ (s, t, .mode (.commit prev new)) :: tr₂ →
    new ≠ .fault → s.shared.mode = prev ∧
      (∃ before, callLog t tr₁ = guarded before cfg.callbacks.guards prev new ∧
        answers before = accepted cfg.callbacks.before prev new) ∧
      ∀ i ∈ lockTrace t tr₁, i.1.shared.mode = prev
  /-- A `set_mode` that returns `false` has committed nothing. -/
  unchanged : ∀ tr₁ s t new tr₂, tr = tr₁ ++ (s, t, .mode (.returned new false)) :: tr₂ →
    logCommits (callLog t tr₁) = []

section
variable {g₀ g : SystemState} {tr : SystemTrace} {prev : RuntimeMode}

theorem call_at {tr₁ tr₂ : SystemTrace} {s : SystemState}
    (hrun : SystemRun cfg g₀ (tr₁ ++ (s, t, .mode e) :: tr₂) g) :
    SystemRun cfg g₀ tr₁ s ∧ ∃ new pc c n, (s.thread t).mode = some ⟨new, pc⟩ ∧
      SetModeStep cfg s.shared t new c pc e n := by
  obtain ⟨hrun₁, s₁, hstep, -⟩ := hrun.at_step
  obtain ⟨th', -, hts, -, -⟩ := system_step hstep
  cases hts with
  | mode _ hm h => exact ⟨hrun₁, _, _, _, _, hm, h⟩

/-- A call that returns has committed what its log says, and nothing else. -/
theorem logCommits_of_mem {ok : Bool} (h0 : SystemStart g₀)
    (hrun : SystemRun cfg g₀ tr g) (hm : (g.thread t).mode = some ⟨new, .done ok⟩)
    (h : .commit prev new ∈ callLog t tr) : logCommits (callLog t tr) = [(prev, new)] := by
  have hmem : (prev, new) ∈ logCommits (callLog t tr) := List.mem_filterMap.mpr ⟨_, h, rfl⟩
  -- the log at `done` holds one commit at most
  rcases commitLog_run h0 hrun t _ hm with hnil | ⟨-, prev', hprev⟩
  · rw [show logCommits (callLog t tr) = [] from hnil] at hmem
    cases hmem
  · rw [hprev] at hmem ⊢
    rw [List.mem_singleton.mp hmem]

theorem logCommits_of_afterStarted {tr₁ tr₂ : SystemTrace} {callback : AfterCallback}
    (h0 : SystemStart g₀)
    (hrun : SystemRun cfg g₀ (tr₁ ++ (s, t, .mode (.afterStarted callback prev new)) :: tr₂) g) :
    logCommits (callLog t tr₁) = [(prev, new)] := by
  obtain ⟨hrun₁, new', pc, c, n, hm, hs⟩ := call_at hrun
  obtain ⟨rfl, rest, rfl⟩ := hs.of_afterStarted
  exact commitLog_run h0 hrun₁ t _ hm

/-- A commit in the log of a call is a step of its trace, taken in the mode that it
overwrites. -/
theorem commit_mem (h0 : SystemStart g₀) (hrun : SystemRun cfg g₀ tr g)
    (h : logCommits (callLog t tr) = [(prev, new)]) :
    ∃ i ∈ callTrace t tr, i.2 = (t, .mode (.commit prev new)) ∧ i.1.shared.mode = prev := by
  have hmem : (prev, new) ∈ logCommits (callLog t tr) := by simp [h]
  obtain ⟨e, he, hcommit⟩ := List.mem_filterMap.mp hmem
  obtain ⟨s, hi⟩ := mem_callLog he
  obtain rfl : e = .commit prev new := by
    cases e with
    | commit p n =>
      cases hcommit
      rfl
    | _ => cases hcommit
  refine ⟨_, hi, rfl, ?_⟩
  obtain ⟨tr₁, tr₂, rfl⟩ := List.append_of_mem (mem_of_mem_callTrace hi)
  obtain ⟨hrun₁, new', pc, c, n, hm, hs⟩ := call_at hrun
  obtain ⟨rfl, rfl, -⟩ := hs.of_commit
  exact (placed_run h0 hrun₁ _ _ hm).1.symm

end

/-- Every run of the mode manager, under any callbacks and any interleaving, linearizes. -/
theorem mode_manager_linearizes (cfg : SystemConfig) {g₀ g : SystemState} {tr : SystemTrace}
    (h0 : SystemStart g₀) (hrun : SystemRun cfg g₀ tr g) : Linearized cfg g₀ tr g where
  path := path_run h0 hrun
  overwritten := by
    rintro tr₁ s t callback prev new tr₂ rfl
    exact ⟨logCommits_of_afterStarted h0 hrun,
      commit_mem h0 (call_at hrun).1 (logCommits_of_afterStarted h0 hrun)⟩
  fault := by
    rintro tr₁ s t ok tr₂ rfl
    obtain ⟨hrun₁, new', pc, c, n, hm, hs⟩ := call_at hrun
    obtain ⟨rfl, rfl⟩ := hs.of_returned
    refine ⟨placed_run h0 hrun₁ t _ hm rfl, ?_⟩
    rcases fault_seen h0 hrun₁ t _ hm rfl with hnow | ⟨i, hi, hfault⟩
    · exact ⟨_, List.mem_append_right _ (List.mem_singleton_self _), hnow⟩
    · exact ⟨i, List.mem_append_left _ hi, hfault⟩
  returns := by
    intro t pc hm
    refine ⟨⟨_, fun tr' g' => Returns.own_steps_bounded (by simp [hm])⟩, ?_⟩
    obtain ⟨tr', s, g', ok, hrun'⟩ := Returns.can_return h0 hrun hm
    obtain ⟨hrun₁, new', pc', c, n, hm', hs⟩ :=
      call_at (show SystemRun cfg g₀ (tr ++ tr' ++ (s, t, .mode (.returned .fault ok)) :: []) g' by
        rw [List.append_assoc]
        exact hrun.append hrun')
    obtain ⟨rfl, rfl⟩ := hs.of_returned
    obtain rfl : ok = true := placed_run h0 hrun₁ t _ hm' rfl
    exact ⟨tr', s, g', hrun'⟩
  accepted := by
    rintro tr₁ s t prev new tr₂ rfl hnew
    obtain ⟨hrun₁, new', pc, c, n, hm, hs⟩ := call_at hrun
    obtain ⟨rfl, rfl, -⟩ := hs.of_commit
    have hmode : s.shared.mode = prev := (placed_run h0 hrun₁ t _ hm).1.symm
    -- at a commit no guard is left, so the guards asked are all of them
    obtain ⟨before, asked, hlog, hguards, hanswers⟩ := answerLog_run h0 hrun₁ t _ hm hnew
    rw [List.append_nil] at hguards
    refine ⟨hmode, ⟨before, hguards ▸ hlog, hanswers⟩, fun i hi => ?_⟩
    rw [← hmode]
    exact mode_since_lock h0 hrun₁ t (by simp [Thread.holdsMode, hm, SetModePc.locked]) i hi
  unchanged := by
    rintro tr₁ s t new tr₂ rfl
    obtain ⟨hrun₁, new', pc, c, n, hm, hs⟩ := call_at hrun
    obtain ⟨rfl, rfl⟩ := hs.of_returned
    exact (commitLog_run h0 hrun₁ t _ hm).resolve_right (by simp)

/-- A mode manager with one callback of each kind, whose answers the schedule gives. -/
def raceConfig : SystemConfig where
  automation := { enabled := true }
  callbacks := { before := [.other 0], guards := [.other 1], after := [.other 2] }

/-- Thread 1 asks for AUTO and its callback accepts; thread 2 enters FAULT meanwhile, with a
callback that throws; then thread 1 goes on. -/
def autoAgainstFault : List (ThreadId × Choice) :=
  [(1, .start (.setMode .auto)), (1, .go), (1, .answer .accept), (1, .go),
    (2, .start (.setMode .fault)), (2, .go), (2, .answer .throw), (2, .go), (2, .go), (2, .go),
    (2, .go), (2, .go), (2, .go), (2, .go), (2, .go), (1, .go), (1, .go), (1, .go), (1, .go)]

/-- The FAULT entry commits and returns `true`; the call for AUTO returns `false`. -/
theorem mode_manager_linearizes_race :
    ∃ tr g, SystemRun raceConfig manualWorld tr g ∧ commits tr = [(.manual, .fault)] ∧
      Linearized raceConfig manualWorld tr g ∧ (∃ i ∈ tr, i.2 =
        (2, .mode (.returned .fault true))) ∧
      ∃ i ∈ tr, i.2 = (1, .mode (.returned .auto false)) := by
  obtain ⟨tr, g, hrun, hp⟩ := Machine.run_of_passes (system raceConfig) manualWorld autoAgainstFault
    (fun tr _ => commits tr = [(.manual, .fault)] ∧
      (∃ i ∈ tr, modeEffect? 2 i = some (.returned .fault true)) ∧
      ∃ i ∈ tr, modeEffect? 1 i = some (.returned .auto false)) (by decide)
  obtain ⟨hcommits, ⟨i₂, hi₂, hl₂⟩, i₁, hi₁, hl₁⟩ := hp
  exact ⟨tr, g, hrun, hcommits, mode_manager_linearizes raceConfig manualWorld_start hrun,
    ⟨i₂, hi₂, eq_of_modeEffect? hl₂⟩, i₁, hi₁, eq_of_modeEffect? hl₁⟩

end Anolis.Proofs.ModeManager
