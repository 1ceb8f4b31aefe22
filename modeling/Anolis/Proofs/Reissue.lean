import Anolis.Control.ReissueWorker

/-!
# No re-assert is lost

The worker's queue is first in, first out, and holds a handle at most once. A post that finds its
handle waiting relies on the run of the earlier post, which has not started: a handle leaves the
queue before its run starts. So every accepted post is followed by a run of its handle
(`covered_run`), and when `stop` returns the queue is empty and every such run has started.

A notification is never lost either: while the worker is blocked with something to do, some
thread is about to notify it (`awake_run`). From that, the worker goes on until there is nothing
left to do (`goesOn_run`), whether the runs throw or not.
-/

namespace Anolis.Proofs.Reissue

open Control Lib

/-- A run of the worker and the threads around it. -/
abbrev WorkerTrace := Trace WorkerState (ThreadId × WorkerEffect)

abbrev WorkerRun (w : ThreadId) (tr : WorkerTrace) (g : WorkerState) : Prop :=
  Run reissueWorker.lts (workerStart w) tr g

/-! ### Steps -/

/-- The step of a thread by the place it is taken from. -/
inductive WorkerStep (sh : WorkerShared) : WorkerPc → WorkerEffect → WorkerPc → Prop
  | enter (handle : String) (hgoing : sh.stopping = false) (hnew : handle ∉ sh.queue) :
      WorkerStep sh .idle (.accepted handle true) .postNotify
  | coalesce (handle : String) (hgoing : sh.stopping = false) (hqueued : handle ∈ sh.queue) :
      WorkerStep sh .idle (.accepted handle false) .idle
  | drop (handle : String) (hstop : sh.stopping) :
      WorkerStep sh .idle (.dropped handle) .idle
  | request : WorkerStep sh .idle .stopRequested .stopNotify
  | postNotify : WorkerStep sh .postNotify .notify .idle
  | stopNotify : WorkerStep sh .stopNotify .notify .stopJoin
  | join (hexited : sh.exited) : WorkerStep sh .stopJoin .stopped .idle
  | exit (hempty : sh.queue = []) (hstop : sh.stopping) :
      WorkerStep sh .check .exited .ended
  | block (hempty : sh.queue = []) (hgoing : sh.stopping = false) :
      WorkerStep sh .check .blocked .waiting
  | pop (handle : String) (rest : List String) (hqueue : sh.queue = handle :: rest) :
      WorkerStep sh .check (.popped handle) (.starting handle)
  | wake (spurious : Bool) : WorkerStep sh .waiting (.woken spurious) .check
  | start (handle : String) : WorkerStep sh (.starting handle) (.started handle) (.running handle)
  | finish (handle : String) (threw : Bool) :
      WorkerStep sh (.running handle) (.finished handle threw) .check

variable {e : WorkerEffect} {sh : WorkerShared} {pc pc' : WorkerPc}

theorem workerStep_of_next {c : WorkerChoice}
    (h : workerNext sh pc c = some (e, pc')) : WorkerStep sh pc e pc' := by
  revert h
  fun_cases workerNext sh pc c <;> intro h <;>
    simp only [some_pair, reduceCtorEq] at h
  all_goals obtain ⟨rfl, rfl⟩ := h
  all_goals constructor
  all_goals first | assumption | simp_all

/-- The places of the worker. -/
def isWorker : WorkerPc → Bool
  | .check | .waiting | .starting _ | .running _ | .ended => true
  | _ => false

theorem WorkerStep.role (h : WorkerStep sh pc e pc') : isWorker pc' = isWorker pc := by
  cases h <;> rfl

section
variable {w : ThreadId} {tr : WorkerTrace} {g : WorkerState}

theorem role_run (h : WorkerRun w tr g) (t : ThreadId) :
    isWorker (g.thread t) = decide (t = w) := by
  refine Machine.thread_inv (C := fun _ _ => True)
    (P := fun t pc => isWorker pc = decide (t = w)) ?_ ?_ h (fun _ _ => trivial) t
  · intro t
    by_cases ht : t = w <;> simp [workerStart, ht, isWorker]
  · intro g t c e pc' _ hnext hpc
    rw [← hpc]
    exact (workerStep_of_next hnext).role

variable {g' : WorkerState}

/-- What one step is: a step of the worker's thread from a place of the worker, or one of another
thread from another place. -/
theorem step_cases {g : WorkerState} {t : ThreadId} (hrun : WorkerRun w tr g)
    (h : reissueWorker.lts.step g (t, e) g') :
    ∃ pc, g.thread t = pc ∧ isWorker pc = decide (t = w) ∧
      WorkerStep g.shared pc e (g'.thread t) ∧ g'.shared = g.shared.apply t e ∧
      ∀ u, u ≠ t → g'.thread u = g.thread u := by
  obtain ⟨c, pc', hnext, hsh, hth, hothers⟩ := Machine.step_inv h
  refine ⟨g.thread t, rfl, role_run hrun t, ?_, hsh, hothers⟩
  rw [hth]
  exact workerStep_of_next hnext

/-- The induction rule: the property holds at the start, each step of the worker's thread keeps
it, and so does each step of another one. -/
theorem worker_induct {J : WorkerTrace → WorkerState → Prop} (h0 : J [] (workerStart w))
    (hworker : ∀ tr g pc e pc', WorkerRun w tr g → J tr g → g.thread w = pc →
      isWorker pc → WorkerStep g.shared pc e pc' → ∀ g' : WorkerState,
      g'.shared = g.shared.apply w e → g'.thread w = pc' → J (tr ++ [(g, w, e)]) g')
    (hother : ∀ tr g t pc e pc', WorkerRun w tr g → J tr g → g.thread t = pc →
      isWorker pc = false → WorkerStep g.shared pc e pc' → ∀ g' : WorkerState,
      g'.shared = g.shared.apply t e → g'.thread t = pc' → g'.thread w = g.thread w →
      (∀ u, u ≠ t → g'.thread u = g.thread u) → J (tr ++ [(g, t, e)]) g')
    (h : WorkerRun w tr g) : J tr g := by
  refine Run.induct h0 ?_ h
  rintro tr g ⟨t, e⟩ g' hrun ih hstep
  obtain ⟨pc, hpc, hrole, hs, hsh, hothers⟩ := step_cases hrun hstep
  by_cases ht : t = w
  · subst ht
    exact hworker tr g pc e _ hrun ih hpc (by simpa using hrole) hs g' hsh rfl
  · exact hother tr g t pc e _ hrun ih hpc (by simpa [ht] using hrole) hs g' hsh rfl
      (hothers w (Ne.symm ht)) hothers

/-! ### The queue -/

/-- The handle whose run the worker is about to start. -/
def pending : WorkerPc → List String
  | .starting handle => [handle]
  | _ => []

/-- The handle that entered the queue in a step. -/
def entered? (i : WorkerState × ThreadId × WorkerEffect) : Option String :=
  match i.2.2 with
  | .accepted handle true => some handle
  | _ => none

/-- The handle whose run started in a step. -/
def started? (i : WorkerState × ThreadId × WorkerEffect) : Option String :=
  match i.2.2 with
  | .started handle => some handle
  | _ => none

theorem nodup_run (h : WorkerRun w tr g) : g.shared.queue.Nodup := by
  refine worker_induct (J := fun _ g => g.shared.queue.Nodup) List.nodup_nil ?_ ?_ h
  · intro tr g pc e pc' _ ih hpc hrole hs g' hsh hpc'
    rw [hsh]
    cases hs with
    | pop handle rest hqueue => exact ih.sublist (List.tail_sublist _)
    | _ => first | exact ih | cases hrole
  · intro tr g t pc e pc' _ ih hpc hrole hs g' hsh hpc' hw hothers
    rw [hsh]
    cases hs with
    | enter handle hgoing hnew =>
      refine List.nodup_append.mpr ⟨ih, by simp, fun a ha b hb => ?_⟩
      rw [List.mem_singleton.mp hb]
      exact fun hab => hnew (hab ▸ ha)
    | _ => first | exact ih | cases hrole

theorem fifo_run (h : WorkerRun w tr g) :
    tr.filterMap started? ++ pending (g.thread w) ++ g.shared.queue = tr.filterMap entered? := by
  refine worker_induct (J := fun tr g =>
    tr.filterMap started? ++ pending (g.thread w) ++ g.shared.queue = tr.filterMap entered?)
    ?_ ?_ ?_ h
  · simp [workerStart, pending]
  · intro tr g pc e pc' _ ih hpc hrole hs g' hsh hpc'
    rw [hsh, hpc', List.filterMap_append, List.filterMap_append]
    rw [hpc] at ih
    cases hs with
    | pop handle rest hqueue =>
      simpa [List.filterMap_cons, started?, entered?, pending, hqueue, WorkerShared.apply] using ih
    | _ => first
      | simpa [List.filterMap_cons, started?, entered?, pending, WorkerShared.apply] using ih
      | cases hrole
  · intro tr g t pc e pc' _ ih hpc hrole hs g' hsh hpc' hw hothers
    rw [hsh, hw, List.filterMap_append, List.filterMap_append]
    cases hs with
    | enter handle hgoing hnew =>
      simp only [WorkerShared.apply, ← ih]
      simp [List.filterMap_cons, started?, entered?]
    | _ => first
      | simpa [List.filterMap_cons, started?, entered?, WorkerShared.apply] using ih
      | cases hrole

/-! ### The wait -/

/-- The thread is about to notify. -/
def notifies : WorkerPc → Bool
  | .postNotify | .stopNotify => true
  | _ => false

/-- While the worker is blocked it is in the wait, and where there is something to do some thread
is about to notify it. -/
def Awake (w : ThreadId) (g : WorkerState) : Prop :=
  g.shared.sleeping → g.thread w = .waiting ∧
    (g.shared.queue ≠ [] ∨ g.shared.stopping → ∃ t, notifies (g.thread t))

theorem awake_run (h : WorkerRun w tr g) : Awake w g := by
  refine worker_induct (J := fun _ g => Awake w g) (by simp [Awake, workerStart]) ?_ ?_ h
  · intro tr g pc e pc' _ ih hpc hrole hs g' hsh hpc' hsleeping
    rw [hsh] at hsleeping ⊢
    rw [hpc']
    -- the worker blocks with nothing to do; its other steps are those of one that is awake
    cases hs with
    | block hempty hgoing => exact ⟨rfl, fun hwork => by simp_all [WorkerShared.apply]⟩
    | wake => cases hsleeping
    | _ => first
      | (have hw := (ih hsleeping).1; rw [hpc] at hw; cases hw)
      | cases hrole
  · intro tr g t pc e pc' _ ih hpc hrole hs g' hsh hpc' hw hothers hsleeping
    rw [hsh] at hsleeping ⊢
    rw [hw]
    cases hs with
    | postNotify | stopNotify => cases hsleeping
    | enter handle hgoing hnew | request =>
      exact ⟨(ih hsleeping).1, fun _ => ⟨t, by rw [hpc']; rfl⟩⟩
    | coalesce | drop | join =>
      refine ⟨(ih hsleeping).1, fun hwork => ?_⟩
      obtain ⟨u, hu⟩ := (ih hsleeping).2 hwork
      refine ⟨u, ?_⟩
      by_cases hut : u = t
      · rw [hut, hpc] at hu
        cases hu
      · rw [hothers u hut]
        exact hu
    | _ => cases hrole

/-! ### The end -/

/-- The worker's thread has ended only after a stop was requested, with nothing left to do. -/
def Ended (w : ThreadId) (g : WorkerState) : Prop :=
  (g.shared.exited ↔ g.thread w = .ended) ∧
    (g.thread w = .ended → g.shared.stopping ∧ g.shared.queue = [])

theorem ended_run (h : WorkerRun w tr g) : Ended w g := by
  refine worker_induct (J := fun _ g => Ended w g) (by simp [Ended, workerStart]) ?_ ?_ h
  · intro tr g pc e pc' _ ih hpc hrole hs g' hsh hpc'
    unfold Ended at ih ⊢
    rw [hsh, hpc']
    rw [hpc] at ih
    cases hs with
    | exit hempty hstop => exact ⟨by simp [WorkerShared.apply], fun _ => ⟨hstop, hempty⟩⟩
    | _ => simpa [WorkerShared.apply] using ih
  · intro tr g t pc e pc' _ ih hpc hrole hs g' hsh hpc' hw hothers
    unfold Ended at ih ⊢
    rw [hw, hsh]
    cases hs with
    | enter handle hgoing hnew =>
      refine ⟨ih.1, fun hended => ?_⟩
      -- nothing enters the queue once a stop was requested
      rw [(ih.2 hended).1] at hgoing
      cases hgoing
    | request => exact ⟨ih.1, fun hended => ⟨rfl, (ih.2 hended).2⟩⟩
    | _ => first | exact ih | cases hrole

/-! ### Every accepted post is covered -/

/-- The post accepted by a step. -/
def accepted? (i : WorkerState × ThreadId × WorkerEffect) : Option String :=
  match i.2.2 with
  | .accepted handle _ => some handle
  | _ => none

/-- A post of the handle, followed by the steps `tr`, is covered: a run of the handle started in
them, or is about to start, or the handle is in the queue. -/
def Covered (w : ThreadId) (handle : String) (tr : WorkerTrace) (g : WorkerState) : Prop :=
  (∃ j ∈ tr, started? j = some handle) ∨ g.thread w = .starting handle ∨ handle ∈ g.shared.queue

variable {handle : String} {l : ThreadId × WorkerEffect}

theorem covered_of_accepted {g : WorkerState}
    (hrun : WorkerRun w tr g) (hstep : reissueWorker.lts.step g l g')
    (hi : accepted? (g, l) = some handle) : Covered w handle [] g' := by
  obtain ⟨t, e⟩ := l
  obtain ⟨pc, -, -, hs, hsh, -⟩ := step_cases hrun hstep
  refine .inr (.inr ?_)
  rw [hsh]
  generalize g'.thread t = pc' at hs
  cases hs with
  | enter handle' hgoing hnew =>
    obtain rfl : handle' = handle := Option.some.inj hi
    simp [WorkerShared.apply]
  | coalesce handle' hgoing hqueued =>
    obtain rfl : handle' = handle := Option.some.inj hi
    exact hqueued
  | _ => cases hi

/-- A covered post stays covered: its handle leaves the queue for the worker's next run. -/
theorem covered_step {g : WorkerState}
    {behind : WorkerTrace} (hrun : WorkerRun w tr g) (hstep : reissueWorker.lts.step g l g')
    (h : Covered w handle behind g) : Covered w handle (behind ++ [(g, l)]) g' := by
  obtain ⟨t, e⟩ := l
  obtain ⟨pc, hpc, hrole, hs, hsh, hothers⟩ := step_cases hrun hstep
  rcases h with ⟨j, hj, hstarted⟩ | hstarting | hqueued
  · exact .inl ⟨j, List.mem_append_left _ hj, hstarted⟩
  · -- the worker is about to start the run
    rcases eq_or_ne t w with rfl | ht
    · obtain rfl : pc = .starting handle := hpc.symm.trans hstarting
      generalize g'.thread t = pc' at hs
      cases hs
      exact .inl ⟨_, List.mem_concat_self, rfl⟩
    · exact .inr (.inl (by rw [hothers w (Ne.symm ht)]; exact hstarting))
  · generalize hpc' : g'.thread t = pc' at hs
    cases hs with
    | pop handle' rest hqueue =>
      obtain rfl : t = w := by simpa [isWorker] using hrole
      rw [hqueue] at hqueued
      rcases List.mem_cons.mp hqueued with rfl | hrest
      · exact .inr (.inl hpc')
      · exact .inr (.inr (by rw [hsh]; simpa [WorkerShared.apply, hqueue] using hrest))
    | enter handle' hgoing hnew =>
      exact .inr (.inr (by rw [hsh]; exact List.mem_append_left _ hqueued))
    | _ => exact .inr (.inr (by rw [hsh]; exact hqueued))

theorem covered_run (h : WorkerRun w tr g) {tr₁ tr₂ : WorkerTrace}
    {i : WorkerState × ThreadId × WorkerEffect} (htr : tr = tr₁ ++ i :: tr₂)
    (hi : accepted? i = some handle) : Covered w handle tr₂ g :=
  Run.after_event (K := Covered w) (fun _ _ _ _ _ hr hs he => covered_of_accepted hr hs he)
    (fun _ _ _ _ _ _ hr hs hk => covered_step hr hs hk) h htr hi

/-! ### The worker goes on -/

/-- The steps by which the worker goes on: no thread posts or stops, the worker wakes only when it
was notified, and every run ends as `threw` says. -/
def goesOn (threw : Bool) : WorkerEffect → Bool
  | .accepted _ _ | .dropped _ | .stopRequested | .woken true => false
  | .finished _ b => b = threw
  | _ => true

/-- How far the worker is from the end of its round, the queue apart. -/
def workerRank : WorkerPc → Nat
  | .starting _ => 4
  | .running _ => 3
  | .waiting => 2
  | .check => 1
  | _ => 0

/-- The measure that the worker's next step lowers, and the notification it waits for. -/
def workLeft (w : ThreadId) (g : WorkerState) : Nat :=
  4 * g.shared.queue.length + workerRank (g.thread w) + g.shared.sleeping.toNat

/-- There is something to do: a handle is queued, a run is about to start, or the worker has to
end. -/
def Busy (w : ThreadId) (g : WorkerState) : Prop :=
  g.shared.queue ≠ [] ∨ (∃ handle, g.thread w = .starting handle) ∨
    (g.shared.stopping ∧ g.shared.exited = false)

/-- Where there is something to do, a step of the worker, or the notification it waits for, gets
closer to it. -/
theorem busy_step (threw : Bool) (h : WorkerRun w tr g) (hbusy : Busy w g) :
    ∃ l g', reissueWorker.lts.step g l g' ∧ goesOn threw l.2 ∧ workLeft w g' < workLeft w g := by
  -- a step of the worker's thread that lowers the measure
  have hworker : ∀ c e pc', workerNext g.shared (g.thread w) c = some (e, pc') →
      goesOn threw e →
      4 * (g.shared.apply w e).queue.length + workerRank pc' +
        (g.shared.apply w e).sleeping.toNat < workLeft w g →
      ∃ l g', reissueWorker.lts.step g l g' ∧ goesOn threw l.2 ∧
        workLeft w g' < workLeft w g := by
    intro c e pc' hnext hon hlt
    obtain ⟨g', hstep, hsh, hth, -⟩ := Machine.exists_step (M := reissueWorker) hnext
    have hsh : g'.shared = g.shared.apply w e := hsh
    exact ⟨(w, e), g', hstep, hon, by simpa [workLeft, hsh, hth] using hlt⟩
  have hrole := role_run h w
  have hended := ended_run h
  cases hpc : g.thread w with
  | idle | postNotify | stopNotify | stopJoin => simp [hpc, isWorker] at hrole
  | ended =>
    -- a worker that has ended has nothing to do
    have hexited : g.shared.exited := hended.1.mpr hpc
    have hempty := (hended.2 hpc).2
    rcases hbusy with hqueue | ⟨handle, hstarting⟩ | ⟨-, hnot⟩
    · exact absurd hempty hqueue
    · rw [hpc] at hstarting
      cases hstarting
    · rw [hexited] at hnot
      cases hnot
  | starting handle =>
    refine hworker .go (.started handle) (.running handle) (by rw [hpc]; rfl) rfl ?_
    simp only [workLeft, hpc, WorkerShared.apply, workerRank]
    omega
  | running handle =>
    refine hworker (.finish threw) (.finished handle threw) .check (by rw [hpc]; rfl)
      (by simp [goesOn]) ?_
    simp only [workLeft, hpc, WorkerShared.apply, workerRank]
    omega
  | check =>
    cases hqueue : g.shared.queue with
    | cons handle rest =>
      refine hworker .go (.popped handle) (.starting handle)
        (by rw [hpc]; simp [workerNext, hqueue]) rfl ?_
      simp only [workLeft, hpc, WorkerShared.apply, workerRank, hqueue, List.tail_cons,
        List.length_cons]
      omega
    | nil =>
      have hstop : g.shared.stopping := by
        rcases hbusy with hne | ⟨handle, hstarting⟩ | ⟨hstop, -⟩
        · exact absurd hqueue hne
        · rw [hpc] at hstarting
          cases hstarting
        · exact hstop
      refine hworker .go .exited .ended (by rw [hpc]; simp [workerNext, hqueue, hstop]) rfl ?_
      simp only [workLeft, hpc, WorkerShared.apply, workerRank]
      omega
  | waiting =>
    cases hsleeping : g.shared.sleeping with
    | false =>
      refine hworker .go (.woken false) .check (by rw [hpc]; simp [workerNext, hsleeping]) rfl ?_
      simp [workLeft, hpc, hsleeping, WorkerShared.apply, workerRank]
    | true =>
      -- the worker is blocked, so the notification is on its way
      have hwork : g.shared.queue ≠ [] ∨ g.shared.stopping = true := by
        rcases hbusy with hne | ⟨handle, hstarting⟩ | ⟨hstop, -⟩
        · exact .inl hne
        · rw [hpc] at hstarting
          cases hstarting
        · exact .inr hstop
      obtain ⟨t, ht⟩ := (awake_run h hsleeping).2 hwork
      have htw : w ≠ t := by
        rintro rfl
        rw [hpc] at ht
        cases ht
      obtain ⟨pc', hnext⟩ : ∃ pc', workerNext g.shared (g.thread t) .go = some (.notify, pc') := by
        cases hpct : g.thread t <;> simp_all [notifies, workerNext]
      obtain ⟨g', hstep, hsh, -, hothers⟩ := Machine.exists_step (M := reissueWorker) hnext
      have hsh : g'.shared = g.shared.apply t .notify := hsh
      refine ⟨(t, .notify), g', hstep, rfl, ?_⟩
      simp [workLeft, hsh, hothers w htw, hsleeping, WorkerShared.apply]

theorem goesOn_run (threw : Bool) (h : WorkerRun w tr g) :
    ∃ tr' g', Run reissueWorker.lts g tr' g' ∧ (∀ i ∈ tr', goesOn threw i.2.2) ∧ ¬ Busy w g' := by
  obtain ⟨tr', g', hrun, hon, -, hidle⟩ := Run.reaches_by (T := reissueWorker.lts)
    (I := fun s => ∃ tr, WorkerRun w tr s) (G := fun s => ¬ Busy w s)
    (L := fun l => goesOn threw l.2) (workLeft w)
    (by
      rintro s ⟨tr, hs⟩ hbusy
      obtain ⟨l, s', hstep, hl, hlt⟩ := busy_step threw hs (not_not.mp hbusy)
      exact ⟨_, s', Run.single hstep, by simpa using hl, ⟨_, hs.snoc hstep⟩, .inr hlt⟩)
    ⟨tr, h⟩
  exact ⟨tr', g', hrun, hon, hidle⟩

theorem started_of_idle (h : Covered w handle tr g) (hidle : ¬ Busy w g) :
    ∃ j ∈ tr, started? j = some handle := by
  rcases h with hstarted | hstarting | hqueued
  · exact hstarted
  · exact absurd (.inr (.inl ⟨handle, hstarting⟩)) hidle
  · exact absurd (.inl (List.ne_nil_of_mem hqueued)) hidle

end

/-- No re-assert is lost, in every interleaving of posts, the worker and stops:

- the queue holds each handle at most once;
- when `stop` returns, every accepted post has been followed by the start of a run of its handle;
- the runs start in the order in which the handles entered the queue;
- a run that throws does not prevent the later ones: from every state, a queued handle's run
  starts although every run throws;
- and a stop that was requested ends the worker, so `stop` does return. -/
theorem no_reassert_lost (w : ThreadId) (tr : WorkerTrace) (g : WorkerState)
    (h : WorkerRun w tr g) : g.shared.queue.Nodup ∧
    (∀ t g', reissueWorker.lts.step g (t, .stopped) g' → ∀ tr₁ i tr₂ handle,
      tr = tr₁ ++ i :: tr₂ → accepted? i = some handle →
      ∃ j ∈ tr₂, started? j = some handle) ∧
    tr.filterMap started? <+: tr.filterMap entered? ∧
    (∀ handle ∈ g.shared.queue, ∀ threw, ∃ tr' g', Run reissueWorker.lts g tr' g' ∧
      (∀ i ∈ tr', goesOn threw i.2.2) ∧ ∃ j ∈ tr', started? j = some handle) ∧
    (g.shared.stopping → ∀ threw, ∃ tr' g', Run reissueWorker.lts g tr' g' ∧
      (∀ i ∈ tr', goesOn threw i.2.2) ∧ g'.shared.exited) := by
  refine ⟨nodup_run h, ?_, ?_, ?_, ?_⟩
  · intro t g' hstep tr₁ i tr₂ handle htr hi
    obtain ⟨pc, -, -, hs, -, -⟩ := step_cases h hstep
    generalize g'.thread t = pc' at hs
    cases hs with
    | join hexited =>
      -- the worker has ended, with an empty queue
      have hended := ended_run h
      have hw : g.thread w = .ended := hended.1.mp hexited
      refine started_of_idle (covered_run h htr hi) ?_
      rintro (hqueue | ⟨handle', hstarting⟩ | ⟨-, hnot⟩)
      · exact hqueue (hended.2 hw).2
      · rw [hw] at hstarting
        cases hstarting
      · rw [hexited] at hnot
        cases hnot
  · rw [← fifo_run h, List.append_assoc]
    exact List.prefix_append _ _
  · intro handle hqueued threw
    obtain ⟨tr', g', hrun, hon, hidle⟩ := goesOn_run threw h
    refine ⟨tr', g', hrun, hon, started_of_idle ?_ hidle⟩
    -- the queued handle stays covered along the way
    have hcovered : Covered w handle [] g := Or.inr (Or.inr hqueued)
    clear hon hidle
    induction hrun with
    | refl => exact hcovered
    | snoc hr hs ih => exact covered_step (h.append hr) hs ih
  · intro hstop threw
    obtain ⟨tr', g', hrun, hon, hidle⟩ := goesOn_run threw h
    refine ⟨tr', g', hrun, hon, ?_⟩
    have hstopping : g'.shared.stopping := by
      refine (Run.keeps (P := fun s : WorkerState => s.shared.stopping)
        (L := fun _ => True) ?_ hrun (fun _ _ => trivial) hstop).1
      intro s l s' hs _ hstep
      obtain ⟨-, -, -, hsh, -, -⟩ := Machine.step_inv hstep
      have hsh : s'.shared = s.shared.apply l.1 l.2 := hsh
      rw [hsh]
      cases he : l.2 with
      | accepted handle entered => cases entered <;> exact hs
      | stopRequested => rfl
      | _ => exact hs
    by_contra hnot
    exact hidle (Or.inr (Or.inr ⟨hstopping, by simpa using hnot⟩))

/-- Thread 1 posts a handle, and again while its run is going on, and once more while it waits;
the first run throws. Then thread 1 stops the worker, thread 0, which runs the handle again. -/
def postTwice : List (ThreadId × WorkerChoice) :=
  [(1, .post "sim0/valve"), (1, .go), (0, .go), (0, .go), (1, .post "sim0/valve"),
    (1, .go), (1, .post "sim0/valve"), (0, .finish true), (1, .stop), (1, .go), (0, .go), (0, .go),
    (0, .finish false), (0, .go)]

/-- Each of the three accepted posts is followed by the start of a run before the stop returns. -/
theorem no_reassert_lost_twice :
    ∃ tr g g', WorkerRun 0 tr g ∧ reissueWorker.lts.step g (1, .stopped) g' ∧
      tr.filterMap accepted? = ["sim0/valve", "sim0/valve", "sim0/valve"] ∧
      tr.filterMap started? = ["sim0/valve", "sim0/valve"] ∧
      ∀ tr₁ i tr₂ handle, tr = tr₁ ++ i :: tr₂ → accepted? i = some handle →
        ∃ j ∈ tr₂, started? j = some handle := by
  obtain ⟨tr, g, hrun, hp⟩ := Machine.run_of_passes reissueWorker (workerStart 0) postTwice
    (fun tr g => tr.filterMap accepted? = ["sim0/valve", "sim0/valve", "sim0/valve"] ∧
      tr.filterMap started? = ["sim0/valve", "sim0/valve"] ∧ g.thread 1 = .stopJoin ∧
      g.shared.exited) (by decide)
  obtain ⟨haccepted, hstarted, hjoin, hexited⟩ := hp
  have hnext : reissueWorker.next g.shared 1 (g.thread 1) .go = some (.stopped, .idle) := by
    rw [hjoin]
    simp [reissueWorker, workerNext, hexited]
  obtain ⟨g', hstep, -, -, -⟩ := Machine.exists_step hnext
  exact ⟨tr, g, g', hrun, hstep, haccepted, hstarted, (no_reassert_lost 0 tr g hrun).2.1 1 g' hstep⟩

end Anolis.Proofs.Reissue
