import Anolis.Runtime.System

/-!
# An observed stop holds the latch

`update_stop_chain` runs on the main loop: `update` classifies a reading, and only when it
reports a change into a state that holds (InForce or Unknown), `hold` engages the latch. While
the stop lasts, `hold` is not repeated, so the latch must survive every `clear` of another
thread.

`observed_stop_latched` says that it does. The invariant (`StopHeld`): while the observed state
holds, the main loop has still to reach the latch check of its `hold`, or the latch is engaged
and no `clear` is past its guard. The second half is what carries it: the guard refuses while
the state holds, and a `clear` that was past it before the `update` is ordered by the
controller's mutex, before the `hold` looks at the latch.
-/

namespace Anolis.Proofs.ObservedStop

open Anolis.Runtime Control Lib

variable {cfg : SystemConfig} {t : ThreadId} {e : Effect} {tr : SystemTrace} {g g' : SystemState}

/-- Is the step an `update` of the stop monitor. -/
def isObserve (i : SystemState × ThreadId × Effect) : Bool :=
  i.2.2 matches .control (.observe _)

/-- The main loop is between its last `update` and the end of the `hold` that follows it: it has
been inside `update_stop_chain` ever since. -/
def Updating (cfg : SystemConfig) (tr : SystemTrace) (g : SystemState) : Prop :=
  (g.thread cfg.mainThread).op ≠ .idle ∧
    ∀ i ∈ (sinceLast isObserve tr).tail, (i.1.thread cfg.mainThread).op ≠ .idle

/-- Places of the main loop between an `update` that reported a change and the step of its
`hold` that looks at the latch. -/
def pending : Op → Bool
  | .holds | .hold .lock | .hold .engage => true
  | _ => false

/-- While the observed state holds, the latch is engaged and no `clear` is past its guard, or
the main loop's `hold` is still to come. -/
def StopHeld (cfg : SystemConfig) (tr : SystemTrace) (g : SystemState) : Prop :=
  g.shared.stopChain.sinceEpochMs.isSome → g.shared.stopChain.state.holds →
    (pending (g.thread cfg.mainThread).op ∧ Updating cfg tr g) ∨
      (g.shared.latched ∧ ∀ t, (g.thread t).op ≠ .clear .release)

/-! ### Operations -/

theorem pending_callReturned (op : Op) (result : CallResult) :
    pending (op.callReturned result) = pending op := by
  unfold Op.callReturned
  split <;> rfl

theorem pending_modeReturned {op : Op} (h : pending op) : op.modeReturned = op := by
  unfold Op.modeReturned
  split <;> first | rfl | cases h

/-- A call or a `set_mode` that returns brings no operation to a `clear`'s release, nor to the
monitor's `update`. -/
theorem eq_of_returned {op op' : Op} (hop : op' = .clear .release ∨ op' = .updateStopChain)
    (h : op' = op ∨ (∃ result, op' = op.callReturned result) ∨ op' = op.modeReturned) :
    op = op' := by
  rcases h with h | ⟨result, h⟩ | h
  · exact h.symm
  · unfold Op.callReturned at h
    split at h <;> rcases hop with rfl | rfl <;> first | exact h.symm | cases h
  · unfold Op.modeReturned at h
    split at h <;> rcases hop with rfl | rfl <;> first | exact h.symm | cases h

section
variable {sh : Shared} {th th' : Thread}

/-- A thread comes to the release of a `clear` by the guard, which has just let it through. -/
theorem release_of_step (h : ThreadStep cfg sh t th e th') (hop : th'.op = .clear .release) :
    th.op = .clear .release ∨ (e = .control .clearAllowed ∧
      (cfg.safety.status.isSome → sh.stopChain.state.holds = false)) := by
  rcases h.op_cases with ⟨op, e', n, rfl, -, -, -, h, hn⟩ | ⟨-, hsame⟩
  · rw [hop] at hn
    -- the release is a variable here, so that the cases of `h` keep `hn` as an equation
    generalize hrel : Op.clear .release = rel at hn
    cases h <;> try (cases hn; cases hrel)
    · rename_i hs
      have hlocked := startOp_locked hs
      rw [← hn, ← hrel] at hlocked
      cases hlocked
    · rename_i hguard
      exact .inr ⟨rfl, fun hs => (StopChainSnapshot.clearRefusal_eq_none_iff _).mp (hguard hs)⟩
  · rw [hop] at hsame
    exact .inl (eq_of_returned (.inl rfl) hsame)

theorem update_of_step (h : ThreadStep cfg sh t th e th') (hop : th'.op = .updateStopChain) :
    th.op = .updateStopChain ∨ t = cfg.mainThread := by
  rcases h.op_cases with ⟨op, e', n, rfl, -, -, -, h, hn⟩ | ⟨-, hsame⟩
  · rw [hop] at hn
    generalize hrel : Op.updateStopChain = rel at hn
    cases h <;> try (cases hn; cases hrel)
    rename_i start hs
    right
    revert hs
    fun_cases startOp cfg t start <;> intro hs <;>
      simp only [Option.some.injEq, reduceCtorEq] at hs
    all_goals
      subst hs
      subst hn
    case case8 hmain => exact hmain.1
    all_goals cases hrel
  · rw [hop] at hsame
    exact .inl (eq_of_returned (.inr rfl) hsame)

end

theorem update_on_main {cfg : SystemConfig} {g₀ g : SystemState} {tr : SystemTrace}
    (h0 : SystemStart g₀) (h : SystemRun cfg g₀ tr g) :
    ∀ t, (g.thread t).op = .updateStopChain → t = cfg.mainThread := by
  refine thread_run (C := fun _ _ => True)
    (P := fun t th => th.op = .updateStopChain → t = cfg.mainThread) h0 ?_ ?_ h (fun _ _ => trivial)
  · intro t ht
    cases ht
  · intro g t e th' _ hts hth ht
    rcases update_of_step hts ht with hop | hmain
    · exact hth hop
    · exact hmain

/-! ### The invariant -/

theorem Updating.step (h : Updating cfg tr g) (he : isObserve (g, t, e) = false)
    (hop : (g'.thread cfg.mainThread).op ≠ .idle) : Updating cfg (tr ++ [(g, t, e)]) g' := by
  refine ⟨hop, fun i hi => ?_⟩
  rw [sinceLast_snoc, he, if_neg (by simp)] at hi
  cases hs : sinceLast isObserve tr with
  | nil => simp [hs] at hi
  | cons j rest =>
    rw [hs, List.cons_append, List.tail_cons] at hi
    exact forall_snoc (fun i hi => h.2 i (by rw [hs]; exact hi)) h.1 i hi

/-- The latch stays engaged, with no `clear` past its guard, while the observed state holds. -/
theorem held_step (hstatus : cfg.safety.status.isSome) (hholds : g.shared.stopChain.state.holds)
    (hg : g.shared.latched ∧ ∀ t, (g.thread t).op ≠ .clear .release)
    (hstep : (system cfg).lts.step g (t, e) g') :
    g'.shared.latched ∧ ∀ t, (g'.thread t).op ≠ .clear .release := by
  obtain ⟨th', hth, hts, hsh, hother⟩ := system_step hstep
  refine ⟨?_, fun u hu => ?_⟩
  · rw [hsh]
    refine Shared.latched_apply (fun he => ?_) hg.1
    -- a step that unlatches is at the release
    subst he
    cases hts with
    | op _ _ hop h =>
      cases h
      exact hg.2 t hop
  · rcases eq_or_ne u t with rfl | hut
    · rcases release_of_step hts (hth ▸ hu) with hop | ⟨-, hclear⟩
      · exact hg.2 u hop
      · -- the guard lets no `clear` through while the observed state holds
        rw [hclear hstatus] at hholds
        cases hholds
    · exact hg.2 u (hother u hut ▸ hu)

/-- A step of the main loop's pending `hold`: it stays pending, or it looks at the latch and
leaves it engaged. -/
theorem pending_step {sh : Shared} {th th' : Thread} (h : ThreadStep cfg sh t th e th')
    (hholds : sh.stopChain.state.holds) (hop : pending th.op) :
    isObserve (g, t, e) = false ∧ (pending th'.op ∨
      ((sh.apply t e).latched ∧ th'.holdsController)) := by
  rcases h.op_cases with ⟨op, e', n, rfl, -, -, hop', h, hn⟩ | ⟨hne, hsame⟩
  · rw [hop'] at hop
    simp only [hn, Thread.holdsController]
    cases h
    case holds | holdLock => exact ⟨rfl, .inl rfl⟩
    case holdsNot hno => simp [hholds] at hno
    case holdAlready hlatched => exact ⟨rfl, .inr ⟨hlatched, rfl⟩⟩
    case holdEngage => exact ⟨rfl, .inr ⟨rfl, rfl⟩⟩
    all_goals cases hop
  · refine ⟨?_, .inl ?_⟩
    · cases e with
      | control e => exact absurd rfl (hne e)
      | _ => rfl
    · rcases hsame with h | ⟨result, h⟩ | h
      · rw [h, hop]
      · rw [h, pending_callReturned, hop]
      · rw [h, pending_modeReturned hop, hop]

theorem stopChain_apply {sh : Shared} (he : isObserve (g, t, e) = false) :
    (sh.apply t e).stopChain = sh.stopChain := by
  cases e with
  | call e | mode e => simp [Shared.apply]
  | control e =>
    cases e with
    | observe snapshot => cases he
    | _ => rfl

section
variable {g₀ : SystemState}

/-- An `update` keeps the invariant: it reports a change, and the `hold` is pending, or the
state it found was there before. -/
theorem stopHeld_observe (hstatus : cfg.safety.status.isSome)
    (hmain : ∀ t, (g.thread t).op = .updateStopChain → t = cfg.mainThread)
    (hg : StopHeld cfg tr g) (he : isObserve (g, t, e))
    (hstep : (system cfg).lts.step g (t, e) g') : StopHeld cfg (tr ++ [(g, t, e)]) g' := by
  obtain ⟨th', hth, hts, hsh, -⟩ := system_step hstep
  intro _ hholds
  rcases hts.op_cases with ⟨op, e', n, rfl, -, -, hop, h, hn⟩ | ⟨hne, -⟩
  · cases h <;> try cases he
    · -- a change is reported: the main loop goes on to its `hold`
      rename_i state reason nowMs hchange
      obtain rfl := hmain t hop
      left
      rw [hth, hn]
      refine ⟨rfl, by rw [hth, hn]; simp [OpNext.op], ?_⟩
      simp [sinceLast_snoc, isObserve]
    · -- nothing is reported: the state held before, and then the latch was engaged for it
      rename_i state reason nowMs hsame
      obtain rfl := hmain t hop
      obtain ⟨hstate, hsince⟩ := StopChainSnapshot.update_unchanged hsame
      have hstate' := (StopChainSnapshot.update_state g.shared.stopChain state reason nowMs).1
      rw [hsh] at hholds
      have hbefore : g.shared.stopChain.state.holds := by
        rw [hstate, ← hstate']
        exact hholds
      rcases hg hsince hbefore with ⟨hpending, -⟩ | hheld
      · rw [hop] at hpending
        cases hpending
      · exact .inr (held_step hstatus hbefore hheld hstep)
  · cases e with
    | control e => exact absurd rfl (hne e)
    | _ => cases he

theorem stopHeld_step (hstatus : cfg.safety.status.isSome) (h0 : SystemStart g₀)
    (hrun : SystemRun cfg g₀ tr g) (hg : StopHeld cfg tr g)
    (hstep : (system cfg).lts.step g (t, e) g') : StopHeld cfg (tr ++ [(g, t, e)]) g' := by
  cases he : isObserve (g, t, e) with
  | true => exact stopHeld_observe hstatus (update_on_main h0 hrun) hg he hstep
  | false =>
    obtain ⟨th', hth, hts, hsh, hother⟩ := system_step hstep
    intro hsince hholds
    rw [hsh, stopChain_apply he] at hsince hholds
    rcases hg hsince hholds with ⟨hpending, hupdating⟩ | hheld
    · rcases eq_or_ne t cfg.mainThread with rfl | ht
      · obtain ⟨-, hstay | ⟨hlatched, hlock⟩⟩ := pending_step hts hholds hpending (g := g)
        · refine .inl ⟨by rw [hth]; exact hstay, hupdating.step he fun hidle => ?_⟩
          rw [hth] at hidle
          rw [hidle] at hstay
          cases hstay
        · -- the `hold` has looked at the latch, under the mutex that a `clear` would hold
          refine .inr ⟨by rw [hsh]; exact hlatched, fun u hu => ?_⟩
          have hu' : u = cfg.mainThread :=
            Machine.lock_excl (controllerLock_run h0 (hrun.snoc hstep))
              (by simp [Thread.holdsController, hu, Op.locked]) (by rw [hth]; exact hlock)
          subst hu'
          rw [hth] at hu
          rcases release_of_step hts hu with hop | ⟨rfl, -⟩
          · rw [hop] at hpending
            cases hpending
          · cases hts with
            | op _ _ hop h =>
              cases h
              rw [hop] at hpending
              cases hpending
      · -- another thread's step leaves the main loop where it is
        rw [← hother _ (Ne.symm ht)] at hpending
        refine .inl ⟨hpending, hupdating.step he fun hidle => ?_⟩
        rw [hidle] at hpending
        cases hpending
    · exact .inr (held_step hstatus hholds hheld hstep)

theorem stopHeld_run (hstatus : cfg.safety.status.isSome) (h0 : SystemStart g₀)
    (hfresh : g₀.shared.stopChain.sinceEpochMs = none) (h : SystemRun cfg g₀ tr g) :
    StopHeld cfg tr g := by
  refine Run.induct (J := StopHeld cfg) ?_ ?_ h
  · intro hsince
    rw [hfresh] at hsince
    cases hsince
  · exact fun tr g l g' hrun hg hstep => stopHeld_step hstatus h0 hrun hg hstep

theorem since_run (h : SystemRun cfg g₀ tr g) (hobserved : ∃ i ∈ tr, isObserve i) :
    g.shared.stopChain.sinceEpochMs.isSome := by
  refine Run.induct (J := fun tr g => (∃ i ∈ tr, isObserve i) →
    g.shared.stopChain.sinceEpochMs.isSome) ?_ ?_ h hobserved
  · simp
  · rintro tr g ⟨t, e⟩ g' - ih hstep ⟨i, hi, hobs⟩
    obtain ⟨th', -, hts, hsh, -⟩ := system_step hstep
    rw [hsh]
    cases he : isObserve (g, t, e) with
    | true =>
      rcases hts.op_cases with ⟨op, e', n, rfl, -, -, -, h, -⟩ | ⟨hne, -⟩
      · cases h <;> try cases he
        all_goals exact (StopChainSnapshot.update_state ..).2
      · cases e with
        | control e => exact absurd rfl (hne e)
        | _ => cases he
    | false =>
      rw [stopChain_apply he]
      rcases List.mem_append.mp hi with hi | hi
      · exact ih ⟨i, hi, hobs⟩
      · rw [List.mem_singleton.mp hi, he] at hobs
        cases hobs

/-- A `clear` at its release was let through by the guard, in its last step. -/
theorem allowed_run (hstatus : cfg.safety.status.isSome) (h0 : SystemStart g₀)
    (h : SystemRun cfg g₀ tr g) : ∀ t, (g.thread t).op = .clear .release →
      ∃ tr₁ s tr₂, tr = tr₁ ++ (s, t, .control .clearAllowed) :: tr₂ ∧
        s.shared.stopChain.state.holds = false ∧ ∀ i ∈ tr₂, i.2.1 ≠ t := by
  refine Run.induct (J := fun tr g => ∀ t, (g.thread t).op = .clear .release →
      ∃ tr₁ s tr₂, tr = tr₁ ++ (s, t, .control .clearAllowed) :: tr₂ ∧
        s.shared.stopChain.state.holds = false ∧ ∀ i ∈ tr₂, i.2.1 ≠ t) ?_ ?_ h
  · intro t ht
    rw [h0.idle] at ht
    cases ht
  · rintro tr g ⟨u, e⟩ g' hrun ih hstep t ht
    obtain ⟨th', hth, hts, -, hother⟩ := system_step hstep
    rcases eq_or_ne t u with rfl | htu
    · rw [hth] at ht
      rcases release_of_step hts ht with hop | ⟨rfl, hclear⟩
      · -- the step from the release leaves it
        exfalso
        obtain ⟨-, e', n, rfl, rfl, h⟩ := (shaped_run h0 hrun t).op_step hts hop rfl rfl
        cases h
        cases ht
      · exact ⟨tr, g, [], rfl, hclear hstatus, by simp⟩
    · rw [hother t htu] at ht
      obtain ⟨tr₁, s, tr₂, rfl, hclear, hnone⟩ := ih t ht
      exact ⟨tr₁, s, tr₂ ++ [(g, u, e)], by simp, hclear, forall_snoc hnone (Ne.symm htu)⟩

end

/-- With a stop status configured, in every run that starts before the first `update`:

- after the first `update`, where the monitor's state is InForce or Unknown and the main loop is
  not between its `update` and the end of its `hold`, the latch is engaged;
- a `clear` that releases the latch judged its guard in a state that was neither, and this was
  its step before the release. -/
theorem observed_stop_latched (cfg : SystemConfig) {g₀ g : SystemState} {tr : SystemTrace}
    (hstatus : cfg.safety.status.isSome) (h0 : SystemStart g₀)
    (hfresh : g₀.shared.stopChain.sinceEpochMs = none) (hrun : SystemRun cfg g₀ tr g) :
    ((∃ i ∈ tr, isObserve i) → g.shared.stopChain.state.holds →
      ¬ Updating cfg tr g → g.shared.latched) ∧
    ∀ tr₁ s t tr₂, tr = tr₁ ++ (s, t, .control .unlatch) :: tr₂ →
      ∃ tr₃ s' tr₄, tr₁ = tr₃ ++ (s', t, .control .clearAllowed) :: tr₄ ∧
        s'.shared.stopChain.state.holds = false ∧ ∀ i ∈ tr₄, i.2.1 ≠ t := by
  refine ⟨fun hobserved hholds hdone => ?_, ?_⟩
  · rcases stopHeld_run hstatus h0 hfresh hrun (since_run hrun hobserved) hholds with
      ⟨-, hupdating⟩ | ⟨hlatched, -⟩
    · exact absurd hupdating hdone
    · exact hlatched
  · rintro tr₁ s t tr₂ rfl
    obtain ⟨hrun₁, s₁, hstep, -⟩ := hrun.at_step
    obtain ⟨th', -, hts, -, -⟩ := system_step hstep
    refine allowed_run hstatus h0 hrun₁ t ?_
    cases hts with
    | op _ _ hop h =>
      cases h
      exact hop

/-- A stop status at `io0/estop/active`. -/
def stopConfig : SystemConfig where
  automation := { enabled := false }
  safety := { status := some ⟨"io0/estop/active", true⟩ }

/-- A runtime whose latch was restored, before its first `update`. -/
def restoredWorld : SystemState where
  shared := { mode := .manual, latched := true }
  thread _ := {}

theorem restoredWorld_start : SystemStart restoredWorld :=
  ⟨fun _ => rfl, rfl, rfl, fun _ => rfl, rfl⟩

/-- Thread 1 clears the latch and is past the guard when the main loop finds no reading of the
status. The release comes first, and then the `hold`. -/
def clearDuringUpdate : List (ThreadId × Choice) :=
  [(1, .start .clear), (1, .go), (1, .go), (0, .start .updateStopChain),
    (0, .reading none 0 0 1), (0, .go), (1, .go), (1, .go), (0, .go), (0, .go),
    (0, .save .saved), (0, .go)]

/-- The `hold` engages the latch again that the `clear` released. -/
theorem observed_stop_latched_race : ∃ tr g, SystemRun stopConfig restoredWorld tr g ∧
      (∃ i ∈ tr, i.1.shared.latched = false ∧ i.1.shared.stopChain.state.holds) ∧
      g.shared.latched = true := by
  obtain ⟨tr, g, hrun, hp⟩ := Machine.run_of_passes (system stopConfig) restoredWorld
    clearDuringUpdate
    (fun tr g => (∃ i ∈ tr, isObserve i) ∧ g.shared.stopChain.state.holds ∧
      (g.thread 0).op.isIdle ∧
      ∃ i ∈ tr, i.1.shared.latched = false ∧ i.1.shared.stopChain.state.holds) (by decide)
  obtain ⟨hobserved, hholds, hidle, hrace⟩ := hp
  refine ⟨tr, g, hrun, hrace,
    (observed_stop_latched stopConfig rfl restoredWorld_start rfl hrun).1 hobserved hholds
      fun hupdating => hupdating.1 (Op.isIdle_iff.mp hidle)⟩

end Anolis.Proofs.ObservedStop
