import Anolis.Proofs.TreeCalls

/-!
# What a re-entry of AUTO re-arms

The re-arm of `MANUAL -> AUTO` is an after-callback: the mode is committed, and the loss latches
are released some steps later. A device that is lost between the two is released as well, without
an operator who entered AUTO after the loss, and the cache reports a standing loss only once
(`rearm_releases_later_loss`).

A tree's call that is past its last loss check when the loss is applied is dispatched as well.
`losses_since_entry_stay_latched` says that these are the only ways. In every run that applies a
transport loss only while no `MANUAL -> AUTO` has its re-arm ahead and no such call is on its way
(`Condition`), a device that was lost after the last `MANUAL -> AUTO` is latched, and the tree does
not actuate it.
-/

namespace Anolis.Proofs.Rearm

open Anolis.Runtime Automation Control EstopBarrier Lib ModeManager TreeCalls

/-- Does the step commit `MANUAL -> AUTO`. -/
def entersAuto (i : Item) : Bool := stepCommit? i = some (.manual, .auto)

/-- The device of which the step applies a transport loss to the loss latch. -/
def lostDevice? (i : Item) : Option String :=
  match i.2.2 with
  | .control (.edge edge) => if edge.transportLoss then some edge.deviceHandle else none
  | _ => none

/-- The transport losses of the device that were applied after the last `MANUAL -> AUTO`. -/
def lossesSinceEntry (handle : String) (tr : SystemTrace) : SystemTrace :=
  (sinceLast entersAuto tr).filter fun i => lostDevice? i = some handle

/-- Does the thread have the re-arm of an AUTO it has committed ahead. -/
def rearmAhead (th : Thread) : Bool :=
  (afterWork th).any fun work => work.1 = .auto && .rearm ∈ work.2

/-- The thread's call is past its last loss check, and is a tree's call that actuates the
device. -/
def PastLoss (handle : String) (t : ThreadId) (g : SystemState) : Prop :=
  ∃ request pc target, (g.thread t).call = some ⟨request, pc⟩ ∧ pc.pastLoss = some target ∧
    request.deviceHandle = handle ∧ request.isBehaviorTree ∧ request.safeState = false ∧
    Registry.isActuating target.spec

/-- The condition on a step: it applies a transport loss only where no re-arm is ahead, and no call
of the tree that actuates the device is past its last loss check. -/
def Condition (g : SystemState) (l : ThreadId × Effect) : Prop :=
  ∀ handle, lostDevice? (g, l) = some handle →
    ∀ t, rearmAhead (g.thread t) = false ∧ ¬ PastLoss handle t g

theorem lostDevice?_eq_some {i : Item} {handle : String} (h : lostDevice? i = some handle) :
    ∃ edge, i.2.2 = .control (.edge edge) ∧ edge.deviceHandle = handle ∧ edge.transportLoss := by
  unfold lostDevice? at h
  split at h
  · rename_i edge he
    split at h
    · exact ⟨edge, he, Option.some.inj h, by assumption⟩
    · cases h
  · cases h

theorem lossesSinceEntry_snoc (handle : String) (tr : SystemTrace) (i : Item) :
    lossesSinceEntry handle (tr ++ [i]) = if entersAuto i then []
      else if lostDevice? i = some handle then lossesSinceEntry handle tr ++ [i]
      else lossesSinceEntry handle tr := by
  rw [lossesSinceEntry, sinceLast_snoc]
  split
  · rename_i henters
    -- a commit is not an edge
    have hnot : lostDevice? i ≠ some handle := by
      intro hlost
      obtain ⟨edge, he, -⟩ := lostDevice?_eq_some hlost
      simp [entersAuto, stepCommit?, he] at henters
    simp [hnot]
  · by_cases hlost : lostDevice? i = some handle <;>
      simp [List.filter_append, lossesSinceEntry, hlost]

section
variable {cfg : SystemConfig} {g g' : SystemState} {t : ThreadId} {e : Effect} {handle : String}

theorem entersAuto_of_commit {prev : RuntimeMode}
    (hplaced : ∀ t m, (g.thread t).mode = some m → m.pc.Placed g.shared.mode m.new)
    (hstep : (system cfg).lts.step g (t, .mode (.commit prev .auto)) g') : prev = .manual := by
  obtain ⟨th', -, hts, -, -⟩ := system_step hstep
  rcases hts.mode_eq with ⟨-, hno⟩ | ⟨prev', new, he, -, hm, -⟩
  · exact absurd rfl (hno prev .auto)
  · obtain ⟨rfl, rfl⟩ : prev = prev' ∧ RuntimeMode.auto = new := by simpa using he
    obtain ⟨-, hne, hvalid, -⟩ := hplaced t _ hm
    cases prev <;> simp_all [isValidTransition]

/-- Where no re-arm is ahead, a step that does not enter AUTO is none, and leaves none ahead. -/
theorem rearmAhead_step
    (hplaced : ∀ t m, (g.thread t).mode = some m → m.pc.Placed g.shared.mode m.new)
    (hstep : (system cfg).lts.step g (t, e) g') (henters : entersAuto (g, t, e) = false)
    (hnone : ∀ u, rearmAhead (g.thread u) = false) :
    e ≠ .mode (.afterFinished .rearm .manual .auto) ∧ ∀ u, rearmAhead (g'.thread u) = false := by
  obtain ⟨th', hth, hts, -, hother⟩ := system_step hstep
  suffices hown : e ≠ .mode (.afterFinished .rearm .manual .auto) ∧ rearmAhead th' = false by
    refine ⟨hown.1, fun u => ?_⟩
    by_cases hu : u = t
    · rw [hu, hth]
      exact hown.2
    · rw [hother u hu]
      exact hnone u
  have hnone := hnone t
  rcases hts.afterWork_cases with ⟨prev, new, rfl, hwork⟩ |
    ⟨callback, prev, new, rest, rfl, hwork, hwork'⟩ | ⟨new, rfl, -, hwork'⟩ | ⟨hsame, -, hfinish⟩
  · refine ⟨by simp, ?_⟩
    -- a commit of AUTO would be one from MANUAL
    have hnew : new ≠ .auto := by
      rintro rfl
      obtain rfl := entersAuto_of_commit hplaced hstep
      simp [entersAuto, stepCommit?, commit?] at henters
    simp [rearmAhead, hwork, hnew]
  · simp only [rearmAhead, hwork, hwork', Option.any_some, Bool.and_eq_false_imp,
      decide_eq_true_eq, decide_eq_false_iff_not, List.mem_cons, not_or] at hnone ⊢
    refine ⟨fun he => ?_, fun hnew => (hnone hnew).2⟩
    obtain ⟨rfl, -, rfl⟩ : callback = .rearm ∧ prev = .manual ∧ new = .auto := by simpa using he
    exact (hnone rfl).1 rfl
  · exact ⟨by simp, by simp [rearmAhead, hwork']⟩
  · exact ⟨hfinish _ _ _, by rw [rearmAhead, hsame]; exact hnone⟩

/-- A call of the tree that actuates the device gets past its last loss check in a step of its
own, which finds the device not latched. -/
theorem PastLoss.back {u : ThreadId} (hstep : (system cfg).lts.step g (t, e) g')
    (h : PastLoss handle u g') :
    PastLoss handle u g ∨ g.shared.lossLatch.latched handle = false ∧ ∃ e', e = .call e' := by
  obtain ⟨request, pc, target, hcall, hpast, hh, htree, hsafe, hact⟩ := h
  obtain ⟨th', hth, hts, -, hother⟩ := system_step hstep
  by_cases hu : u = t
  · subst hu
    rw [hth] at hcall
    rcases hts.call_cases hcall with ⟨-, rfl⟩ | ⟨pc₀, c, e', rfl, hcall₀, hnext⟩
    · cases hpast
    · rcases callNext_pastLoss hnext hpast with hpast₀ | hopen
      · exact .inl ⟨request, pc₀, target, hcall₀, hpast₀, hh, htree, hsafe, hact⟩
      · refine .inr ⟨?_, e', rfl⟩
        simpa [lossHolds, hsafe, htree, hact, hh] using hopen
  · rw [hother u hu] at hcall
    exact .inl ⟨request, pc, target, hcall, hpast, hh, htree, hsafe, hact⟩

end

/-- A device lost since the last `MANUAL -> AUTO` is latched, no re-arm is ahead, and no call of the
tree that actuates it is past its last check. -/
def Held (handle : String) (tr : SystemTrace) (g : SystemState) : Prop :=
  lossesSinceEntry handle tr ≠ [] → g.shared.lossLatch.latched handle ∧
    ∀ t, rearmAhead (g.thread t) = false ∧ ¬ PastLoss handle t g

theorem Held.step {cfg : SystemConfig} {handle : String} {tr : SystemTrace} {g g' : SystemState}
    {t : ThreadId} {e : Effect} (h : Held handle tr g)
    (hplaced : ∀ t m, (g.thread t).mode = some m → m.pc.Placed g.shared.mode m.new)
    (hcond : Condition g (t, e)) (hstep : (system cfg).lts.step g (t, e) g') :
    Held handle (tr ++ [(g, t, e)]) g' := by
  obtain ⟨-, -, -, hsh, -⟩ := system_step hstep
  intro hne
  rw [lossesSinceEntry_snoc] at hne
  cases henters : entersAuto (g, t, e) with
  | true => simp [henters] at hne
  | false =>
    by_cases hlost : lostDevice? (g, t, e) = some handle
    · have hfree := hcond handle hlost
      have hahead := rearmAhead_step hplaced hstep henters fun u => (hfree u).1
      obtain ⟨edge, rfl, hloss⟩ := lostDevice?_eq_some hlost
      refine ⟨?_, fun u => ⟨hahead.2 u, fun hpast => ?_⟩⟩
      · rw [hsh]
        simp [Shared.apply, Shared.applyControl,
          DeviceLossLatch.applyReachabilityEdge_latched, hloss]
      · -- no call takes a step here
        rcases hpast.back hstep with hpast | ⟨-, e', he⟩
        · exact (hfree u).2 hpast
        · cases he
    · obtain ⟨hlatched, hfree⟩ := h (by simpa [henters, hlost] using hne)
      have hahead := rearmAhead_step hplaced hstep henters fun u => (hfree u).1
      refine ⟨?_, fun u => ⟨hahead.2 u, fun hpast => ?_⟩⟩
      · rw [hsh]
        exact Shared.lossLatched_apply hahead.1 hlatched
      · rcases hpast.back hstep with hpast | ⟨hopen, -⟩
        · exact (hfree u).2 hpast
        · rw [hlatched] at hopen
          cases hopen

theorem held_run {cfg : SystemConfig} {g₀ g : SystemState} {tr : SystemTrace}
    (h0 : SystemStart g₀) (hrun : SystemRun cfg g₀ tr g)
    (hcond : ∀ i ∈ tr, Condition i.1 i.2) (handle : String) : Held handle tr g := by
  refine Run.induct_of (C := Condition) (J := fun tr g => Held handle tr g) ?_ ?_ hrun hcond
  · exact fun h => absurd rfl h
  · rintro tr g ⟨t, e⟩ g' hrun - ih hc hstep
    exact ih.step (placed_run h0 hrun) hc hstep

/-- In every run that applies a transport loss only while no `MANUAL -> AUTO` that is committed has
its re-arm ahead and no call of the tree that actuates the device is past its last loss check:

- a device with a transport loss applied after the last `MANUAL -> AUTO` is latched;
- the tree actuates a device, outside the safe-state ladder, only where none of its losses was
  applied after the last `MANUAL -> AUTO`. -/
theorem losses_since_entry_stay_latched (cfg : SystemConfig) {g₀ g : SystemState}
    {tr : SystemTrace} (h0 : SystemStart g₀) (hrun : SystemRun cfg g₀ tr g)
    (hcond : ∀ i ∈ tr, Condition i.1 i.2) (handle : String) :
    (lossesSinceEntry handle tr ≠ [] → g.shared.lossLatch.latched handle) ∧
      ∀ tr₁ s t target request args tr₂,
        tr = tr₁ ++ (s, t, .call (.dispatch target request args)) :: tr₂ →
        request.deviceHandle = handle → request.isBehaviorTree →
        request.safeState = false → Registry.isActuating target.spec →
        lossesSinceEntry handle tr₁ = [] := by
  refine ⟨fun hne => (held_run h0 hrun hcond handle hne).1, ?_⟩
  rintro tr₁ s t target request args tr₂ rfl hh htree hsafe hact
  obtain ⟨hrun₁, s', hstep, -⟩ := hrun.at_step
  obtain ⟨th', -, hts, -, -⟩ := system_step hstep
  -- the call is past its last check where it is dispatched
  have hpast : PastLoss handle t s :=
    ⟨request, _, target, hts.of_dispatch.1, rfl, hh, htree, hsafe, hact⟩
  by_contra hne
  have hheld := held_run h0 hrun₁ (fun j hj => hcond j (List.mem_append_left _ hj)) handle hne
  exact (hheld.2 t).2 hpast

/-- A poll of the valve fails without an answer, and the next one succeeds. -/
def lostAndBack : List (ThreadId × Choice) :=
  [(2, .edge { deviceHandle := "sim0/valve", reachable := false, lastStatus := .unavailable,
               seq := 1 }),
    (2, .edge { deviceHandle := "sim0/valve", reachable := true, lastStatus := .ok, seq := 2 })]

/-- AUTO is entered, the valve is lost and answers again: it is latched. -/
theorem losses_since_entry_stay_latched_valve :
    ∃ tr g, SystemRun tickConfig (valveWorld .manual) tr g ∧ (∃ i ∈ tr, entersAuto i) ∧
      lossesSinceEntry "sim0/valve" tr ≠ [] ∧ g.shared.lossLatch.latched "sim0/valve" = true := by
  obtain ⟨tr, g, hrun, hp⟩ := Machine.run_of_passes (system tickConfig) (valveWorld .manual)
    ((1, .start (.setMode .auto)) :: List.replicate 18 (1, .go) ++ lostAndBack)
    (fun tr _ => (∃ i ∈ tr, entersAuto i) ∧ lossesSinceEntry "sim0/valve" tr ≠ [] ∧
      ∀ i ∈ tr, i.2.1 ∈ [1, 2] ∧ (lostDevice? i = none ∨ ∀ t ∈ [1, 2],
        rearmAhead (i.1.thread t) = false ∧ (i.1.thread t).call.isNone)) (by decide)
  obtain ⟨henters, hlosses, hall⟩ := hp
  have hthreads := Machine.all_threads (P := fun th => rearmAhead th = false ∧ th.call = none) hrun
    (fun i hi => (hall i hi).1) fun _ => ⟨rfl, rfl⟩
  have hcond : ∀ i ∈ tr, Condition i.1 i.2 := by
    intro i hi handle hlost t
    have hcheck := (hall i hi).2
    obtain ⟨hahead, hcall⟩ := hthreads.2 i hi (by simpa [hlost] using hcheck) t
    refine ⟨hahead, ?_⟩
    rintro ⟨request, pc, target, hsome, -⟩
    rw [hcall] at hsome
    cases hsome
  exact ⟨tr, g, hrun, henters, hlosses, (losses_since_entry_stay_latched tickConfig
    (valveWorld_start .manual) hrun hcond "sim0/valve").1 hlosses⟩

/-- `MANUAL -> AUTO` is committed and the valve is lost; then the re-arm of that transition
releases it. When the valve answers again, the tree opens it, and nobody has entered AUTO since
the loss. -/
theorem rearm_releases_later_loss : ∃ tr g, SystemRun tickConfig (valveWorld .manual) tr g ∧
      (∃ i ∈ lossesSinceEntry "sim0/valve" tr, i.1.shared.mode = .auto) ∧
      g.shared.lossLatch.latched "sim0/valve" = false ∧
      ∃ i ∈ tr, dispatched? CallRequest.isBehaviorTree i = some ("open", true) := by
  obtain ⟨tr, g, hrun, hp⟩ := Machine.run_of_passes (system tickConfig) (valveWorld .manual)
    ((1, .start (.setMode .auto)) :: List.replicate 10 (1, .go) ++ lostAndBack ++
      List.replicate 8 (1, .go) ++ startTick ++ treeOpens ++ [(1, .go)])
    (fun tr g => (∃ i ∈ lossesSinceEntry "sim0/valve" tr, i.1.shared.mode = .auto) ∧
      g.shared.lossLatch.latched "sim0/valve" = false ∧
      ∃ i ∈ tr, dispatched? CallRequest.isBehaviorTree i = some ("open", true)) (by decide)
  exact ⟨tr, g, hrun, hp⟩

end Anolis.Proofs.Rearm
