import Anolis.Runtime.MainLoop

/-!
# One provider under supervision

The main loop checks many providers, and what it does with one of them is a machine of its own:
`SupStep` are the steps of one provider, with the steps of the others left out (`quiet`). Every run
of the loop is, for each provider, a run of this machine (`supervised_of_run`), so what is proved of
one provider holds of each.

`SupSound` says what holds at each place of a check: where a restart may start, the circuit is
closed, the crash was recorded within the policy's attempts and its backoff is over.
-/

namespace Anolis.Proofs.Supervision

open Anolis.Runtime Lib Provider

/-- One provider: what the supervisor keeps of it, whether a restart of it is in flight (and is a
probe), and where the loop's check of it is. -/
structure Sup where
  now : Int
  st : RestartState
  flight : Option Bool
  place : Option CheckPlace

/-- What happens to one provider. -/
inductive SupEvent
  | quiet
  | observed (up : Bool)
  | crashed (backoff : Option Int)
  | outOfBounds
  | started (probe : Bool)
  | returned (probe restarted : Bool)
  | heartbeat
  | recovered
deriving DecidableEq

section
variable (policy : RestartPolicyConfig) (interval : Int)

/-- The steps of one provider. -/
inductive SupStep : Sup → SupEvent → Sup → Prop
  /-- The clock moves, or the loop is with another provider. -/
  | other {s : Sup} (now : Int) (hnow : s.now ≤ now) : SupStep s .quiet { s with now := now }
  | observe {s : Sup} (up : Bool) (hplace : s.place = none) (hflight : s.flight = none) :
      SupStep s (.observed up)
        { s with place := some (if up then .heartbeat else .circuit) }
  | circuit {s : Sup} (hplace : s.place = some .circuit) :
      SupStep s .quiet
        { s with place := some (if s.st.circuitOpen then .shouldProbe else .mark) }
  /-- The check ends: no probe is due, no restart is due, or the time is not over. -/
  | leave {s : Sup} {place : CheckPlace} (hplace : s.place = some place)
      (hmay : place = .shouldProbe ∨ place = .shouldRestart ∨ place = .shouldRecover) :
      SupStep s .quiet { s with place := none }
  | willProbe {s : Sup} (hplace : s.place = some .shouldProbe)
      (hprobe : shouldProbe policy s.st s.now) :
      SupStep s .quiet { s with place := some .probe }
  | probe {s : Sup} (hplace : s.place = some .probe) :
      SupStep s (.started true) { s with place := none, flight := some true }
  | marked {s : Sup} (hplace : s.place = some .mark) (hnew : s.st.crashDetected = false) :
      SupStep s .quiet { s with place := some .crash, st := markCrashDetected s.st }
  | wasMarked {s : Sup} (hplace : s.place = some .mark) (hold : s.st.crashDetected) :
      SupStep s .quiet { s with place := some .shouldRestart }
  | crash {s : Sup} {st : RestartState} {ms : Int} (hplace : s.place = some .crash)
      (hcrash : recordCrash policy s.st s.now interval = some (st, some ms)) :
      SupStep s (.crashed (some ms)) { s with place := some .shouldRestart, st := st }
  | opens {s : Sup} {st : RestartState} (hplace : s.place = some .crash)
      (hcrash : recordCrash policy s.st s.now interval = some (st, none)) :
      SupStep s (.crashed none) { s with place := none, st := st }
  | outOfBounds {s : Sup} (hplace : s.place = some .crash)
      (hcrash : recordCrash policy s.st s.now interval = none) :
      SupStep s .outOfBounds { s with place := none }
  | willRestart {s : Sup} (hplace : s.place = some .shouldRestart)
      (hrestart : shouldRestart policy s.st s.now) :
      SupStep s .quiet { s with place := some .clear }
  | clear {s : Sup} (hplace : s.place = some .clear) :
      SupStep s .quiet { s with place := some .restart, st := clearCrashDetected s.st }
  | restart {s : Sup} (hplace : s.place = some .restart) :
      SupStep s (.started false) { s with place := none, flight := some false }
  | returned {s : Sup} (probe restarted : Bool) (hplace : s.place = none)
      (hflight : s.flight = some probe) :
      SupStep s (.returned probe restarted)
        { s with
          flight := none
          st := if probe then recordProbeResult s.st s.now interval restarted else s.st }
  | heartbeat {s : Sup} (hplace : s.place = some .heartbeat) :
      SupStep s .heartbeat
        { s with place := some .shouldRecover, st := recordHeartbeat s.st s.now }
  | willRecover {s : Sup} (hplace : s.place = some .shouldRecover)
      (hrecover : shouldMarkRecovered policy s.st s.now) :
      SupStep s .quiet { s with place := some .success }
  | recover {s : Sup} (hplace : s.place = some .success) :
      SupStep s .recovered { s with place := none, st := recordSuccess s.st }

/-- The runs of one provider. -/
def supervised : Lts Sup SupEvent where
  step := SupStep policy interval

end

/-- A trace of one provider. -/
abbrev SupTrace := Trace Sup SupEvent

/-! ### The view of a provider -/

/-- Where the loop is with a provider. -/
def placeOf (p : String) : LoopPc → Option CheckPlace
  | .inside place id _ => if id = p then some place else none
  | _ => none

/-- One provider of the loop at a place. -/
def viewOf (p : String) (sh : LoopShared) (pc : LoopPc) : Sup where
  now := sh.now
  st := sh.states p
  flight := (sh.restart.filter fun r => r.1 = p).map Prod.snd
  place := placeOf p pc

/-- One provider of the loop. -/
def view (p : String) (g : LoopState) : Sup := viewOf p g.shared (g.thread 0)

/-- What an effect of the loop is for a provider. -/
def eventOf (p : String) : LoopEffect → SupEvent
  | .returned id probe restarted => if id = p then .returned probe restarted else .quiet
  | .observed id up => if id = p then .observed up else .quiet
  | .crashed id backoff => if id = p then .crashed backoff else .quiet
  | .outOfBounds id => if id = p then .outOfBounds else .quiet
  | .started id probe => if id = p then .started probe else .quiet
  | .heartbeat id => if id = p then .heartbeat else .quiet
  | .recovered id => if id = p then .recovered else .quiet
  | .silent | .advance _ | .marked _ | .cleared _ => .quiet

/-- The steps of a provider in a run of the loop. -/
def viewTrace (p : String) (tr : LoopTrace) : SupTrace :=
  tr.map fun i => (view p i.1, eventOf p i.2.2)

/-- Where a restart is about to start, none is in flight. -/
def Free (sh : LoopShared) : LoopPc → Prop
  | .inside .probe _ _ | .inside .clear _ _ | .inside .restart _ _ => sh.restart = none
  | _ => True

section
variable (providers : List ProviderConfig) (interval : Int) {p id : String} {sh : LoopShared}
  {place : CheckPlace} {rest : List ProviderConfig}

theorem free_check (h : Free sh (.inside place id rest)) :
    Free (sh.apply providers interval (checkNext providers interval sh place id rest).1)
      (checkNext providers interval sh place id rest).2 := by
  cases place with
  | circuit => cases hopen : (sh.states id).circuitOpen <;> simp [checkNext, hopen, Free]
  | shouldProbe | shouldRestart =>
    simp only [checkNext]
    split
    · rename_i hmay
      simp only [Bool.and_eq_true, Option.isNone_iff_eq_none] at hmay
      exact hmay.1
    · trivial
  | mark | crash | shouldRecover =>
    simp only [checkNext]
    split <;> trivial
  | clear => exact h
  | probe | restart | heartbeat | success => trivial

theorem check_other (hid : id ≠ p) (hfree : Free sh (.inside place id rest)) :
    SupStep (policyOf providers p) interval (viewOf p sh (.inside place id rest))
      (eventOf p (checkNext providers interval sh place id rest).1)
      (viewOf p (sh.apply providers interval (checkNext providers interval sh place id rest).1)
        (checkNext providers interval sh place id rest).2) := by
  -- nothing of the provider changes
  suffices hsame : eventOf p (checkNext providers interval sh place id rest).1 = .quiet ∧
      viewOf p (sh.apply providers interval (checkNext providers interval sh place id rest).1)
        (checkNext providers interval sh place id rest).2 =
      { viewOf p sh (.inside place id rest) with now := sh.now } by
    rw [hsame.1, hsame.2]
    exact .other sh.now (Int.le_refl _)
  have hupdate : ∀ st, Function.update sh.states id st p = sh.states p :=
    fun st => Function.update_of_ne (Ne.symm hid) ..
  cases place <;> simp only [checkNext]
  case probe | restart =>
    have hnone : sh.restart = none := hfree
    simp [eventOf, viewOf, LoopShared.apply, placeOf, hid, hnone]
  case crash => split <;> simp [eventOf, viewOf, LoopShared.apply, placeOf, hid, hupdate]
  all_goals try split
  all_goals simp [eventOf, viewOf, LoopShared.apply, placeOf, hid, hupdate]

theorem check_own : SupStep (policyOf providers p) interval (viewOf p sh (.inside place p rest))
      (eventOf p (checkNext providers interval sh place p rest).1)
      (viewOf p (sh.apply providers interval (checkNext providers interval sh place p rest).1)
        (checkNext providers interval sh place p rest).2) := by
  have hplace : (viewOf p sh (.inside place p rest)).place = some place := by simp [viewOf, placeOf]
  -- the step of the view, for each place; it is the loop's step in the end
  have own {e s'} (h : SupStep (policyOf providers p) interval
    (viewOf p sh (.inside place p rest)) e s') :=
    h
  cases place <;> simp only [checkNext]
  case' circuit => have h := own (.circuit hplace)
  case' probe => have h := own (.probe hplace)
  case' clear => have h := own (.clear hplace)
  case' restart => have h := own (.restart hplace)
  case' heartbeat => have h := own (.heartbeat hplace)
  case' success => have h := own (.recover hplace)
  case' shouldProbe =>
    split
    case' isTrue hmay => have h := own (.willProbe hplace (Bool.and_eq_true_iff.mp hmay).2)
    case' isFalse => have h := own (.leave hplace (.inl rfl))
  case' mark =>
    split
    case' isTrue hold => have h := own (.wasMarked hplace hold)
    case' isFalse hnew => have h := own (.marked hplace (Bool.eq_false_iff.mpr hnew))
  case' crash =>
    split
    case' h_1 st ms hcrash => have h := own (.crash hplace hcrash)
    case' h_2 st hcrash => have h := own (.opens hplace hcrash)
    case' h_3 hcrash => have h := own (.outOfBounds hplace hcrash)
  case' shouldRestart =>
    split
    case' isTrue hmay => have h := own (.willRestart hplace (Bool.and_eq_true_iff.mp hmay).2)
    case' isFalse => have h := own (.leave hplace (.inr (.inl rfl)))
  case' shouldRecover =>
    split
    case' isTrue hmay => have h := own (.willRecover hplace hmay)
    case' isFalse => have h := own (.leave hplace (.inr (.inr rfl)))
  all_goals
    simpa [eventOf, viewOf, placeOf, LoopShared.apply, Option.filter_some, *] using h

end

section
variable {providers : List ProviderConfig} {interval : Int} {p : String} {g₀ g g' : LoopState}
  {tr : LoopTrace} {t : ThreadId} {e : LoopEffect} {pc pc' : LoopPc}

/-- A step of the machine: the clock moves, or the loop takes a step. -/
theorem loop_step_inv (h : (mainLoop providers interval).lts.step g (t, e) g') :
    g'.shared = g.shared.apply providers interval e ∧
      ((∃ elapsed, e = .advance elapsed ∧ g'.thread 0 = g.thread 0) ∨
        ∃ c, loopNext providers interval g.shared (g.thread 0) c = some (e, g'.thread 0)) := by
  obtain ⟨c, th', hnext, hshared, hth, hother⟩ := Machine.step_inv h
  refine ⟨hshared, ?_⟩
  simp only [mainLoop] at hnext
  split at hnext
  · split at hnext
    · cases hnext
    · rename_i elapsed ht
      cases hnext
      exact .inl ⟨elapsed, rfl, hother 0 (Ne.symm ht)⟩
  · split at hnext
    · rename_i ht
      have ht : t = 0 := ht
      subst ht
      rw [← hth] at hnext
      exact .inr ⟨c, hnext⟩
    · cases hnext

theorem free_next {sh : LoopShared} {c : LoopChoice} (h : Free sh pc)
    (hnext : loopNext providers interval sh pc c = some (e, pc')) :
    Free (sh.apply providers interval e) pc' := by
  revert hnext
  fun_cases loopNext providers interval sh pc c <;> intro hnext <;>
    simp only [Option.some.injEq, Option.map_eq_some_iff, Prod.mk.injEq, reduceCtorEq] at hnext
  case case1 =>
    obtain ⟨r, -, -, rfl⟩ := hnext
    trivial
  case case8 up _ =>
    obtain ⟨-, rfl⟩ := hnext
    cases up <;> trivial
  case case9 place id rest =>
    have hfree := free_check providers interval h
    rw [hnext] at hfree
    exact hfree
  all_goals
    obtain ⟨-, rfl⟩ := hnext
    trivial

theorem free_run (h0 : LoopStart g₀) (h : Run (mainLoop providers interval).lts g₀ tr g) :
    Free g.shared (g.thread 0) := by
  refine Run.induct (J := fun _ g => Free g.shared (g.thread 0)) (by rw [h0.top]; trivial) ?_ h
  intro tr g l g' _ hfree hstep
  obtain ⟨hshared, hstep⟩ := loop_step_inv hstep
  rw [hshared]
  rcases hstep with ⟨elapsed, he, hpc⟩ | ⟨c, hnext⟩
  · rw [he, hpc]
    generalize g.thread 0 = pc at hfree
    unfold Free at *
    split <;> first | exact hfree | trivial
  · exact free_next hfree hnext

/-- For one provider, a step of the loop is one of its steps. -/
theorem supStep_of_next {sh : LoopShared} {c : LoopChoice} (hfree : Free sh pc)
    (hnext : loopNext providers interval sh pc c = some (e, pc')) :
    SupStep (policyOf providers p) interval (viewOf p sh pc) (eventOf p e)
      (viewOf p (sh.apply providers interval e) pc') := by
  have hsame : ∀ pc pc', placeOf p pc = none → placeOf p pc' = none →
      SupStep (policyOf providers p) interval (viewOf p sh pc) .quiet (viewOf p sh pc') := by
    intro pc pc' hpc hpc'
    have hview : viewOf p sh pc' = { viewOf p sh pc with now := sh.now } := by
      simp [viewOf, hpc, hpc']
    rw [hview]
    exact .other sh.now (Int.le_refl _)
  revert hnext
  fun_cases loopNext providers interval sh pc c <;> intro hnext <;>
    simp only [Option.some.injEq, Option.map_eq_some_iff, Prod.mk.injEq, reduceCtorEq] at hnext
  case case1 restarted =>
    obtain ⟨⟨id, probe⟩, hrestart, rfl, rfl⟩ := hnext
    rcases eq_or_ne id p with rfl | hid
    · have hflight : (viewOf id sh .top).flight = some probe := by simp [viewOf, hrestart]
      have hstep : SupStep (policyOf providers id) interval (viewOf id sh .top) _ _ :=
        .returned probe restarted rfl hflight
      cases probe <;> simpa [eventOf, viewOf, placeOf, LoopShared.apply] using hstep
    · have hview : viewOf p (sh.apply providers interval (.returned id probe restarted)) .signal =
          viewOf p sh .signal := by
        have hupdate : ∀ st, Function.update sh.states id st p = sh.states p :=
          fun st => Function.update_of_ne (Ne.symm hid) ..
        cases probe <;> simp [viewOf, LoopShared.apply, hrestart, hid, hupdate, Option.filter_some]
      rw [hview, eventOf, if_neg hid]
      exact hsame _ _ rfl rfl
  case case8 provider rest up hnot =>
    obtain ⟨rfl, rfl⟩ := hnext
    rcases eq_or_ne provider.id p with rfl | hid
    · have hflight : (viewOf provider.id sh (.check (provider :: rest))).flight = none := by
        cases hrestart : sh.restart with
        | none => simp [viewOf, hrestart]
        | some r =>
          have hne : r.1 ≠ provider.id := by simpa [hrestart] using hnot
          simp [viewOf, hrestart, Option.filter_some, hne]
      have hstep : SupStep (policyOf providers provider.id) interval
          (viewOf provider.id sh (.check (provider :: rest))) _ _ := .observe up rfl hflight
      simpa [eventOf, viewOf, placeOf, LoopShared.apply] using hstep
    · rw [eventOf, if_neg hid]
      exact hsame _ _ rfl (if_neg hid)
  case case9 place id rest =>
    rcases eq_or_ne id p with rfl | hid
    · have hstep : SupStep (policyOf providers id) interval (viewOf id sh (.inside place id rest))
          _ _ := check_own providers interval
      rw [hnext] at hstep
      exact hstep
    · have hstep := check_other providers interval hid hfree
      rw [hnext] at hstep
      exact hstep
  all_goals
    obtain ⟨rfl, rfl⟩ := hnext
    exact hsame _ _ rfl rfl

theorem supStep_of_step (p : String) (hfree : Free g.shared (g.thread 0))
    (h : (mainLoop providers interval).lts.step g (t, e) g') :
    SupStep (policyOf providers p) interval (view p g) (eventOf p e) (view p g') := by
  obtain ⟨hshared, hkind⟩ := loop_step_inv h
  unfold view
  rw [hshared]
  rcases hkind with ⟨elapsed, rfl, hpc⟩ | ⟨c, hnext⟩
  · rw [hpc]
    exact .other (g.shared.now + elapsed) (Int.le_add_of_nonneg_right (Int.natCast_nonneg _))
  · exact supStep_of_next hfree hnext

theorem supervised_of_run (p : String) (h0 : LoopStart g₀)
    (h : Run (mainLoop providers interval).lts g₀ tr g) :
    Run (supervised (policyOf providers p) interval) (view p g₀) (viewTrace p tr) (view p g) := by
  induction h with
  | refl => exact Run.refl
  | snoc hr hstep ih =>
    rw [viewTrace, List.map_append]
    exact Run.snoc ih (supStep_of_step p (free_run h0 hr) hstep)

end

/-! ### What holds at each place -/

/-- The crash streak is within the attempts of an enabled policy. -/
def Within (policy : RestartPolicyConfig) (st : RestartState) : Prop :=
  policy.enabled ∧ 1 ≤ st.attemptCount ∧ st.attemptCount ≤ policy.maxAttempts

/-- What holds at a place of the check. -/
def PlaceSound (policy : RestartPolicyConfig) (now : Int) (st : RestartState) : CheckPlace → Prop
  | .circuit | .heartbeat | .shouldRecover => True
  | .shouldProbe => st.circuitOpen
  | .probe => policy.enabled ∧ st.circuitOpen ∧ st.nextRestartTime ≤ now
  | .mark => st.circuitOpen = false
  | .crash => st.circuitOpen = false ∧ st.crashDetected
  | .shouldRestart => st.circuitOpen = false ∧ st.crashDetected ∧ Within policy st
  | .clear =>
    st.circuitOpen = false ∧ st.crashDetected ∧ Within policy st ∧ st.nextRestartTime ≤ now
  | .restart =>
    st.circuitOpen = false ∧ st.crashDetected = false ∧ Within policy st ∧ st.nextRestartTime ≤ now
  | .success =>
    policy.enabled ∧ st.circuitOpen = false ∧ st.processStartTime ≠ 0 ∧
      st.processStartTime + msToNs policy.successResetMs ≤ now

/-- What holds of a provider under supervision. -/
structure SupSound (policy : RestartPolicyConfig) (s : Sup) : Prop where
  /-- The loop does not look at a provider whose restart is in flight. -/
  alone : s.place.isSome → s.flight = none
  /-- The circuit of an enabled policy is open over the attempts only. -/
  opened : policy.enabled → s.st.circuitOpen → policy.maxAttempts < s.st.attemptCount
  /-- A crash that waits for its restart is within the attempts. -/
  pending : s.st.crashDetected → s.st.circuitOpen = false → s.place ≠ some .crash →
    Within policy s.st
  /-- A restart in flight is a probe where the circuit is open. -/
  flying : ∀ probe, s.flight = some probe → policy.enabled ∧ s.st.circuitOpen = probe ∧
    (probe = false → s.st.crashDetected = false)
  started : s.st.processStartTime ≠ 0 → s.st.processStartTime ≤ s.now
  disabled : policy.enabled = false → s.st.attemptCount = 0
  place : ∀ place, s.place = some place → PlaceSound policy s.now s.st place

theorem supSound_start (policy : RestartPolicyConfig) (now : Int) :
    SupSound policy ⟨now, {}, none, none⟩ := by
  constructor <;> simp

theorem PlaceSound.later {policy : RestartPolicyConfig} {now now' : Int} {st : RestartState}
    {place : CheckPlace} (h : PlaceSound policy now st place) (hnow : now ≤ now') :
    PlaceSound policy now' st place := by
  cases place with
  | probe => exact ⟨h.1, h.2.1, Int.le_trans h.2.2 hnow⟩
  | clear | restart | success => exact ⟨h.1, h.2.1, h.2.2.1, Int.le_trans h.2.2.2 hnow⟩
  | _ => exact h

section
variable {policy : RestartPolicyConfig} {interval : Int} {s s' : Sup} {e : SupEvent}

/-- A step behind which no restart is in flight. -/
theorem SupSound.landed (hflight : s.flight = none)
    (hopened : policy.enabled → s.st.circuitOpen → policy.maxAttempts < s.st.attemptCount)
    (hpending : s.st.crashDetected → s.st.circuitOpen = false → s.place ≠ some .crash →
      Within policy s.st)
    (hstarted : s.st.processStartTime ≠ 0 → s.st.processStartTime ≤ s.now)
    (hdisabled : policy.enabled = false → s.st.attemptCount = 0)
    (hplace : ∀ q, s.place = some q → PlaceSound policy s.now s.st q) : SupSound policy s :=
  ⟨fun _ => hflight, hopened, hpending, by simp [hflight], hstarted, hdisabled, hplace⟩

/-- The check goes on to another place, and nothing else changes. -/
theorem SupSound.move (h : SupSound policy s) {place : Option CheckPlace}
    (hflight : s.flight = none) (hcrash : s.place ≠ some .crash)
    (hplace : ∀ q, place = some q → PlaceSound policy s.now s.st q) :
    SupSound policy { s with place := place } :=
  .landed hflight h.opened (fun hdetected hclosed _ => h.pending hdetected hclosed hcrash)
    h.started h.disabled hplace

/-- A crash within the attempts is recorded. -/
theorem SupSound.crashed {st : RestartState} {ms : Int} (h : SupSound policy s)
    (hflight : s.flight = none) (hplace : s.place = some .crash)
    (hcrash : recordCrash policy s.st s.now interval = some (st, some ms)) :
    SupSound policy { s with place := some .shouldRestart, st := st } := by
  obtain ⟨hclosed, hdetected⟩ := h.place _ hplace
  obtain ⟨henabled, hle, rfl⟩ := of_recordCrash_accepted hcrash
  have hwithin : 1 ≤ s.st.attemptCount + 1 ∧ ((s.st.attemptCount + 1 : Nat) : Int) ≤
      policy.maxAttempts := ⟨Nat.le_add_left 1 _, by omega⟩
  refine .landed hflight (by simp [hclosed]) (fun _ _ _ => ⟨henabled, hwithin⟩)
    (fun hset => absurd rfl hset) (by simp [henabled]) ?_
  rintro q ⟨rfl⟩
  exact ⟨hclosed, hdetected, henabled, hwithin⟩

/-- A crash over the attempts opens the circuit. -/
theorem SupSound.over {st : RestartState} (h : SupSound policy s) (hflight : s.flight = none)
    (hcrash : recordCrash policy s.st s.now interval = some (st, none)) :
    SupSound policy { s with place := none, st := st } := by
  rcases of_recordCrash_refused hcrash with ⟨hoff, rfl⟩ | ⟨henabled, hlt, rfl⟩
  · exact .landed hflight (by simp [hoff]) (by simp) h.started h.disabled (by simp)
  · refine .landed hflight (fun _ _ => ?_) (by simp) (fun hset => absurd rfl hset)
      (by simp [henabled]) (by simp)
    show policy.maxAttempts < ((s.st.attemptCount + 1 : Nat) : Int)
    omega

/-- A restart returns. -/
theorem SupSound.returned {probe restarted : Bool} (h : SupSound policy s)
    (hplace : s.place = none) (hflight : s.flight = some probe) :
    SupSound policy { s with
      flight := none
      st := if probe then recordProbeResult s.st s.now interval restarted else s.st } := by
  obtain ⟨henabled, hopen, hcleared⟩ := h.flying probe hflight
  have hnowhere : ∀ st q, s.place = some q → PlaceSound policy s.now st q := by simp [hplace]
  cases probe with
  | false => exact .landed rfl h.opened (by simp [hcleared rfl]) h.started h.disabled (hnowhere _)
  | true =>
    cases restarted with
    | true =>
      exact .landed rfl (by simp [recordProbeResult]) (by simp [recordProbeResult]) h.started
        h.disabled (hnowhere _)
    | false =>
      exact .landed rfl h.opened (by simp [recordProbeResult, hopen]) h.started h.disabled
        (hnowhere _)

theorem SupSound.heartbeat (h : SupSound policy s) (hflight : s.flight = none)
    (hplace : s.place = some .heartbeat) :
    SupSound policy { s with place := some .shouldRecover, st := recordHeartbeat s.st s.now } := by
  obtain ⟨hcount, hcircuit, hdetected, -⟩ := recordHeartbeat_same s.st s.now
  refine .landed hflight (by simpa [hcount, hcircuit] using h.opened) ?_ (fun _ => ?_)
    (by simpa [hcount] using h.disabled) ?_
  · simpa [hcount, hcircuit, hdetected, Within, hplace] using h.pending
  · show (recordHeartbeat s.st s.now).processStartTime ≤ s.now
    unfold recordHeartbeat
    split
    · exact Int.le_refl _
    · rename_i hset
      exact h.started hset
  · rintro q ⟨rfl⟩
    trivial

theorem SupSound.step (haccepted : PolicyAccepted policy) (h : SupSound policy s)
    (hstep : SupStep policy interval s e s') : SupSound policy s' := by
  have halone : ∀ place, s.place = some place → s.flight = none :=
    fun place hplace => h.alone (by rw [hplace]; rfl)
  cases hstep with
  | other now hnow =>
    exact { h with
      started := fun hset => Int.le_trans (h.started hset) hnow
      place := fun place hplace => (h.place place hplace).later hnow }
  | observe up hplace hflight =>
    refine h.move hflight (by simp [hplace]) fun q hq => ?_
    cases up <;> cases hq <;> trivial
  | circuit hplace =>
    refine h.move (halone _ hplace) (by simp [hplace]) fun q hq => ?_
    cases hq
    cases hopen : s.st.circuitOpen <;> exact hopen
  | leave hplace hmay =>
    refine h.move (halone _ hplace) ?_ (by simp)
    rw [hplace]
    rcases hmay with rfl | rfl | rfl <;> simp
  | willProbe hplace hprobe =>
    refine h.move (halone _ hplace) (by simp [hplace]) fun q hq => ?_
    cases hq
    simpa [PlaceSound, shouldProbe, and_assoc] using hprobe
  | probe hplace =>
    obtain ⟨henabled, hopen, -⟩ := h.place _ hplace
    exact { h with
      alone := by simp
      pending := fun hdetected hclosed _ => h.pending hdetected hclosed (by simp [hplace])
      flying := by
        rintro probe ⟨rfl⟩
        exact ⟨henabled, hopen, by simp⟩
      place := by simp }
  | marked hplace hnew =>
    have hclosed : s.st.circuitOpen = false := h.place _ hplace
    refine .landed (halone _ hplace) h.opened (by simp) h.started h.disabled ?_
    rintro q ⟨rfl⟩
    exact ⟨hclosed, rfl⟩
  | wasMarked hplace hold =>
    have hclosed : s.st.circuitOpen = false := h.place _ hplace
    refine h.move (halone _ hplace) (by simp [hplace]) fun q hq => ?_
    cases hq
    exact ⟨hclosed, hold, h.pending hold hclosed (by simp [hplace])⟩
  | crash hplace hcrash => exact h.crashed (halone _ hplace) hplace hcrash
  | opens hplace hcrash => exact h.over (halone _ hplace) hcrash
  | outOfBounds hplace hcrash => exact absurd hcrash (recordCrash_ne_none haccepted)
  | willRestart hplace hrestart =>
    obtain ⟨hclosed, hdetected, hwithin⟩ := h.place _ hplace
    refine h.move (halone _ hplace) (by simp [hplace]) fun q hq => ?_
    cases hq
    simp only [shouldRestart, Bool.and_eq_true, decide_eq_true_eq] at hrestart
    exact ⟨hclosed, hdetected, hwithin, hrestart.2⟩
  | clear hplace =>
    obtain ⟨hclosed, -, hwithin, hnext⟩ := h.place _ hplace
    refine .landed (halone _ hplace) h.opened (by simp [clearCrashDetected]) h.started h.disabled ?_
    rintro q ⟨rfl⟩
    exact ⟨hclosed, rfl, hwithin, hnext⟩
  | restart hplace =>
    obtain ⟨hclosed, hcleared, hwithin, -⟩ := h.place _ hplace
    exact { h with
      alone := by simp
      pending := by simp [hcleared]
      flying := by
        rintro probe ⟨rfl⟩
        exact ⟨hwithin.1, hclosed, fun _ => hcleared⟩
      place := by simp }
  | returned probe restarted hplace hflight => exact h.returned hplace hflight
  | heartbeat hplace => exact h.heartbeat (halone _ hplace) hplace
  | willRecover hplace hrecover =>
    refine h.move (halone _ hplace) (by simp [hplace]) fun q hq => ?_
    cases hq
    exact of_shouldMarkRecovered hrecover h.started
  | recover hplace =>
    obtain ⟨henabled, -, -⟩ := h.place _ hplace
    exact .landed (halone _ hplace) (by simp [recordSuccess]) (by simp [recordSuccess]) h.started
      (by simp [henabled]) (by simp)

end

end Anolis.Proofs.Supervision
