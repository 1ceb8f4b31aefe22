import Anolis.Proofs.Uptime

/-!
# What the main loop spends on a provider

The main loop counts the crashes of a provider, restarts it after a backoff, opens the circuit when
the attempts of its policy are over, and from then on only probes. `Budget` is what follows for the
steps of one provider, and `supervised_restart_budget` says that it holds in every run of the loop,
for every provider, whatever `is_available` answers.

A success is behind an uptime of the policy's time with no crash recorded in it. That every check of
the uptime found the provider up takes more: `flapping_recovers` is a run in which it did not.
-/

namespace Anolis.Proofs.RestartBudget

open Anolis.Runtime Lib Provider Supervision RestartCounts Uptime

variable {interval : Int}

section
variable {policy : RestartPolicyConfig} {s₀ s s' : Sup} {e : SupEvent} {tr : SupTrace}

/-! ### The budget -/

/-- What the steps of one provider keep to. -/
structure Budget (policy : RestartPolicyConfig) (interval : Int) (tr : SupTrace) :
    Prop where
  /-- Without a success in between, at most the policy's attempts are restarts. -/
  attempts : ∀ tr₁ tr₂ tr₃, tr = tr₁ ++ tr₂ ++ tr₃ → (∀ i ∈ tr₂, i.2 ≠ .recovered) →
    tr₂.countP (fun i => i.2 = .started false) ≤ policy.maxAttempts.toNat
  /-- A restart is behind an accepted crash of its own, by its backoff. -/
  ownCrash : ∀ tr₁ i tr₂, tr = tr₁ ++ i :: tr₂ → i.2 = .started false →
    ∃ tr' j between ms, tr₁ = tr' ++ j :: between ∧ j.2 = .crashed (some ms) ∧
      (∀ k ∈ between, k.2 ≠ .started false) ∧ j.1.now + msToNs ms ≤ i.1.now
  /-- While the circuit is open only probes are started, and no probe while it is closed. -/
  circuit : ∀ i ∈ tr, ∀ probe, i.2 = .started probe → i.1.st.circuitOpen = probe
  /-- Probes are an interval apart. -/
  probes : ∀ tr₁ i tr₂, tr = tr₁ ++ i :: tr₂ → i.2 = .started true →
    ∀ k ∈ tr₂, k.2 = .started true → i.1.now + interval ≤ k.1.now
  /-- With a disabled policy nothing is started. -/
  disabled : policy.enabled = false → ∀ i ∈ tr, ∀ probe, i.2 ≠ .started probe
  /-- After a probe that succeeded, and before a success, no crash is accepted and no restart is
  started. -/
  reopens : ∀ tr₁ i tr₂, tr = tr₁ ++ i :: tr₂ → i.2 = .returned true true →
    (∀ k ∈ tr₂, k.2 ≠ .recovered) →
    ∀ k ∈ tr₂, k.2 ≠ .started false ∧ ∀ ms, k.2 ≠ .crashed (some ms)
  /-- A success is behind a check that found the provider up, by the policy's time, with no crash
  recorded since. -/
  recovered : ∀ tr₁ i tr₂, tr = tr₁ ++ i :: tr₂ → i.2 = .recovered →
    SeenUp IsCrash tr₁ (i.1.now - msToNs policy.successResetMs)
  /-- Where a provider that is down stays down until a restart of it succeeds, every check since
  then found it up. -/
  steadily : StaysDown tr → ∀ tr₁ i tr₂, tr = tr₁ ++ i :: tr₂ → i.2 = .recovered →
    SeenUp (· = .observed false) tr₁ (i.1.now - msToNs policy.successResetMs)
  /-- No backoff is read out of bounds. -/
  inBounds : ∀ i ∈ tr, i.2 ≠ .outOfBounds ∧ getBackoffMs policy i.1.st ≠ none

theorem circuit_of_started {probe : Bool} (hsound : SupSound policy s)
    (hstep : SupStep policy interval s (.started probe) s') :
    s.st.circuitOpen = probe ∧ policy.enabled := by
  cases hstep with
  | probe hplace =>
    obtain ⟨henabled, hopen, -⟩ := hsound.place _ hplace
    exact ⟨hopen, henabled⟩
  | restart hplace =>
    obtain ⟨hclosed, -, hwithin, -⟩ := hsound.place _ hplace
    exact ⟨hclosed, hwithin.1⟩

theorem budget_run (haccepted : PolicyAccepted policy) (h0 : SupStart s₀)
    (h : Run (supervised policy interval) s₀ tr s) : Budget policy interval tr where
  attempts tr₁ tr₂ tr₃ htr hnone := by
    rw [htr, List.append_assoc] at h
    obtain ⟨s₁, hbefore, hrest⟩ := h.split
    obtain ⟨s₂, hsegment, -⟩ := hrest.split
    exact restarts_le haccepted (supSound_run haccepted h0 hbefore) hsegment hnone
  ownCrash tr₁ i tr₂ htr hi := by
    rw [htr] at h
    obtain ⟨hbefore, s₁, hstep, -⟩ := h.at_step
    cases owing_of_step haccepted (supSound_run haccepted h0 hbefore) hstep with
    | starts _ howed _ _ hdue =>
      obtain ⟨tr', j, between, ms, htr₁, hj, hbetween, htime⟩ :=
        crashBehind_run haccepted h0 hbefore howed
      exact ⟨tr', j, between, ms, htr₁, hj, hbetween, by rw [htime]; exact hdue⟩
    | crashes ms he =>
      rw [hi] at he
      cases he
    | keeps hstart => exact absurd hi hstart
  circuit i hi probe he := by
    obtain ⟨_, _, _, _, hbefore, hstep, _⟩ := h.of_mem hi
    rw [he] at hstep
    exact (circuit_of_started (supSound_run haccepted h0 hbefore) hstep).1
  probes tr₁ i tr₂ htr hi := by
    rw [htr] at h
    exact probes_apart haccepted h0 h hi
  disabled hoff i hi probe he := by
    obtain ⟨_, _, _, _, hbefore, hstep, _⟩ := h.of_mem hi
    rw [he] at hstep
    have hon := (circuit_of_started (supSound_run haccepted h0 hbefore) hstep).2
    rw [hoff] at hon
    cases hon
  reopens tr₁ i tr₂ htr hi hnone := by
    rw [htr] at h
    exact no_restart_after_probe haccepted h0 h hi hnone
  recovered tr₁ i tr₂ htr hi := by
    rw [htr] at h
    obtain ⟨hbefore, s₁, hstep, -⟩ := h.at_step
    rw [hi] at hstep
    exact seenUp_of_recovered (supSound_run haccepted h0 hbefore) hstep
      fun henabled _ hset => (upSince_run henabled h0 hbefore).since hset
  steadily hstays tr₁ i tr₂ htr hi := by
    rw [htr] at h hstays
    obtain ⟨hbefore, s₁, hstep, -⟩ := h.at_step
    rw [hi] at hstep
    exact seenUp_of_recovered (supSound_run haccepted h0 hbefore) hstep
      fun henabled hplace hset =>
        (downSound_run haccepted henabled h0 hbefore hstays.before).since hset
          (by simp [hplace, judging])
  inBounds i hi := by
    obtain ⟨_, _, _, _, hbefore, hstep, _⟩ := h.of_mem hi
    refine ⟨fun he => ?_, ?_⟩
    · rw [he] at hstep
      cases hstep with
      | outOfBounds _ hcrash => exact recordCrash_ne_none haccepted hcrash
    · exact getBackoffMs_ne_none haccepted (supSound_run haccepted h0 hbefore).disabled

end

/-! ### Runs of the loop -/

section
variable {providers : List ProviderConfig} {g₀ g g' : LoopState} {tr : LoopTrace} {t : ThreadId}
  {e : LoopEffect} {p : String}

theorem policyAccepted_policyOf (hok : validateProviders providers = .ok ()) (p : String) :
    PolicyAccepted (policyOf providers p) := by
  unfold policyOf
  cases hfind : providers.find? fun provider => provider.id = p with
  | none => constructor <;> simp
  | some provider => exact policyAccepted_of_validate hok provider (List.mem_of_find?_eq_some hfind)

theorem supStart_view (h0 : LoopStart g₀) (p : String) : SupStart (view p g₀) where
  state := h0.states p
  flight := by simp [view, viewOf, h0.restart]
  place := by simp [view, viewOf, h0.top, placeOf]

theorem none_of_started {probe : Bool} (hfree : Free g.shared (g.thread 0))
    (hstep : (mainLoop providers interval).lts.step g (t, .started p probe) g') :
    g.shared.restart = none := by
  have hsup := supStep_of_step p hfree hstep
  rw [show eventOf p (.started p probe) = .started probe by simp [eventOf]] at hsup
  -- the loop is where a restart or a probe starts
  have hplace : (view p g).place = some .probe ∨ (view p g).place = some .restart := by
    generalize view p g' = s' at hsup
    cases hsup with
    | probe hplace => exact .inl hplace
    | restart hplace => exact .inr hplace
  simp only [view, viewOf] at hplace
  generalize g.thread 0 = pc at hplace hfree
  cases pc with
  | inside place id rest =>
    by_cases hid : id = p
    · simp only [placeOf, hid, if_true, Option.some.injEq] at hplace
      rcases hplace with rfl | rfl <;> exact hfree
    · simp [placeOf, hid] at hplace
  | _ => simp [placeOf] at hplace

/-- What holds behind the start of a restart, while it has not returned: it is in flight, and no
other was started. -/
def InFlight (behind : LoopTrace) (s : LoopState) : Prop :=
  (∀ k ∈ behind, ∀ p probe restarted, k.2.2 ≠ .returned p probe restarted) →
    s.shared.restart.isSome ∧ ∀ k ∈ behind, ∀ p probe, k.2.2 ≠ .started p probe

theorem inFlight_step {behind : LoopTrace} (hfree : Free g.shared (g.thread 0))
    (h : InFlight behind g) (hstep : (mainLoop providers interval).lts.step g (t, e) g') :
    InFlight (behind ++ [(g, t, e)]) g' := by
  intro hnone
  obtain ⟨hsome, hall⟩ := h fun k hk => hnone k (List.mem_append_left _ hk)
  have hlast : ∀ p probe restarted, e ≠ .returned p probe restarted :=
    hnone (g, t, e) List.mem_concat_self
  have hstart : ∀ p probe, e ≠ .started p probe := by
    rintro p probe rfl
    rw [none_of_started hfree hstep] at hsome
    cases hsome
  refine ⟨?_, fun k hk => ?_⟩
  · rw [(loop_step_inv hstep).1]
    cases e with
    | returned p probe restarted => exact absurd rfl (hlast p probe restarted)
    | started p probe => exact absurd rfl (hstart p probe)
    | _ => exact hsome
  · exact forall_snoc hall hstart k hk

/-- In every run of the main loop over providers that `validate_config` accepts, whatever
`is_available` answers, whatever the restarts return and however the time goes: each provider keeps
to its budget; a crash that is not accepted opens the circuit; and no restart is started while
another is in flight. -/
theorem supervised_restart_budget (hok : validateProviders providers = .ok ())
    (h0 : LoopStart g₀) (h : Run (mainLoop providers interval).lts g₀ tr g) :
    (∀ p, Budget (policyOf providers p) interval (viewTrace p tr)) ∧
    (∀ i ∈ tr, ∀ p, i.2.2 = .crashed p none →
      ((i.1.shared.apply providers interval i.2.2).states p).circuitOpen) ∧
    ∀ tr₁ i tr₂ p probe, tr = tr₁ ++ i :: tr₂ → i.2.2 = .started p probe →
      (∀ k ∈ tr₂, ∀ q probe restarted, k.2.2 ≠ .returned q probe restarted) →
      ∀ k ∈ tr₂, ∀ q probe, k.2.2 ≠ .started q probe := by
  refine ⟨fun p => ?_, fun i hi p he => ?_, ?_⟩
  · exact budget_run (policyAccepted_policyOf hok p) (supStart_view h0 p)
      (supervised_of_run p h0 h)
  · obtain ⟨tr₁, tr₂, s₁, -, hbefore, hstep, -⟩ := h.of_mem hi
    have hsup := supStep_of_step p (free_run h0 hbefore) hstep
    rw [he, show eventOf p (.crashed p none) = .crashed none by simp [eventOf]] at hsup
    rw [← (loop_step_inv hstep).1]
    have hopen : (view p s₁).st.circuitOpen := by
      generalize view p s₁ = s' at hsup
      cases hsup with
      | opens _ hcrash => rcases of_recordCrash_refused hcrash with ⟨-, rfl⟩ | ⟨-, -, rfl⟩ <;> rfl
    exact hopen
  · rintro tr₁ i tr₂ p probe rfl hi hnone
    have hflight : InFlight tr₂ g := by
      refine Run.after_step (T := (mainLoop providers interval).lts) (K := InFlight)
        (fun s' _ hstep _ => ⟨?_, by simp⟩)
        (fun _ _ _ _ _ hr hs hk => inFlight_step (free_run h0 hr) hk hs) h
      rw [(loop_step_inv hstep).1, hi]
      rfl
    exact (hflight hnone).2

end

/-! ### Crashes of one provider -/

/-- The provider `sim0` with one restart, after five seconds. -/
def simProviders : List ProviderConfig :=
  [{ id := "sim0", command := "sim",
     restartPolicy := { enabled := true, maxAttempts := 1, backoffMs := [5000] } }]

/-- The main loop before its first iteration, one second after the clock's epoch. -/
def simLoop : LoopState where
  shared := { now := 1000000000 }
  thread _ := .top

theorem simLoop_start : LoopStart simLoop := ⟨fun _ => rfl, rfl, rfl⟩

/-- One iteration with what it finds of `sim0`, and `n` further steps of the check. -/
def iteration (up : Bool) (n : Nat) : List (ThreadId × LoopChoice) :=
  [(0, .go), (0, .shutdown false), (0, .available up)] ++ List.replicate n (0, .go)

/-- The clock moves by a number of milliseconds. -/
def wait (ms : Nat) : List (ThreadId × LoopChoice) := [(1, .advance (ms * 1000000))]

/-- `sim0` goes down, is restarted after its backoff, and stays up. -/
def restartsOnce : List (ThreadId × LoopChoice) :=
  iteration false 5 ++ wait 5000 ++ iteration false 6 ++
    [(0, .ready true), (0, .shutdown false), (0, .available true)] ++
    List.replicate 3 (0, .go) ++ wait 1000 ++ iteration true 4

/-- A restart that succeeds and a success behind it, within the budget. -/
theorem supervised_restart_budget_sim : validateProviders simProviders = .ok () ∧ ∃ tr g,
      Run (mainLoop simProviders 60000000000).lts simLoop tr g ∧
      (∃ i ∈ tr, i.2.2 = .started "sim0" false) ∧ (∃ i ∈ tr, i.2.2 = .recovered "sim0") ∧
      Budget (policyOf simProviders "sim0") 60000000000 (viewTrace "sim0" tr) := by
  have hok : validateProviders simProviders = .ok () := by decide
  obtain ⟨tr, g, hrun, hcheck⟩ := Machine.run_of_passes (mainLoop simProviders 60000000000) simLoop
    restartsOnce (fun tr _ => (∃ i ∈ tr, i.2.2 = .started "sim0" false) ∧
      ∃ i ∈ tr, i.2.2 = .recovered "sim0") (by decide)
  exact ⟨hok, tr, g, hrun, hcheck.1, hcheck.2,
    (supervised_restart_budget hok simLoop_start hrun).1 "sim0"⟩

/-- `sim0` is down, comes back by itself, is down again, and is up at the next check. -/
def flaps : List (ThreadId × LoopChoice) :=
  iteration false 5 ++ wait 100 ++ iteration true 3 ++ wait 600 ++ iteration false 4 ++ wait 600 ++
    iteration true 3

/-- The last step of a run is the success of `p`, which was down less than `ms` before. -/
def recoversEarly (p : String) (ms : Int) (tr : LoopTrace) : Bool :=
  tr.getLast?.any fun i => i.2.2 = .recovered p &&
    tr.dropLast.any fun k => k.2.2 = .observed p false &&
      i.1.shared.now < k.1.shared.now + msToNs ms

/-- A provider that was found down 600 milliseconds before is marked recovered, with a policy of a
whole second: the first crash was still pending, so the second outage was not recorded. -/
theorem flapping_recovers : validateProviders simProviders = .ok () ∧
      (policyOf simProviders "sim0").successResetMs = 1000 ∧
      ∃ tr i g, Run (mainLoop simProviders 60000000000).lts simLoop (tr ++ [i]) g ∧
        i.2.2 = .recovered "sim0" ∧
        ∃ k ∈ tr, k.2.2 = .observed "sim0" false ∧
          i.1.shared.now < k.1.shared.now + msToNs 1000 := by
  refine ⟨by decide, by decide, ?_⟩
  obtain ⟨tr, g, hrun, hcheck⟩ := Machine.run_of_passes (mainLoop simProviders 60000000000) simLoop
    flaps (fun tr _ => recoversEarly "sim0" 1000 tr) (by decide)
  unfold recoversEarly at hcheck
  cases hlast : tr.getLast? with
  | none => simp [hlast] at hcheck
  | some i =>
    rw [← List.dropLast_append_getLast? i hlast] at hrun
    simp only [hlast, Option.any_some, Bool.and_eq_true, List.any_eq_true,
      decide_eq_true_eq] at hcheck
    exact ⟨_, i, g, hrun, hcheck⟩

end Anolis.Proofs.RestartBudget
