import Anolis.Proofs.Supervision

/-!
# The restarts and the probes of one provider

`Owing` sums up what a step does to the restart that is owed for a crash. A crash that is accepted
owes one restart, and a restart pays it. `owed` says where the debt is: in the flag of the crash,
or, after the flag was cleared, in the place of the loop. So a restart is behind a crash of its own
(`crashBehind_run`), and without a success in between there are no more restarts than the policy has
attempts (`restarts_le`). A probe that succeeds leaves the attempts spent
(`no_restart_after_probe`).

Probes are an interval apart (`probes_apart`): an open circuit has its next probe due an interval
after it was opened, or after the last probe failed.
-/

namespace Anolis.Proofs.RestartCounts

open Anolis.Runtime Lib Provider Supervision

/-- The supervisor before the first check. -/
structure SupStart (s : Sup) : Prop where
  state : s.st = {}
  flight : s.flight = none
  place : s.place = none

/-! ### The restart that is owed -/

/-- Is a restart owed for a recorded crash. -/
def owed (s : Sup) : Bool :=
  s.place = some .restart || (s.st.crashDetected && !s.st.circuitOpen && s.place ≠ some .crash)

/-- What a step does to the restart that is owed. -/
inductive Owing (policy : RestartPolicyConfig) (s : Sup) (e : SupEvent) (s' : Sup) : Prop
  | starts (he : e = .started false) (hbefore : owed s) (hafter : owed s' = false)
      (hwithin : Within policy s.st) (hdue : s.st.nextRestartTime ≤ s.now)
      (hcount : s'.st.attemptCount = s.st.attemptCount)
  | crashes (ms : Int) (he : e = .crashed (some ms)) (hbefore : owed s = false)
      (hcount : s'.st.attemptCount = s.st.attemptCount + 1)
      (hle : (s'.st.attemptCount : Int) ≤ policy.maxAttempts)
      (hnext : s'.st.nextRestartTime = s.now + msToNs ms)
  | keeps (hstart : e ≠ .started false) (hcrash : ∀ ms, e ≠ .crashed (some ms))
      (hcount : e ≠ .recovered → s.st.attemptCount ≤ s'.st.attemptCount)
      (howed : owed s' → owed s ∧ s'.st.nextRestartTime = s.st.nextRestartTime)

section
variable {policy : RestartPolicyConfig} {interval : Int} {s₀ s s' : Sup} {e : SupEvent}
  {tr : SupTrace} {i : Sup × SupEvent} {tr₁ tr₂ : SupTrace}

theorem supSound_of_start (h0 : SupStart s) : SupSound policy s := by
  obtain ⟨now, st, flight, place⟩ := s
  obtain ⟨rfl, rfl, rfl⟩ := h0
  exact supSound_start policy now

theorem supSound_run (haccepted : PolicyAccepted policy) (h0 : SupStart s₀)
    (h : Run (supervised policy interval) s₀ tr s) : SupSound policy s :=
  Run.induct (J := fun _ s => SupSound policy s) (supSound_of_start h0)
    (fun _ _ _ _ _ hs hstep => hs.step haccepted hstep) h

theorem within_of_owed (h : SupSound policy s) (howed : owed s) : Within policy s.st := by
  simp only [owed, Bool.or_eq_true, Bool.and_eq_true, decide_eq_true_eq, Bool.not_eq_true',
    ne_eq, decide_not] at howed
  rcases howed with hplace | ⟨⟨hdetected, hclosed⟩, hplace⟩
  · exact (h.place _ hplace).2.2.1
  · exact h.pending hdetected hclosed (by simpa using hplace)

/-- A step that leaves the state of the supervisor owes what it owed. -/
theorem owing_of_place (hst : s'.st = s.st) (hstart : e ≠ .started false)
    (hcrash : ∀ ms, e ≠ .crashed (some ms))
    (hplace : s.place ≠ some .crash) (hplace' : s'.place ≠ some .restart) :
    Owing policy s e s' := by
  refine .keeps hstart hcrash (fun _ => Nat.le_of_eq (by rw [hst])) fun howed => ?_
  simp only [owed, hst, hplace', decide_false, Bool.false_or, Bool.and_eq_true] at howed ⊢
  simp [howed.1, hplace]

theorem owing_of_step (haccepted : PolicyAccepted policy) (h : SupSound policy s)
    (hstep : SupStep policy interval s e s') : Owing policy s e s' := by
  cases hstep with
  | other now hnow =>
    exact .keeps (by simp) (by simp) (fun _ => Nat.le_refl _) fun howed => ⟨howed, rfl⟩
  | observe up hplace _ =>
    exact owing_of_place rfl (by simp) (by simp) (by simp [hplace]) (by cases up <;> simp)
  | circuit hplace =>
    refine owing_of_place rfl (by simp) (by simp) (by simp [hplace]) ?_
    cases s.st.circuitOpen <;> simp
  | leave hplace hmay =>
    refine owing_of_place rfl (by simp) (by simp) ?_ (by simp)
    rw [hplace]
    rcases hmay with rfl | rfl | rfl <;> simp
  | willProbe hplace | wasMarked hplace | willRestart hplace | willRecover hplace =>
    exact owing_of_place rfl (by simp) (by simp) (by simp [hplace]) (by simp)
  | probe hplace => exact owing_of_place rfl (by simp) (by simp) (by simp [hplace]) (by simp)
  | marked hplace hnew => exact .keeps (by simp) (by simp) (fun _ => Nat.le_refl _) (by simp [owed])
  | crash hplace hcrash =>
    obtain ⟨-, hle, rfl⟩ := of_recordCrash_accepted hcrash
    exact .crashes _ rfl (by simp [owed, hplace]) rfl (by simpa using hle) rfl
  | opens hplace hcrash =>
    rcases of_recordCrash_refused hcrash with ⟨-, rfl⟩ | ⟨-, -, rfl⟩
    · exact .keeps (by simp) (by simp) (fun _ => Nat.le_refl _) (by simp [owed])
    · exact .keeps (by simp) (by simp) (fun _ => Nat.le_succ _) (by simp [owed])
  | outOfBounds _ hcrash => exact absurd hcrash (recordCrash_ne_none haccepted)
  | clear hplace =>
    -- the debt moves from the flag to the place
    obtain ⟨hclosed, hdetected, -⟩ := h.place _ hplace
    exact .keeps (by simp) (by simp) (fun _ => Nat.le_refl _)
      fun _ => ⟨by simp [owed, hplace, hclosed, hdetected], rfl⟩
  | restart hplace =>
    obtain ⟨-, hcleared, hwithin, hdue⟩ := h.place _ hplace
    exact .starts rfl (by simp [owed, hplace]) (by simp [owed, hcleared]) hwithin hdue rfl
  | returned probe restarted hplace hflight =>
    obtain ⟨-, hopen, -⟩ := h.flying probe hflight
    cases probe with
    | false => exact owing_of_place rfl (by simp) (by simp) (by simp [hplace]) (by simp [hplace])
    | true =>
      cases restarted with
      | true =>
        exact .keeps (by simp) (by simp) (fun _ => Nat.le_refl _)
          (by simp [owed, hplace, recordProbeResult])
      | false =>
        exact .keeps (by simp) (by simp) (fun _ => Nat.le_refl _)
          (by simp [owed, hplace, recordProbeResult, hopen])
  | heartbeat hplace =>
    obtain ⟨hcount, hcircuit, hdetected, hnext⟩ := recordHeartbeat_same s.st s.now
    refine .keeps (by simp) (by simp) (fun _ => Nat.le_of_eq hcount.symm) fun howed => ⟨?_, hnext⟩
    simpa [owed, hplace, hcircuit, hdetected] using howed
  | recover hplace => exact .keeps (by simp) (by simp) (by simp) (by simp [owed, recordSuccess])

/-! ### Restarts -/

/-- An accepted crash since which no restart was started, and the time its restart waits for. -/
def CrashBehind (tr : SupTrace) (time : Int) : Prop :=
  ∃ tr' j between ms, tr = tr' ++ j :: between ∧ j.2 = .crashed (some ms) ∧
    (∀ k ∈ between, k.2 ≠ .started false) ∧ j.1.now + msToNs ms = time

theorem CrashBehind.snoc {time : Int} (h : CrashBehind tr time)
    (hi : i.2 ≠ .started false) : CrashBehind (tr ++ [i]) time := by
  obtain ⟨tr', j, between, ms, rfl, hj, hbetween, htime⟩ := h
  refine ⟨tr', j, between ++ [i], ms, by simp, hj, fun k hk => ?_, htime⟩
  exact forall_snoc hbetween hi k hk

theorem crashBehind_run (haccepted : PolicyAccepted policy) (h0 : SupStart s₀)
    (h : Run (supervised policy interval) s₀ tr s) :
    owed s → CrashBehind tr s.st.nextRestartTime := by
  refine Run.induct (J := fun tr s => owed s → CrashBehind tr s.st.nextRestartTime)
    ?_ ?_ h
  · simp [owed, h0.state, h0.place]
  · intro tr s e s' hrun ih hstep howed'
    have hsound := supSound_run haccepted h0 hrun
    cases owing_of_step haccepted hsound hstep with
    | starts _ _ hafter =>
      rw [hafter] at howed'
      cases howed'
    | crashes ms he _ _ _ hnext => exact ⟨tr, (s, e), [], ms, rfl, he, by simp, hnext.symm⟩
    | keeps hstart _ _ howed =>
      obtain ⟨hbefore, hnext⟩ := howed howed'
      rw [hnext]
      exact (ih hbefore).snoc hstart

/-- The restarts of a run with no success in it. The crash that is still owed a restart counts
too. -/
theorem restarts_le (haccepted : PolicyAccepted policy) (h0 : SupSound policy s₀)
    (h : Run (supervised policy interval) s₀ tr s) (hnone : ∀ i ∈ tr, i.2 ≠ .recovered) :
    tr.countP (fun i => i.2 = .started false) ≤ policy.maxAttempts.toNat := by
  suffices hcount : SupSound policy s ∧
      tr.countP (fun i => i.2 = .started false) ≤ policy.maxAttempts.toNat ∧
      tr.countP (fun i => i.2 = .started false) + (owed s).toNat ≤ s.st.attemptCount from
    hcount.2.1
  refine Run.induct_of (C := fun _ e => e ≠ .recovered) (J := fun tr s => SupSound policy s ∧
      tr.countP (fun i => i.2 = .started false) ≤ policy.maxAttempts.toNat ∧
      tr.countP (fun i => i.2 = .started false) + (owed s).toNat ≤ s.st.attemptCount)
    ⟨h0, by simp, ?_⟩ ?_ h hnone
  · cases howed : owed s₀ with
    | false => simp
    | true => simpa using (within_of_owed h0 howed).2.1
  · rintro tr s e s' - - ⟨hsound, hmax, hle⟩ hne hstep
    refine ⟨hsound.step haccepted hstep, ?_⟩
    rw [List.countP_append, List.countP_singleton]
    cases owing_of_step haccepted hsound hstep with
    | starts he hbefore hafter hwithin _ hcount =>
      have := hwithin.2.2
      rw [hbefore] at hle
      simp only [he, decide_true, if_true, hafter, hcount, Bool.toNat_true, Bool.toNat_false] at *
      omega
    | crashes ms he hbefore hcount =>
      have hbit := Bool.toNat_le (owed s')
      simp only [he, reduceCtorEq, decide_false, Bool.false_eq_true, if_false, hcount, hbefore,
        Bool.toNat_false] at *
      omega
    | keeps hstart _ hcount howed =>
      have := hcount hne
      have hbit : (owed s').toNat ≤ (owed s).toNat := by
        cases hafter : owed s' with
        | false => exact Nat.zero_le _
        | true => exact Nat.le_of_eq (by rw [(howed hafter).1])
      simp only [hstart, decide_false, Bool.false_eq_true, if_false]
      omega

/-- After a probe that succeeded, and before a success, no crash is accepted and no restart
started. -/
theorem no_restart_after_probe (haccepted : PolicyAccepted policy) (h0 : SupStart s₀)
    (h : Run (supervised policy interval) s₀ (tr₁ ++ i :: tr₂) s) (hi : i.2 = .returned true true)
    (hnone : ∀ k ∈ tr₂, k.2 ≠ .recovered) :
    ∀ k ∈ tr₂, k.2 ≠ .started false ∧ ∀ ms, k.2 ≠ .crashed (some ms) := by
  suffices hspent : policy.maxAttempts < (s.st.attemptCount : Int) ∧
      ∀ k ∈ tr₂, k.2 ≠ .started false ∧ ∀ ms, k.2 ≠ .crashed (some ms) from hspent.2
  refine Run.after_step (T := supervised policy interval)
    (K := fun behind s => (∀ k ∈ behind, k.2 ≠ .recovered) →
      policy.maxAttempts < (s.st.attemptCount : Int) ∧
        ∀ k ∈ behind, k.2 ≠ .started false ∧ ∀ ms, k.2 ≠ .crashed (some ms)) ?_ ?_ h hnone
  · intro s' hbefore hstep _
    rw [hi] at hstep
    have hsound := supSound_run haccepted h0 hbefore
    cases hstep with
    | returned _ _ _ hflight =>
      obtain ⟨henabled, hopen, -⟩ := hsound.flying true hflight
      exact ⟨hsound.opened henabled hopen, by simp⟩
  · intro tr s e s' behind hrun hstep ih hnone
    obtain ⟨hspent, hall⟩ := ih fun k hk => hnone k (List.mem_append_left _ hk)
    have hne : e ≠ .recovered := hnone (s, e) List.mem_concat_self
    cases owing_of_step haccepted (supSound_run haccepted h0 hrun) hstep with
    | starts _ _ _ hwithin =>
      have := hwithin.2.2
      omega
    | crashes _ _ _ hcount hle =>
      rw [hcount] at hle
      omega
    | keeps hstart hcrash hcount =>
      have := hcount hne
      exact ⟨by omega, forall_snoc hall ⟨hstart, hcrash⟩⟩

/-! ### Probes -/

/-- What holds behind a probe that started at `time`: the next one is due after the interval. -/
structure ProbeBehind (interval time : Int) (behind : SupTrace) (s : Sup) : Prop where
  past : time ≤ s.now
  due : s.st.circuitOpen → s.flight ≠ some true → time + interval ≤ s.st.nextRestartTime
  probes : ∀ k ∈ behind, k.2 = .started true → time + interval ≤ k.1.now

theorem ProbeBehind.step {time : Int} {behind : SupTrace} (henabled : policy.enabled)
    (hsound : SupSound policy s) (h : ProbeBehind interval time behind s)
    (hstep : SupStep policy interval s e s') :
    ProbeBehind interval time (behind ++ [(s, e)]) s' := by
  -- a step that is no probe, and leaves the due time or sets it
  have hplain : e ≠ .started true → time ≤ s'.now →
      (s'.st.circuitOpen → s'.flight ≠ some true → time + interval ≤ s'.st.nextRestartTime) →
      ProbeBehind interval time (behind ++ [(s, e)]) s' := by
    intro hne hpast hdue
    exact ⟨hpast, hdue, forall_snoc h.probes fun hprobe => absurd hprobe hne⟩
  cases hstep with
  | other now hnow => exact hplain (by simp) (Int.le_trans h.past hnow) h.due
  | probe hplace =>
    obtain ⟨-, hopen, hdue⟩ := hsound.place _ hplace
    have hflight := hsound.alone (by rw [hplace]; rfl)
    exact ⟨h.past, by simp, forall_snoc h.probes fun _ =>
      Int.le_trans (h.due hopen (by simp [hflight])) hdue⟩
  | opens hplace hcrash =>
    refine hplain (by simp) h.past fun _ _ => ?_
    rcases of_recordCrash_refused hcrash with ⟨hoff, -⟩ | ⟨-, -, rfl⟩
    · rw [henabled] at hoff
      cases hoff
    · show time + interval ≤ s.now + interval
      have := h.past
      omega
  | crash hplace hcrash =>
    obtain ⟨hclosed, -⟩ := hsound.place _ hplace
    obtain ⟨-, -, rfl⟩ := of_recordCrash_accepted hcrash
    exact hplain (by simp) h.past (by simp [hclosed])
  | restart hplace =>
    obtain ⟨hclosed, -⟩ := hsound.place _ hplace
    exact hplain (by simp) h.past (by simp [hclosed])
  | returned probe restarted hplace hflight =>
    refine hplain (by simp) h.past fun hopen _ => ?_
    obtain ⟨-, hwas, -⟩ := hsound.flying probe hflight
    cases probe with
    | false =>
      simp only [Bool.false_eq_true, if_false] at hopen
      rw [hwas] at hopen
      cases hopen
    | true =>
      cases restarted with
      | true => simp [recordProbeResult] at hopen
      | false =>
        show time + interval ≤ s.now + interval
        have := h.past
        omega
  | heartbeat hplace =>
    obtain ⟨-, hcircuit, -, hnext⟩ := recordHeartbeat_same s.st s.now
    refine hplain (by simp) h.past ?_
    simpa [hcircuit, hnext] using h.due
  | recover hplace => exact hplain (by simp) h.past (by simp [recordSuccess])
  | _ => exact hplain (by simp) h.past h.due

theorem probes_apart (haccepted : PolicyAccepted policy) (h0 : SupStart s₀)
    (h : Run (supervised policy interval) s₀ (tr₁ ++ i :: tr₂) s) (hi : i.2 = .started true) :
    ∀ k ∈ tr₂, k.2 = .started true → i.1.now + interval ≤ k.1.now := by
  obtain ⟨hbefore, s₁, hstep, -⟩ := h.at_step
  rw [hi] at hstep
  have henabled : policy.enabled := by
    cases hstep with
    | probe hplace => exact ((supSound_run haccepted h0 hbefore).place _ hplace).1
  have hbehind : ProbeBehind interval i.1.now tr₂ s := by
    refine Run.after_step (T := supervised policy interval)
      (K := ProbeBehind interval i.1.now) (fun s' _ hstep => ?_) (fun _ _ _ _ _ hr hs hk =>
        hk.step henabled (supSound_run haccepted h0 hr) hs) h
    rw [hi] at hstep
    cases hstep with
    | probe => exact ⟨Int.le_refl _, by simp, by simp⟩
  exact hbehind.probes

end

end Anolis.Proofs.RestartCounts
