import Anolis.Proofs.RestartCounts

/-!
# What a success is behind

The supervisor resets the crash streak of a provider when the provider has been up for the time of
its policy. The uptime begins with a check that found the provider up, and a recorded crash ends it
(`upSince_run`).

A crash that is pending, and an open circuit, record no further crash and leave the start of the
uptime as it is. So a provider that comes back by itself and goes again keeps its uptime. Where a
provider that is down stays down until a restart of it succeeds (`StaysDown`), there is no uptime
while a crash is pending or the circuit is open, and every check of an uptime found the provider up
(`downSound_run`).
-/

namespace Anolis.Proofs.Uptime

open Anolis.Runtime Lib Provider Supervision RestartCounts

section
variable {policy : RestartPolicyConfig} {interval : Int} {s₀ s s' : Sup} {e : SupEvent}
  {tr : SupTrace} {bad : SupEvent → Prop} {i : Sup × SupEvent}

/-! ### Uptimes -/

/-- A check at `time` or before found the provider up, and nothing `bad` happened since. -/
def SeenUp (bad : SupEvent → Prop) (tr : SupTrace) (time : Int) : Prop :=
  ∃ tr' j between, tr = tr' ++ j :: between ∧ j.2 = .observed true ∧ j.1.now ≤ time ∧
    ∀ k ∈ between, ¬ bad k.2

theorem SeenUp.snoc {time : Int}
    (h : SeenUp bad tr time) (hi : ¬ bad i.2) : SeenUp bad (tr ++ [i]) time := by
  obtain ⟨tr', j, between, rfl, hj, htime, hbetween⟩ := h
  exact ⟨tr', j, between ++ [i], by simp, hj, htime, forall_snoc hbetween hi⟩

theorem SeenUp.later {time time' : Int} (h : SeenUp bad tr time)
    (hle : time ≤ time') : SeenUp bad tr time' := by
  obtain ⟨tr', j, between, htr, hj, htime, hbetween⟩ := h
  exact ⟨tr', j, between, htr, hj, Int.le_trans htime hle, hbetween⟩

/-- The event records a crash. -/
def IsCrash (e : SupEvent) : Prop := ∃ backoff, e = .crashed backoff

/-- The uptime of a provider with an enabled policy began with a check that found it up, and no
crash was recorded since. -/
structure UpSince (tr : SupTrace) (s : Sup) : Prop where
  beat : s.place = some .heartbeat → SeenUp IsCrash tr s.now
  since : s.st.processStartTime ≠ 0 → SeenUp IsCrash tr s.st.processStartTime

/-- A step that records no crash, and neither begins an uptime nor a heartbeat. -/
theorem UpSince.keep (h : UpSince tr s) (hcrash : ¬ IsCrash e)
    (hstart : s'.st.processStartTime = s.st.processStartTime)
    (hbeat : s'.place = some .heartbeat → s.place = some .heartbeat) (hnow : s.now ≤ s'.now) :
    UpSince (tr ++ [(s, e)]) s' where
  beat hplace := ((h.beat (hbeat hplace)).snoc hcrash).later hnow
  since hset := by
    rw [hstart] at hset ⊢
    exact (h.since hset).snoc hcrash

theorem upSince_step (henabled : policy.enabled) (h : UpSince tr s)
    (hstep : SupStep policy interval s e s') : UpSince (tr ++ [(s, e)]) s' := by
  have hquiet : ∀ e' : SupEvent, (∀ backoff, e' ≠ .crashed backoff) → ¬ IsCrash e' := by
    rintro e' hne ⟨backoff, he⟩
    exact hne backoff he
  cases hstep with
  | other now hnow => exact h.keep (hquiet _ (by simp)) rfl id hnow
  | observe up hplace _ =>
    refine ⟨fun hbeat => ?_, fun hset => (h.since hset).snoc (hquiet _ (by simp))⟩
    cases up with
    | true => exact ⟨tr, _, [], rfl, rfl, Int.le_refl _, by simp⟩
    | false => cases hbeat
  | circuit hplace =>
    refine h.keep (hquiet _ (by simp)) rfl (fun hbeat => ?_) (Int.le_refl _)
    cases hopen : s.st.circuitOpen <;> simp [hopen] at hbeat
  | crash hplace hcrash =>
    obtain ⟨-, -, rfl⟩ := of_recordCrash_accepted hcrash
    exact ⟨by simp, fun hset => absurd rfl hset⟩
  | opens hplace hcrash =>
    rcases of_recordCrash_refused hcrash with ⟨hoff, -⟩ | ⟨-, -, rfl⟩
    · rw [henabled] at hoff
      cases hoff
    · exact ⟨by simp, fun hset => absurd rfl hset⟩
  | heartbeat hplace =>
    refine ⟨by simp, fun hset => ?_⟩
    simp only [recordHeartbeat] at hset ⊢
    split
    · exact (h.beat hplace).snoc (hquiet _ (by simp))
    · rename_i hwas
      exact (h.since hwas).snoc (hquiet _ (by simp))
  | returned probe restarted hplace _ =>
    refine h.keep (hquiet _ (by simp)) ?_ (by simp [hplace]) (Int.le_refl _)
    cases probe <;> cases restarted <;> rfl
  | _ => exact h.keep (hquiet _ (by simp)) rfl (by simp) (Int.le_refl _)

theorem seenUp_of_recovered (hsound : SupSound policy s)
    (hstep : SupStep policy interval s .recovered s')
    (hup : policy.enabled → s.place = some .success → s.st.processStartTime ≠ 0 →
      SeenUp bad tr s.st.processStartTime) :
    SeenUp bad tr (s.now - msToNs policy.successResetMs) := by
  cases hstep with
  | recover hplace =>
    obtain ⟨henabled, -, hset, hlong⟩ := hsound.place _ hplace
    exact (hup henabled hplace hset).later (by omega)

theorem upSince_run (henabled : policy.enabled) (h0 : SupStart s₀)
    (h : Run (supervised policy interval) s₀ tr s) : UpSince tr s :=
  Run.induct (J := UpSince) ⟨by simp [h0.place], by simp [h0.state]⟩
    (fun _ _ _ _ _ ih hstep => upSince_step henabled ih hstep) h

/-! ### A provider that stays down -/

/-- A provider that was found down is found up again only after a restart of it succeeded. -/
def StaysDown (tr : SupTrace) : Prop :=
  ∀ tr₁ i tr₂ j tr₃, tr = tr₁ ++ i :: (tr₂ ++ j :: tr₃) → i.2 = .observed false →
    j.2 = .observed true → ∃ k ∈ tr₂, ∃ probe, k.2 = .returned probe true

/-- The provider was found down, and no restart of it succeeded since. -/
def Down (tr : SupTrace) : Prop :=
  ∃ tr₁ i tr₂, tr = tr₁ ++ i :: tr₂ ∧ i.2 = .observed false ∧
    ∀ k ∈ tr₂, ∀ probe, k.2 ≠ .returned probe true

theorem StaysDown.before {tr₁ tr₂ : SupTrace} (h : StaysDown (tr₁ ++ tr₂)) : StaysDown tr₁ := by
  intro a i b j c htr hi hj
  exact h a i b j (c ++ tr₂) (by simp [htr]) hi hj

theorem Down.snoc (h : Down tr) (hi : ∀ probe, i.2 ≠ .returned probe true) : Down (tr ++ [i]) := by
  obtain ⟨tr₁, a, tr₂, rfl, ha, hnone⟩ := h
  exact ⟨tr₁, a, tr₂ ++ [i], by simp, ha, forall_snoc hnone hi⟩

theorem Down.not_up (h : Down tr) (hstays : StaysDown (tr ++ [(s, .observed true)])) : False := by
  obtain ⟨tr₁, a, tr₂, rfl, ha, hnone⟩ := h
  obtain ⟨k, hk, probe, hreturned⟩ := hstays tr₁ a tr₂ (s, .observed true) [] (by simp) ha rfl
  exact hnone k hk probe hreturned

/-- The places of a check that found the provider down, up to the record of the crash. -/
def judging : Option CheckPlace → Bool
  | some .circuit | some .mark | some .crash => true
  | _ => false

/-- What holds of a provider that stays down, with an enabled policy. -/
structure DownSound (tr : SupTrace) (s : Sup) : Prop where
  /-- While a crash is pending or the circuit is open, the provider is down, with no uptime. -/
  pending : s.st.crashDetected ∨ s.st.circuitOpen → s.place ≠ some .crash →
    Down tr ∧ s.st.processStartTime = 0
  judged : judging s.place → Down tr
  beat : s.place = some .heartbeat → SeenUp (· = .observed false) tr s.now ∧
    s.st.crashDetected = false ∧ s.st.circuitOpen = false
  since : s.st.processStartTime ≠ 0 → judging s.place = false →
    SeenUp (· = .observed false) tr s.st.processStartTime

/-- A step that is no observation and no successful return, and leaves the flags and the uptime. -/
theorem DownSound.keep (h : DownSound tr s) (hobserved : ∀ up, e ≠ .observed up)
    (hreturned : ∀ probe, e ≠ .returned probe true)
    (hdetected : s'.st.crashDetected = s.st.crashDetected)
    (hcircuit : s'.st.circuitOpen = s.st.circuitOpen)
    (hstart : s'.st.processStartTime = s.st.processStartTime) (hnow : s.now ≤ s'.now)
    (hcrash : s.place = some .crash → s'.place = some .crash)
    (hjudging : judging s'.place → judging s.place)
    (hleft : judging s.place → judging s'.place = false → s.st.processStartTime = 0)
    (hbeat : s'.place = some .heartbeat → s.place = some .heartbeat) :
    DownSound (tr ++ [(s, e)]) s' where
  pending hflag hplace := by
    rw [hdetected, hcircuit] at hflag
    obtain ⟨hdown, hzero⟩ := h.pending hflag fun hat => hplace (hcrash hat)
    exact ⟨hdown.snoc hreturned, hstart.trans hzero⟩
  judged hj := (h.judged (hjudging hj)).snoc hreturned
  beat hb := by
    obtain ⟨hseen, hd, hc⟩ := h.beat (hbeat hb)
    exact ⟨(hseen.snoc (hobserved false)).later hnow, hdetected.trans hd, hcircuit.trans hc⟩
  since hset hj := by
    rw [hstart] at hset ⊢
    refine (h.since hset ?_).snoc (hobserved false)
    by_contra hin
    exact hset (hleft (by simpa using hin) hj)

theorem downSound_step (haccepted : PolicyAccepted policy) (henabled : policy.enabled)
    (hsound : SupSound policy s) (h : DownSound tr s) (hstays : StaysDown (tr ++ [(s, e)]))
    (hstep : SupStep policy interval s e s') : DownSound (tr ++ [(s, e)]) s' := by
  cases hstep with
  | other now hnow =>
    exact h.keep (by simp) (by simp) rfl rfl rfl hnow id id (fun hin hout => by simp_all) id
  | observe up hplace _ =>
    cases up with
    | false =>
      have hdown : Down (tr ++ [(s, .observed false)]) := ⟨tr, _, [], rfl, rfl, by simp⟩
      refine ⟨fun hflag _ => ⟨hdown, ?_⟩, fun _ => hdown, by simp, by simp [judging]⟩
      exact (h.pending hflag (by simp [hplace])).2
    | true =>
      -- a crash that is pending, or an open circuit, is of a provider that is down
      have hclear : ¬ (s.st.crashDetected ∨ s.st.circuitOpen) := fun hflag =>
        (h.pending hflag (by simp [hplace])).1.not_up hstays
      refine ⟨fun hflag => absurd hflag hclear, by simp [judging], fun _ => ⟨?_, ?_⟩,
        fun hset _ => ?_⟩
      · exact ⟨tr, _, [], rfl, rfl, Int.le_refl _, by simp⟩
      · simpa using hclear
      · exact (h.since hset (by simp [hplace, judging])).snoc (by simp)
  | circuit hplace =>
    cases hopen : s.st.circuitOpen with
    | false =>
      exact h.keep (by simp) (by simp) rfl rfl rfl (Int.le_refl _) (by simp [hplace])
        (fun _ => by simp [hplace, judging]) (by simp [judging]) (by simp)
    | true =>
      have hzero := (h.pending (.inr hopen) (by simp [hplace])).2
      exact h.keep (by simp) (by simp) rfl rfl rfl (Int.le_refl _) (by simp [hplace])
        (fun _ => by simp [hplace, judging]) (fun _ _ => hzero) (by simp)
  | marked hplace _ =>
    have hdown := (h.judged (by simp [hplace, judging])).snoc (i := (s, .quiet)) (by simp)
    exact ⟨by simp, fun _ => hdown, by simp, by simp [judging]⟩
  | wasMarked hplace hold =>
    have hzero := (h.pending (.inl hold) (by simp [hplace])).2
    exact h.keep (by simp) (by simp) rfl rfl rfl (Int.le_refl _) (by simp [hplace])
      (by simp [judging]) (fun _ _ => hzero) (by simp)
  | crash hplace hcrash =>
    obtain ⟨-, -, rfl⟩ := of_recordCrash_accepted hcrash
    have hdown := h.judged (by simp [hplace, judging])
    exact ⟨fun _ _ => ⟨hdown.snoc (by simp), rfl⟩, by simp [judging], by simp,
      fun hset => absurd rfl hset⟩
  | opens hplace hcrash =>
    rcases of_recordCrash_refused hcrash with ⟨hoff, -⟩ | ⟨-, -, rfl⟩
    · rw [henabled] at hoff
      cases hoff
    · have hdown := h.judged (by simp [hplace, judging])
      exact ⟨fun _ _ => ⟨hdown.snoc (by simp), rfl⟩, by simp [judging], by simp,
        fun hset => absurd rfl hset⟩
  | outOfBounds _ hcrash => exact absurd hcrash (recordCrash_ne_none haccepted)
  | leave hplace hmay =>
    refine h.keep (by simp) (by simp) rfl rfl rfl (Int.le_refl _) ?_ (by simp [judging])
      ?_ (by simp)
    · rw [hplace]
      rcases hmay with rfl | rfl | rfl <;> simp
    · rw [hplace]
      rcases hmay with rfl | rfl | rfl <;> simp [judging]
  | clear hplace =>
    obtain ⟨hclosed, -⟩ := hsound.place _ hplace
    refine ⟨fun hflag => ?_, by simp [judging], by simp, fun hset _ => ?_⟩
    · simp [clearCrashDetected, hclosed] at hflag
    · exact (h.since hset (by simp [hplace, judging])).snoc (by simp)
  | returned probe restarted hplace hflight =>
    obtain ⟨-, hopen, hcleared⟩ := hsound.flying probe hflight
    have hsince : ∀ e', (∀ up, e' ≠ .observed up) → s.st.processStartTime ≠ 0 →
        SeenUp (· = .observed false) (tr ++ [(s, e')]) s.st.processStartTime :=
      fun e' he' hset => (h.since hset (by simp [hplace, judging])).snoc (he' false)
    cases probe with
    | false =>
      -- the flags were clear while the restart was in flight
      refine ⟨fun hflag => ?_, by simp [hplace, judging], by simp [hplace],
        fun hset _ => hsince _ (by simp) hset⟩
      simp [hopen, hcleared rfl] at hflag
    | true =>
      cases restarted with
      | true =>
        refine ⟨fun hflag => ?_, by simp [hplace, judging], by simp [hplace],
          fun hset _ => hsince _ (by simp) hset⟩
        simp [recordProbeResult] at hflag
      | false =>
        exact h.keep (by simp) (by simp) rfl rfl rfl (Int.le_refl _) (by simp [hplace])
          (by simp [hplace, judging]) (by simp [hplace, judging]) (by simp [hplace])
  | heartbeat hplace =>
    obtain ⟨hseen, hdetected, hclosed⟩ := h.beat hplace
    obtain ⟨-, hcircuit', hdetected', -⟩ := recordHeartbeat_same s.st s.now
    refine ⟨fun hflag => ?_, by simp [judging], by simp, fun hset _ => ?_⟩
    · simp [hcircuit', hdetected', hdetected, hclosed] at hflag
    · simp only [recordHeartbeat] at hset ⊢
      split
      · exact hseen.snoc (by simp)
      · rename_i hwas
        exact (h.since hwas (by simp [hplace, judging])).snoc (by simp)
  | recover hplace =>
    refine ⟨fun hflag => ?_, by simp [judging], by simp, fun hset _ => ?_⟩
    · simp [recordSuccess] at hflag
    · exact (h.since hset (by simp [hplace, judging])).snoc (by simp)
  | willProbe hplace | probe hplace | willRestart hplace | restart hplace | willRecover hplace =>
    exact h.keep (by simp) (by simp) rfl rfl rfl (Int.le_refl _) (by simp [hplace])
      (by simp [judging]) (by simp [hplace, judging]) (by simp)

theorem downSound_run (haccepted : PolicyAccepted policy) (henabled : policy.enabled)
    (h0 : SupStart s₀) (h : Run (supervised policy interval) s₀ tr s) (hstays : StaysDown tr) :
    DownSound tr s := by
  induction h with
  | refl => exact ⟨by simp [h0.state], by simp [h0.place, judging], by simp [h0.place],
      by simp [h0.state]⟩
  | snoc hrun hstep ih =>
    exact downSound_step haccepted henabled (supSound_run haccepted h0 hrun) (ih hstays.before)
      hstays hstep

end

end Anolis.Proofs.Uptime
