import Anolis.Provider.ProviderConfig

/-!
# Crash streaks, backoff and the circuit breaker

`provider_supervisor.cpp`: what the supervisor keeps of one provider, and what each of its methods
does to that under the provider's restart policy. Every provider of the configuration is registered
before the main loop starts, so the branches for an unknown provider are left out, and so is
`last_healthy_time`, which only the snapshots read.

Times are of the steady clock, in nanoseconds; `0` is the clock's epoch, which stands for no time.
The crash count is a natural number here; the source's has 32 bits.
-/

namespace Anolis.Provider

/-- A number of milliseconds, in nanoseconds. -/
def msToNs (ms : Int) : Int := ms * 1000000

/-- `RestartState`. -/
structure RestartState where
  attemptCount : Nat := 0
  circuitOpen : Bool := false
  crashDetected : Bool := false
  nextRestartTime : Int := 0
  processStartTime : Int := 0
deriving DecidableEq

section
variable (policy : RestartPolicyConfig) (st : RestartState) (now : Int)

/-- `should_restart`. -/
def shouldRestart : Bool :=
  policy.enabled && !st.circuitOpen && st.nextRestartTime ≤ now

/-- The place of `backoff_ms` for an attempt: the last one, where there are fewer. -/
def backoffIndex (attempts : Nat) : Int :=
  if policy.backoffMs.length ≤ attempts - 1 then (policy.backoffMs.length : Int) - 1
  else (attempts : Int) - 1

/-- `backoff_ms[index]`, and `none` for an index that is out of bounds. -/
def backoffAt? (index : Int) : Option Int :=
  if index < 0 then none else policy.backoffMs[index.toNat]?

/-- `get_backoff_ms`, and `none` where it reads out of bounds. -/
def getBackoffMs : Option Int :=
  if st.attemptCount = 0 ∨ st.circuitOpen then some 0
  else backoffAt? policy (backoffIndex policy st.attemptCount)

/-- `record_crash`: the state after it, and the backoff where it returns true. `none` where it reads
out of bounds. -/
def recordCrash (interval : Int) : Option (RestartState × Option Int) :=
  if !policy.enabled then some ({ st with circuitOpen := true }, none)
  else
    let st := { st with attemptCount := st.attemptCount + 1, processStartTime := 0 }
    if policy.maxAttempts < st.attemptCount then
      some ({ st with circuitOpen := true, nextRestartTime := now + interval }, none)
    else
      (backoffAt? policy (backoffIndex policy st.attemptCount)).map fun ms =>
        ({ st with nextRestartTime := now + msToNs ms }, some ms)

/-- `should_probe`. -/
def shouldProbe : Bool := policy.enabled && st.circuitOpen && st.nextRestartTime ≤ now

/-- `record_probe_result`. -/
def recordProbeResult (interval : Int) (restarted : Bool) : RestartState :=
  if restarted then { st with circuitOpen := false, crashDetected := false }
  else { st with nextRestartTime := now + interval }

/-- `record_success`. -/
def recordSuccess : RestartState :=
  { st with attemptCount := 0, circuitOpen := false, crashDetected := false, nextRestartTime := 0 }

/-- `should_mark_recovered`. The uptime is cut to whole milliseconds. -/
def shouldMarkRecovered : Bool :=
  policy.enabled && !st.circuitOpen && st.attemptCount ≠ 0 && st.processStartTime ≠ 0 &&
    policy.successResetMs ≤ (now - st.processStartTime).tdiv 1000000

/-- `mark_crash_detected`, where it returns true. -/
def markCrashDetected : RestartState := { st with crashDetected := true }

/-- `clear_crash_detected`. -/
def clearCrashDetected : RestartState := { st with crashDetected := false }

/-- `record_heartbeat`. -/
def recordHeartbeat : RestartState :=
  if st.processStartTime = 0 then { st with processStartTime := now } else st

end

/-! ### What the methods do -/

section
variable {policy : RestartPolicyConfig} {st : RestartState} {now interval : Int}
  {st' : RestartState}

theorem backoffAt?_isSome (haccepted : PolicyAccepted policy) (henabled : policy.enabled)
    {attempts : Nat} (hpos : 1 ≤ attempts) :
    ∃ ms ∈ policy.backoffMs, backoffAt? policy (backoffIndex policy attempts) = some ms := by
  have hlength := haccepted.backoffs henabled
  have hattempts := haccepted.attempts henabled
  unfold backoffAt? backoffIndex
  split
  · rw [if_neg (by omega)]
    have hlt : ((policy.backoffMs.length : Int) - 1).toNat < policy.backoffMs.length := by omega
    exact ⟨_, List.getElem_mem hlt, List.getElem?_eq_getElem hlt⟩
  · rw [if_neg (by omega)]
    have hlt : ((attempts : Int) - 1).toNat < policy.backoffMs.length := by omega
    exact ⟨_, List.getElem_mem hlt, List.getElem?_eq_getElem hlt⟩

/-- A crash that is accepted: the policy is enabled, the crash is within its attempts, and the
restart waits for the backoff. -/
theorem of_recordCrash_accepted {ms : Int}
    (h : recordCrash policy st now interval = some (st', some ms)) :
    policy.enabled ∧ (st.attemptCount : Int) + 1 ≤ policy.maxAttempts ∧
      st' = ⟨st.attemptCount + 1, st.circuitOpen, st.crashDetected, now + msToNs ms, 0⟩ := by
  unfold recordCrash at h
  split at h
  · cases h
  · rename_i henabled
    simp only at h
    split at h
    · cases h
    · obtain ⟨ms', -, heq⟩ := Option.map_eq_some_iff.mp h
      cases heq
      exact ⟨by simpa using henabled, by omega, rfl⟩

/-- A crash that is refused opens the circuit: the policy is disabled, or the attempts are over. -/
theorem of_recordCrash_refused (h : recordCrash policy st now interval = some (st', none)) :
    (policy.enabled = false ∧ st' = { st with circuitOpen := true }) ∨
      (policy.enabled ∧ policy.maxAttempts < (st.attemptCount : Int) + 1 ∧
        st' = ⟨st.attemptCount + 1, true, st.crashDetected, now + interval, 0⟩) := by
  unfold recordCrash at h
  split at h
  · rename_i hdisabled
    cases h
    exact .inl ⟨by simpa using hdisabled, rfl⟩
  · rename_i henabled
    simp only at h
    split at h
    · cases h
      exact .inr ⟨by simpa using henabled, by omega, rfl⟩
    · obtain ⟨ms', -, heq⟩ := Option.map_eq_some_iff.mp h
      cases heq

theorem recordCrash_ne_none (haccepted : PolicyAccepted policy) :
    recordCrash policy st now interval ≠ none := by
  unfold recordCrash
  split
  · simp
  · rename_i henabled
    have henabled : policy.enabled := by simpa using henabled
    simp only
    split
    · simp
    · obtain ⟨ms, -, hbackoff⟩ := backoffAt?_isSome haccepted henabled
        (Nat.le_add_left 1 st.attemptCount)
      simp [hbackoff]

theorem getBackoffMs_ne_none (haccepted : PolicyAccepted policy)
    (hdisabled : policy.enabled = false → st.attemptCount = 0) : getBackoffMs policy st ≠ none := by
  unfold getBackoffMs
  split
  · simp
  · rename_i hcount
    have hpos : 1 ≤ st.attemptCount := by omega
    have henabled : policy.enabled := by
      by_contra hoff
      have := hdisabled (by simpa using hoff)
      omega
    obtain ⟨ms, -, hbackoff⟩ := backoffAt?_isSome haccepted henabled hpos
    simp [hbackoff]

theorem recordHeartbeat_same (st : RestartState) (now : Int) :
    (recordHeartbeat st now).attemptCount = st.attemptCount ∧
      (recordHeartbeat st now).circuitOpen = st.circuitOpen ∧
      (recordHeartbeat st now).crashDetected = st.crashDetected ∧
      (recordHeartbeat st now).nextRestartTime = st.nextRestartTime := by
  unfold recordHeartbeat
  split <;> exact ⟨rfl, rfl, rfl, rfl⟩

/-- A provider that is marked recovered has been up for the time of its policy. -/
theorem of_shouldMarkRecovered (h : shouldMarkRecovered policy st now)
    (hstart : st.processStartTime ≠ 0 → st.processStartTime ≤ now) :
    policy.enabled ∧ st.circuitOpen = false ∧ st.processStartTime ≠ 0 ∧
      st.processStartTime + msToNs policy.successResetMs ≤ now := by
  simp only [shouldMarkRecovered, Bool.and_eq_true, Bool.not_eq_true', decide_eq_true_eq,
    ne_eq] at h
  obtain ⟨⟨⟨⟨henabled, hclosed⟩, -⟩, hset⟩, hup⟩ := h
  have hpast : 0 ≤ now - st.processStartTime := by
    have := hstart hset
    omega
  rw [Int.tdiv_eq_ediv_of_nonneg hpast] at hup
  refine ⟨henabled, hclosed, hset, ?_⟩
  unfold msToNs
  omega

end

end Anolis.Provider
