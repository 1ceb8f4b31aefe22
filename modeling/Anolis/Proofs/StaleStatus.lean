import Anolis.State.CacheMachine

/-!
# How old a clear stop status can be

`classify` judges the age of the stop status by two wall clocks: the timestamp the provider
sent, and the runtime's system clock. Neither measures elapsed time. A timestamp in the
future, or a system clock that steps back, keeps a dead status fresh for as long as the
difference, and a timestamp far before the epoch makes the age overflow.

`honest` says when the two clocks can be trusted at a step: the stored timestamp of a status
reading lies between the epoch and the system clock, and the system clock advances by at least
the elapsed time and stays in 64 bits. `Accounted` is the invariant: a value came from an
applied read, since which no more time has passed than its age says. It holds for the cached
status and for the copy a `classify` holds (`accounted_run`). `clear_is_recent` follows.
-/

namespace Anolis.Proofs.StaleStatus

open Anolis.Runtime Control Lib State

variable (status : StopChainStatus) (staleAfterMs : Int)

/-- The value a response gives the status signal: the last one in it. -/
def statusReading? (readings : List SignalReading) : Option SignalReading :=
  readings.reverse.find? fun r => r.signalId = statusSignal status

/-- The clocks can be trusted at a step. -/
def honest (w : CacheWorld) : CacheEffect → Bool
  | .readApplied handle readings =>
    handle ≠ statusDevice status || (statusReading? status readings).all fun r =>
      0 ≤ (r.cached w.clock.system).timestamp.toInt &&
        (r.cached w.clock.system).timestamp.toInt ≤ w.clock.system.toInt
  | .advance elapsed system => w.clock.system.toInt + elapsed ≤ system.toInt
  | _ => true

/-- The item is the application of a read of the status device that gave it the value `v`. -/
def Applied (v : CachedSignalValue) (i : CacheItem) : Prop :=
  ∃ readings r, i.2.2 = .readApplied (statusDevice status) readings ∧
    (i.1.shared.cache.deviceStates (statusDevice status)).isSome ∧
    statusReading? status readings = some r ∧ r.value = v.value

/-- The value came from an applied read, and since then no more time has passed than the
system clock has moved since the value's timestamp. -/
def Accounted (tr : CacheTrace) (w : CacheWorld) (v : CachedSignalValue) : Prop :=
  0 ≤ v.timestamp.toInt ∧ ∃ i ∈ tr, Applied status v i ∧
    v.timestamp.toInt + w.clock.steady ≤ w.clock.system.toInt + i.1.shared.clock.steady

/-- Every status value in the cache, and every copy a `classify` holds, is accounted for. -/
def AllAccounted (tr : CacheTrace) (g : CacheState) : Prop :=
  (∀ v, statusValue status g.shared.cache = some v → Accounted status tr g.shared v) ∧
    ∀ t v, Section.judgeStatus (some v) ∈ g.thread t → Accounted status tr g.shared v

/-! ### What a step keeps -/

variable {tr : CacheTrace} {w : CacheWorld} {v : CachedSignalValue} {e : CacheEffect}
  {secs secs' : List Section} {c : CacheChoice}

theorem Accounted.step {i : CacheItem} (hv : Accounted status tr w v)
    (he : honest status w e) : Accounted status (tr ++ [i]) (w.apply e) v := by
  obtain ⟨hts, j, hj, happ, hle⟩ := hv
  refine ⟨hts, j, List.mem_append_left _ hj, happ, ?_⟩
  cases e <;> try exact hle
  case advance elapsed system =>
    have hadv : w.clock.system.toInt + elapsed ≤ system.toInt := of_decide_eq_true he
    simp only [CacheWorld.apply]
    push_cast
    omega

/-- The values after a response: the last one for the signal, else the old one. -/
theorem storeReadings_apply (now : Int64) (s : String) (readings : List SignalReading)
    (signals : String → Option CachedSignalValue) : storeReadings now readings signals s =
      match readings.reverse.find? fun r => r.signalId = s with
      | some r => some (r.cached now)
      | none => signals s := by
  induction readings using List.reverseRecOn with
  | nil => rfl
  | append_singleton rest r ih =>
    have hcons : storeReadings now (rest ++ [r]) signals =
        Function.update (storeReadings now rest signals) r.signalId (some (r.cached now)) := by
      simp [storeReadings]
    rw [hcons, List.reverse_append]
    rcases eq_or_ne r.signalId s with rfl | hr
    · simp
    · rw [Function.update_of_ne (Ne.symm hr), ih]
      simp [hr]

/-- A status value in the cache after an effect was there before, or the effect is an applied
read that gave it. -/
theorem statusValue_apply (h : statusValue status (w.apply e).cache = some v) :
    statusValue status w.cache = some v ∨
      ∃ readings r, e = .readApplied (statusDevice status) readings ∧
        (w.cache.deviceStates (statusDevice status)).isSome ∧
        statusReading? status readings = some r ∧ v = r.cached w.clock.system := by
  obtain ⟨st, hst, hsig⟩ := Option.bind_eq_some_iff.mp h
  -- a value that the device's state before the effect has as well
  have hold : ∀ st₀, w.cache.deviceStates (statusDevice status) = some st₀ →
      st₀.signals (statusSignal status) = some v → statusValue status w.cache = some v :=
    fun st₀ h₀ hs => Option.bind_eq_some_iff.mpr ⟨st₀, h₀, hs⟩
  rcases CacheWorld.deviceState_cases hst with hsame | hnone |
    ⟨-, -, -, st₀, -, -, -, hst₀, hkept⟩ | ⟨readings, st₀, he, hst₀, -, hstored⟩
  · exact .inl (hold st hsame hsig)
  · rw [hnone] at hsig
    cases hsig
  · exact .inl (hold st₀ hst₀ (hkept ▸ hsig))
  · -- the response has a value for the status signal, or the old one is still there
    rw [hstored, storeReadings_apply] at hsig
    split at hsig
    · rename_i r hr
      exact .inr ⟨readings, r, he, by rw [hst₀]; rfl, hr, (Option.some.inj hsig).symm⟩
    · exact .inl (hold st₀ hst₀ hsig)

/-- A copy of the status that a thread holds after a step was held before it, or is a copy of
the cached value. -/
theorem judgeStatus_step {t : ThreadId}
    (hnext : (cacheMachine status staleAfterMs).next w t secs c = some (e, secs'))
    (hv : Section.judgeStatus (some v) ∈ secs') :
    Section.judgeStatus (some v) ∈ secs ∨ (statusValue status w.cache = some v ∧ e = .silent) := by
  cases secs with
  | nil =>
    -- an idle thread: no operation starts with a copy
    exfalso
    cases c with
    | start op =>
      cases hnext
      cases op <;> simp [CacheOp.sections] at hv
    | publish registry | advance elapsed system =>
      cases hnext
      cases hv
    | _ => cases hnext
  | cons sec rest =>
    obtain ⟨⟨e', more⟩, hrun, hr⟩ := Option.map_eq_some_iff.mp hnext
    cases hr
    rcases List.mem_append.mp hv with hmore | hrest
    · exact .inr (run_judgeStatus status staleAfterMs hrun hmore)
    · exact .inl (List.mem_cons_of_mem _ hrest)

/-! ### Runs -/

/-- Along a run with honest clocks, every status value is accounted for. -/
theorem accounted_run {g₀ g : CacheState} (h0 : CacheStart g₀)
    (hrun : Run (cacheMachine status staleAfterMs).lts g₀ tr g)
    (hhonest : ∀ i ∈ tr, honest status i.1.shared i.2.2) : AllAccounted status tr g := by
  refine Run.induct_of (J := AllAccounted status)
    (C := fun g l => honest status g.shared l.2) ?_ ?_ hrun hhonest
  · refine ⟨fun v hv => ?_, fun t v hv => ?_⟩
    · obtain ⟨st, hst, -⟩ := Option.bind_eq_some_iff.mp hv
      rw [h0.2.2.1] at hst
      cases hst
    · rw [h0.2.2.2.2 t] at hv
      cases hv
  · intro tr g l g' _ _ hg hh hstep
    obtain ⟨c, secs, hnext, hsh, hth, hother⟩ := Machine.step_inv hstep
    have hkeep : ∀ v, Accounted status tr g.shared v →
        Accounted status (tr ++ [(g, l)]) g'.shared v := by
      intro v hv
      rw [hsh]
      exact Accounted.step status hv hh
    refine ⟨fun v hv => ?_, fun t v hv => ?_⟩
    · rw [hsh] at hv
      rcases statusValue_apply status hv with hold | ⟨readings, r, he, hdev, hr, rfl⟩
      · exact hkeep v (hg.1 v hold)
      · -- the step itself is the read the value comes from
        have hts : 0 ≤ (r.cached g.shared.clock.system).timestamp.toInt ∧
            (r.cached g.shared.clock.system).timestamp.toInt ≤ g.shared.clock.system.toInt := by
          rw [he] at hh
          simpa [honest, hr] using hh
        refine ⟨hts.1, (g, l), List.mem_concat_self, ⟨readings, r, he, hdev, hr, rfl⟩, ?_⟩
        have hclock : g'.shared.clock = g.shared.clock := by
          rw [hsh, he]
          rfl
        rw [hclock]
        have := hts.2
        dsimp only
        omega
    · rcases eq_or_ne t l.1 with rfl | ht
      · rw [hth] at hv
        rcases judgeStatus_step status staleAfterMs hnext hv with hold | ⟨hval, -⟩
        · exact hkeep v (hg.2 _ v hold)
        · exact hkeep v (hg.1 v hval)
      · rw [hother t ht] at hv
        exact hkeep v (hg.2 t v hv)

/-! ### A clear status -/

/-- A value that is not stale, and whose timestamp is not before the epoch, is no older than
the bound and the millisecond that the cut of the age hides. -/
theorem age_of_fresh {timeoutMs : Int} {now : Int64}
    (hts : 0 ≤ v.timestamp.toInt) (h : v.isStale timeoutMs now = false) :
    now.toInt - v.timestamp.toInt < timeoutMs * 1000000 + 1000000 := by
  unfold CachedSignalValue.isStale at h
  split at h
  · cases h
  · have hage : v.age now ≤ timeoutMs := by simpa using h
    unfold CachedSignalValue.age at hage
    split at hage
    · rename_i hlt
      have := Int64.lt_iff_toInt_lt.mp hlt
      omega
    · rename_i hnlt
      have hle : v.timestamp.toInt ≤ now.toInt := by
        rw [Int64.lt_iff_toInt_lt] at hnlt
        omega
      -- no overflow: both times are from the epoch on
      have hsub : (now - v.timestamp).toInt = now.toInt - v.timestamp.toInt := by
        have := now.toInt_lt
        rw [Int64.toInt_sub, Int.bmod_eq_of_le] <;> omega
      rw [hsub] at hage
      have hnn : 0 ≤ now.toInt - v.timestamp.toInt := by omega
      rw [Int.tdiv_eq_ediv_of_nonneg hnn] at hage
      omega

/-- Only the judging section of `classify` answers, and for clear it had a fresh value that
says the other than the active one. -/
theorem classified_clear {t : ThreadId}
    (hnext : (cacheMachine status staleAfterMs).next w t secs c =
      some (.classified .clear, secs')) :
    ∃ v, Section.judgeStatus (some v) ∈ secs ∧ v.isStale staleAfterMs w.clock.system = false ∧
      v.value.bool? = some (!status.active) := by
  cases secs with
  | nil => cases c <;> cases hnext
  | cons sec rest =>
    obtain ⟨⟨e, more⟩, hrun, hr⟩ := Option.map_eq_some_iff.mp hnext
    cases hr
    revert hrun
    fun_cases Section.run status staleAfterMs w sec c <;> intro hrun <;>
      simp only [some_pair, reduceCtorEq, false_and, CacheEffect.classified.injEq] at hrun
    obtain ⟨v, rfl, hfresh, hval⟩ := classifyReading_clear hrun.1
    exact ⟨v, List.mem_cons_self, hfresh, hval⟩

/-- Is the item the application of a read of the status device that gave the non-active
value. -/
def clearRead (i : CacheItem) : Bool :=
  match i.2.2 with
  | .readApplied handle readings =>
    handle = statusDevice status &&
      (i.1.shared.cache.deviceStates (statusDevice status)).isSome &&
      (statusReading? status readings).any fun r => r.value.bool? = some (!status.active)
  | _ => false

/-- The time between two states of a run, on the steady clock. -/
def elapsed (g g' : CacheState) : Int := g'.shared.clock.steady - g.shared.clock.steady

/-- Where the clocks are honest, a status that is classified clear was read clear no longer
than the stale bound and one millisecond ago. -/
theorem clear_is_recent {g₀ g : CacheState} {tr : CacheTrace} (h0 : CacheStart g₀)
    (hrun : Run (cacheMachine status staleAfterMs).lts g₀ tr g)
    (hhonest : ∀ i ∈ tr, honest status i.1.shared i.2.2)
    (tr₁ tr₂ : CacheTrace) (i : CacheState × ThreadId × CacheEffect)
    (htr : tr = tr₁ ++ i :: tr₂) (hclear : i.2.2 = .classified .clear) :
    ∃ j ∈ tr₁, clearRead status j ∧ elapsed j.1 i.1 < staleAfterMs * 1000000 + 1000000 := by
  subst htr
  obtain ⟨hrun₁, g', hstep, -⟩ := hrun.at_step
  have hacc := accounted_run status staleAfterMs h0 hrun₁ fun j hj =>
    hhonest j (List.mem_append_left _ hj)
  obtain ⟨c, secs, hnext, -⟩ := Machine.step_inv hstep
  rw [hclear] at hnext
  obtain ⟨v, hv, hfresh, hval⟩ := classified_clear status staleAfterMs hnext
  obtain ⟨hts, j, hj, ⟨readings, r, he, hdev, hr, hrv⟩, hle⟩ := hacc.2 _ v hv
  refine ⟨j, hj, ?_, ?_⟩
  · simp [clearRead, he, hdev, hr, hrv, hval]
  · have := age_of_fresh hts hfresh
    simp only [elapsed]
    omega

/-! ### Runs with a status device -/

/-- A provider `io0` whose device `estop` has the polled status signal `active`. -/
def panelWorld : CacheState where
  shared := { registry := ⟨[{ providerId := "io0", deviceId := "estop",
                              functionsById := { entries := [], distinct := List.nodup_nil },
                              signalsById := [⟨"active", true⟩] }]⟩ }
  thread _ := []

theorem panelWorld_start : CacheStart panelWorld :=
  ⟨rfl, rfl, fun _ => rfl, fun _ => rfl, fun _ => rfl⟩

/-- The status signal of that device: `true` is a stop. -/
def panelStatus : StopChainStatus := ⟨"io0/estop/active", true⟩

/-- `initialize`, and a poll that reads `false` with the given timestamp. -/
def readStatus (timestamp : Option (Int × Int)) : List (ThreadId × CacheChoice) :=
  [(0, .start .init), (0, .go), (0, .go), (0, .start .pollOnce), (0, .order ["io0"]),
    (0, .provider .available),
    (0, .read (.values [{ signalId := "active", value := ⟨.bool, .bool false⟩, quality := .ok,
                          timestamp := timestamp }])),
    (0, .go)]

/-- Time passes on both clocks alike, the provider is found dead, and the status is
classified. -/
def laterClassify (elapsedNs : Nat) : List (ThreadId × CacheChoice) :=
  [(0, .advance elapsedNs (Int64.ofNat elapsedNs)), (0, .start .pollOnce), (0, .order ["io0"]),
    (0, .provider .unavailable), (0, .shutdown false), (0, .start .classify), (0, .go), (0, .go)]

/-- Is the run's last step a `classify` that answers clear. -/
def endsClear (tr : CacheTrace) : Bool :=
  tr.getLast?.any fun i => i.2.2 matches .classified .clear

theorem last_of_endsClear (h : endsClear tr) :
    ∃ tr₁ i, tr = tr₁ ++ [i] ∧ i.2.2 = .classified .clear := by
  obtain ⟨i, hi, hclear⟩ := Option.any_eq_true _ _ |>.mp h
  obtain ⟨tr₁, rfl⟩ := List.getLast?_eq_some_iff.mp hi
  refine ⟨tr₁, i, rfl, ?_⟩
  split at hclear
  · assumption
  · cases hclear

/-- A provider that gives no timestamp and then dies: half a second later its status reads
clear, and was read clear half a second ago. -/
theorem clear_is_recent_panel : ∃ tr g, Run (cacheMachine panelStatus 1000).lts panelWorld tr g ∧
      ∃ tr₁ i, tr = tr₁ ++ [i] ∧ i.2.2 = .classified .clear ∧
        ∃ j ∈ tr₁, clearRead panelStatus j ∧ elapsed j.1 i.1 < 1000 * 1000000 + 1000000 := by
  obtain ⟨tr, g, hrun, hp⟩ := Machine.run_of_passes (cacheMachine panelStatus 1000) panelWorld
    (readStatus none ++ laterClassify 500000000)
    (fun tr _ => (∀ i ∈ tr, honest panelStatus i.1.shared i.2.2) ∧ endsClear tr) (by decide)
  obtain ⟨hhonest, hend⟩ := hp
  obtain ⟨tr₁, i, htr, hclear⟩ := last_of_endsClear hend
  exact ⟨tr, g, hrun, tr₁, i, htr, hclear, clear_is_recent panelStatus 1000 panelWorld_start hrun
    hhonest tr₁ [] i htr hclear⟩

/-- A provider that stamps its reading one hour ahead and then dies: a minute later its status
still reads clear, and the clocks never stepped. -/
theorem clear_from_a_dead_provider : ∃ tr g, CacheStart panelWorld ∧
      Run (cacheMachine panelStatus 1000).lts panelWorld tr g ∧
      ∃ tr₁ i, tr = tr₁ ++ [i] ∧ i.2.2 = .classified .clear ∧
        ∀ j ∈ tr₁, clearRead panelStatus j → 60 * 1000000000 ≤ elapsed j.1 i.1 := by
  obtain ⟨tr, g, hrun, hp⟩ := Machine.run_of_passes (cacheMachine panelStatus 1000) panelWorld
    (readStatus (some (3600, 0)) ++ laterClassify 60000000000)
    (fun tr g => endsClear tr ∧ ∀ j ∈ tr, clearRead panelStatus j →
      60 * 1000000000 ≤ elapsed j.1 g) (by decide)
  obtain ⟨hend, hold⟩ := hp
  obtain ⟨tr₁, i, rfl, hclear⟩ := last_of_endsClear hend
  refine ⟨_, g, panelWorld_start, hrun, tr₁, i, rfl, hclear, fun j hj hread => ?_⟩
  -- classifying does not move the clocks
  obtain ⟨-, s, hstep, hlast⟩ := hrun.at_step
  obtain ⟨-, -, -, hsh, -⟩ := Machine.step_inv hstep
  have hclock : g.shared.clock = i.1.shared.clock := by
    rw [Run.eq_of_nil hlast, hsh, hclear]
    rfl
  have hlong := hold j (List.mem_append_left _ hj) hread
  simpa [elapsed, hclock] using hlong

end Anolis.Proofs.StaleStatus
