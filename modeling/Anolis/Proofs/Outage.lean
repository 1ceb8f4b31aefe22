import Anolis.Automation.SignalNodes
import Anolis.State.CacheMachine

/-!
# Values after an outage

Two paths mark a device unavailable. A failed read clears the device's values; `poll_once`,
which finds the provider gone before it reads, leaves them (`DeviceState.marked`,
`DeviceState.failed`). So a value read before the outage can stay readable for the tree, and
whether it does depends on which path noticed the outage first.

`Quiet` is the invariant one would want of the cache: an unavailable device has no values.
Every section keeps it but the one of `poll_once` (`quiet_apply`). `outage_leaves_no_value` is
what remains: `Quiet` holds along every run in which that section only ever finds devices
without values.
-/

namespace Anolis.Proofs.Outage

open Anolis.Runtime Automation Lib State

/-- An unavailable device has no values. -/
def Quiet (c : Cache) : Prop :=
  ∀ h st, c.deviceStates h = some st → st.providerAvailable = false → ∀ s, st.signals s = none

/-- Where the step is the section of `mark_provider_devices_unavailable`, the devices it marks
have no values. -/
def MarksEmpty (c : Cache) (e : CacheEffect) : Prop :=
  ∀ shuttingDown configs, e = .markUnavailable shuttingDown configs →
    ∀ p ∈ configs, ∀ s, c.getSignalValue p.handle s = none

theorem quiet_apply {w : CacheWorld} {e : CacheEffect} (hq : Quiet w.cache)
    (hmark : MarksEmpty w.cache e) : Quiet (w.apply e).cache := by
  intro h st hst hun s
  rcases CacheWorld.deviceState_cases hst with hsame | hnone |
    ⟨shuttingDown, configs, p, st₀, he, hp, hph, hst₀, hkept⟩ | ⟨readings, st₀, -, -, havail, -⟩
  · exact hq h st hsame hun s
  · exact hnone s
  · -- marking leaves the values, and there were none
    have hempty := hmark shuttingDown configs he p hp s
    rw [hph, Cache.getSignalValue, hst₀] at hempty
    rw [hkept]
    exact hempty
  · -- an applied read makes the device available
    rw [havail] at hun
    cases hun

section
variable {status : StopChainStatus} {staleAfterMs : Int}

/-- A run whose marking sections find no values leaves every unavailable device without
values. -/
theorem quiet_run {g₀ g : Global CacheWorld (List Section)}
    {tr : Trace (Global CacheWorld (List Section)) (ThreadId × CacheEffect)}
    (h0 : CacheStart g₀) (hrun : Run (cacheMachine status staleAfterMs).lts g₀ tr g)
    (hmark : ∀ i ∈ tr, MarksEmpty i.1.shared.cache i.2.2) : Quiet g.shared.cache := by
  refine Run.induct_of (J := fun _ g => Quiet g.shared.cache)
    (C := fun g l => MarksEmpty g.shared.cache l.2) ?_ ?_ hrun hmark
  · intro h st hst
    rw [h0.2.2.1 h] at hst
    cases hst
  · intro tr g l g' _ _ hq hm hstep
    obtain ⟨-, -, -, hsh, -⟩ := Machine.step_inv hstep
    rw [hsh]
    exact quiet_apply hq hm

end

/-- In every state a run reaches whose marking sections find no values: a device that is not
available gives no signal value, so no `ReadSignal` and no `CheckQuality` node succeeds on
it. -/
theorem outage_leaves_no_value (status : StopChainStatus) (staleAfterMs : Int)
    {g₀ g : Global CacheWorld (List Section)}
    {tr : Trace (Global CacheWorld (List Section)) (ThreadId × CacheEffect)}
    (h0 : CacheStart g₀) (hrun : Run (cacheMachine status staleAfterMs).lts g₀ tr g)
    (hmark : ∀ i ∈ tr, MarksEmpty i.1.shared.cache i.2.2) (handle : String) (st : DeviceState)
    (hst : g.shared.cache.deviceStates handle = some st)
    (hun : st.providerAvailable = false) (signalId expected : String) :
    g.shared.cache.getSignalValue handle signalId = none ∧
      (readSignalTick g.shared.cache handle signalId).1 = .failure ∧
      checkQualityTick g.shared.cache handle signalId expected = .failure := by
  have hnone : g.shared.cache.getSignalValue handle signalId = none := by
    rw [Cache.getSignalValue, hst]
    exact quiet_run h0 hrun hmark handle st hst hun signalId
  refine ⟨hnone, ?_, ?_⟩
  · rw [readSignalTick, hnone]
  · rw [checkQualityTick, hnone]

/-! ### One outage, noticed in two ways -/

/-- A provider `sim0` with one device, whose signal `level` is polled. -/
def tankWorld : Global CacheWorld (List Section) where
  shared := { registry := ⟨[{ providerId := "sim0", deviceId := "tank",
                              functionsById := { entries := [] },
                              signalsById := [⟨"level", true⟩] }]⟩ }
  thread _ := []

theorem tankWorld_start : CacheStart tankWorld :=
  ⟨rfl, rfl, fun _ => rfl, fun _ => rfl, fun _ => rfl⟩

/-- `initialize`, and a `poll_once` that reads `level`. -/
def readLevel : List (ThreadId × CacheChoice) :=
  [(0, .start .init), (0, .go), (0, .go), (0, .start .pollOnce), (0, .order ["sim0"]),
    (0, .provider .available),
    (0, .read (.values [{ signalId := "level", value := ⟨.bool, .bool true⟩, quality := .ok }])),
    (0, .go)]

/-- The next `poll_once`, which finds the provider dead. -/
def pollNotices : List (ThreadId × CacheChoice) :=
  [(0, .start .pollOnce), (0, .order ["sim0"]), (0, .provider .unavailable), (0, .shutdown false)]

/-- The next `poll_once`, whose read fails because the provider died. -/
def readNotices : List (ThreadId × CacheChoice) :=
  [(0, .start .pollOnce), (0, .order ["sim0"]), (0, .provider .available),
    (0, .read (.failed .unavailable false true)), (0, .go)]

/-- Is the device there and marked unavailable. -/
def unavailable (g : Global CacheWorld (List Section)) (handle : String) : Bool :=
  (g.shared.cache.deviceStates handle).any fun st => !st.providerAvailable

/-- Is the step a marking section of `poll_once`. -/
def isMark : CacheEffect → Bool
  | .markUnavailable _ _ => true
  | _ => false

/-- The failing read notices the outage: the value is gone. -/
theorem outage_noticed_by_read : ∃ tr g, Run (cacheMachine someStatus 1000).lts tankWorld tr g ∧
      unavailable g "sim0/tank" ∧
      g.shared.cache.getSignalValue "sim0/tank" "level" = none := by
  obtain ⟨tr, g, hrun, hp⟩ := Machine.run_of_passes
    (cacheMachine someStatus 1000) tankWorld (readLevel ++ readNotices)
    (fun tr g => (∀ i ∈ tr, isMark i.2.2 = false) ∧ unavailable g "sim0/tank") (by decide)
  obtain ⟨hnomark, hun⟩ := hp
  obtain ⟨st, hst, hst'⟩ := Option.any_eq_true _ _ |>.mp hun
  refine ⟨tr, g, hrun, hun, (outage_leaves_no_value someStatus 1000 tankWorld_start hrun
    (fun i hi shuttingDown configs he => ?_) "sim0/tank" st hst (by simpa using hst') "level"
    "OK").1⟩
  have hnone := hnomark i hi
  rw [he] at hnone
  cases hnone

/-- `poll_once` notices the same outage: the device is unavailable, and the value read before
the outage is still read by the tree as a good one. -/
theorem outage_noticed_by_poll :
    ∃ tr g, CacheStart tankWorld ∧ Run (cacheMachine someStatus 1000).lts tankWorld tr g ∧
      unavailable g "sim0/tank" ∧
      (readSignalTick g.shared.cache "sim0/tank" "level").1 = .success ∧
      checkQualityTick g.shared.cache "sim0/tank" "level" "OK" = .success := by
  obtain ⟨tr, g, hrun, hp⟩ := Machine.run_of_passes
    (cacheMachine someStatus 1000) tankWorld (readLevel ++ pollNotices)
    (fun _ g => unavailable g "sim0/tank" ∧
      (readSignalTick g.shared.cache "sim0/tank" "level").1 = .success ∧
      checkQualityTick g.shared.cache "sim0/tank" "level" "OK" = .success) (by decide)
  exact ⟨tr, g, tankWorld_start, hrun, hp⟩

end Anolis.Proofs.Outage
