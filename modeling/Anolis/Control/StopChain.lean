import Anolis.Runtime.Config
import Anolis.State.StateCache

/-!
# The observed emergency stop

`stop_chain.cpp`: how a reading of the status signal is classified, what `update` makes of a
classified reading, and when `clear_refusal` refuses a clear. The expectations of the devices
behind the stop and their mismatches are left out.
-/

namespace Anolis.Control

open Protocol Anolis.Runtime State

/-- `StopChainState`. -/
inductive StopChainState
  | notConfigured | inForce | clear | unknown
deriving DecidableEq

/-- A stop in force, or one that cannot be read, holds the latch. -/
def StopChainState.holds (s : StopChainState) : Bool := s = .inForce || s = .unknown

/-- `quality_name`. -/
def qualityName : Quality → String
  | .unspecified => "QUALITY_UNSPECIFIED"
  | .ok => "QUALITY_OK"
  | .stale => "QUALITY_STALE"
  | .fault => "QUALITY_FAULT"
  | .unknown => "QUALITY_UNKNOWN"
  | .unrecognized code => toString code

/-- The part of the status handle before its last slash, as the monitor's constructor takes
it. Without a slash `rfind` answers `npos`, and both parts are the whole text. -/
def statusDevice (status : StopChainStatus) : String :=
  if '/' ∈ status.signal.toList then
    String.ofList ((status.signal.toList.reverse.dropWhile (· ≠ '/')).drop 1).reverse
  else status.signal

/-- The part of the status handle after its last slash. -/
def statusSignal (status : StopChainStatus) : String :=
  String.ofList (status.signal.toList.reverse.takeWhile (· ≠ '/')).reverse

/-- The judgement of `classify` on what the cache gave. `now` is the clock the staleness is
judged by; the age in the text is read off the clock again, at `later`. -/
def classifyReading (status : StopChainStatus) (staleAfterMs : Int)
    (value : Option CachedSignalValue) (now later : Int64) : StopChainState × String :=
  match value with
  | none => (.unknown, status.signal ++ " has no reading (not registered, or not polled yet)")
  | some v =>
    -- staleness before quality: a stale reading is reported as stale whatever its quality
    if v.isStale staleAfterMs now then
      (.unknown, status.signal ++ " is stale (" ++ toString (v.age later) ++
        " ms old, quality " ++ qualityName v.quality ++ ")")
    else if v.quality ≠ .ok then
      (.unknown, status.signal ++ " has quality " ++ qualityName v.quality ++ ", not QUALITY_OK")
    else
      match v.value.bool? with
      | none => (.unknown, status.signal ++ " is not a bool")
      | some b =>
        (if b = status.active then .inForce else .clear, status.signal ++ " reads " ++ toString b)

/-- A reading is classified clear only if it is there, fresh, and says the other value. -/
theorem classifyReading_clear {status : StopChainStatus} {staleAfterMs : Int}
    {value : Option CachedSignalValue} {now later : Int64}
    (h : (classifyReading status staleAfterMs value now later).1 = .clear) :
    ∃ v, value = some v ∧ v.isStale staleAfterMs now = false ∧
      v.value.bool? = some (!status.active) := by
  unfold classifyReading at h
  split at h
  · cases h
  · rename_i v
    refine ⟨v, rfl, ?_⟩
    split at h
    · cases h
    · rename_i hstale
      split at h
      · cases h
      · split at h
        · cases h
        · rename_i b hb
          refine ⟨by simpa using hstale, ?_⟩
          rw [hb]
          dsimp only at h
          split at h
          · cases h
          · rename_i hne
            cases b <;> cases hs : status.active <;> simp_all

/-- `StopChainSnapshot`. The time it was entered at is `none` until the first `update`. -/
structure StopChainSnapshot where
  state : StopChainState := .notConfigured
  reason : String := ""
  sinceEpochMs : Option Int := none
deriving DecidableEq

/-- The section of `update` under the monitor's mutex: the snapshot after it, and whether it
reports a change. -/
def StopChainSnapshot.update (current : StopChainSnapshot) (state : StopChainState)
    (reason : String) (nowMs : Int) : StopChainSnapshot × Bool :=
  -- the first `update` reports a change even into the state it starts in
  if state = current.state ∧ current.sinceEpochMs.isSome then
    ({ current with reason := reason }, false)
  else (⟨state, reason, some nowMs⟩, true)

/-- After an `update` the monitor is in the classified state and has a time. -/
theorem StopChainSnapshot.update_state (current : StopChainSnapshot) (state : StopChainState)
    (reason : String) (nowMs : Int) : (current.update state reason nowMs).1.state = state ∧
      (current.update state reason nowMs).1.sinceEpochMs.isSome := by
  unfold StopChainSnapshot.update
  split
  · rename_i h
    exact ⟨h.1.symm, h.2⟩
  · exact ⟨rfl, rfl⟩

/-- An `update` that reports nothing found the monitor in the state it classified. -/
theorem StopChainSnapshot.update_unchanged {current : StopChainSnapshot} {state : StopChainState}
    {reason : String} {nowMs : Int} (h : (current.update state reason nowMs).2 = false) :
    current.state = state ∧ current.sinceEpochMs.isSome := by
  unfold StopChainSnapshot.update at h
  split at h
  · rename_i hc
    exact ⟨hc.1.symm, hc.2⟩
  · cases h

/-- `clear_refusal`. -/
def StopChainSnapshot.clearRefusal (current : StopChainSnapshot) : Option String :=
  match current.state with
  | .inForce =>
    some ("the emergency stop is in force (" ++ current.reason ++ "); release it first")
  | .unknown =>
    some ("the emergency stop's status is unavailable (" ++ current.reason ++
      "): it may be in force, or power may be lost")
  | .clear | .notConfigured => none

theorem StopChainSnapshot.clearRefusal_eq_none_iff (current : StopChainSnapshot) :
    current.clearRefusal = none ↔ current.state.holds = false := by
  unfold StopChainSnapshot.clearRefusal StopChainState.holds
  split <;> rename_i h <;> simp [h]

end Anolis.Control
