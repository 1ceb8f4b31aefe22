import Mathlib.Data.List.Basic

/-!
# The automation's failed calls

`BTRuntime::record_call_result` and `BTRuntime::reset_run_status_locked`: what is remembered of the
failed calls of a run. The source's counter has 64 bits. The log and the event are left out.
-/

namespace Anolis.Automation

/-- `CallFailureView`. The count has 64 bits in the source, and no run reaches its end. -/
structure CallFailureView where
  deviceHandle : String
  function : String
  consecutiveFailures : Nat
  lastError : String
  lastFailureAtEpochMs : Int64

/-- A device and a function of it. -/
abbrev CallPair := String × String

def CallFailureView.isFor (f : CallFailureView) (pair : CallPair) : Bool :=
  f.deviceHandle = pair.1 ∧ f.function = pair.2

/-- A change of the first entry for a pair. -/
def changeFirst (pair : CallPair) (change : CallFailureView → CallFailureView) :
    List CallFailureView → List CallFailureView
  | [] => []
  | f :: rest => if f.isFor pair then change f :: rest else f :: changeFirst pair change rest

/-- `consecutive_failures` of the first entry for a pair. -/
def consecutive (pair : CallPair) (failures : List CallFailureView) : Nat :=
  ((failures.find? (·.isFor pair)).map (·.consecutiveFailures)).getD 0

/-- A failed call that is recorded. -/
def recordFailure (pair : CallPair) (error : String) (nowMs : Int64)
    (failures : List CallFailureView) : List CallFailureView :=
  changeFirst pair
    (fun f => { f with
      consecutiveFailures := f.consecutiveFailures + 1
      lastError := error
      lastFailureAtEpochMs := nowMs })
    (if failures.any (·.isFor pair) then failures else failures ++ [⟨pair.1, pair.2, 0, "", 0⟩])

/-- `record_call_result`: what is remembered after it, and the text of the fault, empty where there
is none. The limit is what `set_max_consecutive_call_failures` stores. -/
def recordCallResult (limit : Int) (failures : List CallFailureView) (pair : CallPair)
    (success : Bool) (error : String) (nowMs : Int64) : List CallFailureView × String :=
  if success then (changeFirst pair (fun f => { f with consecutiveFailures := 0 }) failures, "")
  else
    let failures' := recordFailure pair error nowMs failures
    let n := consecutive pair failures'
    if n < (max 1 limit).toNat then (failures', "")
    else
      let times := if n = 1 then "once" else toString n ++ " times in a row"
      (failures', "automation call " ++ pair.1 ++ " " ++ pair.2 ++ " failed " ++ times ++
        "; last error: " ++ error)

end Anolis.Automation
