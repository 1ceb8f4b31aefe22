import Anolis.Automation.CallFailures

/-!
# When a repeated failure is a fault

The counter of a pair is the number of its last results that are failures (`consecutive_after`), so
`record_call_result` asks for a fault exactly when the last `limit` of them are.
-/

namespace Anolis.Automation

/-- What is recorded: the result of a call, or that a run starts. -/
inductive CallEvent
  | result (pair : CallPair) (success : Bool) (error : String) (nowMs : Int64)
  | reset

/-- What is remembered after the events, the newest first. -/
def failuresAfter (limit : Int) : List CallEvent → List CallFailureView
  | [] | .reset :: _ => []
  | .result pair success error nowMs :: log =>
    (recordCallResult limit (failuresAfter limit log) pair success error nowMs).1

/-- The results of a pair since the last reset, the newest first. -/
def resultsOf (pair : CallPair) : List CallEvent → List Bool
  | [] | .reset :: _ => []
  | .result pair' success _ _ :: log =>
    if pair' = pair then success :: resultsOf pair log else resultsOf pair log

variable {pair pair' : CallPair} {failures : List CallFailureView}

theorem isFor_unique {f : CallFailureView} (h : f.isFor pair) : f.isFor pair' ↔ pair' = pair := by
  simp only [CallFailureView.isFor, decide_eq_true_eq] at h ⊢
  rw [h.1, h.2, Prod.ext_iff]
  exact ⟨fun h => ⟨h.1.symm, h.2.symm⟩, fun h => ⟨h.1.symm, h.2.symm⟩⟩

theorem find_changeFirst {change : CallFailureView → CallFailureView}
    (hkeeps : ∀ f pair, (change f).isFor pair = f.isFor pair) :
    (changeFirst pair change failures).find? (·.isFor pair') =
      if pair' = pair then (failures.find? (·.isFor pair)).map change
      else failures.find? (·.isFor pair') := by
  induction failures with
  | nil => simp [changeFirst]
  | cons f rest ih =>
    by_cases hf : f.isFor pair
    · by_cases hp : pair' = pair <;> simp [changeFirst, hf, hp, hkeeps, isFor_unique hf]
    · by_cases hp : pair' = pair <;> simp_all [changeFirst, List.find?_cons]

theorem consecutive_success : consecutive pair'
      (changeFirst pair (fun f => { f with consecutiveFailures := 0 }) failures) =
      if pair' = pair then 0 else consecutive pair' failures := by
  unfold consecutive
  rw [find_changeFirst (by intros; rfl)]
  split
  · cases failures.find? (·.isFor pair) <;> rfl
  · rfl

theorem consecutive_failure (error : String) (nowMs : Int64) :
    consecutive pair' (recordFailure pair error nowMs failures) =
      if pair' = pair then consecutive pair failures + 1 else consecutive pair' failures := by
  unfold consecutive recordFailure
  rw [find_changeFirst (by intros; rfl)]
  cases hf : failures.find? (·.isFor pair) with
  | some f =>
    rw [if_pos (List.any_eq_true.mpr ⟨f, List.mem_of_find?_eq_some hf, List.find?_some hf⟩), hf]
    split <;> rfl
  | none =>
    have hnew : CallFailureView.isFor ⟨pair.1, pair.2, 0, "", 0⟩ pair := by
      simp [CallFailureView.isFor]
    have hany : ¬ failures.any (·.isFor pair) := by simpa using hf
    rw [if_neg hany]
    by_cases hp : pair' = pair <;> simp [List.find?_append, hf, hp, hnew, isFor_unique hnew]

/-- What carries a run: a counter is the number of the newest results that are failures. -/
theorem consecutive_after (limit : Int) (pair : CallPair) (log : List CallEvent) :
    consecutive pair (failuresAfter limit log) =
      ((resultsOf pair log).takeWhile (!·)).length := by
  induction log with
  | nil => rfl
  | cons event log ih =>
    cases event with
    | reset => rfl
    | result pair' success error nowMs =>
      by_cases hp : pair = pair'
      · subst hp
        cases success <;>
          simp [failuresAfter, recordCallResult, resultsOf, apply_ite Prod.fst,
            consecutive_success, consecutive_failure, ih]
      · cases success <;>
          simp [failuresAfter, recordCallResult, resultsOf, apply_ite Prod.fst,
            consecutive_success, consecutive_failure, hp, Ne.symm hp, ih]

theorem replicate_isPrefix {n : Nat} {l : List Bool} :
    List.replicate n false <+: l ↔ n ≤ (l.takeWhile (!·)).length := by
  induction l generalizing n with
  | nil => cases n <;> simp
  | cons b l ih => cases n <;> cases b <;> simp [List.replicate_succ, ih]

/-- A result asks for a fault exactly where it and the results of its pair before it, since the last
reset, are `limit` failures in a row. -/
theorem fault_iff_repeated (limit : Int) (hlimit : 1 ≤ limit) (log : List CallEvent)
    (pair : CallPair) (success : Bool) (error : String) (nowMs : Int64) :
    (recordCallResult limit (failuresAfter limit log) pair success error nowMs).2 ≠ "" ↔
      List.replicate limit.toNat false <+:
        resultsOf pair (.result pair success error nowMs :: log) := by
  rw [replicate_isPrefix, ← consecutive_after limit, failuresAfter]
  cases success with
  | true =>
    simp [recordCallResult, consecutive_success]
    omega
  | false =>
    by_cases h : consecutive pair (recordFailure pair error nowMs (failuresAfter limit log)) <
        (max 1 limit).toNat <;>
      simp [recordCallResult, h] <;> omega

theorem fault_iff_repeated_twice : (recordCallResult 2
    (failuresAfter 2 [.result ("p/d", "f") false "e" 0]) ("p/d", "f") false "e" 0).2 ≠ "" :=
  (fault_iff_repeated 2 (by decide) [.result ("p/d", "f") false "e" 0] ("p/d", "f") false "e"
    0).mpr (by decide)

end Anolis.Automation
