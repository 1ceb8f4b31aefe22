import Anolis.Protocol

/-!
# The per-device loss latch

`device_loss_latch.cpp`: the latch that keeps the behaviour tree from actuating a device that
went unreachable. The state cache numbers the reachability edges of the devices under its lock
and delivers them outside it, so two edges of one device may arrive in either order. The latch
applies an edge by its number: a stale return is dropped, and a stale transport loss still
engages.

What the latch logs is left out, and with it the reason of an expected loss and the handles that
`release_all` returns.

Three lemmas say what an edge does, one for each thing it touches: the latch
(`applyReachabilityEdge_latched`), the newest edge (`applyReachabilityEdge_lastEdge`) and the
answer (`applyReachabilityEdge_reissue`).
-/

namespace Anolis.Control

open Protocol

/-- A reachability edge of a device, as the state cache hands it to its sink. -/
structure ReachabilityEdge where
  deviceHandle : String
  reachable : Bool
  lastStatus : StatusCode
  seq : Nat
deriving DecidableEq

/-- `transport_failure`: the device did not answer at all. -/
def transportFailure (status : StatusCode) : Bool :=
  status = .unavailable || status = .deadlineExceeded

/-- A loss that engages the latch. -/
def ReachabilityEdge.transportLoss (edge : ReachabilityEdge) : Bool :=
  !edge.reachable && transportFailure edge.lastStatus

/-- `AppliedEdge`: the newest edge applied for a device. -/
structure AppliedEdge where
  seq : Nat := 0
  reachable : Bool := false
deriving DecidableEq

/-- `DeviceLossLatch`. A device without an entry in `last_edge_` has the default one. -/
structure DeviceLossLatch where
  latched : String → Bool := fun _ => false
  lastEdge : String → AppliedEdge := fun _ => {}

namespace DeviceLossLatch

/-- `latched_.insert`. -/
def engage (latch : DeviceLossLatch) (handle : String) : DeviceLossLatch :=
  { latch with latched := Function.update latch.latched handle true }

/-- `apply_reachability_edge`. The answer asks for the device's safe state to be re-asserted. -/
def applyReachabilityEdge (latch : DeviceLossLatch) (edge : ReachabilityEdge) :
    DeviceLossLatch × Bool :=
  let last := latch.lastEdge edge.deviceHandle
  if edge.seq ≤ last.seq then
    if edge.reachable || !transportFailure edge.lastStatus then (latch, false)
    -- a stale transport loss fails closed, and asks for what the return before it did not
    else
      (latch.engage edge.deviceHandle, !latch.latched edge.deviceHandle && last.reachable)
  else
    let applied := { latch with
      lastEdge := Function.update latch.lastEdge edge.deviceHandle ⟨edge.seq, edge.reachable⟩ }
    if edge.reachable then (applied, latch.latched edge.deviceHandle)
    else if transportFailure edge.lastStatus then (applied.engage edge.deviceHandle, false)
    else (applied, false)

/-- `release_all`. The newest edges stay: a re-arm makes no edge newer. -/
def releaseAll (latch : DeviceLossLatch) : DeviceLossLatch :=
  { latch with latched := fun _ => false }

section
variable (latch : DeviceLossLatch) (edge : ReachabilityEdge)

/-- An edge latches its device on a transport loss, stale or not, and releases nothing. -/
theorem applyReachabilityEdge_latched (handle : String) :
    (latch.applyReachabilityEdge edge).1.latched handle =
      (latch.latched handle || (edge.deviceHandle = handle && edge.transportLoss)) := by
  simp only [applyReachabilityEdge, ReachabilityEdge.transportLoss, engage]
  by_cases hh : edge.deviceHandle = handle
  · subst hh
    cases edge.reachable <;> cases transportFailure edge.lastStatus <;> split <;> simp
  · have hne : handle ≠ edge.deviceHandle := Ne.symm hh
    cases edge.reachable <;> cases transportFailure edge.lastStatus <;> split <;> simp [hh, hne]

/-- An edge with a greater number than the device's newest becomes the newest. -/
theorem applyReachabilityEdge_lastEdge (handle : String) :
    (latch.applyReachabilityEdge edge).1.lastEdge handle =
      if edge.deviceHandle = handle ∧ (latch.lastEdge handle).seq < edge.seq then
        ⟨edge.seq, edge.reachable⟩
      else latch.lastEdge handle := by
  simp only [applyReachabilityEdge, engage]
  by_cases hh : edge.deviceHandle = handle
  · subst hh
    by_cases hstale : edge.seq ≤ (latch.lastEdge edge.deviceHandle).seq
    · have hnot : ¬ (latch.lastEdge edge.deviceHandle).seq < edge.seq := by omega
      simp only [hstale, hnot, if_true, and_false, if_false]
      split <;> rfl
    · have hnew : (latch.lastEdge edge.deviceHandle).seq < edge.seq := by omega
      simp only [hstale, hnew, if_true, and_true, if_false]
      repeat' split
      all_goals exact Function.update_self ..
  · have hne : handle ≠ edge.deviceHandle := Ne.symm hh
    simp only [hh, false_and, if_false]
    repeat' split
    all_goals first | rfl | exact Function.update_of_ne hne ..

/-- A re-issue is asked for by a new return of a latched device, and by a stale transport loss
that latches a device whose newest edge is a return. -/
theorem applyReachabilityEdge_reissue : (latch.applyReachabilityEdge edge).2 =
      if (latch.lastEdge edge.deviceHandle).seq < edge.seq then
        edge.reachable && latch.latched edge.deviceHandle
      else edge.transportLoss && !latch.latched edge.deviceHandle &&
        (latch.lastEdge edge.deviceHandle).reachable := by
  simp only [applyReachabilityEdge, ReachabilityEdge.transportLoss]
  by_cases hstale : edge.seq ≤ (latch.lastEdge edge.deviceHandle).seq
  · have hnot : ¬ (latch.lastEdge edge.deviceHandle).seq < edge.seq := by omega
    simp only [hstale, hnot, if_true, if_false]
    cases edge.reachable <;> cases transportFailure edge.lastStatus <;> simp
  · have hnew : (latch.lastEdge edge.deviceHandle).seq < edge.seq := by omega
    simp only [hstale, hnew, if_true, if_false]
    cases edge.reachable <;> cases transportFailure edge.lastStatus <;> simp

end

end DeviceLossLatch

end Anolis.Control
