import Anolis.Control.DeviceLossLatch
import Anolis.Lib.Lts

/-!
# The loss latch and the order of the edges

The edges of a device may reach the loss latch in any order. `latch_order_independent` says what
does not depend on it. Without a re-arm, the device ends latched iff one of its losses was a
transport loss, whatever the order of the edges and however those of other devices fall between
them. And with re-arms anywhere, whenever the device is latched and its newest edge is a return,
its safe state was asked for: by the step that engaged the latch or by the one that applied the
return, whichever came later.

No order or alternation of the numbers is assumed for either. Edges may repeat, and a device's
edges may be lost on the way.
-/

namespace Anolis.Proofs.LossLatchOrder

open Control Control.DeviceLossLatch Lib

/-! ### Edges without a re-arm -/

/-- The latch after the edges of a list, the first one first. -/
def applyAll (latch : DeviceLossLatch) (edges : List ReachabilityEdge) : DeviceLossLatch :=
  edges.foldl (fun l e => (l.applyReachabilityEdge e).1) latch

/-- A device is latched after a list of edges iff it was before or one of them is a transport
loss of it. -/
theorem latched_applyAll (latch : DeviceLossLatch) (edges : List ReachabilityEdge)
    (handle : String) : (applyAll latch edges).latched handle ↔ latch.latched handle ∨
        ∃ e ∈ edges, e.deviceHandle = handle ∧ e.transportLoss := by
  induction edges generalizing latch with
  | nil => simp [applyAll]
  | cons e edges ih =>
    have hcons : applyAll latch (e :: edges) =
        applyAll (latch.applyReachabilityEdge e).1 edges := rfl
    rw [hcons, ih, applyReachabilityEdge_latched]
    simp only [Bool.or_eq_true, Bool.and_eq_true, decide_eq_true_eq, List.mem_cons,
      exists_eq_or_imp, or_assoc]

/-! ### Edges and re-arms -/

/-- A step of the latch: an edge, with its answer, or a re-arm. -/
inductive LatchStep
  | edge (edge : ReachabilityEdge) (reissue : Bool)
  | releaseAll

/-- The latch under edges and re-arms, in any order. -/
def latchLts : Lts DeviceLossLatch LatchStep where
  step
    | latch, .edge e reissue, latch' => latch.applyReachabilityEdge e = (latch', reissue)
    | latch, .releaseAll, latch' => latch.releaseAll = latch'

/-- A step of a trace: the latch before it, and what it is. -/
abbrev Item := DeviceLossLatch × LatchStep

/-- The step engages the latch of the device: it is a transport loss, and the device was not
latched. -/
def engages (handle : String) (i : Item) : Bool :=
  match i.2 with
  | .edge e _ => e.deviceHandle = handle && e.transportLoss && !i.1.latched handle
  | .releaseAll => false

/-- The step makes its edge the newest one of the device. -/
def renews (handle : String) (i : Item) : Bool :=
  match i.2 with
  | .edge e _ => e.deviceHandle = handle && (i.1.lastEdge handle).seq < e.seq
  | .releaseAll => false

/-- The step applies a return of the device as its newest edge. -/
def appliesReturn (handle : String) (i : Item) : Bool :=
  renews handle i && match i.2 with
    | .edge e _ => e.reachable
    | .releaseAll => false

/-- The step asks for the device's safe state. -/
def asks (handle : String) (i : Item) : Bool :=
  match i.2 with
  | .edge e reissue => e.deviceHandle = handle && reissue
  | .releaseAll => false

/-- The latch after a step of an edge is what the edge makes of it. -/
theorem edge_step {latch latch' : DeviceLossLatch} {e : ReachabilityEdge} {reissue : Bool}
    (h : latchLts.step latch (.edge e reissue) latch') :
    latch' = (latch.applyReachabilityEdge e).1 ∧ reissue = (latch.applyReachabilityEdge e).2 := by
  have h : latch.applyReachabilityEdge e = (latch', reissue) := h
  exact ⟨by rw [h], by rw [h]⟩

section
variable {handle : String} {tr : Trace DeviceLossLatch LatchStep} {latch : DeviceLossLatch}

theorem engaged_run (h : Run latchLts {} tr latch) (hlatched : latch.latched handle) :
    ∃ i, lastStep (engages handle) tr = some i := by
  revert hlatched
  refine Run.induct (J := fun tr latch => latch.latched handle →
    ∃ i, lastStep (engages handle) tr = some i) (by simp) ?_ h
  intro tr latch l latch' _ ih hstep hlatched
  cases l with
  | edge e reissue =>
    rw [lastStep_snoc]
    split
    · exact ⟨_, rfl⟩
    · rename_i hnot
      refine ih ?_
      -- an edge that does not engage the latch leaves it
      rw [(edge_step hstep).1, applyReachabilityEdge_latched] at hlatched
      by_contra hunlatched
      simp_all [engages]
  | releaseAll =>
    obtain rfl : latch.releaseAll = latch' := hstep
    cases hlatched

/-- A device whose newest edge is a return has a step that applied it, and no later step applied
a newer edge. -/
theorem returned_run (h : Run latchLts {} tr latch) (hreturn : (latch.lastEdge handle).reachable) :
    ∃ j, lastStep (renews handle) tr = some j ∧ appliesReturn handle j := by
  revert hreturn
  refine Run.induct (J := fun tr latch => (latch.lastEdge handle).reachable →
    ∃ j, lastStep (renews handle) tr = some j ∧ appliesReturn handle j) (by simp) ?_ h
  intro tr latch l latch' _ ih hstep hreturn
  cases l with
  | edge e reissue =>
    rw [(edge_step hstep).1, applyReachabilityEdge_lastEdge] at hreturn
    rw [lastStep_snoc]
    by_cases hnew : e.deviceHandle = handle ∧ (latch.lastEdge handle).seq < e.seq
    · simp_all [renews, appliesReturn]
    · have hno : renews handle (latch, .edge e reissue) = false := by simpa [renews] using hnew
      rw [if_neg hnew] at hreturn
      simpa [hno] using ih hreturn
  | releaseAll =>
    obtain rfl : latch.releaseAll = latch' := hstep
    rw [lastStep_snoc]
    exact ih hreturn

/-- The safe state of a latched device whose newest edge is a return was asked for by the last
step that engaged its latch or renewed its newest edge. -/
def Asked (handle : String) (tr : Trace DeviceLossLatch LatchStep) (latch : DeviceLossLatch) :
    Prop :=
  latch.latched handle → (latch.lastEdge handle).reachable →
    ∃ k, lastStep (fun x => engages handle x || renews handle x) tr = some k ∧ asks handle k

theorem asked_edge {latch' : DeviceLossLatch} {e : ReachabilityEdge} {reissue : Bool}
    (h : Asked handle tr latch) (hstep : latchLts.step latch (.edge e reissue) latch') :
    Asked handle (tr ++ [(latch, .edge e reissue)]) latch' := by
  obtain ⟨rfl, rfl⟩ := edge_step hstep
  intro hlatched hreturn
  rw [applyReachabilityEdge_latched] at hlatched
  rw [applyReachabilityEdge_lastEdge] at hreturn
  rw [lastStep_snoc]
  by_cases hh : e.deviceHandle = handle
  · subst hh
    by_cases hnew : (latch.lastEdge e.deviceHandle).seq < e.seq
    · -- a new return asks where the device is latched
      have hreachable : e.reachable := by simpa [hnew] using hreturn
      simp_all [renews, asks, applyReachabilityEdge_reissue, ReachabilityEdge.transportLoss]
    · by_cases hengages : (e.transportLoss && !latch.latched e.deviceHandle)
      · -- a stale loss that engages the latch asks for what the newest edge, a return, did not
        simp_all [engages, asks, applyReachabilityEdge_reissue]
      · -- a stale edge that engages nothing leaves the latch and the newest edge
        have hbefore : latch.latched e.deviceHandle := by
          by_contra hunlatched
          simp_all
        have hreturn' : (latch.lastEdge e.deviceHandle).reachable := by simpa [hnew] using hreturn
        have hno : (engages e.deviceHandle (latch, .edge e (latch.applyReachabilityEdge e).2) ||
            renews e.deviceHandle (latch, .edge e (latch.applyReachabilityEdge e).2)) = false := by
          simp [engages, renews, hbefore, hnew]
        simp only [hno, Bool.false_eq_true, if_false]
        exact h hbefore hreturn'
  · -- the edge is another device's
    have hno : (engages handle (latch, .edge e (latch.applyReachabilityEdge e).2) ||
        renews handle (latch, .edge e (latch.applyReachabilityEdge e).2)) = false := by
      simp [engages, renews, hh]
    simp only [hno, Bool.false_eq_true, if_false]
    exact h (by simpa [hh] using hlatched) (by simpa [hh] using hreturn)

theorem asked_run (h : Run latchLts {} tr latch) : Asked handle tr latch := by
  refine Run.induct (J := fun tr latch => Asked handle tr latch) ?_ ?_ h
  · intro hlatched
    cases hlatched
  · intro tr latch l latch' _ ih hstep
    cases l with
    | edge e reissue => exact asked_edge ih hstep
    | releaseAll =>
      obtain rfl : latch.releaseAll = latch' := hstep
      intro hlatched
      cases hlatched

end

/-- The loss latch does not depend on the order of the edges. The first part: however the edges
of a device arrive, in any permutation of their history and with other devices' edges between
them, the device ends latched iff a loss in the history is a transport loss. The second part: in
every run of edges and re-arms, where the device is latched and its newest edge is a return, the
later one (`k`) of the step that engaged the latch (`i`) and the step that applied the return
(`j`) asked for the device's safe state. -/
theorem latch_order_independent (handle : String) : (∀ history edges : List ReachabilityEdge,
      (edges.filter fun e => e.deviceHandle = handle).Perm history →
      ((applyAll {} edges).latched handle ↔ ∃ e ∈ history, e.reachable = false ∧
        (e.lastStatus = .unavailable ∨ e.lastStatus = .deadlineExceeded))) ∧
    ∀ tr latch, Run latchLts {} tr latch → latch.latched handle →
      (latch.lastEdge handle).reachable →
      ∃ i j k, lastStep (engages handle) tr = some i ∧ lastStep (renews handle) tr = some j ∧
        appliesReturn handle j ∧
        lastStep (fun x => engages handle x || renews handle x) tr = some k ∧
        (k = i ∨ k = j) ∧ asks handle k = true := by
  refine ⟨fun history edges hperm => ?_, fun tr latch hrun hlatched hreturn => ?_⟩
  · rw [latched_applyAll]
    simp only [Bool.false_eq_true, false_or]
    constructor
    · rintro ⟨e, he, hh, hloss⟩
      have hmem : e ∈ history := hperm.mem_iff.mp (List.mem_filter.mpr ⟨he, by simpa using hh⟩)
      exact ⟨e, hmem, by
        simpa [ReachabilityEdge.transportLoss, transportFailure] using hloss⟩
    · rintro ⟨e, he, hloss⟩
      have hmem := List.mem_filter.mp (hperm.mem_iff.mpr he)
      exact ⟨e, hmem.1, by simpa using hmem.2, by
        simpa [ReachabilityEdge.transportLoss, transportFailure] using hloss⟩
  · obtain ⟨i, hi⟩ := engaged_run hrun hlatched
    obtain ⟨j, hj, hreturns⟩ := returned_run hrun hreturn
    obtain ⟨k, hk, hasks⟩ := asked_run hrun hlatched hreturn
    refine ⟨i, j, k, hi, hj, hreturns, hk, ?_, hasks⟩
    rcases lastStep_or hk with hki | hkj
    · exact Or.inl (Option.some.inj (hki.symm.trans hi))
    · exact Or.inr (Option.some.inj (hkj.symm.trans hj))

/-- A loss of a device, and the return after it. -/
def loss : ReachabilityEdge := ⟨"sim0/valve", false, .unavailable, 1⟩

def comeback : ReachabilityEdge := ⟨"sim0/valve", true, .ok, 2⟩

/-- The return overtakes the loss. The device ends latched, and the late loss asks for its safe
state. -/
theorem latch_order_independent_overtaken :
    (applyAll {} [comeback, loss]).latched "sim0/valve" ∧
      ∃ tr latch k, Run latchLts {} tr latch ∧ latch = applyAll {} [comeback, loss] ∧
        lastStep (fun x => engages "sim0/valve" x || renews "sim0/valve" x) tr = some k ∧
        asks "sim0/valve" k = true := by
  have hlatched : (applyAll {} [comeback, loss]).latched "sim0/valve" :=
    ((latch_order_independent "sim0/valve").1 [loss, comeback] [comeback, loss]
      (by decide)).mpr ⟨loss, by decide, by decide, by decide⟩
  have hrun : Run latchLts {} [({}, .edge comeback false), (applyAll {} [comeback],
      .edge loss true)] (applyAll {} [comeback, loss]) :=
    (Run.refl.snoc (l := LatchStep.edge comeback false) rfl).snoc
      (l := LatchStep.edge loss true) rfl
  obtain ⟨-, -, k, -, -, -, hk, -, hasks⟩ :=
    (latch_order_independent "sim0/valve").2 _ _ hrun hlatched (by decide)
  exact ⟨hlatched, _, _, k, hrun, rfl, hk, hasks⟩

end Anolis.Proofs.LossLatchOrder
