import Anolis.Runtime.LockPaths

/-!
# No threads wait for each other

The locks have an order: the controller's mutex, then the mode's, then a provider's call lock, then
what a call touches while it holds that (the session, the cache, the loss latch, the stop chain's
monitor, the worker's queue), and last the emitter, which the cache calls under its mutex. Every
path takes them in this order (`path_respects`), so no reachable state of any number of threads has
a cycle of waits (`no_lock_cycle`).

The order holds because of what the paths do not nest: `set_mode` runs its hooks outside the mode's
mutex, `hold` enters FAULT outside the controller's, the sink is called outside the cache's mutex
and only posts to the worker, and the worker gives its mutex up before it calls a device.
-/

namespace Anolis.Proofs.LockCycle

open Lib Lib.LockProg Runtime.LockPaths

/-- The order of the locks. -/
def rank : Lock → Nat
  | .controller => 0
  | .mode | .providerLocks => 1
  | .provider _ => 2
  | .lastDispatch | .lastTreeRecord | .session _ | .cache | .latch | .monitor | .worker => 3
  | .emitter | .queue _ => 4

/-! ### The paths keep the order -/

section
variable {n : Nat}

theorem emit_respects (hn : n ≤ 4) (targets : List Nat) : Respects rank n (emit targets) := by
  refine ⟨⟨hn, trivial⟩, respects_each fun q _ => ⟨hn, trivial⟩⟩

section

variable (hn : n ≤ 3)
include hn

theorem reachabilitySink_respects : Respects rank n reachabilitySink := by
  simp [reachabilitySink, applyReachabilityEdge, rank, hn]

theorem request_respects (handle : Nat) : Respects rank n (request handle) := by
  simp [request, rank, hn]

theorem edge_respects (targets : List Nat) :
    Respects rank n (.guard .cache (LockProg.opt (emit targets))) := by
  simp [rank, hn, emit_respects]

theorem pollDevice_respects (p : PollSite) : Respects rank n (pollDevice p) := by
  have hupdates : Respects rank n (LockProg.each emit p.updateTargets) :=
    respects_each fun targets _ => emit_respects (by omega) targets
  have hedge := edge_respects hn p.edgeTargets
  have hsink := reachabilitySink_respects hn
  refine ⟨request_respects hn _, ⟨⟨hn, trivial⟩, hedge, ?_⟩, hedge, hupdates, ?_⟩
  · simpa using hsink
  · simpa using hsink

theorem pollDeviceNow_respects (poll : Option PollSite) : Respects rank n (pollDeviceNow poll) := by
  refine ⟨⟨hn, trivial⟩, ?_⟩
  cases poll with
  | none => trivial
  | some p => exact pollDevice_respects hn p

theorem pollOnce_respects (groups : List PollGroup) : Respects rank n (pollOnce groups) := by
  refine ⟨⟨hn, trivial⟩, respects_each fun g _ => ⟨⟨⟨hn, trivial⟩, hn, ?_⟩, ⟨hn, trivial⟩, ?_⟩⟩
  · refine respects_each fun targets _ => ?_
    simp [rank, emit_respects]
  · exact respects_each fun p _ => pollDevice_respects hn p

theorem dispatch_respects (c : CallSite) : Respects rank n (dispatch c) := by
  have hpoll := pollDeviceNow_respects hn c.poll
  have hrequest := request_respects hn c.handle
  simp [dispatch, rank, hn, hpoll, hrequest]

end

theorem executeCall_respects (hn : n ≤ 1) (c : CallSite) : Respects rank n (executeCall c) := by
  have hdispatch : Respects rank (rank (.provider c.provider) + 1) (dispatch c) :=
    dispatch_respects (Nat.le_refl 3) c
  have h2 : n ≤ 2 := by omega
  have h3 : n ≤ 3 := by omega
  simp [executeCall, rank, hn, h2, h3]
  exact hdispatch

theorem runLadder_respects (hn : n ≤ 1) (calls : List CallSite) :
    Respects rank n (runLadder calls) :=
  respects_each fun c _ => executeCall_respects hn c

theorem setMode_respects (hn : n ≤ 1) (m : ModeSite) : Respects rank n (setMode m) := by
  have hbefore := runLadder_respects hn m.before
  have hafter := runLadder_respects hn m.after
  have hemit : Respects rank n (emit m.targets) := emit_respects (by omega) m.targets
  have hlatch : n ≤ 3 := by omega
  refine ⟨⟨hn, trivial⟩, hbefore, ⟨hn, trivial⟩, ?_, hafter, hemit⟩
  simp [rank, hlatch]

theorem updateStopChain_respects (s : StopChainSite) : Respects rank 0 (updateStopChain s) := by
  have hevents : Respects rank 0 (LockProg.each emit s.mismatchTargets) :=
    respects_each fun targets _ => emit_respects (Nat.zero_le _) targets
  have hreads : Respects rank 0
      (LockProg.each (fun _ => LockProg.lock .cache) (List.replicate s.expectations ())) :=
    respects_each fun _ _ => by simp
  have hemit := emit_respects (Nat.zero_le 4) s.targets
  have hfault := setMode_respects (Nat.zero_le 1) s.fault
  simp [updateStopChain, update, updateMismatches, hold, hevents, hreads, hemit, hfault]

end

theorem path_respects (op : Operation) : Respects rank 0 op.path := by
  cases op with
  | executeCall call => exact executeCall_respects (Nat.zero_le 1) call
  | trigger ladder fault =>
    -- both run with the controller's mutex held
    have hladder := runLadder_respects (Nat.le_refl 1) ladder
    have hfault := setMode_respects (Nat.le_refl 1) fault
    exact ⟨Nat.zero_le _, hladder, hfault, trivial⟩
  | hold fault =>
    have hfault := setMode_respects (Nat.zero_le 1) fault
    exact ⟨⟨Nat.zero_le _, trivial⟩, hfault, trivial⟩
  | clear => simp [Operation.path, clear, rank]
  | setMode change => exact setMode_respects (Nat.zero_le 1) change
  | pollOnce groups => exact pollOnce_respects (Nat.zero_le 3) groups
  | updateStopChain pass => exact updateStopChain_respects pass
  | reissue ladder => exact ⟨⟨Nat.zero_le _, trivial⟩, runLadder_respects (Nat.zero_le 1) ladder⟩

/-- The runtime's threads, as far as their locks go. -/
abbrev lockThreads := lockMachine Operation.path

section
variable {g₀ g : LockState Lock} {tr : Trace (LockState Lock) (ThreadId × LockEffect Lock)}

/-- In every state that any number of threads reach, no thread waits, through any chain of threads
that each wait for a lock held by the next, for itself. -/
theorem no_lock_cycle (h0 : LockStart g₀) (hrun : Run lockThreads.lts g₀ tr g) (t : ThreadId) :
    ¬ Relation.TransGen (WaitsFor g) t t :=
  no_wait_cycle path_respects h0 hrun t

end

/-! ### A trigger, a clear and an operator's call -/

/-- No thread runs anything. -/
def idle : LockState Lock where
  shared _ := none
  thread _ := []

theorem idle_start : LockStart idle := ⟨fun _ => rfl, fun _ => rfl⟩

/-- A call to the provider `sim0`, whose device is polled after it. -/
def valveCall : CallSite := ⟨"sim0", 0, some ⟨0, [], []⟩⟩

/-- A call skips the reads of the mode and of the loss latch, and comes to the call lock. -/
def toCallLock (t : ThreadId) : List (ThreadId × LockChoice Operation) :=
  (List.replicate 4 [(t, .go), (t, .right), (t, .go)]).flatten ++ List.replicate 4 (t, .go)

/-- An operator's call has the call lock, the ladder of a trigger comes to it, and a clear comes to
the controller's mutex. -/
def stopAndClear : List (ThreadId × LockChoice Operation) :=
  (0, .start (.executeCall valveCall)) :: toCallLock 0 ++ [(0, .go)] ++
    [(1, .start (.trigger [valveCall] ⟨[], [], []⟩)), (1, .go), (1, .go), (1, .go)] ++
    toCallLock 1 ++ [(2, .start .clear)]

/-- The clear waits for the trigger, and the trigger for the call, which nothing holds up. -/
theorem no_lock_cycle_clear :
    ∃ tr g, Run lockThreads.lts idle tr g ∧ WaitsFor g 2 1 ∧ WaitsFor g 1 0 ∧
      ∀ t, ¬ Relation.TransGen (WaitsFor g) t t := by
  have hexec := Machine.run_of_passes lockThreads idle stopAndClear
    (fun _ g => wants (g.thread 2) = some .controller ∧ g.shared .controller = some 1 ∧
      wants (g.thread 1) = some (.provider "sim0") ∧ g.shared (.provider "sim0") = some 0)
    (by decide)
  obtain ⟨tr, g, hrun, hclear, htrigger, hladder, hcall⟩ := hexec
  exact ⟨tr, g, hrun, ⟨_, hclear, htrigger⟩, ⟨_, hladder, hcall⟩, no_lock_cycle idle_start hrun⟩

end Anolis.Proofs.LockCycle
