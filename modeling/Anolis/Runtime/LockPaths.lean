import Anolis.Lib.LockOrder

/-!
# The locks that the runtime's operations take

The mutexes of the runtime, and in which order and nesting `execute_call`, the e-stop controller,
`set_mode`, the poll loop, the main loop's `update_stop_chain` and the re-issue worker take them. A
definition here is what is left of the function of that name when only its locks are looked at:
`guard` is the scope of a `lock_guard`, `opt` a part that the function may skip, and every `seq` may
end early, which covers the returns and the exceptions. What the branches decide on is left open, so
that the paths here include those of the source.

What a path depends on comes with the operation: the calls of a ladder or of a mode's hooks, the
handle of the session that each of them finds in the registry, and the subscribers that get an
event. A handle is a number; a restart gives a provider another one.

Left out: the registries' shared mutexes and those of the logger, the parameters, the behaviour
tree's health and the run journal, under which none of these locks is taken.
-/

namespace Anolis.Runtime.LockPaths

open Lib Lib.LockProg

/-- The mutexes. -/
inductive Lock
  /-- `SafeStateController::mutex_` -/
  | controller
  /-- `ModeManager::mutex_` -/
  | mode
  /-- `CallRouter::provider_locks_mutex_`, the table of the call locks -/
  | providerLocks
  /-- the call lock of a provider -/
  | provider (id : String)
  /-- `CallRouter::last_dispatch_mutex_` -/
  | lastDispatch
  /-- `CallRouter::last_tree_record_mutex_` -/
  | lastTreeRecord
  /-- `ProviderHandle::mutex_` -/
  | session (handle : Nat)
  /-- `StateCache::mutex_` -/
  | cache
  /-- `EventEmitter::mutex_` -/
  | emitter
  /-- `SubscriberQueue::mutex_` -/
  | queue (subscriber : Nat)
  /-- `DeviceLossLatch::mutex_` -/
  | latch
  /-- `StopChainMonitor::mutex_` -/
  | monitor
  /-- `ReissueWorker::mutex_` -/
  | worker
deriving DecidableEq

abbrev Path := LockProg Lock

/-! ### Events and the sink -/

/-- `EventEmitter::emit`: the queues are pushed to after the emitter's mutex. -/
def emit (targets : List Nat) : Path :=
  .seq (lock .emitter) (each (fun q => lock (.queue q)) targets)

/-- `DeviceLossLatch::apply_reachability_edge`. `expected_loss_` is asked outside the latch's mutex,
and takes a snapshot of the stop chain. -/
def applyReachabilityEdge : Path := .seq (lock .latch) (opt (lock .monitor))

/-- The sink of `make_reachability_sink`: `ReissueWorker::post` where the latch asks for it. -/
def reachabilitySink : Path := .seq applyReachabilityEdge (lock .worker)

/-! ### `StateCache` -/

/-- A request on a session: `send_request`, and `set_error` where the response has not the field of
the request. -/
def request (handle : Nat) : Path := .seq (lock (.session handle)) (opt (lock (.session handle)))

/-- A read of a device: the handle of its session, and the subscribers of the availability event
and of each `state_update`. -/
structure PollSite where
  handle : Nat
  edgeTargets : List Nat
  updateTargets : List (List Nat)

/-- `StateCache::update_device_state`. The availability event goes out under the cache's mutex, the
updates and the edge after it. -/
def updateDeviceState (p : PollSite) : Path :=
  .seq (.guard .cache (opt (emit p.edgeTargets)))
    (.seq (each emit p.updateTargets) (opt reachabilitySink))

/-- `StateCache::poll_device`. After a failed read, the log asks the session for the error. -/
def pollDevice (p : PollSite) : Path :=
  .seq (request p.handle)
    (.choice
      (.seq (lock (.session p.handle))
        (.seq (.guard .cache (opt (emit p.edgeTargets))) (opt reachabilitySink)))
      (updateDeviceState p))

/-- `StateCache::poll_device_now`: a read where the device has a poll config and its provider is
there. -/
def pollDeviceNow (poll : Option PollSite) : Path :=
  .seq (lock .cache) ((poll.map pollDevice).getD .skip)

/-- The devices of a provider in one pass of the poll loop. `lostTargets` are the subscribers of
each device's availability event when the provider is not there. -/
structure PollGroup where
  lostTargets : List (List Nat)
  polls : List PollSite

/-- `StateCache::poll_once`. -/
def pollOnce (groups : List PollGroup) : Path :=
  .seq (lock .cache)
    (each (fun g =>
      .choice
        -- the provider is missing or not available
        (.seq (lock .cache) (.guard .cache (each (fun targets => opt (emit targets))
          g.lostTargets)))
        (.seq (lock .cache) (each pollDevice g.polls))) groups)

/-! ### `CallRouter` -/

/-- A call: its provider, the handle it finds there, and what the poll after it finds. -/
structure CallSite where
  provider : String
  handle : Nat
  poll : Option PollSite

/-- `CallRouter::execute_call` under the provider's lock. The e-stop latch is read without a
lock. -/
def dispatch (c : CallSite) : Path :=
  .seq (opt (lock .latch))
    (.seq (opt (lock .lastDispatch))
      (.seq (request c.handle)
        (.choice
          -- `last_error` and `last_status_code`
          (.seq (lock (.session c.handle))
            (.seq (lock (.session c.handle)) (opt (lock .lastTreeRecord))))
          (.seq (opt (lock .lastTreeRecord)) (pollDeviceNow c.poll)))))

/-- `CallRouter::execute_call`. The mode is read up to three times, each time in a scope of its
own. -/
def executeCall (c : CallSite) : Path :=
  .seq (opt (lock .mode))
    (.seq (opt (lock .mode))
      (.seq (opt (lock .mode))
        (.seq (opt (lock .latch))
          (.seq (lock .providerLocks) (.guard (.provider c.provider) (dispatch c))))))

/-! ### `ModeManager` -/

/-- A mode change: the calls of the hooks before and after the commit, and the subscribers of the
mode's event. -/
structure ModeSite where
  before : List CallSite
  after : List CallSite
  targets : List Nat

/-- `ModeManager::set_mode` with the callbacks that `init_automation` registers. The hooks run
outside the mode's mutex. The guards of the commit run under it, and read the registry and the
e-stop latch. -/
def setMode (m : ModeSite) : Path :=
  .seq (lock .mode)
    (.seq (each executeCall m.before)
      (.seq (lock .mode)
        -- `release_all`
        (.seq (opt (lock .latch))
          (.seq (each executeCall m.after) (emit m.targets)))))

/-! ### `SafeStateController` and its callers -/

/-- `SafeStateController::run_ladder`. -/
def runLadder (calls : List CallSite) : Path := each executeCall calls

/-- `SafeStateController::trigger`: the controller's mutex is held over the ladder and over the
FAULT entry with its hooks. -/
def trigger (calls : List CallSite) (fault : ModeSite) : Path :=
  .guard .controller (.seq (runLadder calls) (opt (setMode fault)))

/-- `SafeStateController::hold`: the FAULT entry is outside the controller's mutex. -/
def hold (fault : ModeSite) : Path := .seq (lock .controller) (opt (setMode fault))

/-- `SafeStateController::clear`: the guard takes a snapshot of the stop chain. -/
def clear : Path := .guard .controller (opt (lock .monitor))

/-- A pass of the main loop over the stop chain: the subscribers of its event, the FAULT entry of a
hold, the devices with an expectation, and the subscribers of each mismatch event. -/
structure StopChainSite where
  targets : List Nat
  fault : ModeSite
  expectations : Nat
  mismatchTargets : List (List Nat)

/-- `StopChainMonitor::update`: the cache is read before the monitor's mutex. -/
def update : Path := .seq (lock .cache) (lock .monitor)

/-- `StopChainMonitor::update_mismatches`: a snapshot, a read of the cache for each expectation, and
the monitor's mutex again. -/
def updateMismatches (expectations : Nat) : Path :=
  .seq (lock .monitor)
    (.seq (each (fun _ => lock .cache) (List.replicate expectations ())) (lock .monitor))

/-- `Runtime::update_stop_chain`. -/
def updateStopChain (s : StopChainSite) : Path :=
  .seq update
    (.seq
      -- the state has changed: its event, `holds` and the hold
      (opt (.seq (opt (emit s.targets)) (.seq (lock .monitor) (opt (hold s.fault)))))
      (.seq (updateMismatches s.expectations) (each emit s.mismatchTargets)))

/-- A turn of `ReissueWorker::run`: the mutex is given up before `reissue_safe_state_for`, which
runs the ladder without the controller's. -/
def reissue (calls : List CallSite) : Path := .seq (lock .worker) (runLadder calls)

/-- What the threads run. -/
inductive Operation
  | executeCall (call : CallSite)
  | trigger (ladder : List CallSite) (fault : ModeSite)
  | hold (fault : ModeSite)
  | clear
  | setMode (change : ModeSite)
  | pollOnce (groups : List PollGroup)
  | updateStopChain (pass : StopChainSite)
  | reissue (ladder : List CallSite)

def Operation.path : Operation → Path
  | .executeCall call => LockPaths.executeCall call
  | .trigger ladder fault => LockPaths.trigger ladder fault
  | .hold fault => LockPaths.hold fault
  | .clear => LockPaths.clear
  | .setMode change => LockPaths.setMode change
  | .pollOnce groups => LockPaths.pollOnce groups
  | .updateStopChain pass => LockPaths.updateStopChain pass
  | .reissue ladder => LockPaths.reissue ladder

end Anolis.Runtime.LockPaths
