import Anolis.Lib.Machine
import Anolis.Provider.ProviderSupervisor

/-!
# The supervision in the main loop

The loop of `Runtime::run`: it collects the result of the restart in flight, and then checks each
provider of the configuration in turn, by the methods of the supervisor. Thread 0 runs the loop, one
step for each call of the supervisor and for each look at a provider; the other threads move the
steady clock, which only goes forward. What `is_available` answers, when a restart is ready and what
it returned are the schedule's.

At most one restart is in flight: `restart` is its provider and whether it is a probe.

Left out: the stop chain's update, which `StopChain` has, and the restart itself, which
`RestartProvider` has.
-/

namespace Anolis.Runtime

open Lib Provider

/-- What the loop keeps. -/
structure LoopShared where
  now : Int
  states : String → RestartState := fun _ => {}
  restart : Option (String × Bool) := none

/-- Where the check of one provider is. -/
inductive CheckPlace
  -- the provider is unavailable
  | circuit | shouldProbe | probe | mark | crash | shouldRestart | clear | restart
  -- the provider is available
  | heartbeat | shouldRecover | success
deriving DecidableEq

/-- Where the loop is. `rest` are the providers still to be checked. -/
inductive LoopPc
  | top
  | signal
  | check (rest : List ProviderConfig)
  | inside (place : CheckPlace) (id : String) (rest : List ProviderConfig)
  | stopped
  -- `backoff_ms` was read out of bounds
  | broken

/-- What the schedule supplies to a step. -/
inductive LoopChoice
  | go
  | advance (elapsed : Nat)
  | ready (restarted : Bool)
  | shutdown (requested : Bool)
  | missing
  | available (up : Bool)

/-- The effect of a step. -/
inductive LoopEffect
  | silent
  | advance (elapsed : Nat)
  | returned (id : String) (probe restarted : Bool)
  | observed (id : String) (up : Bool)
  | marked (id : String)
  | crashed (id : String) (backoff : Option Int)
  | outOfBounds (id : String)
  | cleared (id : String)
  | started (id : String) (probe : Bool)
  | heartbeat (id : String)
  | recovered (id : String)
deriving DecidableEq

/-- The policy that a provider is registered with. -/
def policyOf (providers : List ProviderConfig) (id : String) : RestartPolicyConfig :=
  ((providers.find? fun provider => provider.id = id).map ProviderConfig.restartPolicy).getD {}

section
variable (providers : List ProviderConfig) (interval : Int)

/-- What an effect does to what the loop keeps. -/
def LoopShared.apply (sh : LoopShared) : LoopEffect → LoopShared
  | .silent | .observed _ _ | .outOfBounds _ => sh
  | .advance elapsed => { sh with now := sh.now + elapsed }
  | .returned id probe restarted =>
    { sh with
      restart := none
      states := if probe then Function.update sh.states id
          (recordProbeResult (sh.states id) sh.now interval restarted)
        else sh.states }
  | .marked id =>
    { sh with states := Function.update sh.states id (markCrashDetected (sh.states id)) }
  | .crashed id _ =>
    { sh with
      states := Function.update sh.states id
        (((recordCrash (policyOf providers id) (sh.states id) sh.now interval).map Prod.fst).getD
          (sh.states id)) }
  | .cleared id =>
    { sh with states := Function.update sh.states id (clearCrashDetected (sh.states id)) }
  | .started id probe => { sh with restart := some (id, probe) }
  | .heartbeat id =>
    { sh with states := Function.update sh.states id (recordHeartbeat (sh.states id) sh.now) }
  | .recovered id =>
    { sh with states := Function.update sh.states id (recordSuccess (sh.states id)) }

/-- A step of the check of one provider. -/
def checkNext (sh : LoopShared) (place : CheckPlace) (id : String) (rest : List ProviderConfig) :
    LoopEffect × LoopPc :=
  let policy := policyOf providers id
  let st := sh.states id
  match place with
  | .circuit => (.silent, .inside (if st.circuitOpen then .shouldProbe else .mark) id rest)
  | .shouldProbe =>
    if sh.restart.isNone && shouldProbe policy st sh.now then (.silent, .inside .probe id rest)
    else (.silent, .check rest)
  | .probe => (.started id true, .check rest)
  | .mark =>
    if st.crashDetected then (.silent, .inside .shouldRestart id rest)
    else (.marked id, .inside .crash id rest)
  | .crash =>
    match recordCrash policy st sh.now interval with
    | some (_, some ms) => (.crashed id (some ms), .inside .shouldRestart id rest)
    | some (_, none) => (.crashed id none, .check rest)
    | none => (.outOfBounds id, .broken)
  | .shouldRestart =>
    if sh.restart.isNone && shouldRestart policy st sh.now then (.silent, .inside .clear id rest)
    else (.silent, .check rest)
  | .clear => (.cleared id, .inside .restart id rest)
  | .restart => (.started id false, .check rest)
  | .heartbeat => (.heartbeat id, .inside .shouldRecover id rest)
  | .shouldRecover =>
    if shouldMarkRecovered policy st sh.now then (.silent, .inside .success id rest)
    else (.silent, .check rest)
  | .success => (.recovered id, .check rest)

/-- A step of the loop. -/
def loopNext (sh : LoopShared) : LoopPc → LoopChoice → Option (LoopEffect × LoopPc)
  | .top, .ready restarted => sh.restart.map fun r => (.returned r.1 r.2 restarted, .signal)
  | .top, .go => some (.silent, .signal)
  | .signal, .shutdown true => some (.silent, .stopped)
  | .signal, .shutdown false => some (.silent, .check providers)
  | .check [], .go => some (.silent, .top)
  | .check (_ :: rest), .missing => some (.silent, .check rest)
  | .check (provider :: rest), .available up =>
    -- a provider whose restart is in flight is not looked at
    if sh.restart.any fun r => r.1 = provider.id then some (.silent, .check rest)
    else some (.observed provider.id up,
      .inside (if up then .heartbeat else .circuit) provider.id rest)
  | .inside place id rest, .go => some (checkNext providers interval sh place id rest)
  | _, _ => none

/-- The machine of the main loop. -/
def mainLoop : Machine LoopShared LoopPc LoopEffect LoopChoice where
  next sh t pc
    | .advance elapsed => if t = 0 then none else some (.advance elapsed, pc)
    | c => if t = 0 then loopNext providers interval sh pc c else none
  apply sh _ e := sh.apply providers interval e

end

/-- A state of the main loop. -/
abbrev LoopState := Global LoopShared LoopPc

/-- A trace of the main loop. -/
abbrev LoopTrace := Trace LoopState (ThreadId × LoopEffect)

/-- The main loop before its first iteration: every provider is registered, and none was restarted.
The clock shows any time. -/
structure LoopStart (g : LoopState) : Prop where
  states : ∀ id, g.shared.states id = {}
  restart : g.shared.restart = none
  top : g.thread 0 = .top

end Anolis.Runtime
