import Anolis.Lib.Machine

/-!
# The worker that re-asserts safe states

`reissue_worker.cpp`: a queue of device handles, filled by `post` from any thread, and one worker
thread that takes them out in order and re-asserts each device's safe state. `stop` asks the
worker to finish what is queued, and joins it.

The queue and the stop flag are read and written under one mutex only, so a section of it is one
step. The condition variable is modelled: `post` and `stop` notify after their section, the worker
checks the wait's condition before it blocks, a notification wakes it, and it may wake for no
reason. What the re-assert itself does is not the worker's business; it may throw.
-/

namespace Anolis.Control

open Lib

/-- What the threads share. `sleeping` says that the worker is blocked in `wait` and has not been
notified, `exited` that its thread has ended. -/
structure WorkerShared where
  queue : List String := []
  stopping : Bool := false
  sleeping : Bool := false
  exited : Bool := false

/-- Where a thread is. The first four places are those of a thread that posts and stops, the
others those of the worker: at the wait's condition, in the wait, about to call the re-assert,
inside it, and at the end. -/
inductive WorkerPc
  | idle | postNotify | stopNotify | stopJoin
  | check | waiting
  | starting (handle : String)
  | running (handle : String)
  | ended
deriving DecidableEq

/-- The steps of the threads. An accepted post enters the queue, or finds its handle there. -/
inductive WorkerEffect
  | accepted (handle : String) (entered : Bool)
  | dropped (handle : String)
  | stopRequested
  | notify
  | stopped
  | blocked
  | woken (spurious : Bool)
  | popped (handle : String)
  | started (handle : String)
  | finished (handle : String) (threw : Bool)
  | exited
deriving DecidableEq

/-- What the schedule decides: the operation an idle thread starts, a wake for no reason, and the
outcome of a re-assert. -/
inductive WorkerChoice
  | go
  | post (handle : String)
  | stop
  | spurious
  | finish (threw : Bool)

/-- One step of a thread. -/
def workerNext (sh : WorkerShared) : WorkerPc → WorkerChoice → Option (WorkerEffect × WorkerPc)
  | .idle, .post handle =>
    if sh.stopping then some (.dropped handle, .idle)
    -- already waiting: that run covers this request too, and nobody is notified
    else if handle ∈ sh.queue then some (.accepted handle false, .idle)
    else some (.accepted handle true, .postNotify)
  | .idle, .stop => some (.stopRequested, .stopNotify)
  | .idle, _ => none
  | .postNotify, _ => some (.notify, .idle)
  | .stopNotify, _ => some (.notify, .stopJoin)
  | .stopJoin, _ => if sh.exited then some (.stopped, .idle) else none
  | .check, _ =>
    match sh.queue with
    | [] => if sh.stopping then some (.exited, .ended) else some (.blocked, .waiting)
    | handle :: _ => some (.popped handle, .starting handle)
  | .waiting, .spurious => some (.woken true, .check)
  | .waiting, _ => if sh.sleeping then none else some (.woken false, .check)
  | .starting handle, _ => some (.started handle, .running handle)
  -- an exception of the re-assert is logged, and the loop goes on
  | .running handle, .finish threw => some (.finished handle threw, .check)
  | .running _, _ => none
  | .ended, _ => none

/-- What a step does to the shared state. -/
def WorkerShared.apply (sh : WorkerShared) (_ : ThreadId) : WorkerEffect → WorkerShared
  | .accepted handle true => { sh with queue := sh.queue ++ [handle] }
  | .stopRequested => { sh with stopping := true }
  | .notify => { sh with sleeping := false }
  | .blocked => { sh with sleeping := true }
  | .woken _ => { sh with sleeping := false }
  | .popped _ => { sh with queue := sh.queue.tail }
  | .exited => { sh with exited := true }
  | .accepted _ false | .dropped _ | .stopped | .started _ | .finished _ _ => sh

/-- The worker and the threads around it. -/
def reissueWorker : Machine WorkerShared WorkerPc WorkerEffect WorkerChoice where
  next sh _ := workerNext sh
  apply := WorkerShared.apply

/-- A state of the worker. -/
abbrev WorkerState := Global WorkerShared WorkerPc

/-- The worker as it is constructed: its thread is `w`, and nothing has been posted. -/
def workerStart (w : ThreadId) : WorkerState where
  shared := {}
  thread t := if t = w then .check else .idle

end Anolis.Control
