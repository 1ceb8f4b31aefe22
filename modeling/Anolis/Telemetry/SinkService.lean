import Anolis.Telemetry.InfluxSink

/-!
# The sink with its subscription, started and stopped

`InfluxSink::start`, `stop` and `flush_loop` around the sink of `InfluxSink`. Here an event that the
flush thread pops is one that stands in the sink's `SubscriberQueue`, and the thread leaves its loop
when it reads `running_` as false. `service` runs the emitters, the threads that call
`enqueue_lines`, the flush thread and the one that starts and stops the sink.

An `emit` chooses its queues in one section and pushes in another, so a push can come behind
`unsubscribe`; `push` does not ask whether the queue is closed. The flush thread reads `running_` in
one step and pops in another. `stop` has four steps: it reads `running_`, clears it, unsubscribes
and joins the flush thread.

`start` is one step and stands for a start that succeeds. It comes with a queue of its own: a push
that is on its way to an earlier queue does not reach the sink any more. `start` and `stop` are not
called by two threads at once.

A line of the batch says which event it is of, and the state has the number of the next row at the
last call of `stop`. Neither is in the source.
-/

namespace Anolis.Telemetry

open Lib

/-- The configuration with the size of the subscription's queue. It is positive. -/
structure ServiceConfig extends InfluxConfig where
  queueSize : Nat := 10000

/-- A line of the batch. -/
inductive SinkLine (ρ : Type)
  | event (eventId : Nat) (text : ρ)
  | enqueued (text : ρ)
deriving DecidableEq

/-- An event, as the sink sees it. A state, a mode and a parameter event have a row, the others
have none. -/
structure SinkInput (ρ : Type) where
  eventId : Nat
  row : Option ρ
deriving DecidableEq

/-- The line of an event. -/
def SinkInput.line {ρ : Type} (e : SinkInput ρ) : Option (SinkLine ρ) :=
  e.row.map (.event e.eventId)

/-- Where the thread is that starts and stops the sink. -/
inductive StopPlace
  | idle | clearRunning | unsubscribe | join | returned
deriving DecidableEq

/-- The sink and what is around it. -/
structure ServiceState (ρ : Type) where
  sink : SinkState (SinkLine ρ) := {}
  running : Bool := false
  -- the flush thread has read `running_` as true and has not popped yet
  popping : Bool := false
  subscribed : Bool := false
  nextEventId : Nat := 1
  -- the emits that have chosen the sink's queue and have not pushed yet
  sending : List (SinkInput ρ) := []
  queue : List (SinkInput ρ) := []
  stopPlace : StopPlace := .idle
  mark : Nat := 0

/-- What a step does. `left` is the flush thread's read that ends its loop. -/
inductive ServiceEvent (ρ : Type)
  | silent
  | started
  | accepted (e : SinkInput ρ) (dropped : Option (SinkInput ρ))
  | sink (e : SinkEvent (SinkLine ρ))
  | left
  | answered (final : Bool) (result : PostResult)
  | stopCalled

/-- What the schedule supplies to a step. -/
inductive ServiceChoice (ρ : Type)
  | start
  | emit (row : Option ρ)
  | deliver (i : Nat)
  | enqueueLines (lines : List ρ)
  | flush (c : FlushChoice (SinkLine ρ))
  | stop

variable {ρ : Type}

/-- `start`. -/
def startNext (cfg : ServiceConfig) (s : ServiceState ρ) :
    Option (ServiceEvent ρ × ServiceState ρ) :=
  if s.running = false ∧ (s.stopPlace = .idle ∨ s.stopPlace = .returned) then
    (flushNext cfg.toInfluxConfig s.sink s.sink.place .start).map fun r =>
      (.started, { s with
          sink := r.2, running := true, popping := false, subscribed := true, sending := []
          queue := [], stopPlace := .idle })
  else none

/-- The first section of `emit`: the event gets its id, and is for the sink while it is
subscribed. -/
def emitNext (s : ServiceState ρ) (row : Option ρ) : ServiceState ρ :=
  { s with
    nextEventId := s.nextEventId + 1
    sending := if s.subscribed then s.sending ++ [⟨s.nextEventId, row⟩] else s.sending }

/-- `SubscriberQueue::push`: the event that a full queue loses, and the queue. -/
def pushQueue (size : Nat) (queue : List (SinkInput ρ)) (e : SinkInput ρ) :
    Option (SinkInput ρ) × List (SinkInput ρ) :=
  if size ≤ queue.length then (queue.head?, queue.tail ++ [e]) else (none, queue ++ [e])

/-- The push of an `emit`. -/
def deliverNext (cfg : ServiceConfig) (s : ServiceState ρ) (i : Nat) :
    Option (ServiceEvent ρ × ServiceState ρ) :=
  (s.sending[i]?).map fun e =>
    let r := pushQueue cfg.queueSize s.queue e
    (.accepted e r.1, { s with sending := s.sending.eraseIdx i, queue := r.2 })

/-- A step of the flush thread at the top of its loop: it reads `running_` or pops. -/
def topNext (cfg : ServiceConfig) (s : ServiceState ρ) :
    Option (ServiceEvent ρ × ServiceState ρ) :=
  if s.popping then
    let line := s.queue.head?.bind SinkInput.line
    (flushNext cfg.toInfluxConfig s.sink s.sink.place (.popped line)).map fun r =>
      (.sink r.1, { s with sink := r.2, popping := false, queue := s.queue.tail })
  else if s.running then some (.silent, { s with popping := true })
  else
    (flushNext cfg.toInfluxConfig s.sink s.sink.place .stopped).map fun r =>
      (.left, { s with sink := r.2 })

/-- A step of the flush thread. -/
def threadNext (cfg : ServiceConfig) (s : ServiceState ρ) (c : FlushChoice (SinkLine ρ)) :
    Option (ServiceEvent ρ × ServiceState ρ) :=
  match s.sink.place, c with
  | .off, _ => none
  | .top, _ => topNext cfg s
  | .post final _, .reply result =>
    (flushNext cfg.toInfluxConfig s.sink s.sink.place (.reply result)).map fun r =>
      (.answered final result, { s with sink := r.2 })
  | _, c =>
    (flushNext cfg.toInfluxConfig s.sink s.sink.place c).map fun r =>
      (.sink r.1, { s with sink := r.2 })

/-- A step of `stop`. A sink that does not run is stopped already. -/
def stopNext (s : ServiceState ρ) : Option (ServiceEvent ρ × ServiceState ρ) :=
  match s.stopPlace with
  | .idle | .returned =>
    some (.stopCalled, { s with
        stopPlace := if s.running then .clearRunning else .returned, mark := s.sink.nextRow })
  | .clearRunning => some (.silent, { s with running := false, stopPlace := .unsubscribe })
  | .unsubscribe => some (.silent, { s with subscribed := false, stopPlace := .join })
  | .join => match s.sink.place with
    | .off => some (.silent, { s with stopPlace := .returned })
    | _ => none

/-- A step. -/
def serviceNext (cfg : ServiceConfig) (s : ServiceState ρ) :
    ServiceChoice ρ → Option (ServiceEvent ρ × ServiceState ρ)
  | .start => startNext cfg s
  | .emit row => some (.silent, emitNext s row)
  | .deliver i => deliverNext cfg s i
  | .enqueueLines lines =>
    (sinkNext cfg.toInfluxConfig s.sink (.enqueueLines (lines.map .enqueued))).map fun r =>
      (.sink r.1, { s with sink := r.2 })
  | .flush c => threadNext cfg s c
  | .stop => stopNext s

/-- The interleavings of the sink's threads and the emitters. -/
def service (cfg : ServiceConfig) :
    Process (ServiceState ρ) (ServiceEvent ρ) (ServiceChoice ρ) where
  next := serviceNext cfg

end Anolis.Telemetry
