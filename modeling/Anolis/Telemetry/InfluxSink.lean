import Anolis.Lib.Process

/-!
# The rows of the telemetry sink

The batching of `influx_sink.cpp`: rows come into the batch from events (`flush_loop`) and from
`enqueue_lines`, and `flush_batch` sends them. There is one flush thread: `start` does nothing while
it runs, and `stop` joins it. `FlushPlace` says where it is, and one of its steps is one section
under `batch_mutex_` or one operation outside it, so other threads' `enqueue_lines` come between any
two of them. The counters are atomics of their own: each addition is a step.

What the schedule supplies is which event was popped, the time since the last flush, the answer to
the request and whether `stop` was called.

A row carries its number among the rows ever put in the batch, so that two rows with one text are
two rows. The number is not in the source.

Left out: how a row is formatted, the request itself, `connected_` and the log.
-/

namespace Anolis.Telemetry

open Lib

/-- `InfluxConfig`, as far as the batching reads it. -/
structure InfluxConfig where
  batchSize : Nat := 100
  flushIntervalMs : Int := 1000
  maxRetryBufferSize : Nat := 1000

/-- A row of line protocol, and its number. -/
structure Row (ρ : Type) where
  number : Nat
  line : ρ
deriving DecidableEq

/-- What the request came to. -/
inductive PostResult
  | status (code : Int)
  | connectionError

/-- The branches of `flush_batch` behind the request. -/
inductive FlushOutcome
  | written | rejected | retried
deriving DecidableEq

/-- The branch that is taken. A 429 and a 5xx are tried again, like no answer at all. -/
def PostResult.outcome : PostResult → FlushOutcome
  | .status code =>
    if 200 ≤ code ∧ code < 300 then .written
    else if code ≠ 429 ∧ 400 ≤ code ∧ code < 500 then .rejected
    else .retried
  | .connectionError => .retried

/-- Where the flush thread is. `final` is the flush behind the loop. -/
inductive FlushPlace (ρ : Type)
  -- no thread
  | off
  -- flush_loop
  | top
  | push (line : ρ)
  | check
  -- flush_batch
  | take (final : Bool)
  | post (final : Bool) (lines : List (Row ρ))
  | countWritten (final : Bool) (lines : List (Row ρ))
  | countRejected (final : Bool) (lines : List (Row ρ))
  | countFailed (final : Bool) (lines : List (Row ρ))
  | keep (final : Bool) (lines : List (Row ρ))
  -- under the lock
  | countDropped (final : Bool) (lines : List (Row ρ))

/-- The place behind a flush. -/
def FlushPlace.past {ρ : Type} (final : Bool) : FlushPlace ρ := if final then .off else .top

/-- The rows that `flush_batch` took and has not counted or put back. -/
def FlushPlace.inFlight {ρ : Type} : FlushPlace ρ → List (Row ρ)
  | .post _ lines | .countWritten _ lines | .countRejected _ lines | .countFailed _ lines
  | .keep _ lines | .countDropped _ lines => lines
  | _ => []

/-- Is the thread inside a section of `batch_mutex_` between two steps. -/
def FlushPlace.locked {ρ : Type} : FlushPlace ρ → Bool
  | .countDropped _ _ => true
  | _ => false

/-- The sink. -/
structure SinkState (ρ : Type) where
  batch : List (Row ρ) := []
  retryBuffer : List (Row ρ) := []
  totalWritten : Nat := 0
  totalFailed : Nat := 0
  totalRejected : Nat := 0
  nextRow : Nat := 0
  place : FlushPlace ρ := .off

/-- Lines as rows, from a number on. -/
def rowsFrom {ρ : Type} : Nat → List ρ → List (Row ρ)
  | _, [] => []
  | n, line :: lines => ⟨n, line⟩ :: rowsFrom (n + 1) lines

variable {ρ : Type}

/-- The rows of lines that are put in the batch now. -/
def SinkState.rows (s : SinkState ρ) (lines : List ρ) : List (Row ρ) := rowsFrom s.nextRow lines

/-- Lines are put in the batch. -/
def SinkState.put (s : SinkState ρ) (lines : List ρ) : SinkState ρ :=
  { s with batch := s.batch ++ s.rows lines, nextRow := s.nextRow + lines.length }

/-- What the schedule supplies to a step of the flush thread. -/
inductive FlushChoice (ρ : Type)
  | go
  | start
  -- `running_` is false
  | stopped
  -- the row of the event that was popped, where there is one
  | popped (line : Option ρ)
  | elapsed (ms : Int)
  | reply (result : PostResult)

/-- What a step does to the rows. -/
inductive SinkEvent (ρ : Type)
  | silent
  | put (rows : List (Row ρ))
  | wrote (rows : List (Row ρ))

/-- The section of `flush_loop` that decides whether to flush. -/
def shouldFlush (cfg : InfluxConfig) (s : SinkState ρ) (elapsedMs : Int) : Bool :=
  !s.batch.isEmpty && (cfg.batchSize ≤ s.batch.length || cfg.flushIntervalMs ≤ elapsedMs)

/-- The first section of `flush_batch`: the retry buffer goes first. -/
def takeLines (s : SinkState ρ) (final : Bool) : SinkState ρ :=
  let lines := s.retryBuffer ++ s.batch
  if lines.isEmpty then { s with place := .past final }
  else { s with retryBuffer := [], batch := [], place := .post final lines }

/-- The place behind the answer to the request. -/
def FlushOutcome.place (outcome : FlushOutcome) (final : Bool) (lines : List (Row ρ)) :
    FlushPlace ρ :=
  match outcome with
  | .written => .countWritten final lines
  | .rejected => .countRejected final lines
  | .retried => .keep final lines

/-- How many of the lines fit into the retry buffer. -/
def keptCount (cfg : InfluxConfig) (s : SinkState ρ) (lines : List (Row ρ)) : Nat :=
  min (cfg.maxRetryBufferSize - s.retryBuffer.length) lines.length

/-- The lines that fit are put into the retry buffer. The others are still to be counted. -/
def keepLines (cfg : InfluxConfig) (s : SinkState ρ) (final : Bool) (lines : List (Row ρ)) :
    SinkState ρ :=
  { s with
    retryBuffer := s.retryBuffer ++ lines.take (keptCount cfg s lines)
    place := .countDropped final (lines.drop (keptCount cfg s lines)) }

/-- A step of the flush thread. -/
def flushNext (cfg : InfluxConfig) (s : SinkState ρ) :
    FlushPlace ρ → FlushChoice ρ → Option (SinkEvent ρ × SinkState ρ)
  | .off, .start => some (.silent, { s with place := .top })
  | .top, .stopped => some (.silent, { s with place := .take true })
  | .top, .popped (some line) => some (.silent, { s with place := .push line })
  | .top, .popped none => some (.silent, { s with place := .check })
  | .push line, .go => some (.put (s.rows [line]), { s.put [line] with place := .check })
  | .check, .elapsed ms =>
    some (.silent, { s with place := if shouldFlush cfg s ms then .take false else .top })
  | .take final, .go => some (.silent, takeLines s final)
  | .post final lines, .reply result =>
    some (.silent, { s with place := result.outcome.place final lines })
  | .countWritten final lines, .go =>
    some (.wrote lines,
      { s with totalWritten := s.totalWritten + lines.length, place := .past final })
  | .countRejected final lines, .go =>
    some (.silent,
      { s with totalRejected := s.totalRejected + lines.length, place := .countFailed final lines })
  | .countFailed final lines, .go | .countDropped final lines, .go =>
    some (.silent, { s with totalFailed := s.totalFailed + lines.length, place := .past final })
  | .keep final lines, .go => some (.silent, keepLines cfg s final lines)
  | _, _ => none

/-- What the schedule supplies to a step. -/
inductive SinkChoice (ρ : Type)
  | enqueueLines (lines : List ρ)
  | flush (c : FlushChoice ρ)

/-- A step of the sink: `enqueue_lines` of some thread, or one of the flush thread. -/
def sinkNext (cfg : InfluxConfig) (s : SinkState ρ) :
    SinkChoice ρ → Option (SinkEvent ρ × SinkState ρ)
  | .enqueueLines lines =>
    if s.place.locked then none else some (.put (s.rows lines), s.put lines)
  | .flush c => flushNext cfg s s.place c

/-- The interleavings of the sink's threads. -/
def sink (cfg : InfluxConfig) : Process (SinkState ρ) (SinkEvent ρ) (SinkChoice ρ) where
  next := sinkNext cfg

end Anolis.Telemetry
