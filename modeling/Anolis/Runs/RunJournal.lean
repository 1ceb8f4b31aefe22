import Anolis.Lib.Process
import Anolis.Lib.RecordLog
import Anolis.Runs.RunTypes
import Mathlib.Logic.Function.Basic

/-!
# The run journal

`RunJournal` (`core/runs/run_journal.cpp`) keeps the runs in `index.jsonl`, one record a line, and
the events of each run in a file of its own. The index in memory is rebuilt from the file by
`initialize`: of the records of one run the last counts.

The functions are those of the source, from what is in memory and on disk to what is there
afterwards. How far each append gets, what the clock shows and the random part of a run's id are
arguments. An append can end the process (`Outcome.killed`), and `dump` throws on a string that is
not UTF-8 (`Outcome.threw`). Each function also says which appends it made (`Attempt`).

Each of them runs under `mutex_`, so a step of the system (`journal`) is one whole function. The
exceptions are `record_mode_change`, which asks for the open run and appends to it under two locks,
and the writer, which takes an event from the queue and persists it under two locks. A process that
ended can be started again (`initializeJournal`), and the machine can lose power at any time.
-/

namespace Anolis.Runs

open Lib Lib.Json Lib.RecordLog

variable {F : Type}

/-! ### What is on disk and in memory -/

structure JournalConfig where
  runtimeName : Bytes
  pollingIntervalMs : Int32
  /-- `ANOLIS_VERSION`. -/
  version : Bytes
  /-- The directory `runs` under the data directory. -/
  runsPath : Bytes

def JournalConfig.indexPath (cfg : JournalConfig) : Bytes := cfg.runsPath ++ ascii "/index.jsonl"

def JournalConfig.eventsPath (cfg : JournalConfig) (runId : Bytes) : Bytes :=
  cfg.runsPath ++ ascii "/" ++ runId ++ ascii ".events.jsonl"

/-- The directory `runs`. -/
structure RunsDir where
  index : Option LogFile := none
  /-- The event stream of each run. -/
  events : Bytes → Option LogFile := fun _ => none

/-- The directory after it was synced. -/
def RunsDir.synced (dir : RunsDir) : RunsDir where
  index := dir.index.map .link
  events runId := (dir.events runId).map .link

/-- The records that a reader of the index finds. -/
def RunsDir.runRecords (fl : FloatCodec F) (dir : RunsDir) : List (Run F) :=
  recordsOf (readRun fl) dir.index

/-- The events that a reader of a stream finds. -/
def RunsDir.eventRecords (fl : FloatCodec F) (dir : RunsDir) (runId : Bytes) : List (RunEvent F) :=
  recordsOf (readRunEvent fl) (dir.events runId)

/-- What the journal has in memory. -/
structure Memory (F : Type) where
  runs : Bytes → Option (Run F) := fun _ => none
  order : List Bytes := []
  openRunId : Option Bytes := none
  nextSeq : Bytes → Option UInt64 := fun _ => none

/-- What a function returns. -/
inductive Outcome (α : Type)
  | ok (a : α)
  | error (text : Bytes)
  | threw
  | killed

inductive Record (F : Type)
  | run (run : Run F)
  | event (event : RunEvent F)

/-- An append: its record, what the writer knows of it, and whether the whole text got into the
file. -/
structure Attempt (F : Type) where
  record : Record F
  result : AppendResult
  whole : Bool

/-- What a function under the lock leaves. -/
structure Section (F α : Type) where
  mem : Memory F
  dir : RunsDir
  outcome : Outcome α
  attempts : List (Attempt F) := []

/-! ### Appending -/

/-- The directory with another index. -/
def RunsDir.setIndex (dir : RunsDir) (append : Append) : RunsDir :=
  let dir' := { dir with index := append.file }
  if append.dirSynced then dir'.synced else dir'

/-- The directory with another stream. -/
def RunsDir.setEvents (dir : RunsDir) (runId : Bytes) (append : Append) : RunsDir :=
  let dir' := { dir with events := Function.update dir.events runId append.file }
  if append.dirSynced then dir'.synced else dir'

/-- `append_record`. -/
def appendRecord (cfg : JournalConfig) (fl : FloatCodec F) (run : Run F) (fate : AppendFate)
    (mem : Memory F) (dir : RunsDir) : Section F Unit :=
  let append := appendLine (run.line fl) fate dir.index
  { mem
    dir := dir.setIndex append
    attempts := [⟨.run run, append.result, append.whole⟩]
    outcome :=
      match append.result with
      | .ok => .ok ()
      | .cannotOpen => .error (ascii "cannot open run log for append: " ++ cfg.indexPath)
      | .writeFailed => .error (ascii "failed to write run record to " ++ cfg.indexPath)
      | .syncFailed => .error (ascii "failed to sync run record to storage: " ++ cfg.indexPath)
      | .dirSyncFailed => .error (ascii "failed to sync run data dir " ++ cfg.runsPath)
      | .threw => .threw
      | .killed => .killed }

/-- How far the append of an event gets, and what the clock shows before it. -/
structure EventIo where
  fate : AppendFate := .ok
  now : UInt64
  recordedAt : UInt64

def maxSequence (events : List (RunEvent F)) : UInt64 :=
  events.foldl (fun max event => if max < event.sequence then event.sequence else max) 0

/-- The sequence of the next event. One that is not in memory is restored from the stream. -/
def nextSequence (fl : FloatCodec F) (mem : Memory F) (dir : RunsDir) (runId : Bytes) : UInt64 :=
  match mem.nextSeq runId with
  | some seq => seq
  | none => maxSequence (dir.eventRecords fl runId) + 1

/-- The event that `append_event_locked` appends. -/
def newEvent (fl : FloatCodec F) (runId : Bytes) (category : RunEventCategory) (type : Bytes)
    (payload : Value F) (occurredAt : UInt64) (io : EventIo) (mem : Memory F) (dir : RunsDir) :
    RunEvent F where
  runId
  sequence := nextSequence fl mem dir runId
  category
  type
  occurredAtEpochMs := if occurredAt ≠ 0 then occurredAt else io.now
  recordedAtEpochMs := io.recordedAt
  payload := if isObject payload.1 then payload else emptyObject

/-- Is the line in the file as far as the writer knows. -/
def AppendResult.spent : AppendResult → Bool
  | .ok | .syncFailed | .dirSyncFailed => true
  | _ => false

/-- `append_event_locked`. -/
def appendEventLocked (cfg : JournalConfig) (fl : FloatCodec F) (runId : Bytes)
    (category : RunEventCategory) (type : Bytes) (payload : Value F) (occurredAt : UInt64)
    (io : EventIo) (mem : Memory F) (dir : RunsDir) : Section F (RunEvent F) :=
  let event := newEvent fl runId category type payload occurredAt io mem dir
  let append := appendLine (event.line fl) io.fate (dir.events runId)
  { -- the sequence is spent whether or not the sync succeeds
    mem :=
      if AppendResult.spent append.result then
        { mem with nextSeq := Function.update mem.nextSeq runId (some (event.sequence + 1)) }
      else mem
    dir := dir.setEvents runId append
    attempts := [⟨.event event, append.result, append.whole⟩]
    outcome :=
      match append.result with
      | .ok => .ok event
      | .cannotOpen =>
        .error (ascii "cannot open run event log for append: " ++ cfg.eventsPath runId)
      | .writeFailed => .error (ascii "failed to write run event to " ++ cfg.eventsPath runId)
      | .syncFailed =>
        .error (ascii "failed to sync run event to storage: " ++ cfg.eventsPath runId)
      | .dirSyncFailed => .error (ascii "failed to sync run data dir " ++ cfg.runsPath)
      | .threw => .threw
      | .killed => .killed }

/-! ### Opening and closing -/

/-- `mint_run_id`. The ULID is the argument. -/
def mintRunId (cfg : JournalConfig) (ulid : Bytes) : Bytes := cfg.runtimeName ++ ascii "-" ++ ulid

structure OpenIo where
  ulid : Bytes
  now : UInt64
  record : AppendFate := .ok
  event : EventIo

/-- The record that `open` writes. -/
def openedRun (cfg : JournalConfig) (spec : RunOpenSpec F)
    (version : Option AutomationVersionRecord)
    (io : OpenIo) : Run F where
  runId := mintRunId cfg io.ulid
  label := spec.label
  state := .opened
  startedAtEpochMs := io.now
  automationVersion := version
  runtimeVersion := cfg.version
  pollingIntervalMs := cfg.pollingIntervalMs
  params := spec.params
  tagScope := spec.tagScope

/-- The memory with a run that was opened. -/
def Memory.addOpen (mem : Memory F) (run : Run F) : Memory F :=
  { mem with
    runs := Function.update mem.runs run.runId (some run)
    order := mem.order ++ [run.runId]
    openRunId := some run.runId }

/-- The outcome of a section that goes on after another whose error is only logged. -/
def Outcome.andThen {α β : Type} : Outcome α → Outcome β → Outcome β
  | .killed, _ => .killed
  | .threw, _ => .threw
  | _, outcome => outcome

/-- `open`. -/
def openRun (cfg : JournalConfig) (fl : FloatCodec F) (spec : RunOpenSpec F)
    (version : Option AutomationVersionRecord) (io : OpenIo) (mem : Memory F) (dir : RunsDir) :
    Section F (Run F) :=
  match mem.openRunId with
  | some runId =>
    { mem, dir
      outcome := .error (ascii "a run is already open: " ++ runId ++
        ascii " (one open run per runtime)") }
  | none =>
    let run := openedRun cfg spec version io
    let record := appendRecord cfg fl run io.record mem dir
    match record.outcome with
    | .ok () =>
      let event := appendEventLocked cfg fl run.runId .runOpened [] emptyObject
        run.startedAtEpochMs io.event (mem.addOpen run) record.dir
      { event with
        outcome := event.outcome.andThen (.ok run)
        attempts := record.attempts ++ event.attempts }
    | .error text => { record with outcome := .error text }
    | .threw => { record with outcome := .threw }
    | .killed => { record with outcome := .killed }

structure CloseIo where
  now : UInt64
  record : AppendFate := .ok
  event : EventIo

/-- The record of a run that is closed. -/
def Run.close (run : Run F) (reason : CloseReason) (now : UInt64) : Run F :=
  { run with state := .closed, closeReason := some reason, endedAtEpochMs := some now }

/-- The memory after the last event of a run. -/
def Memory.seal (mem : Memory F) (runId : Bytes) : Memory F :=
  { mem with
    nextSeq := Function.update mem.nextSeq runId none
    openRunId := if mem.openRunId = some runId then none else mem.openRunId }

/-- The record of a run is another one. -/
def Memory.setRun (mem : Memory F) (run : Run F) : Memory F :=
  { mem with runs := Function.update mem.runs run.runId (some run) }

/-- `close`. -/
def closeRun (cfg : JournalConfig) (fl : FloatCodec F) (runId : Bytes) (reason : CloseReason)
    (io : CloseIo) (mem : Memory F) (dir : RunsDir) : Section F (Run F) :=
  match mem.runs runId with
  | none => { mem, dir, outcome := .error (ascii "unknown run: " ++ runId) }
  | some run =>
    -- idempotent
    if run.state = .closed then { mem, dir, outcome := .ok run }
    else
      let updated := run.close reason io.now
      let record := appendRecord cfg fl updated io.record mem dir
      match record.outcome with
      | .ok () =>
        let event := appendEventLocked cfg fl runId .runClosed reason.toString emptyObject
          io.now io.event (mem.setRun updated) record.dir
        { mem :=
            match event.outcome with
            | .threw | .killed => event.mem
            | _ => event.mem.seal runId
          dir := event.dir
          outcome := event.outcome.andThen (.ok updated)
          attempts := record.attempts ++ event.attempts }
      | .error text => { record with outcome := .error text }
      | .threw => { record with outcome := .threw }
      | .killed => { record with outcome := .killed }

/-- `append_event`. -/
def appendEvent (cfg : JournalConfig) (fl : FloatCodec F) (runId : Bytes)
    (category : RunEventCategory) (type : Bytes) (payload : Value F) (occurredAt : UInt64)
    (io : EventIo) (mem : Memory F) (dir : RunsDir) : Section F (RunEvent F) :=
  match mem.runs runId with
  | none => { mem, dir, outcome := .error (ascii "unknown run: " ++ runId) }
  | some run =>
    if run.state = .closed then
      { mem, dir
        outcome := .error (ascii "run is closed (events are immutable): " ++ runId) }
    else appendEventLocked cfg fl runId category type payload occurredAt io mem dir

/-- `list_events`: a page of a stream. -/
def listEvents (fl : FloatCodec F) (dir : RunsDir) (runId : Bytes) (limit offset : Nat) :
    List (RunEvent F) :=
  ((dir.eventRecords fl runId).drop offset).take limit

/-! ### Starting -/

/-- A record of the index is replayed: later ones supersede earlier ones. -/
def Memory.replay (mem : Memory F) (run : Run F) : Memory F :=
  { mem.setRun run with
    order := if (mem.runs run.runId).isNone then mem.order ++ [run.runId] else mem.order }

/-- The index in memory after the records of the file. -/
def replayAll (records : List (Run F)) : Memory F := records.foldl Memory.replay {}

/-- `nlohmann::json{{"recovery", true}}`. -/
def recoveryPayload : Value F :=
  ⟨.object [(ascii "recovery", .bool true)], .object (by simp) (by simpa using .bool true)⟩

structure RecoveryIo where
  now : UInt64
  record : AppendFate := .ok
  event : EventIo

/-- The body of the loop in `initialize`: a run that a prior process left open is closed. -/
def recoverRun (cfg : JournalConfig) (fl : FloatCodec F) (runId : Bytes) (run : Run F)
    (io : RecoveryIo) (mem : Memory F) (dir : RunsDir) : Section F Unit :=
  let updated := run.close .abandoned io.now
  let record := appendRecord cfg fl updated io.record (mem.setRun updated) dir
  match record.outcome with
  | .ok () =>
    let event := appendEventLocked cfg fl runId .runClosed (ascii "abandoned") recoveryPayload
      io.now io.event record.mem record.dir
    { mem := { event.mem with nextSeq := Function.update event.mem.nextSeq runId none }
      dir := event.dir
      -- an error is only logged
      outcome := event.outcome.andThen (.ok ())
      attempts := record.attempts ++ event.attempts }
  | .error text =>
    { record with outcome := .error (ascii "failed to persist abandoned-run recovery: " ++ text) }
  | _ => record

/-- The loop over the runs of the index. -/
def recover (cfg : JournalConfig) (fl : FloatCodec F) (io : Bytes → RecoveryIo) :
    List Bytes → Memory F → RunsDir → Section F Unit
  | [], mem, dir => { mem, dir, outcome := .ok () }
  | runId :: rest, mem, dir =>
    match mem.runs runId with
    | none => recover cfg fl io rest mem dir
    | some run =>
      if run.state = .opened then
        let one := recoverRun cfg fl runId run (io runId) mem dir
        match one.outcome with
        | .ok () =>
          let others := recover cfg fl io rest one.mem one.dir
          { others with attempts := one.attempts ++ others.attempts }
        | _ => one
      else recover cfg fl io rest mem dir

structure InitializeIo where
  /-- The error of `create_directories`. -/
  createError : Option Bytes := none
  recovery : Bytes → RecoveryIo

/-- `RunJournal::initialize`. -/
def initializeJournal (cfg : JournalConfig) (fl : FloatCodec F) (io : InitializeIo)
    (dir : RunsDir) :
    Section F Unit :=
  match io.createError with
  | some message =>
    { mem := {}, dir
      outcome := .error (ascii "failed to create run data dir " ++ cfg.runsPath ++ ascii ": " ++
        message) }
  | none =>
    let mem := replayAll (dir.runRecords fl)
    recover cfg fl io.recovery mem.order mem dir

/-! ### The queue -/

/-- `kMaxFaultQueue`. -/
def maxFaultQueue : Nat := 512

/-- An event from the tick thread. Its ticket says as which one it was queued. -/
structure QueuedEvent (F : Type) where
  category : RunEventCategory
  type : Bytes
  payload : Value F
  occurredAt : UInt64
  ticket : Nat

/-- `nlohmann::json{{"message", message}}`. -/
def messagePayload (message : Bytes) : Value F :=
  ⟨.object [(ascii "message", .string message)], .object (by simp) (by simpa using .string message)⟩

theorem modeKeys_sorted : ([ascii "new_mode", ascii "previous_mode"] : List Bytes).Pairwise
    (· < ·) := by
  decide

/-- The payload of a mode change. -/
def modePayload (previousMode newMode : Bytes) : Value F :=
  ⟨.object [(ascii "new_mode", .string newMode), (ascii "previous_mode", .string previousMode)],
    .object modeKeys_sorted (by
      simp only [List.forall_mem_cons]
      exact ⟨.string newMode, .string previousMode, List.forall_mem_nil _⟩)⟩

/-- A journal of a running process. -/
structure Live (F : Type) where
  mem : Memory F
  queue : List (QueuedEvent F) := []
  /-- The event that the writer took. -/
  inHand : Option (QueuedEvent F) := none
  /-- The mode changes whose thread knows the open run and has not appended to it. -/
  changing : List (Bytes × Value F) := []
  eventsDropped : Nat := 0

/-- `enqueue_event`. -/
def Live.enqueueEvent (live : Live F) (event : QueuedEvent F) : Live F :=
  if live.queue.length ≥ maxFaultQueue then { live with eventsDropped := live.eventsDropped + 1 }
  else { live with queue := live.queue ++ [event] }

/-! ### The system -/

/-- What a power loss does to a file. -/
structure FileLoss where
  /-- Is an entry that is not on storage there afterwards. -/
  entryKept : Bool
  /-- What is in the place of the bytes that are not on storage. -/
  tail : Bytes := []

def FileLoss.apply (loss : FileLoss) (file : Option LogFile) : Option LogFile :=
  file.bind fun f => if f.linked || loss.entryKept then some (f.afterLoss loss.tail) else none

structure PowerLoss where
  index : FileLoss
  events : Bytes → FileLoss

def RunsDir.afterLoss (dir : RunsDir) (loss : PowerLoss) : RunsDir where
  index := loss.index.apply dir.index
  events runId := (loss.events runId).apply (dir.events runId)

/-- The machine: its disk, the ids that were minted, how many events were queued, and the journal of
the process if one runs. -/
structure JournalState (F : Type) where
  dir : RunsDir := {}
  minted : List Bytes := []
  queued : Nat := 0
  live : Option (Live F) := none

/-- What can happen next. -/
inductive JournalChoice (F : Type)
  -- a process starts
  | start (io : InitializeIo)
  -- the process ends
  | exit
  | powerLoss (loss : PowerLoss)
  | openRun (spec : RunOpenSpec F) (version : Option AutomationVersionRecord) (io : OpenIo)
  | closeRun (runId : Bytes) (reason : CloseReason) (io : CloseIo)
  | appendEvent (runId : Bytes) (category : RunEventCategory) (type : Bytes) (payload : Value F)
      (occurredAt : UInt64) (io : EventIo)
  | enqueueFault (locus message : Bytes) (occurredAt : UInt64)
  | recordModeChange (previousMode newMode : Bytes) (fromTickThread : Bool) (now : UInt64)
  -- the thread of a mode change appends it
  | appendModeChange (i : Nat) (io : EventIo)
  -- the writer takes an event from the queue
  | take
  -- the writer persists the event that it took
  | persist (io : EventIo)

/-- What a call gives. -/
inductive Answer (F : Type)
  | run (run : Run F)
  | event (event : RunEvent F)
  | nothing

/-- A step: what was called, what came of it, and its appends. -/
structure JournalLabel (F : Type) where
  choice : JournalChoice F
  outcome : Outcome (Answer F) := .ok .nothing
  attempts : List (Attempt F) := []

def Outcome.map {α β : Type} (f : α → β) : Outcome α → Outcome β
  | .ok a => .ok (f a)
  | .error text => .error text
  | .threw => .threw
  | .killed => .killed

/-- The state after a function under the lock. -/
def JournalState.settle {α : Type} (s : JournalState F) (live : Live F) (out : Section F α) :
    JournalState F :=
  { s with
    dir := out.dir
    live :=
      match out.outcome with
      | .killed => none
      | _ => some { live with mem := out.mem } }

/-- The state after the writer persisted an event. An exception of its thread ends the process. -/
def JournalState.settleWriter {α : Type} (s : JournalState F) (live : Live F) (out : Section F α) :
    JournalState F :=
  match out.outcome with
  | .threw => { s.settle live out with live := none }
  | _ => s.settle live out

/-- The step of a call on a running process. -/
def callNext (cfg : JournalConfig) (fl : FloatCodec F) (s : JournalState F) (live : Live F)
    (choice : JournalChoice F) : Option (JournalLabel F × JournalState F) :=
  match choice with
  | .openRun spec version io =>
    let out := openRun cfg fl spec version io live.mem s.dir
    let runId := mintRunId cfg io.ulid
    -- no id is minted twice, and none that the journal knows
    if live.mem.openRunId.isNone ∧ (runId ∈ s.minted ∨ (live.mem.runs runId).isSome) then none
    else
      some (⟨choice, out.outcome.map .run, out.attempts⟩, { s.settle live out with
          minted := if live.mem.openRunId.isSome then s.minted else runId :: s.minted })
  | .closeRun runId reason io =>
    let out := closeRun cfg fl runId reason io live.mem s.dir
    some (⟨choice, out.outcome.map .run, out.attempts⟩, s.settle live out)
  | .appendEvent runId category type payload occurredAt io =>
    let out := appendEvent cfg fl runId category type payload occurredAt io live.mem s.dir
    some (⟨choice, out.outcome.map .event, out.attempts⟩, s.settle live out)
  | .enqueueFault locus message occurredAt =>
    let event : QueuedEvent F :=
      ⟨.automationFault, locus, messagePayload message, occurredAt, s.queued⟩
    some ({ choice }, { s with live := live.enqueueEvent event, queued := s.queued + 1 })
  | .recordModeChange previousMode newMode fromTickThread now =>
    let payload := modePayload previousMode newMode
    if fromTickThread then
      let event : QueuedEvent F := ⟨.modeChange, [], payload, now, s.queued⟩
      some ({ choice }, { s with live := live.enqueueEvent event, queued := s.queued + 1 })
    else
      match live.mem.openRunId with
      | some runId =>
        some ({ choice }, { s with live := some { live with
          changing := live.changing ++ [(runId, payload)] } })
      | none => some ({ choice }, s)
  | .appendModeChange i io =>
    (live.changing[i]?).map fun change =>
      let out := appendEvent cfg fl change.1 .modeChange [] change.2 0 io live.mem s.dir
      (⟨choice, out.outcome.map .event, out.attempts⟩,
        s.settle { live with changing := live.changing.eraseIdx i } out)
  | .take =>
    match live.inHand, live.queue with
    | none, event :: queue => some ({ choice }, { s with live := some { live with
        queue, inHand := some event } })
    | _, _ => none
  | .persist io =>
    match live.inHand, live.mem.openRunId with
    | none, _ => none
    | some event, none =>
      -- no run to attribute a fault to
      some ({ choice }, { s with live := some { live with
        inHand := none
        eventsDropped :=
          if event.category = .automationFault then live.eventsDropped + 1
          else live.eventsDropped } })
    | some event, some runId =>
      let out := appendEventLocked cfg fl runId event.category event.type event.payload
        event.occurredAt io live.mem s.dir
      some (⟨choice, out.outcome.map .event, out.attempts⟩,
        s.settleWriter { live with inHand := none } out)
  | .start _ | .exit | .powerLoss _ => none

/-- The step of the machine. -/
def journalNext (cfg : JournalConfig) (fl : FloatCodec F) (s : JournalState F)
    (choice : JournalChoice F) : Option (JournalLabel F × JournalState F) :=
  match choice, s.live with
  | .powerLoss loss, _ =>
    some ({ choice }, { s with dir := s.dir.afterLoss loss, live := none })
  | .start io, none =>
    let out := initializeJournal cfg fl io s.dir
    some (⟨choice, out.outcome.map fun _ => .nothing, out.attempts⟩, { s with
        dir := out.dir
        live :=
          match out.outcome with
          | .ok () => some { mem := out.mem }
          | _ => none })
  | .exit, some _ => some ({ choice }, { s with live := none })
  | choice, some live => callNext cfg fl s live choice
  | _, none => none

/-- The machine with the journal on it. -/
def journal (cfg : JournalConfig) (fl : FloatCodec F) :
    Process (JournalState F) (JournalLabel F) (JournalChoice F) where
  next := journalNext cfg fl

/-- A trace of the journal. -/
abbrev JournalTrace (F : Type) := Trace (JournalState F) (JournalLabel F)

end Anolis.Runs
