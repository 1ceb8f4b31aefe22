import Anolis.Runs.RunJournal

/-!
# What is read from the run journal

What a reader finds in the files of the journal, whatever became of the appends to them.

* `Steps.wrote`: a step adds to the index and to the streams exactly the records whose whole text
  its appends got into the files, and in their order. A torn line that an earlier append left
  changes no record before it or after it.
* `replayAll_runs`: what `initialize` has in memory of the records of the index.

The base is `records_appendLine` of `Lib.RecordLog`. It needs of a record's text that it is no
longer one when its end is missing (`framed_run`, `framed_event`).
-/

namespace Anolis.Proofs.JournalReads

open Lib Lib.Json Lib.RecordLog Runs

variable {F : Type} {cfg : JournalConfig} {fl : FloatCodec F} {choice : JournalChoice F}

/-! ### Lines -/

variable {α : Type} {text : Bytes}

/-- The text of an object is a record, and what is left of it without its end is none. -/
theorem framed_dump {fields : List (Bytes × Json F)} {r : α}
    {decode : Value F → Option α} (hv : Json.Storable (.object fields))
    (hdump : Json.dump fl.toFloatFormat (.object fields) = some text)
    (hdecode : decode (Value.reread fl.toFloatFormat ⟨.object fields, hv⟩) = some r) :
    Framed (fun line => (Value.parse fl.toFloatFormat line).bind decode) text r := by
  have hparse := Json.parse_dump fl hv hdump
  have hvalue : Value.parse fl.toFloatFormat text =
      some (Value.reread fl.toFloatFormat ⟨.object fields, hv⟩) := Value.parse_eq_some.mpr hparse
  refine ⟨fun hmem => ?_, ?_, ?_, fun p hp hne => ?_⟩
  · -- a line break is no printable byte
    have hall := List.all_eq_true.mp (Json.printable_dump fl hv hdump) newline hmem
    exact absurd hall (by decide)
  · rintro rfl
    cases hparse
  · rw [hvalue]
    exact hdecode
  · rw [Value.parse_eq_none.mpr (Json.parse_cut fl hv hdump hp hne)]
    rfl

variable {run : Run F}

theorem framed_run (h : run.line fl = some text) :
    Framed (readRun fl) text (run.reread fl.toFloatFormat) :=
  framed_dump run.storable h (runFromJson_toJson fl run)

theorem framed_event {event : RunEvent F} (h : event.line fl = some text) :
    Framed (readRunEvent fl) text (event.reread fl.toFloatFormat) :=
  framed_dump event.storable h (runEventFromJson_toJson fl event)

/-! ### What the appends of a function wrote -/

/-- The runs whose whole text got into the index. -/
def writtenRuns (attempts : List (Attempt F)) : List (Run F) :=
  attempts.filterMap fun attempt =>
    match attempt.record with
    | .run run => if attempt.whole then some run else none
    | .event _ => none

/-- The events of a run whose whole text got into its stream. -/
def writtenEvents (attempts : List (Attempt F)) (runId : Bytes) : List (RunEvent F) :=
  attempts.filterMap fun attempt =>
    match attempt.record with
    | .run _ => none
    | .event event => if attempt.whole && event.runId = runId then some event else none

/-- From one directory to the next a reader finds what the appends wrote, and nothing of the index
is lost. -/
structure Wrote (fl : FloatCodec F) (attempts : List (Attempt F)) (dir dir' : RunsDir) : Prop where
  runs : dir'.runRecords fl =
    dir.runRecords fl ++ (writtenRuns attempts).map (Run.reread fl.toFloatFormat)
  events : ∀ runId, dir'.eventRecords fl runId =
    dir.eventRecords fl runId ++ (writtenEvents attempts runId).map
      (RunEvent.reread fl.toFloatFormat)
  index : ∀ f, dir.index = some f → ∃ f', dir'.index = some f' ∧ f.Extends f'
  /-- The texts of the runs could be made. -/
  texts : ∀ run ∈ writtenRuns attempts, Json.isUtf8 run.toJson

theorem Wrote.refl (dir : RunsDir) : Wrote fl [] dir dir :=
  ⟨(List.append_nil _).symm, fun _ => (List.append_nil _).symm, fun f h => ⟨f, h, .refl f⟩,
    fun _ h => nomatch h⟩

theorem Wrote.trans {first second : List (Attempt F)} {dir dir' dir'' : RunsDir}
    (h : Wrote fl first dir dir') (h' : Wrote fl second dir' dir'') :
    Wrote fl (first ++ second) dir dir'' where
  runs := by
    rw [h'.runs, h.runs, List.append_assoc, ← List.map_append, writtenRuns, writtenRuns,
      writtenRuns,
      List.filterMap_append]
  events runId := by
    rw [h'.events, h.events, List.append_assoc, ← List.map_append, writtenEvents, writtenEvents,
      writtenEvents, List.filterMap_append]
  index f hf := by
    obtain ⟨f', hf', hext⟩ := h.index f hf
    obtain ⟨f'', hf'', hext'⟩ := h'.index f' hf'
    exact ⟨f'', hf'', hext.trans hext'⟩
  texts run hrun := by
    rw [writtenRuns, List.filterMap_append] at hrun
    rcases List.mem_append.mp hrun with hrun | hrun
    · exact h.texts run hrun
    · exact h'.texts run hrun

/-! A sync of the directory changes nothing that is read. -/

theorem recordsOf_link (decode : Bytes → Option α) (file : Option LogFile) :
    recordsOf decode (file.map .link) = recordsOf decode file := by
  cases file <;> rfl

theorem link_extends (f : LogFile) : f.Extends f.link :=
    ⟨List.prefix_rfl, Nat.le_refl _, fun _ => rfl⟩

theorem runRecords_setIndex (dir : RunsDir) (append : Append) :
    (dir.setIndex append).runRecords fl = recordsOf (readRun fl) append.file := by
  unfold RunsDir.setIndex
  dsimp only
  split
  · exact recordsOf_link _ _
  · rfl

theorem eventRecords_setIndex (dir : RunsDir) (append : Append) (runId : Bytes) :
    (dir.setIndex append).eventRecords fl runId = dir.eventRecords fl runId := by
  unfold RunsDir.setIndex
  dsimp only
  split
  · exact recordsOf_link _ _
  · rfl

theorem runRecords_setEvents (dir : RunsDir) (runId : Bytes) (append : Append) :
    (dir.setEvents runId append).runRecords fl = dir.runRecords fl := by
  unfold RunsDir.setEvents
  dsimp only
  split
  · exact recordsOf_link _ _
  · rfl

theorem eventRecords_setEvents (dir : RunsDir) (runId : Bytes) (append : Append) (other : Bytes) :
    (dir.setEvents runId append).eventRecords fl other =
      if other = runId then recordsOf (readRunEvent fl) append.file else dir.eventRecords fl
        other := by
  have hupdate : recordsOf (readRunEvent fl) (Function.update dir.events runId append.file other) =
      if other = runId then recordsOf (readRunEvent fl) append.file
      else dir.eventRecords fl other := by
    rw [Function.update_apply]
    split <;> rfl
  rw [← hupdate]
  unfold RunsDir.setEvents
  dsimp only
  split
  · exact recordsOf_link _ _
  · rfl

theorem index_setIndex (dir : RunsDir) {append : Append} {f : LogFile} (h : append.file = some f) :
    ∃ f', (dir.setIndex append).index = some f' ∧ f.Extends f' ∧ f'.content = f.content ∧
      f'.synced = f.synced := by
  unfold RunsDir.setIndex
  dsimp only
  split
  · exact ⟨f.link, by simp [RunsDir.synced, h], link_extends f, rfl, rfl⟩
  · exact ⟨f, h, .refl f, rfl, rfl⟩

theorem index_setEvents {dir : RunsDir} {runId : Bytes} {append : Append} {f : LogFile}
    (h : dir.index = some f) :
    ∃ f', (dir.setEvents runId append).index = some f' ∧ f.Extends f' ∧ f'.content = f.content ∧
      f'.synced = f.synced := by
  unfold RunsDir.setEvents
  dsimp only
  split
  · exact ⟨f.link, by simp [RunsDir.synced, h], link_extends f, rfl, rfl⟩
  · exact ⟨f, h, .refl f, rfl, rfl⟩

/-! ### The functions of the journal -/

theorem wrote_appendRecord (cfg : JournalConfig) (run : Run F) (fate : AppendFate) (mem : Memory F)
    (dir : RunsDir) : Wrote fl (appendRecord cfg fl run fate mem dir).attempts dir
      (appendRecord cfg fl run fate mem dir).dir where
  runs := by
    have hrecords : recordsOf (readRun fl) (appendLine (run.line fl) fate dir.index).file =
        dir.runRecords fl ++ if (appendLine (run.line fl) fate dir.index).whole then
          [run.reread fl.toFloatFormat] else [] :=
      records_appendLine fun t ht => framed_run ht
    rw [appendRecord, runRecords_setIndex, hrecords]
    cases hwhole : (appendLine (run.line fl) fate dir.index).whole <;> simp [writtenRuns]
  events runId := by
    rw [appendRecord, eventRecords_setIndex]
    exact (List.append_nil _).symm
  index f hf := by
    obtain ⟨f₁, hfile, hext⟩ := appendLine_extends (run.line fl) fate hf
    obtain ⟨f₂, hindex, hext', -⟩ := index_setIndex dir hfile
    exact ⟨f₂, hindex, hext.trans hext'⟩
  texts written hwritten := by
    cases hwhole : (appendLine (run.line fl) fate dir.index).whole with
    | true =>
      have hone : written = run := by simpa [appendRecord, writtenRuns, hwhole] using hwritten
      rw [hone]
      exact (run.line_isSome fl).mp (appendLine_text hwhole)
    | false => simp [appendRecord, writtenRuns, hwhole] at hwritten

theorem writtenRuns_append (first second : List (Attempt F)) :
    writtenRuns (first ++ second) = writtenRuns first ++ writtenRuns second :=
  List.filterMap_append

theorem appendRecord_written (cfg : JournalConfig) (fl : FloatCodec F) (run : Run F)
    (fate : AppendFate) (mem : Memory F) (dir : RunsDir) :
    writtenRuns (appendRecord cfg fl run fate mem dir).attempts = [] ∨
    writtenRuns (appendRecord cfg fl run fate mem dir).attempts = [run] := by
  cases hwhole : (appendLine (run.line fl) fate dir.index).whole with
  | true => exact .inr (by simp [appendRecord, writtenRuns, hwhole])
  | false => exact .inl (by simp [appendRecord, writtenRuns, hwhole])

section
variable {fate : AppendFate} {mem : Memory F} {dir : RunsDir}
  (h : (appendRecord cfg fl run fate mem dir).outcome = .ok ())
include h

theorem appendRecord_result : (appendLine (run.line fl) fate dir.index).result = .ok := by
  unfold appendRecord at h
  dsimp only at h
  split at h <;> first | assumption | cases h

theorem appendRecord_ok : writtenRuns (appendRecord cfg fl run fate mem dir).attempts = [run] := by
  have hwhole := (appendLine_ok (appendRecord_result h)).1
  simp [appendRecord, writtenRuns, hwhole]

theorem appendRecord_runRecords : (appendRecord cfg fl run fate mem dir).dir.runRecords fl =
      dir.runRecords fl ++ [run.reread fl.toFloatFormat] := by
  rw [(wrote_appendRecord cfg run fate mem dir).runs, appendRecord_ok h]
  rfl

end

/-! ### Events -/

/-- What an event is made of, and what its append meets. -/
structure Entry (F : Type) where
  runId : Bytes
  category : RunEventCategory
  type : Bytes
  payload : Value F
  occurredAt : UInt64
  io : EventIo

section
variable (entry : Entry F) (cfg : JournalConfig) (fl : FloatCodec F) (mem : Memory F)
  (dir : RunsDir)

/-- The event that is appended. -/
def Entry.event : RunEvent F :=
  newEvent fl entry.runId entry.category entry.type entry.payload entry.occurredAt entry.io mem dir

/-- What becomes of its line. -/
def Entry.line : Append :=
  appendLine ((entry.event fl mem dir).line fl) entry.io.fate (dir.events entry.runId)

/-- Its append. -/
def Entry.append : Section F (RunEvent F) :=
  appendEventLocked cfg fl entry.runId entry.category entry.type entry.payload entry.occurredAt
    entry.io mem dir

/-- What the outcome says of the line. -/
theorem Entry.append_cases : ((entry.line fl mem dir).result = .ok ∧
      (entry.append cfg fl mem dir).outcome = .ok (entry.event fl mem dir)) ∨
    ((entry.line fl mem dir).result = .threw ∧ (entry.append cfg fl mem dir).outcome = .threw) ∨
    ((entry.line fl mem dir).result = .killed ∧ (entry.append cfg fl mem dir).outcome = .killed) ∨
    ∃ text, (entry.append cfg fl mem dir).outcome = .error text := by
  unfold Entry.append appendEventLocked Entry.line Entry.event
  dsimp only
  split <;> simp_all

/-- The memory after an event: only the counter of the run can be another one. -/
theorem Entry.append_mem : (entry.append cfg fl mem dir).mem = mem ∨
    ∃ seq, (entry.append cfg fl mem dir).mem =
      { mem with nextSeq := Function.update mem.nextSeq entry.runId (some seq) } := by
  unfold Entry.append appendEventLocked
  dsimp only
  split
  · exact .inr ⟨_, rfl⟩
  · exact .inl rfl

@[simp] theorem Entry.append_runs : (entry.append cfg fl mem dir).mem.runs = mem.runs := by
  rcases entry.append_mem cfg fl mem dir with h | ⟨seq, h⟩ <;> rw [h]

@[simp] theorem Entry.append_openRunId :
    (entry.append cfg fl mem dir).mem.openRunId = mem.openRunId := by
  rcases entry.append_mem cfg fl mem dir with h | ⟨seq, h⟩ <;> rw [h]

theorem Entry.eventRecords (other : Bytes) :
    (entry.append cfg fl mem dir).dir.eventRecords fl other = dir.eventRecords fl other ++
        if other = entry.runId ∧ (entry.line fl mem dir).whole then
          [(entry.event fl mem dir).reread fl.toFloatFormat] else [] := by
  have hrecords : recordsOf (readRunEvent fl) (entry.line fl mem dir).file =
      dir.eventRecords fl entry.runId ++ if (entry.line fl mem dir).whole then
        [(entry.event fl mem dir).reread fl.toFloatFormat] else [] :=
    records_appendLine fun t ht => framed_event ht
  rw [show (entry.append cfg fl mem dir).dir = dir.setEvents entry.runId
    (entry.line fl mem dir) from
    rfl, eventRecords_setEvents, hrecords]
  rcases eq_or_ne other entry.runId with rfl | hother
  · simp
  · simp [hother]

theorem Entry.wrote : Wrote fl (entry.append cfg fl mem dir).attempts dir
    (entry.append cfg fl mem dir).dir where
  runs := (runRecords_setEvents dir _ _).trans (List.append_nil _).symm
  events other := by
    have hattempts : (entry.append cfg fl mem dir).attempts =
        [⟨.event (entry.event fl mem dir), (entry.line fl mem dir).result,
          (entry.line fl mem dir).whole⟩] := rfl
    have hid : (entry.event fl mem dir).runId = entry.runId := rfl
    rw [entry.eventRecords, hattempts]
    by_cases hother : other = entry.runId
    · cases hwhole : (entry.line fl mem dir).whole <;> simp [writtenEvents, hid, hother]
    · simp [writtenEvents, hid, hother, Ne.symm hother]
  index f hf := by
    obtain ⟨f', hindex, hext, -⟩ := index_setEvents hf
    exact ⟨f', hindex, hext⟩
  texts run hrun := nomatch hrun

@[simp] theorem Entry.append_runRecords :
    (entry.append cfg fl mem dir).dir.runRecords fl = dir.runRecords fl :=
  runRecords_setEvents dir _ _

end

/-! ### Transactions -/

/-- The record of a run, and behind it an event of that run. -/
structure Transaction (F : Type) where
  run : Run F
  fate : AppendFate
  entry : Entry F
  /-- The memory that stays where the record cannot be appended. -/
  kept : Memory F
  /-- The memory with the record. -/
  mem : Memory F
  /-- The run is no longer the open one after the event. -/
  seals : Bool := false

section
variable (t : Transaction F) (cfg : JournalConfig) (fl : FloatCodec F) (dir : RunsDir)

def Transaction.record : Section F Unit := appendRecord cfg fl t.run t.fate t.kept dir

def Transaction.event : Section F (RunEvent F) :=
  t.entry.append cfg fl t.mem (t.record cfg fl dir).dir

end

/-- The memory without the counter of a run. -/
structure Erased (runId : Bytes) (mem mem' : Memory F) : Prop where
  runs : mem'.runs = mem.runs
  openRunId : ∀ other, mem'.openRunId = some other → mem.openRunId = some other
  nextSeq : mem'.nextSeq = Function.update mem.nextSeq runId none

/-- What a function leaves that makes a transaction and answers with `answer`. -/
inductive Transacts (cfg : JournalConfig) (fl : FloatCodec F) (t : Transaction F) (dir : RunsDir)
    (answer : α) (out : Section F α) : Prop
  | stopped (hrecord : (t.record cfg fl dir).outcome ≠ .ok ()) (hmem : out.mem = t.kept)
      (hdir : out.dir = (t.record cfg fl dir).dir)
      (hattempts : out.attempts = (t.record cfg fl dir).attempts)
      (hfailed : ∀ a, out.outcome ≠ .ok a)
      (hkilled : (t.record cfg fl dir).outcome = .killed → out.outcome = .killed)
  | done (hrecord : (t.record cfg fl dir).outcome = .ok ())
      (hmem : out.mem = (t.event cfg fl dir).mem ∨
        Erased t.entry.runId (t.event cfg fl dir).mem out.mem)
      (hdir : out.dir = (t.event cfg fl dir).dir)
      (hattempts : out.attempts = (t.record cfg fl dir).attempts ++ (t.event cfg fl dir).attempts)
      (houtcome : out.outcome = (t.event cfg fl dir).outcome.andThen (.ok answer))
      (hopenRun : ∀ event, (t.event cfg fl dir).outcome = .ok event → out.mem.openRunId =
        (bif t.seals then (t.event cfg fl dir).mem.seal t.entry.runId
          else (t.event cfg fl dir).mem).openRunId)

section
variable {t : Transaction F} {dir : RunsDir} {answer : α} {out : Section F α} {w : Run F}
  (h : Transacts cfg fl t dir answer out)
include h

theorem Transacts.wrote : Wrote fl out.attempts dir out.dir := by
  cases h with
  | stopped _ _ hdir hattempts =>
    rw [hdir, hattempts]
    exact wrote_appendRecord ..
  | done _ _ hdir hattempts =>
    rw [hdir, hattempts]
    exact (wrote_appendRecord ..).trans (t.entry.wrote ..)

theorem Transacts.written (hw : w ∈ writtenRuns out.attempts) : w = t.run := by
  have hrecord : w ∈ writtenRuns (t.record cfg fl dir).attempts := by
    cases h with
    | stopped _ _ _ hattempts => exact hattempts ▸ hw
    | done _ _ _ hattempts =>
      rw [hattempts, writtenRuns_append] at hw
      exact (List.mem_append.mp hw).resolve_right fun hw => nomatch hw
  rcases appendRecord_written cfg fl t.run t.fate t.kept dir with hnone | hone
  · rw [show writtenRuns (t.record cfg fl dir).attempts = [] from hnone] at hrecord
    cases hrecord
  · rw [show writtenRuns (t.record cfg fl dir).attempts = [t.run] from hone] at hrecord
    exact List.mem_singleton.mp hrecord

/-- Where the record could be appended, it was written, and it is in memory. -/
theorem Transacts.recorded (hrecord : (t.record cfg fl dir).outcome = .ok ()) :
    writtenRuns out.attempts = [t.run] ∧ out.mem.runs = t.mem.runs ∧
    ∃ event, Wrote fl event (t.record cfg fl dir).dir out.dir := by
  cases h with
  | stopped hnot => exact absurd hrecord hnot
  | done _ hmem hdir hattempts =>
    refine ⟨?_, ?_, _, hdir ▸ t.entry.wrote cfg fl t.mem _⟩
    · rw [hattempts, writtenRuns_append]
      exact (List.append_nil _).trans (appendRecord_ok hrecord)
    · have hruns : (t.event cfg fl dir).mem.runs = t.mem.runs := t.entry.append_runs ..
      rcases hmem with hmem | hmem
      · rw [hmem, hruns]
      · rw [hmem.runs, hruns]

theorem Transacts.of_ok {a : α}
    (hok : out.outcome = .ok a) : a = answer ∧ (t.record cfg fl dir).outcome = .ok () := by
  cases h with
  | stopped _ _ _ _ hfailed => exact absurd hok (hfailed a)
  | done hrecord _ _ _ houtcome =>
    refine ⟨?_, hrecord⟩
    rw [houtcome] at hok
    revert hok
    cases (t.event cfg fl dir).outcome <;> simp [Outcome.andThen, eq_comm]

end

section
variable (cfg : JournalConfig) (runId : Bytes) (run : Run F) (mem : Memory F)

/-- What `open` does. -/
def opening (spec : RunOpenSpec F) (version : Option AutomationVersionRecord) (io : OpenIo) :
    Transaction F where
  run := openedRun cfg spec version io
  fate := io.record
  entry := ⟨mintRunId cfg io.ulid, .runOpened, [], emptyObject, io.now, io.event⟩
  kept := mem
  mem := mem.addOpen (openedRun cfg spec version io)

/-- What `close` does. -/
def closing (reason : CloseReason) (io : CloseIo) : Transaction F where
  run := run.close reason io.now
  fate := io.record
  entry := ⟨runId, .runClosed, reason.toString, emptyObject, io.now, io.event⟩
  kept := mem
  mem := mem.setRun (run.close reason io.now)
  seals := true

/-- What `initialize` does with a run that is open. -/
def recovering (io : RecoveryIo) : Transaction F where
  run := run.close .abandoned io.now
  fate := io.record
  entry := ⟨runId, .runClosed, ascii "abandoned", recoveryPayload, io.now, io.event⟩
  kept := mem.setRun (run.close .abandoned io.now)
  mem := mem.setRun (run.close .abandoned io.now)

end

theorem opened_of_not_closed (h : ¬ run.state = .closed) : run.state = .opened := by
  cases hstate : run.state with
  | opened => rfl
  | closed => exact absurd hstate h

section
variable {mem : Memory F} {dir : RunsDir}

theorem openRun_transacts {spec : RunOpenSpec F} {version : Option AutomationVersionRecord}
    {io : OpenIo} (hnone : mem.openRunId = none) :
    Transacts cfg fl (opening cfg mem spec version io) dir (openedRun cfg spec version io)
      (openRun cfg fl spec version io mem dir) := by
  fun_cases openRun cfg fl spec version io mem dir
  case case1 runId hsome =>
    rw [hnone] at hsome
    cases hsome
  case case2 hok _ => exact .done hok (.inl rfl) rfl rfl rfl fun _ _ => rfl
  all_goals
    rename_i hnot
    refine .stopped (fun hok => ?_) rfl rfl rfl (fun _ h => nomatch h) fun hkilled => ?_
    · cases hnot.symm.trans hok
    · cases hnot.symm.trans hkilled <;> rfl

theorem openRunId_seal {runId other : Bytes} (h : (mem.seal runId).openRunId = some other) :
    mem.openRunId = some other := by
  unfold Memory.seal at h
  dsimp only at h
  split at h
  · cases h
  · exact h

theorem closeRun_transacts {runId : Bytes} (reason : CloseReason) (io : CloseIo) (dir : RunsDir)
    (hrun : mem.runs runId = some run) (hopen : run.state = .opened) :
    Transacts cfg fl (closing runId run mem reason io) dir (run.close reason io.now)
      (closeRun cfg fl runId reason io mem dir) := by
  unfold closeRun
  simp only [hrun, hopen, reduceCtorEq, if_false]
  split
  · rename_i hok
    refine .done hok ?_ rfl rfl rfl fun event hevent => ?_
    · dsimp only
      split
      · exact .inl rfl
      · exact .inl rfl
      · exact .inr ⟨rfl, fun _ => openRunId_seal, rfl⟩
    · dsimp only
      split
      · rename_i hthrew
        cases hevent.symm.trans hthrew
      · rename_i hkilled
        cases hevent.symm.trans hkilled
      · rfl
  all_goals
    rename_i hnot
    refine .stopped (fun hok => ?_) rfl rfl rfl (fun _ h => nomatch h) fun hkilled => ?_
    · cases hnot.symm.trans hok
    · cases hnot.symm.trans hkilled <;> rfl

theorem recoverRun_transacts (runId : Bytes) (run : Run F) (io : RecoveryIo) (mem : Memory F)
    (dir : RunsDir) : Transacts cfg fl (recovering runId run mem io) dir ()
      (recoverRun cfg fl runId run io mem dir) := by
  fun_cases recoverRun cfg fl runId run io mem dir with
  | case1 updated record hok event =>
    exact .done hok (.inr ⟨rfl, fun _ h => h, rfl⟩) rfl rfl rfl fun _ _ => rfl
  | case2 updated record text hnot =>
    refine .stopped (fun hok => ?_) rfl rfl rfl (fun _ h => nomatch h) fun hkilled => ?_
    · cases hnot.symm.trans hok
    · cases hnot.symm.trans hkilled
  | case3 updated record hnot => exact .stopped hnot rfl rfl rfl (fun _ h => hnot h) fun h => h

end

theorem wrote_recover (io : Bytes → RecoveryIo) (ids : List Bytes) (mem : Memory F)
    (dir : RunsDir) : Wrote fl (recover cfg fl io ids mem dir).attempts dir
      (recover cfg fl io ids mem dir).dir := by
  fun_induction recover cfg fl io ids mem dir with
  | case1 mem dir => exact .refl dir
  | case2 _ _ _ _ _ ih => exact ih
  | case3 _ _ _ _ _ _ _ one _ others ih => exact (recoverRun_transacts ..).wrote.trans ih
  | case4 => exact (recoverRun_transacts ..).wrote
  | case5 _ _ _ _ _ _ _ ih => exact ih

theorem wrote_initializeJournal (io : InitializeIo) (dir : RunsDir) :
    Wrote fl (initializeJournal cfg fl io dir).attempts dir
      (initializeJournal cfg fl io dir).dir := by
  fun_cases initializeJournal cfg fl io dir
  · exact .refl dir
  · exact wrote_recover ..

/-! ### The steps of the machine -/

/-- The transaction that a call asks for, and the ids that are minted then. -/
inductive Asked (cfg : JournalConfig) (mem : Memory F) (minted : List Bytes) :
    JournalChoice F → Transaction F → List Bytes → Prop
  | opening (spec : RunOpenSpec F) (version : Option AutomationVersionRecord) (io : OpenIo)
      (hnone : mem.openRunId = none) (hfresh : mintRunId cfg io.ulid ∉ minted)
      (hnew : mem.runs (mintRunId cfg io.ulid) = none) :
      Asked cfg mem minted (.openRun spec version io) (opening cfg mem spec version io)
        (mintRunId cfg io.ulid :: minted)
  | closing (runId : Bytes) (run : Run F) (reason : CloseReason) (io : CloseIo)
      (hrun : mem.runs runId = some run) (hopen : run.state = .opened) :
      Asked cfg mem minted (.closeRun runId reason io) (closing runId run mem reason io) minted

/-- The event that a call appends, or the thread of a mode change, or the writer. -/
inductive Sent (live : Live F) : JournalChoice F → Entry F → Prop
  | call (entry : Entry F) :
      Sent live (.appendEvent entry.runId entry.category entry.type entry.payload entry.occurredAt
        entry.io) entry
  | modeChange (i : Nat) (runId : Bytes) (payload : Value F) (io : EventIo)
      (hchange : live.changing[i]? = some (runId, payload)) :
      Sent live (.appendModeChange i io) ⟨runId, .modeChange, [], payload, 0, io⟩
  | queued (event : QueuedEvent F) (runId : Bytes) (io : EventIo)
      (hhand : live.inHand = some event) (hopen : live.mem.openRunId = some runId) :
      Sent live (.persist io)
        ⟨runId, event.category, event.type, event.payload, event.occurredAt, io⟩

/-- What a step leaves of a function under the lock. -/
structure Left (out : Section F α) (wrap : α → Answer F) (l : JournalLabel F)
    (s' : JournalState F) : Prop where
  outcome : l.outcome = out.outcome.map wrap
  attempts : l.attempts = out.attempts
  dir : s'.dir = out.dir
  mem : ∀ live', s'.live = some live' → out.outcome ≠ .killed ∧ live'.mem = out.mem

/-- What a step does to the disk and to the memory. The queue is left out. -/
inductive Steps (cfg : JournalConfig) (fl : FloatCodec F) (s : JournalState F) (l : JournalLabel F)
    (s' : JournalState F) : Prop
  | powerLoss (loss : PowerLoss) (hl : l = { choice := .powerLoss loss })
      (hdir : s'.dir = s.dir.afterLoss loss) (hminted : s'.minted = s.minted)
      (hlive : s'.live = none)
  | start (io : InitializeIo) (hchoice : l.choice = .start io)
      (houtcome : l.outcome = (initializeJournal cfg fl io s.dir).outcome.map fun _ => .nothing)
      (hattempts : l.attempts = (initializeJournal cfg fl io s.dir).attempts)
      (hdir : s'.dir = (initializeJournal cfg fl io s.dir).dir) (hminted : s'.minted = s.minted)
      (hmem : ∀ live', s'.live = some live' → (initializeJournal cfg fl io s.dir).outcome = .ok () ∧
        live'.mem = (initializeJournal cfg fl io s.dir).mem)
  -- neither a file nor the memory changes; a `close` that finds its run closed answers it
  | idle (hanswer : ∀ answer, l.outcome = .ok answer → answer = .nothing ∨
        ∃ runId reason io live run, s.live = some live ∧ l.choice = .closeRun runId reason io ∧
          live.mem.runs runId = some run ∧ run.state = .closed ∧ answer = .run run)
      (hattempts : l.attempts = []) (hdir : s'.dir = s.dir) (hminted : s'.minted = s.minted)
      (hmem : ∀ live', s'.live = some live' → ∃ live, s.live = some live ∧ live'.mem = live.mem)
  | transacted (live : Live F) (t : Transaction F) (out : Section F (Run F))
      (hlive : s.live = some live) (hasked : Asked cfg live.mem s.minted l.choice t s'.minted)
      (hout : Transacts cfg fl t s.dir t.run out) (hleft : Left out .run l s')
  | appended (live : Live F) (entry : Entry F) (hlive : s.live = some live)
      (hsent : Sent live l.choice entry)
      (hopen : live.mem.openRunId = some entry.runId ∨
        ∃ run, live.mem.runs entry.runId = some run ∧ run.state = .opened)
      (hleft : Left (entry.append cfg fl live.mem s.dir) .event l s')
        (hminted : s'.minted = s.minted)

variable {s : JournalState F} {live : Live F}

theorem settle_mem {live' : Live F} {out : Section F α}
    (h : (s.settle live out).live = some live') : out.outcome ≠ .killed ∧ live'.mem = out.mem := by
  unfold JournalState.settle at h
  dsimp only at h
  split at h
  · cases h
  · rename_i hkilled
    cases h
    exact ⟨hkilled, rfl⟩

theorem enqueueEvent_mem (live : Live F) (event : QueuedEvent F) :
    (live.enqueueEvent event).mem = live.mem := by
  unfold Live.enqueueEvent
  split <;> rfl

theorem settleWriter_mem {live' : Live F} {out : Section F α}
    (h : (s.settleWriter live out).live = some live') :
    out.outcome ≠ .killed ∧ live'.mem = out.mem := by
  unfold JournalState.settleWriter at h
  split at h
  · cases h
  · exact settle_mem h

theorem settleWriter_dir (s : JournalState F) (live : Live F) (out : Section F α) :
    (s.settleWriter live out).dir = out.dir ∧ (s.settleWriter live out).minted = s.minted := by
  unfold JournalState.settleWriter
  split <;> exact ⟨rfl, rfl⟩

variable {s' : JournalState F} {l : JournalLabel F} {live₁ : Live F}

/-- A function that refuses, or a `close` that finds its run closed. -/
theorem steps_of_refused {outcome : Outcome α} {wrap : α → Answer F} (hlive : s.live = some live)
    (hok : ∀ a, outcome = .ok a → ∃ runId reason io run, choice = .closeRun runId reason io ∧
      live.mem.runs runId = some run ∧ run.state = .closed ∧ wrap a = .run run) :
    Steps cfg fl s ⟨choice, outcome.map wrap, []⟩ (s.settle live₁ ⟨live.mem, s.dir, outcome,
      []⟩) := by
  refine .idle (fun answer hanswer => .inr ?_) rfl rfl rfl fun live' hlive' =>
    ⟨live, hlive, (settle_mem hlive').2⟩
  cases outcome with
  | ok a =>
    obtain ⟨runId, reason, io, run, hchoice, hrun, hclosed, ha⟩ := hok a rfl
    cases hanswer
    exact ⟨runId, reason, io, live, run, hlive, hchoice, hrun, hclosed, ha⟩
  | _ => cases hanswer

/-- `append_event` refuses, or it appends to a run that is open in memory. -/
theorem steps_of_appendEvent (entry : Entry F) (hlive : s.live = some live)
    (hsent : Sent live choice entry) {out : Section F (RunEvent F)}
    (hout : out = appendEvent cfg fl entry.runId entry.category entry.type entry.payload
      entry.occurredAt entry.io live.mem s.dir) :
    Steps cfg fl s ⟨choice, out.outcome.map .event, out.attempts⟩ (s.settle live₁ out) := by
  revert hout
  fun_cases appendEvent cfg fl entry.runId entry.category entry.type entry.payload
    entry.occurredAt entry.io live.mem s.dir with
  | case1 | case2 =>
    rintro rfl
    exact steps_of_refused hlive fun _ h => nomatch h
  | case3 run hrun hopen =>
    rintro rfl
    exact .appended live entry hlive hsent (.inr ⟨run, hrun, opened_of_not_closed hopen⟩)
      ⟨rfl, rfl, rfl, fun _ => settle_mem⟩ rfl

theorem steps_of_call (hlive : s.live = some live)
    (h : callNext cfg fl s live choice = some (l, s')) : Steps cfg fl s l s' := by
  -- a step that leaves the disk and the memory as they are
  have hidle {live₁ : Live F} {queued : Nat}
      (hs : some (({ choice } : JournalLabel F),
        ({ s with live := some live₁, queued := queued } : JournalState F)) = some (l, s'))
      (hmem : live₁.mem = live.mem) : Steps cfg fl s l s' := by
    cases hs
    refine .idle (fun answer hanswer => .inl ?_) rfl rfl rfl fun live' hlive' => ?_
    · cases hanswer
      rfl
    · cases hlive'
      exact ⟨live, hlive, hmem⟩
  revert h
  fun_cases callNext cfg fl s live choice
  all_goals intro h
  case case1 => cases h
  case case2 spec version io out runId hfresh =>
    cases h
    cases hopen : live.mem.openRunId with
    | none =>
      simp only [hopen, Option.isNone_none, true_and, not_or,
        Option.not_isSome_iff_eq_none] at hfresh
      exact .transacted live _ out hlive (.opening spec version io hopen hfresh.1 hfresh.2)
        (openRun_transacts hopen) ⟨rfl, rfl, rfl, fun _ => settle_mem (s := s)⟩
    | some other =>
      obtain ⟨text, hout⟩ : ∃ text, out = ⟨live.mem, s.dir, .error text, []⟩ := by
        simp [out, openRun, hopen]
      rw [hout]
      exact steps_of_refused hlive fun _ h => nomatch h
  case case3 runId reason io out =>
    cases h
    cases hrun : live.mem.runs runId with
    | none =>
      obtain ⟨text, hout⟩ : ∃ text, out = ⟨live.mem, s.dir, .error text, []⟩ := by
        simp [out, closeRun, hrun]
      rw [hout]
      exact steps_of_refused hlive fun _ h => nomatch h
    | some run =>
      cases hstate : run.state with
      | closed =>
        rw [show out = ⟨live.mem, s.dir, .ok run, []⟩ by simp [out, closeRun, hrun, hstate]]
        refine steps_of_refused hlive fun a ha => ?_
        cases ha
        exact ⟨runId, reason, io, run, rfl, hrun, hstate, rfl⟩
      | opened =>
        exact .transacted live _ out hlive (.closing runId run reason io hrun hstate)
          (closeRun_transacts reason io s.dir hrun hstate) ⟨rfl, rfl, rfl, fun _ => settle_mem⟩
  case case4 runId category type payload occurredAt io out =>
    cases h
    exact steps_of_appendEvent ⟨runId, category, type, payload, occurredAt, io⟩ hlive (.call _) rfl
  case case5 | case6 => exact hidle h (enqueueEvent_mem live _)
  case case7 => exact hidle h rfl
  case case8 =>
    cases h
    refine .idle (fun answer hanswer => .inl ?_) rfl rfl rfl fun live' hlive' =>
      ⟨live', hlive', rfl⟩
    cases hanswer
    rfl
  case case9 i io =>
    obtain ⟨⟨runId, payload⟩, hchange, hout⟩ := Option.map_eq_some_iff.mp h
    cases hout
    exact steps_of_appendEvent ⟨runId, .modeChange, [], payload, 0, io⟩ hlive
      (.modeChange i runId payload io hchange) rfl
  case case10 | case13 => exact hidle h rfl
  case case14 io event runId hopen hhand out =>
    cases h
    exact .appended live _ hlive (.queued event runId io hhand hopen) (.inl hopen)
      ⟨rfl, rfl, (settleWriter_dir s _ out).1, fun _ => settleWriter_mem⟩
        (settleWriter_dir s _ out).2
  all_goals cases h

theorem steps_of_next (h : (journal cfg fl).lts.step s l s') : Steps cfg fl s l s' := by
  obtain ⟨choice, hnext⟩ := h
  change journalNext cfg fl s choice = some (l, s') at hnext
  revert hnext
  fun_cases journalNext cfg fl s choice
  all_goals intro hnext
  case case1 loss =>
    cases hnext
    exact .powerLoss loss rfl rfl rfl rfl
  case case2 io hlive out =>
    cases hnext
    refine .start io rfl rfl rfl rfl rfl fun live' hlive' => ?_
    dsimp only at hlive'
    split at hlive'
    · cases hlive'
      exact ⟨by assumption, rfl⟩
    · cases hlive'
  case case3 =>
    cases hnext
    refine .idle (fun answer hanswer => .inl ?_) rfl rfl rfl fun live' hlive' => nomatch hlive'
    cases hanswer
    rfl
  case case4 => exact steps_of_call (by assumption) hnext
  case case5 => cases hnext

theorem Steps.loss_or_wrote (h : Steps cfg fl s l s') :
    (∃ loss, l.choice = .powerLoss loss ∧ s'.dir = s.dir.afterLoss loss) ∨
    Wrote fl l.attempts s.dir s'.dir := by
  cases h with
  | powerLoss loss hl hdir => exact .inl ⟨loss, congrArg JournalLabel.choice hl, hdir⟩
  | start io _ _ hattempts hdir =>
    rw [hattempts, hdir]
    exact .inr (wrote_initializeJournal io s.dir)
  | idle _ hattempts hdir =>
    rw [hattempts, hdir]
    exact .inr (.refl s.dir)
  | transacted live t out _ _ hout hleft =>
    rw [hleft.attempts, hleft.dir]
    exact .inr hout.wrote
  | appended live entry _ _ _ hleft =>
    rw [hleft.attempts, hleft.dir]
    exact .inr (entry.wrote ..)

theorem Steps.wrote (h : Steps cfg fl s l s')
    (hpower : ∀ loss, l.choice ≠ .powerLoss loss) : Wrote fl l.attempts s.dir s'.dir :=
  h.loss_or_wrote.resolve_left fun ⟨loss, hchoice, _⟩ => hpower loss hchoice

/-! ### The last record of a run -/

/-- The record that counts for a run. -/
def latest (records : List (Run F)) (runId : Bytes) : Option (Run F) :=
  records.reverse.find? fun run => run.runId = runId

@[simp] theorem latest_nil (runId : Bytes) : latest ([] : List (Run F)) runId = none := rfl

theorem latest_snoc (records : List (Run F)) (run : Run F) (runId : Bytes) :
    latest (records ++ [run]) runId =
      if run.runId = runId then some run else latest records runId := by
  simp only [latest, List.reverse_append, List.reverse_singleton, List.singleton_append,
    List.find?_cons]
  by_cases h : run.runId = runId <;> simp [h]

variable {records : List (Run F)} {attempts : List (Attempt F)} {tr : JournalTrace F}
  {more : List (Run F)} {io : RecoveryIo}

variable {runId : Bytes}

theorem latest_append_of_ne
    (h : ∀ run ∈ more, run.runId ≠ runId) : latest (records ++ more) runId =
    latest records runId := by
  induction more using List.reverseRecOn with
  | nil => rw [List.append_nil]
  | append_singleton more run ih =>
    have hrun : run.runId ≠ runId := h run (by simp)
    rw [← List.append_assoc, latest_snoc, if_neg hrun]
    exact ih fun r hr => h r (List.mem_append_left _ hr)

theorem latest_some
    (h : latest records runId = some run) : run ∈ records ∧ run.runId = runId := by
  refine ⟨List.mem_reverse.mp (List.mem_of_find?_eq_some h), ?_⟩
  simpa using List.find?_some h

theorem latest_isSome (h : run ∈ records) : (latest records run.runId).isSome := by
  rw [latest, List.find?_isSome]
  exact ⟨run, List.mem_reverse.mpr h, by simp⟩

theorem replayAll_snoc (records : List (Run F)) (run : Run F) :
    replayAll (records ++ [run]) = (replayAll records).replay run := by
  rw [replayAll, List.foldl_append]
  rfl

theorem replayAll_runs (records : List (Run F)) (runId : Bytes) :
    (replayAll records).runs runId = latest records runId := by
  induction records using List.reverseRecOn with
  | nil => rfl
  | append_singleton records run ih =>
    rw [replayAll_snoc, latest_snoc, ← ih]
    show Function.update (replayAll records).runs run.runId (some run) runId = _
    rw [Function.update_apply]
    by_cases hid : run.runId = runId
    · rw [if_pos hid, if_pos hid.symm]
    · rw [if_neg hid, if_neg (Ne.symm hid)]

theorem replayAll_rest (records : List (Run F)) :
    (replayAll records).openRunId = none ∧ (replayAll records).nextSeq = fun _ => none := by
  induction records using List.reverseRecOn with
  | nil => exact ⟨rfl, rfl⟩
  | append_singleton records run ih => rw [replayAll_snoc]; exact ih

theorem mem_replayAll_order (records : List (Run F)) (runId : Bytes) :
    runId ∈ (replayAll records).order ↔ (latest records runId).isSome := by
  induction records using List.reverseRecOn with
  | nil => simp [replayAll]
  | append_singleton records run ih =>
    rw [replayAll_snoc, latest_snoc]
    show runId ∈ (if ((replayAll records).runs run.runId).isNone then _ else _) ↔ _
    rw [replayAll_runs]
    rcases eq_or_ne run.runId runId with rfl | hid
    · cases hknown : latest records run.runId with
      | none => simp
      | some known => simp [ih, hknown]
    · rw [if_neg hid, ← ih]
      split
      · simp [Ne.symm hid]
      · rfl

/-! ### The memory and the index -/

/-- The memory is about the index: a run that is closed in memory has its record as the last one. -/
structure Coherent (fl : FloatCodec F) (records : List (Run F)) (mem : Memory F) : Prop where
  id : ∀ runId run, mem.runs runId = some run → run.runId = runId
  closed : ∀ runId run, mem.runs runId = some run → run.state = .closed →
    ∃ x, latest records runId = some x ∧ (x = run ∨ x = run.reread fl.toFloatFormat)

/-- The memory of the process is about the index. -/
abbrev CoherentState (fl : FloatCodec F) (s : JournalState F) : Prop :=
  ∀ live, s.live = some live → Coherent fl (s.dir.runRecords fl) live.mem

theorem id_update {runs : Bytes → Option (Run F)}
    (hid : ∀ runId run, runs runId = some run → run.runId = runId) (run : Run F) :
    ∀ runId known, Function.update runs run.runId (some run) runId = some known →
      known.runId = runId := by
  intro runId known hknown
  rw [Function.update_apply] at hknown
  split at hknown
  · rename_i heq
    cases hknown
    exact heq.symm
  · exact hid runId known hknown

variable {mem : Memory F}

theorem Coherent.grow (h : Coherent fl records mem)
    (hmore : ∀ w ∈ more, ∀ run, mem.runs w.runId = some run → run.state = .opened) :
    Coherent fl (records ++ more) mem where
  id := h.id
  closed runId run hrun hclosed := by
    rw [latest_append_of_ne]
    · exact h.closed runId run hrun hclosed
    · rintro w hw rfl
      rw [hmore w hw run hrun] at hclosed
      cases hclosed

theorem Coherent.set {mem mem' : Memory F} (h : Coherent fl records mem) (run : Run F)
    (hruns : mem'.runs = Function.update mem.runs run.runId (some run))
    (hlast : run.state = .closed →
      latest records run.runId = some (run.reread fl.toFloatFormat)) : Coherent fl records
        mem' where
  id runId other hother := id_update h.id run runId other (hruns ▸ hother)
  closed runId other hother hclosed := by
    rw [hruns, Function.update_apply] at hother
    split at hother
    · rename_i heq
      cases hother
      rw [heq]
      exact ⟨_, hlast hclosed, .inr rfl⟩
    · exact h.closed runId other hother hclosed

theorem Coherent.congr {mem mem' : Memory F} (h : Coherent fl records mem)
    (hruns : mem'.runs = mem.runs) : Coherent fl records mem' := by
  constructor
  · rw [hruns]
    exact h.id
  · rw [hruns]
    exact h.closed

theorem coherent_replayAll (records : List (Run F)) : Coherent fl records (replayAll records) where
  id runId run hrun := by
    rw [replayAll_runs] at hrun
    exact (latest_some hrun).2
  closed runId run hrun _ := by
    rw [replayAll_runs] at hrun
    exact ⟨run, hrun, .inl rfl⟩

variable {dir : RunsDir}

/-- A record of a run that is not closed in memory is appended, as far as it gets. -/
theorem Coherent.append (h : Coherent fl (dir.runRecords fl) mem)
    (hrun : ∀ known, mem.runs run.runId = some known → known.state = .opened)
    (cfg : JournalConfig) (fate : AppendFate) (mem' : Memory F) :
    Coherent fl ((appendRecord cfg fl run fate mem' dir).dir.runRecords fl) mem := by
  rw [(wrote_appendRecord cfg run fate mem' dir).runs]
  refine h.grow fun w hw => ?_
  obtain ⟨written, hwritten, rfl⟩ := List.mem_map.mp hw
  rcases appendRecord_written cfg fl run fate mem' dir with hnone | hone
  · rw [hnone] at hwritten
    cases hwritten
  · rw [hone] at hwritten
    obtain rfl := List.mem_singleton.mp hwritten
    exact hrun

/-- A transaction is about a run that is not closed in the memory before it. -/
structure Fits (mem : Memory F) (t : Transaction F) : Prop where
  id : t.run.runId = t.entry.runId
  opened : ∀ known, mem.runs t.run.runId = some known → known.state = .opened
  runs : t.mem.runs = Function.update mem.runs t.run.runId (some t.run)
  nextSeq : t.mem.nextSeq = mem.nextSeq
  openRunId : ∀ other, t.mem.openRunId = some other →
    mem.openRunId = some other ∨ other = t.run.runId

theorem opened_of_known {runId id : Bytes} (hrun : mem.runs runId = some run)
    (hopen : run.state = .opened) (hid : id = runId) :
    ∀ known, mem.runs id = some known → known.state = .opened := by
  intro known hknown
  rw [hid, hrun] at hknown
  cases hknown
  exact hopen

theorem Asked.fits {minted minted' : List Bytes} {t : Transaction F}
    (h : Asked cfg mem minted choice t minted')
    (hid : ∀ runId run, mem.runs runId = some run → run.runId = runId) :
    Fits mem t ∧ t.kept = mem := by
  cases h with
  | opening spec version io hnone hfresh hnew =>
    refine ⟨⟨rfl, fun known hknown => ?_, rfl, rfl, fun other hother => .inr ?_⟩, rfl⟩
    · cases hnew.symm.trans hknown
    · exact (Option.some.inj hother).symm
  | closing runId run reason io hrun hopen =>
    exact ⟨⟨hid runId run hrun, opened_of_known hrun hopen (hid runId run hrun), rfl, rfl,
      fun _ hother => .inl hother⟩, rfl⟩

theorem fits_recovering (io : RecoveryIo) (hid : run.runId = runId)
    (hrun : mem.runs runId = some run) (hopen : run.state = .opened) :
    Fits mem (recovering runId run mem io) :=
  ⟨hid, opened_of_known hrun hopen hid, rfl, rfl, fun _ hother => .inl hother⟩

theorem Transacts.coherent {t : Transaction F} {answer : α}
    {out : Section F α} (h : Transacts cfg fl t dir answer out) (hfits : Fits mem t)
    (hcoherent : Coherent fl (dir.runRecords fl) mem)
    (hkept : t.kept = mem ∨ ∃ a, out.outcome = .ok a) :
    Coherent fl (out.dir.runRecords fl) out.mem := by
  have hgrow := hcoherent.append hfits.opened cfg t.fate t.kept
  cases h with
  | stopped _ hmem hdir _ hfailed =>
    rw [hdir, hmem, hkept.resolve_right fun ⟨a, ha⟩ => hfailed a ha]
    exact hgrow
  | done hrecord hmem hdir hattempts houtcome hopenRun =>
    have hruns : out.mem.runs = t.mem.runs :=
      (Transacts.recorded (.done hrecord hmem hdir hattempts houtcome hopenRun) hrecord).2.1
    rw [hdir, Transaction.event, Entry.append_runRecords]
    refine hgrow.set t.run (hruns.trans hfits.runs) fun _ => ?_
    rw [appendRecord_runRecords hrecord, latest_snoc]
    exact if_pos rfl

/-! ### Recovery -/

theorem recoverRun_ok
    (h : (recoverRun cfg fl runId run io mem dir).outcome = .ok ()) :
    (recoverRun cfg fl runId run io mem dir).mem = { mem.setRun (run.close .abandoned io.now) with
        nextSeq := Function.update mem.nextSeq runId none } := by
  revert h
  fun_cases recoverRun cfg fl runId run io mem dir with
  | case1 updated record hok event =>
    intro h
    have hmem : event.mem = (mem.setRun updated) ∨ ∃ seq, event.mem =
        { mem.setRun updated with nextSeq := Function.update mem.nextSeq runId (some seq) } :=
      Entry.append_mem ⟨runId, _, _, _, _, _⟩ cfg fl _ _
    rcases hmem with hmem | ⟨seq, hmem⟩ <;> rw [hmem] <;> simp [Memory.setRun, updated]
  | case2 => intro h; cases h
  | case3 updated record hnotOk =>
    intro h
    exact absurd h hnotOk

theorem recoverRun_runs (h : (recoverRun cfg fl runId run io mem dir).outcome = .ok ()) :
    (recoverRun cfg fl runId run io mem dir).mem.runs =
      Function.update mem.runs run.runId (some (run.close .abandoned io.now)) := by
  rw [recoverRun_ok h]
  rfl

/-- A run as `initialize` leaves it. -/
def recovered (io : Bytes → RecoveryIo) (runId : Bytes) (run : Run F) : Run F :=
  if run.state = .opened then run.close .abandoned (io runId).now else run

/-- What the loop of `initialize` leaves in memory. -/
structure Recovers (io : Bytes → RecoveryIo) (ids : List Bytes) (mem mem' : Memory F) : Prop where
  runs : ∀ runId, mem'.runs runId =
    if runId ∈ ids then (mem.runs runId).map (recovered io runId) else mem.runs runId
  openRunId : mem'.openRunId = mem.openRunId
  order : mem'.order = mem.order
  nextSeq : ∀ runId, mem.nextSeq runId = none → mem'.nextSeq runId = none

theorem recover_ok {io : Bytes → RecoveryIo} {ids : List Bytes}
    (hcoherent : Coherent fl (dir.runRecords fl) mem)
    (h : (recover cfg fl io ids mem dir).outcome = .ok ()) :
    Recovers io ids mem (recover cfg fl io ids mem dir).mem ∧
    Coherent fl ((recover cfg fl io ids mem dir).dir.runRecords fl)
      (recover cfg fl io ids mem dir).mem := by
  revert hcoherent h
  fun_induction recover cfg fl io ids mem dir with
  | case1 mem dir =>
    intro hcoherent _
    exact ⟨⟨by simp, rfl, rfl, fun _ => id⟩, hcoherent⟩
  | case2 runId rest mem dir hnone ih =>
    intro hcoherent h
    obtain ⟨hrec, hcoherent'⟩ := ih hcoherent h
    refine ⟨⟨fun other => ?_, hrec.openRunId, hrec.order, hrec.nextSeq⟩, hcoherent'⟩
    rw [hrec.runs]
    rcases eq_or_ne other runId with rfl | hother
    · simp [hnone]
    · simp [hother]
  | case3 runId rest mem dir run hrun hopen one hone others ih =>
    intro hcoherent h
    have hid : run.runId = runId := hcoherent.id runId run hrun
    have hone' : Coherent fl (one.dir.runRecords fl) one.mem := (recoverRun_transacts ..).coherent
      (fits_recovering (io runId) hid hrun hopen) hcoherent (.inr ⟨(), hone⟩)
    obtain ⟨hrec, hcoherent'⟩ := ih hone' h
    have hmem : one.mem = { mem.setRun (run.close .abandoned (io runId).now) with
        nextSeq := Function.update mem.nextSeq runId none } := recoverRun_ok hone
    have hruns : one.mem.runs =
        Function.update mem.runs runId (some (run.close .abandoned (io runId).now)) := by
      have hset := recoverRun_runs hone
      rwa [hid] at hset
    refine ⟨⟨fun other => ?_, ?_, ?_, fun other hnone => hrec.nextSeq other ?_⟩, hcoherent'⟩
    · rw [hrec.runs, hruns]
      rcases eq_or_ne other runId with rfl | hother
      · simp [hrun, recovered, hopen, Run.close]
      · simp [hother]
    · rw [hrec.openRunId, hmem]
      rfl
    · rw [hrec.order, hmem]
      rfl
    · rw [hmem]
      show Function.update mem.nextSeq runId none other = none
      rw [Function.update_apply, hnone, ite_self]
  | case4 runId rest mem dir run hrun hopen one hone =>
    intro _ h
    exact absurd h hone
  | case5 runId rest mem dir run hrun hopen ih =>
    intro hcoherent h
    obtain ⟨hrec, hcoherent'⟩ := ih hcoherent h
    refine ⟨⟨fun other => ?_, hrec.openRunId, hrec.order, hrec.nextSeq⟩, hcoherent'⟩
    rw [hrec.runs]
    rcases eq_or_ne other runId with rfl | hother
    · simp [hrun, recovered, hopen]
    · simp [hother]

/-- What `initialize` has in memory when it succeeds. -/
structure Initialized (fl : FloatCodec F) (io : InitializeIo) (dir : RunsDir)
    (out : Section F Unit) : Prop where
  /-- Each run has its last record, closed as abandoned where it was open. -/
  runs : ∀ runId, out.mem.runs runId =
    (latest (dir.runRecords fl) runId).map (recovered io.recovery runId)
  openRunId : out.mem.openRunId = none
  order : out.mem.order = (replayAll (dir.runRecords fl)).order
  nextSeq : ∀ runId, out.mem.nextSeq runId = none
  coherent : Coherent fl (out.dir.runRecords fl) out.mem

theorem initializeJournal_ok {io : InitializeIo}
    (h : (initializeJournal cfg fl io dir).outcome = .ok ()) :
    Initialized fl io dir (initializeJournal cfg fl io dir) := by
  revert h
  fun_cases initializeJournal cfg fl io dir with
  | case1 => intro h; cases h
  | case2 hcreate mem =>
    intro h
    obtain ⟨hrec, hcoherent⟩ := recover_ok (coherent_replayAll _) h
    obtain ⟨hopenRun, hnextSeq⟩ := replayAll_rest (dir.runRecords fl)
    refine ⟨fun runId => ?_, hrec.openRunId.trans hopenRun, hrec.order, fun runId => ?_, hcoherent⟩
    · rw [hrec.runs, replayAll_runs]
      split
      · rfl
      · rename_i hunknown
        have hnone := mt (mem_replayAll_order _ _).mpr hunknown
        rw [Option.not_isSome_iff_eq_none.mp hnone]
        rfl
    · exact hrec.nextSeq runId (congrFun hnextSeq runId)

theorem Steps.coherent (h : Steps cfg fl s l s') (hbefore : CoherentState fl s) :
    CoherentState fl s' := by
  intro live' hlive'
  cases h with
  | powerLoss _ _ _ _ hlive =>
    rw [hlive] at hlive'
    cases hlive'
  | start io _ _ _ hdir _ hmem =>
    obtain ⟨hok, hmem⟩ := hmem live' hlive'
    rw [hdir, hmem]
    exact (initializeJournal_ok hok).coherent
  | idle _ _ hdir _ hmem =>
    obtain ⟨live, hlive, hsame⟩ := hmem live' hlive'
    rw [hdir, hsame]
    exact hbefore live hlive
  | transacted live t out hlive hasked hout hleft =>
    have hcoherent := hbefore live hlive
    obtain ⟨hfits, hkept⟩ := hasked.fits hcoherent.id
    rw [hleft.dir, (hleft.mem live' hlive').2]
    exact hout.coherent hfits hcoherent (.inl hkept)
  | appended live entry hlive _ _ hleft =>
    rw [hleft.dir, (hleft.mem live' hlive').2, entry.append_runRecords]
    exact (hbefore live hlive).congr (entry.append_runs ..)

/-! ### Runs of the machine -/

/-- No step of the run is a power loss. -/
def NoPowerLoss (tr : JournalTrace F) : Prop :=
  ∀ i ∈ tr, ∀ loss, i.2.choice ≠ .powerLoss loss

/-- A check for it. -/
def noPowerLoss (tr : JournalTrace F) : Bool :=
  tr.all fun i =>
    match i.2.choice with
    | .powerLoss _ => false
    | _ => true

theorem noPowerLoss_iff : noPowerLoss tr ↔ NoPowerLoss tr := by
  rw [noPowerLoss, List.all_eq_true]
  refine forall₂_congr fun i _ => ?_
  cases i.2.choice <;> simp

theorem coherent_run (hrun : Run (journal cfg fl).lts {} tr s) : CoherentState fl s := by
  refine hrun.induct (J := fun _ s => CoherentState fl s) ?_ ?_
  · intro live hlive
    cases hlive
  · intro tr s l s' _ hbefore hstep
    exact (steps_of_next hstep).coherent hbefore

/-- The events of a stream are of its run. -/
def OwnEvents (fl : FloatCodec F) (dir : RunsDir) : Prop :=
  ∀ runId, ∀ event ∈ dir.eventRecords fl runId, event.runId = runId

theorem mem_writtenEvents {event : RunEvent F}
    (h : event ∈ writtenEvents attempts runId) : event.runId = runId := by
  obtain ⟨attempt, -, heq⟩ := List.mem_filterMap.mp h
  split at heq
  · cases heq
  · split at heq
    · rename_i hboth
      cases heq
      simpa using (Bool.and_eq_true_iff.mp hboth).2
    · cases heq

theorem Wrote.ownEvents {dir dir' : RunsDir}
    (h : Wrote fl attempts dir dir') (hown : OwnEvents fl dir) : OwnEvents fl dir' := by
  intro runId event hevent
  rw [h.events] at hevent
  rcases List.mem_append.mp hevent with hevent | hevent
  · exact hown runId event hevent
  · obtain ⟨written, hwritten, rfl⟩ := List.mem_map.mp hevent
    have hid := mem_writtenEvents hwritten
    exact hid

end Anolis.Proofs.JournalReads
