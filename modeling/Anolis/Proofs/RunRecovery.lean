import Anolis.Proofs.EventIdentity
import Anolis.Proofs.JournalRecords

/-!
# The runs after a kill

`run_recovery`: after any run of the machine without a power loss, with appends that fail and kills
that leave any part of a line, an `initialize` whose I/O succeeds recovers every run whose `open`
returned ok. A run whose `close` returned ok is recovered as `close` returned it, and every other
one as abandoned.

What was acknowledged stays, since a record is only ever added. For a run that is closed the last
record has to stay the last one: `Sealed` is kept by every step (`Sealed.step`). A record of such a
run could come from an `open`, but its id is new; from a `close`, but in memory the run is closed;
or from an `initialize`, but that one closes only runs whose last record is open.
-/

namespace Anolis.Proofs.RunRecovery

open Lib Lib.Json Lib.RecordLog Runs JournalReads JournalRecords EventIdentity

variable {F : Type} {cfg : JournalConfig} {fl : FloatCodec F}

/-! ### What is read -/

/-- The records whose whole text got into the index, oldest first. -/
def wholeRuns (tr : JournalTrace F) : List (Run F) :=
  tr.flatMap fun i => writtenRuns i.2.attempts

/-- The events of a run whose whole text got into its stream. -/
def wholeEvents (tr : JournalTrace F) (runId : Bytes) : List
    (RunEvent F) :=
  tr.flatMap fun i => writtenEvents i.2.attempts runId

variable {tr : JournalTrace F} {s : JournalState F}

/-- A reader finds the records whose whole text got into the files, whatever lines are torn. -/
theorem reads_run (hrun : Run (journal cfg fl).lts {} tr s) (hpower : NoPowerLoss tr) :
    s.dir.runRecords fl = (wholeRuns tr).map (Run.reread fl.toFloatFormat) ∧
    ∀ runId, s.dir.eventRecords fl runId =
      (wholeEvents tr runId).map (RunEvent.reread fl.toFloatFormat) := by
  refine hrun.induct_of (C := fun _ (l : JournalLabel F) => ∀ loss, l.choice ≠ .powerLoss loss)
    (J := fun tr (s : JournalState F) =>
      s.dir.runRecords fl = (wholeRuns tr).map (Run.reread fl.toFloatFormat) ∧
      ∀ runId, s.dir.eventRecords fl runId =
        (wholeEvents tr runId).map (RunEvent.reread fl.toFloatFormat)) ⟨rfl, fun _ => rfl⟩ ?_ hpower
  rintro tr s l s' - - ⟨hruns, hevents⟩ hpower hstep
  have hwrote := (steps_of_next hstep).wrote hpower
  constructor
  · rw [hwrote.runs, hruns, wholeRuns, wholeRuns, List.flatMap_append, List.flatMap_singleton,
      List.map_append]
  · intro runId
    rw [hwrote.events, hevents, wholeEvents, wholeEvents, List.flatMap_append,
      List.flatMap_singleton, List.map_append]

/-! ### Runs that are closed -/

/-- The run is closed for good: `x` is its last record, and in memory it is closed. -/
structure Sealed (fl : FloatCodec F) (x : Run F) (s : JournalState F) : Prop where
  last : latest (s.dir.runRecords fl) x.runId = some x
  closed : x.state = .closed
  live : ∀ live, s.live = some live → ∃ m, live.mem.runs x.runId = some m ∧ m.state = .closed

variable {s' : JournalState F} {l : JournalLabel F} {io : InitializeIo}

theorem Sealed.not_written {x w : Run F}
    (h : Sealed fl x s) (hindexed : Indexed fl s) (hstep : Steps cfg fl s l s')
    (hw : w ∈ writtenRuns l.attempts) : w.runId ≠ x.runId := by
  intro hid
  cases Steps.writtenBy hstep hw with
  | asked live t out hw hlive hasked =>
    rcases Asked.known hasked (hindexed.coherent live hlive).id with ⟨hfresh, -⟩ | ⟨run,
      hrun, hopen⟩
    · obtain ⟨hmem, -⟩ := latest_some h.last
      exact hfresh (hw ▸ hid ▸ hindexed.minted x hmem)
    · obtain ⟨m, hm, hclosed⟩ := h.live live hlive
      rw [← hw, hid, hm] at hrun
      cases hrun
      rw [hclosed] at hopen
      cases hopen
  | recovered io run _ hlast hopen =>
    rw [hid, h.last] at hlast
    cases hlast
    rw [h.closed] at hopen
    cases hopen

theorem Sealed.step {x : Run F} (h : Sealed fl x s)
    (hindexed : Indexed fl s) (hstep : Steps cfg fl s l s')
    (hpower : ∀ loss, l.choice ≠ .powerLoss loss) : Sealed fl x s' where
  last := by
    rw [(hstep.wrote hpower).runs, latest_append_of_ne, h.last]
    intro r hr
    obtain ⟨w, hw, rfl⟩ := List.mem_map.mp hr
    have hne := h.not_written hindexed hstep hw
    exact hne
  closed := h.closed
  live live' hlive' := by
    rcases Steps.runs hstep hindexed.coherent hlive' with ⟨io, -, hruns⟩ | ⟨live, hlive, hruns⟩ |
      ⟨live, hlive, w, hw, hruns⟩
    · -- `initialize` leaves it as its last record has it
      refine ⟨x, ?_, h.closed⟩
      rw [hruns, h.last]
      simp [recovered, h.closed]
    · rw [hruns]
      exact h.live live hlive
    · rw [hruns, Function.update_of_ne (h.not_written hindexed hstep hw).symm]
      exact h.live live hlive

theorem sealed_of_close {reason : CloseReason}
    {run : Run F} (hindexed : Indexed fl s) (hstep : Steps cfg fl s l s')
    (hclose : closedBy l = some (reason, run)) :
    ∃ x, Sealed fl x s' ∧ (x = run ∨ x = run.reread fl.toFloatFormat) := by
  obtain ⟨⟨runId, io, hchoice⟩, houtcome⟩ := of_closedBy hclose
  rcases Steps.answered hstep hindexed.coherent houtcome with hbooked |
    ⟨hdir, runId, reason, io, live, hlive, -, hrun, hclosed, hmem⟩
  · have hpower : ∀ loss, l.choice ≠ .powerLoss loss := by simp [hchoice]
    have hclosed := hbooked.closed hclose
    refine ⟨run.reread fl.toFloatFormat, ⟨?_, hclosed, fun live' hlive' => ⟨run, ?_, hclosed⟩⟩,
      .inr rfl⟩
    · rw [(hstep.wrote hpower).runs, hbooked.written, List.map_singleton, latest_snoc]
      exact if_pos rfl
    · exact hbooked.runs live' hlive'
  · -- it was closed already
    obtain ⟨x, hlast, hx⟩ := (hindexed.coherent live hlive).closed runId run hrun hclosed
    obtain ⟨-, hid⟩ := latest_some hlast
    have hstate : x.state = .closed := by rcases hx with rfl | rfl <;> exact hclosed
    refine ⟨x, ⟨?_, hstate, fun live' hlive' => ⟨run, ?_, hclosed⟩⟩, hx⟩
    · rw [hdir, hid]
      exact hlast
    · rw [hmem live' hlive', hid]
      exact hrun

theorem sealed_run (hrun : Run (journal cfg fl).lts {} tr s) (hpower : NoPowerLoss tr) :
    ∀ c ∈ closes tr, ∃ x, Sealed fl x s ∧ (x = c.2 ∨ x = c.2.reread fl.toFloatFormat) := by
  refine hrun.induct_of (C := fun _ (l : JournalLabel F) => ∀ loss, l.choice ≠ .powerLoss loss)
    (J := fun tr s => Indexed fl s → ∀ c ∈ closes tr, ∃ x, Sealed fl x s ∧
      (x = c.2 ∨ x = c.2.reread fl.toFloatFormat)) (fun _ _ hc => nomatch hc) ?_ hpower
    (indexed_run hrun hpower)
  intro tr s l s' hrun hbefore ih hloss hstep _ c hc
  have hindexed := indexed_run hrun hbefore
  rcases (closes_snoc tr s l c).mp hc with hc | hclose
  · obtain ⟨x, hsealed, hx⟩ := ih hindexed c hc
    exact ⟨x, hsealed.step hindexed (steps_of_next hstep) hloss, hx⟩
  · exact sealed_of_close hindexed (steps_of_next hstep) hclose

theorem listed_run (hrun : Run (journal cfg fl).lts {} tr s) (hpower : NoPowerLoss tr) :
    ∀ run ∈ opens tr, run.reread fl.toFloatFormat ∈ s.dir.runRecords fl := by
  refine hrun.induct_of (C := fun _ (l : JournalLabel F) => ∀ loss, l.choice ≠ .powerLoss loss)
    (J := fun tr (s : JournalState F) => ∀ run ∈ opens tr,
      run.reread fl.toFloatFormat ∈ s.dir.runRecords fl) (fun _ hrun => nomatch hrun) ?_ hpower
  intro tr s l s' hsofar _ ih hloss hstep run hmem
  have hsteps := steps_of_next hstep
  have hrecords := Wrote.mem_runRecords (hsteps.wrote hloss) (run.reread fl.toFloatFormat)
  rcases (opens_snoc tr s l run).mp hmem with hmem | hopen
  · exact hrecords.mpr (.inl (ih run hmem))
  · refine hrecords.mpr (.inr ⟨run, ?_, rfl⟩)
    rw [(Steps.opens hsteps (coherent_run hsofar) hopen).written]
    exact List.mem_singleton_self run

/-! ### The start -/

theorem start_next (h : journalNext cfg fl s (.start io) = some (l, s')) :
    l.choice = .start io ∧ l.attempts = (initializeJournal cfg fl io s.dir).attempts ∧
    ((initializeJournal cfg fl io s.dir).outcome = .ok () →
      s'.live = some { mem := (initializeJournal cfg fl io s.dir).mem }) := by
  cases hlive : s.live with
  | some live => simp [journalNext, hlive, callNext] at h
  | none =>
    simp only [journalNext, hlive, some_pair] at h
    obtain ⟨rfl, rfl⟩ := h
    refine ⟨rfl, rfl, fun hok => ?_⟩
    simp only [hok]

/-- The runs that an `initialize` recovers after the steps of `tr`, which led to `s`. -/
structure Recovery (fl : FloatCodec F) (tr : JournalTrace F)
    (s : JournalState F) (live : Live F) : Prop where
  /-- Every run whose `open` returned ok is there. -/
  opened : ∀ run ∈ opens tr, (live.mem.runs run.runId).isSome
  /-- A run whose `close` returned ok is as `close` returned it. -/
  closed : ∀ c ∈ closes tr, ∃ r, live.mem.runs c.2.runId = some r ∧ r.state = .closed ∧
    r.closeReason = c.2.closeReason ∧ r.endedAtEpochMs = c.2.endedAtEpochMs
  /-- A run that replays as open is abandoned. -/
  abandoned : ∀ runId r, (replayAll (s.dir.runRecords fl)).runs runId = some r → r.state = .opened →
    ∃ r', live.mem.runs runId = some r' ∧ r'.state = .closed ∧ r'.closeReason = some .abandoned
  noneOpen : ∀ runId r, live.mem.runs runId = some r → r.state = .closed
  openRunId : live.mem.openRunId = none

theorem recovery_of_ok (hrun : Run (journal cfg fl).lts {} tr s) (hpower : NoPowerLoss tr)
    (hok : (initializeJournal cfg fl io s.dir).outcome = .ok ()) :
    Recovery fl tr s { mem := (initializeJournal cfg fl io s.dir).mem } := by
  have hinit := initializeJournal_ok hok
  refine ⟨fun run hopen => ?_, fun c hc => ?_, fun runId r hr hopen => ?_, fun runId r hr => ?_,
    hinit.openRunId⟩
  · have hknown := latest_isSome (listed_run hrun hpower run hopen)
    rw [hinit.runs, Option.isSome_map]
    exact hknown
  · obtain ⟨x, hsealed, hx⟩ := sealed_run hrun hpower c hc
    have hid : x.runId = c.2.runId := by rcases hx with rfl | rfl <;> rfl
    refine ⟨x, ?_, hsealed.closed, ?_, ?_⟩
    · rw [hinit.runs, ← hid, hsealed.last]
      simp [recovered, hsealed.closed]
    · rcases hx with rfl | rfl <;> rfl
    · rcases hx with rfl | rfl <;> rfl
  · rw [replayAll_runs] at hr
    refine ⟨r.close .abandoned (io.recovery runId).now, ?_, rfl, rfl⟩
    rw [hinit.runs, hr]
    simp [recovered, hopen]
  · rw [hinit.runs] at hr
    obtain ⟨x, -, rfl⟩ := Option.map_eq_some_iff.mp hr
    unfold recovered
    split
    · rfl
    · rename_i hopen
      cases hstate : x.state with
      | opened => exact absurd hstate hopen
      | closed => rfl

/-- After any appends that failed and any kills, an `initialize` whose I/O succeeds recovers the
runs, and a torn line changes nothing that is read. -/
theorem run_recovery (cfg : JournalConfig) (fl : FloatCodec F)
    {tr : Trace (JournalState F) (JournalLabel F)} {s s' : JournalState F} {l : JournalLabel F}
    {io : InitializeIo} (hrun : Run (journal cfg fl).lts {} tr s) (hpower : NoPowerLoss tr)
    (hstart : journalNext cfg fl s (.start io) = some (l, s')) (hcreate : io.createError = none)
    (hio : ∀ a ∈ l.attempts, ioSucceeds a) :
    (∃ live, s'.live = some live ∧ Recovery fl tr s live) ∧
    s'.dir.runRecords fl = (wholeRuns (tr ++ [(s, l)])).map (Run.reread fl.toFloatFormat) ∧
    ∀ runId, s'.dir.eventRecords fl runId =
      (wholeEvents (tr ++ [(s, l)]) runId).map (RunEvent.reread fl.toFloatFormat) := by
  obtain ⟨hchoice, hattempts, hlive⟩ := start_next hstart
  rw [hattempts] at hio
  have hok := initializeJournal_succeeds (indexed_run hrun hpower).texts hcreate hio
  refine ⟨⟨_, hlive hok, recovery_of_ok hrun hpower hok⟩, ?_⟩
  refine reads_run (hrun.snoc ⟨_, hstart⟩) (forall_snoc hpower fun loss hloss => ?_)
  rw [hchoice] at hloss
  cases hloss

/-! ### Two kills -/

/-- A start at one millisecond, with I/O that succeeds. -/
def startAtOne : InitializeIo where
  recovery := fun _ => { now := 1, event := atOne .ok }

/-- A run is opened and closed. The record of the next one is torn by a kill, and so is the first
event of a third one, after a restart. -/
def killedTwice : List (JournalChoice Empty) := [.start startAtOne,
  .openRun {} none { ulid := ascii "A", now := 1, event := atOne .ok },
  .closeRun (ascii "bench-A") .completed { now := 2, event := atOne .ok },
  .openRun {} none
    { ulid := ascii "B", now := 3, record := .killedWriting 40, event := atOne .ok },
  .start startAtOne,
  .openRun {} none { ulid := ascii "C", now := 4, event := atOne (.killedWriting 40) }]

/-- The first run is recovered as completed, and the third one as abandoned. -/
theorem run_recovery_killed_twice : ∃ tr s s' l live,
    Run (journal benchConfig noFloats).lts {} tr s ∧
    journalNext benchConfig noFloats s (.start startAtOne) = some (l, s') ∧
    s'.live = some live ∧ (closes tr).length = 1 ∧
    ((replayAll (s.dir.runRecords noFloats)).runs (ascii "bench-C")).isSome ∧
    Recovery noFloats tr s live := by
  obtain ⟨tr, s, hrun, hpass⟩ := (journal benchConfig noFloats).run_of_passes {}
    killedTwice (fun tr s => noPowerLoss tr ∧ (closes tr).length = 1 ∧
      ((replayAll (s.dir.runRecords noFloats)).runs (ascii "bench-C")).isSome ∧
      ∃ r ∈ journalNext benchConfig noFloats s (.start startAtOne),
        ∀ attempt ∈ r.1.attempts, ioSucceeds attempt) (by decide +kernel)
  obtain ⟨hpower, hcloses, hreplay, ⟨l, s'⟩, hstart, hio⟩ := hpass
  obtain ⟨⟨live, hlive, hrecovery⟩, -⟩ := run_recovery benchConfig noFloats hrun
    (noPowerLoss_iff.mp hpower) hstart rfl hio
  exact ⟨tr, s, s', l, live, hrun, hstart, hlive, hcloses, hreplay, hrecovery⟩

end Anolis.Proofs.RunRecovery
