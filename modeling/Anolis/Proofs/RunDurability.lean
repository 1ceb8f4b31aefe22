import Anolis.Proofs.RunRecovery

/-!
# Acknowledged records after a power loss

`run_durability`: a record whose `open` or `close` returned ok is in the index in every later state,
with any failed appends, kills, restarts and power losses. It needs that the entry of `index.jsonl`
is on storage when one of the two is called on an index that exists. A `close` of a run that is
closed already also needs the bytes of the index on storage, with the last line ended.

A power loss leaves the bytes on storage, and in place of the others any bytes
(`LogFile.afterLoss`). A file whose entry is not on storage can be gone.

The two ways in which an acknowledged record is lost are those that the condition excludes
(`acknowledged_run_lost`). `append_record` syncs the directory only where it creates the file, so
after a directory sync that failed the entry stays where it is. And a `close` of a run that was
replayed as closed returns ok without a sync, also where the record was read from bytes whose sync
failed.
-/

namespace Anolis.Proofs.RunDurability

open Lib Lib.Json Lib.RecordLog Runs JournalReads JournalRecords EventIdentity

variable {F : Type} {cfg : JournalConfig} {fl : FloatCodec F}

/-! ### Records on storage -/

/-- The record is on storage, in a file whose entry is there too. -/
def Kept (fl : FloatCodec F) (r : Run F) (dir : RunsDir) : Prop :=
  ∃ f, dir.index = some f ∧ f.linked ∧ OnStorage (readRun fl) f r

variable {r : Run F} {dir : RunsDir}

theorem Kept.mem (h : Kept fl r dir) : r ∈ dir.runRecords fl := by
  obtain ⟨f, hindex, -, hr⟩ := h
  rw [RunsDir.runRecords, hindex]
  exact hr.mem

theorem Kept.wrote {attempts : List (Attempt F)} {dir' : RunsDir}
    (h : Kept fl r dir) (hwrote : Wrote fl attempts dir dir') : Kept fl r dir' := by
  obtain ⟨f, hindex, hlinked, hr⟩ := h
  obtain ⟨f', hindex', hext⟩ := hwrote.index f hindex
  exact ⟨f', hindex', hext.linked hlinked, hr.extends hext⟩

theorem Kept.afterLoss (h : Kept fl r dir) (loss : PowerLoss) : Kept fl r (dir.afterLoss loss) := by
  obtain ⟨f, hindex, hlinked, hr⟩ := h
  refine ⟨f.afterLoss loss.index.tail, ?_, rfl, hr.afterLoss loss.index.tail⟩
  show loss.index.apply dir.index = _
  rw [hindex, FileLoss.apply, Option.bind_some, hlinked]
  rfl

variable {s s' : JournalState F} {l : JournalLabel F}

theorem Kept.step (h : Kept fl r s.dir) (hstep : Steps cfg fl s l s') : Kept fl r s'.dir := by
  rcases hstep.loss_or_wrote with ⟨loss, -, hdir⟩ | hwrote
  · rw [hdir]
    exact h.afterLoss loss
  · exact h.wrote hwrote

theorem kept_of_mem {f : LogFile} (hindex : dir.index = some f)
    (hr : r ∈ dir.runRecords fl) (hlinked : f.linked) (hsynced : f.synced = f.content.length)
    (htorn : torn f.content = false) : Kept fl r dir := by
  rw [RunsDir.runRecords, hindex] at hr
  exact ⟨f, hindex, hlinked, onStorage_of_mem hr hsynced htorn⟩

variable {run : Run F}

/-- An append that succeeds, to an index that is new or whose entry is on storage. -/
theorem kept_appendRecord {fate : AppendFate} {mem : Memory F}
    (hok : (appendRecord cfg fl run fate mem dir).outcome = .ok ())
    (hlinked : ∀ f, dir.index = some f → f.linked) :
    Kept fl (run.reread fl.toFloatFormat) (appendRecord cfg fl run fate mem dir).dir := by
  obtain ⟨-, -, f₁, hfile, hsynced, htorn, hnew⟩ := appendLine_ok (appendRecord_result hok)
  obtain ⟨f₂, hindex, hext, hcontent, hsame⟩ := index_setIndex dir hfile
  have hmem : run.reread fl.toFloatFormat ∈
      (appendRecord cfg fl run fate mem dir).dir.runRecords fl := by
    rw [appendRecord_runRecords hok]
    exact List.mem_append_right _ (List.mem_singleton_self _)
  refine kept_of_mem hindex hmem (hext.linked ?_) (by rw [hsame, hcontent, hsynced])
    (hcontent ▸ htorn)
  cases hbefore : dir.index with
  | none => exact hnew hbefore
  | some f =>
    obtain ⟨f', hfile', hgrown⟩ := appendLine_extends (run.line fl) fate hbefore
    rw [hfile] at hfile'
    cases hfile'
    exact hgrown.linked (hlinked f hbefore)

/-! ### The machine -/

/-- Is the run closed in memory. -/
def closedInMemory (s : JournalState F) (runId : Bytes) : Bool :=
  s.live.any fun live => (live.mem.runs runId).any fun run => run.state = .closed

/-- What `open` and `close` need of an index that exists: its entry is on storage. Where the run is
closed already the bytes are on storage too, and the last line is ended. -/
def onDurableIndex (s : JournalState F) (l : JournalLabel F) : Bool :=
  match l.choice with
  | .openRun .. => s.dir.index.all fun f => f.linked
  | .closeRun runId _ _ =>
    s.dir.index.all fun f => f.linked &&
      (!closedInMemory s runId || (decide (f.synced = f.content.length) && !torn f.content))
  | _ => true

theorem kept_of_booked (h : Booked cfg fl s l s' run)
    (hsafe : ∀ f, s.dir.index = some f → f.linked) :
    Kept fl (run.reread fl.toFloatFormat) s'.dir := by
  obtain ⟨fate, mem, event, hrecord, hevent⟩ := h.record
  exact (kept_appendRecord hrecord hsafe).wrote hevent

theorem kept_of_open (hcoherent : CoherentState fl s)
    (hstep : Steps cfg fl s l s') (hopen : openedBy l = some run)
    (hsafe : onDurableIndex s l) : Kept fl (run.reread fl.toFloatFormat) s'.dir := by
  obtain ⟨⟨spec, version, io, hchoice⟩, -⟩ := of_openedBy hopen
  refine kept_of_booked (Steps.opens hstep hcoherent hopen) fun f hf => ?_
  simpa [onDurableIndex, hchoice, hf] using hsafe

theorem kept_of_close {reason : CloseReason} (hcoherent : CoherentState fl s)
    (hstep : Steps cfg fl s l s') (hclose : closedBy l = some (reason, run))
    (hsafe : onDurableIndex s l) :
    ∃ x, Kept fl x s'.dir ∧ (x = run ∨ x = run.reread fl.toFloatFormat) := by
  obtain ⟨⟨runId, io, hchoice⟩, houtcome⟩ := of_closedBy hclose
  rcases Steps.answered hstep hcoherent houtcome with hbooked |
    ⟨hdir, runId, reason, io, live, hlive, hchoice, hrun, hclosed, -⟩
  · refine ⟨_, kept_of_booked hbooked fun f hf => ?_, .inr rfl⟩
    rw [onDurableIndex, hchoice] at hsafe
    simp only [hf, Option.all_some, Bool.and_eq_true] at hsafe
    exact hsafe.1
  · -- the record is the one that was read
    rw [onDurableIndex, hchoice] at hsafe
    obtain ⟨x, hlast, hx⟩ := (hcoherent live hlive).closed runId run hrun hclosed
    refine ⟨x, ?_, hx⟩
    rw [hdir]
    have hmem := (latest_some hlast).1
    cases hindex : s.dir.index with
    | none =>
      rw [RunsDir.runRecords, hindex] at hmem
      cases hmem
    | some f =>
      have hinMemory : closedInMemory s runId := by simp [closedInMemory, hlive, hrun, hclosed]
      simp only [hindex, Option.all_some, hinMemory, Bool.not_true, Bool.false_or, Bool.and_eq_true,
        decide_eq_true_eq, Bool.not_eq_true'] at hsafe
      obtain ⟨hlinked, hsynced, htorn⟩ := hsafe
      exact kept_of_mem hindex hmem hlinked hsynced htorn

/-- A record whose `open` or `close` returned ok is in the index in every later state, also after
power losses. -/
theorem run_durability (cfg : JournalConfig) (fl : FloatCodec F)
    {tr : Trace (JournalState F) (JournalLabel F)} {s : JournalState F}
    (hrun : Run (journal cfg fl).lts {} tr s)
    (hsafe : ∀ i ∈ tr, onDurableIndex i.1 i.2) :
    (∀ run ∈ opens tr, run.reread fl.toFloatFormat ∈ s.dir.runRecords fl) ∧
    ∀ c ∈ closes tr, c.2 ∈ s.dir.runRecords fl ∨ c.2.reread fl.toFloatFormat ∈
      s.dir.runRecords fl := by
  have hkept : (∀ run ∈ opens tr, Kept fl (run.reread fl.toFloatFormat) s.dir) ∧
      ∀ c ∈ closes tr, ∃ x, Kept fl x s.dir ∧ (x = c.2 ∨ x = c.2.reread fl.toFloatFormat) := by
    refine hrun.induct_of (C := fun s l => onDurableIndex s l)
      (J := fun tr (s : JournalState F) =>
        (∀ run ∈ opens tr, Kept fl (run.reread fl.toFloatFormat) s.dir) ∧
        ∀ c ∈ closes tr, ∃ x, Kept fl x s.dir ∧ (x = c.2 ∨ x = c.2.reread fl.toFloatFormat))
      ⟨(fun _ h => nomatch h), fun _ h => nomatch h⟩ ?_ hsafe
    rintro tr s l s' hrun - ⟨hopens, hcloses⟩ hsafe hstep
    have hsteps := steps_of_next hstep
    refine ⟨fun run hmem => ?_, fun c hmem => ?_⟩
    · rcases (opens_snoc tr s l run).mp hmem with hmem | hopen
      · exact (hopens run hmem).step hsteps
      · exact kept_of_open (coherent_run hrun) hsteps hopen hsafe
    · rcases (closes_snoc tr s l c).mp hmem with hmem | hclose
      · obtain ⟨x, hx, hsame⟩ := hcloses c hmem
        exact ⟨x, hx.step hsteps, hsame⟩
      · exact kept_of_close (coherent_run hrun) hsteps hclose hsafe
  refine ⟨fun run hmem => (hkept.1 run hmem).mem, fun c hmem => ?_⟩
  obtain ⟨x, hx, rfl | rfl⟩ := hkept.2 c hmem
  · exact .inl hx.mem
  · exact .inr hx.mem

/-! ### Three power losses -/

/-- Nothing that is not on storage is there afterwards. -/
def cleanLoss : PowerLoss where
  index := { entryKept := false }
  events := fun _ => { entryKept := false }

/-- A process starts and opens two runs, the first with a fate and the second with the events' fate,
and the power is lost. -/
def openTwice (record event : AppendFate) : List (JournalChoice Empty) := [
  .start RunRecovery.startAtOne,
  .openRun {} none
    { ulid := ascii "A", now := 1, record, event := atOne .ok },
  .openRun {} none
    { ulid := ascii "B", now := 2, event := atOne event },
  .powerLoss cleanLoss]

/-- The append of the first run cannot open the file. The second one creates it, and its record is
there after the power loss. -/
theorem run_durability_created : ∃ tr s,
    Run (journal benchConfig noFloats).lts {} tr s ∧ (opens tr).length = 1 ∧
    ∀ run ∈ opens tr, run.reread noFloats.toFloatFormat ∈ s.dir.runRecords noFloats := by
  obtain ⟨tr, s, hrun, hpass⟩ := (journal benchConfig noFloats).run_of_passes {}
    (openTwice .cannotOpen .dirSyncFails) (fun tr _ => (opens tr).length = 1 ∧
      ∀ i ∈ tr, onDurableIndex i.1 i.2) (by decide +kernel)
  exact ⟨tr, s, hrun, hpass.1, (run_durability benchConfig noFloats hrun hpass.2).1⟩

/-- A run is opened, and the sync of its `close` fails. After a restart it is closed, the `close`
returns ok, and the power is lost. -/
def closeTwice : List (JournalChoice Empty) := [.start RunRecovery.startAtOne,
  .openRun {} none { ulid := ascii "A", now := 1, event := atOne .ok },
  .closeRun (ascii "bench-A") .completed
    { now := 2, record := .syncFails, event := atOne .ok },
  .exit,
  .start RunRecovery.startAtOne,
  .closeRun (ascii "bench-A") .completed { now := 3, event := atOne .ok },
  .powerLoss cleanLoss]

/-- The first `open` creates the index, and the sync of the directory fails. The second one returns
ok without a sync of the directory, and the power loss takes the index. A `close` that is repeated
returns ok for a record that is not on storage, and the power loss takes the record. -/
theorem acknowledged_run_lost :
    (∃ tr s, Run (journal benchConfig noFloats).lts {} tr s ∧
      (opens tr).length = 1 ∧ s.dir.runRecords noFloats = []) ∧
    ∃ tr s, Run (journal benchConfig noFloats).lts {} tr s ∧
      (closes tr).length = 1 ∧ ∀ r ∈ s.dir.runRecords noFloats, r.state = .opened := by
  constructor
  · obtain ⟨tr, s, hrun, hpass⟩ := (journal benchConfig noFloats).run_of_passes {}
      (openTwice .dirSyncFails .dirSyncFails) (fun tr s => (opens tr).length = 1 ∧
        (s.dir.runRecords noFloats).isEmpty) (by decide +kernel)
    exact ⟨tr, s, hrun, hpass.1, List.isEmpty_iff.mp hpass.2⟩
  · obtain ⟨tr, s, hrun, hpass⟩ := (journal benchConfig noFloats).run_of_passes {}
      closeTwice (fun tr s => (closes tr).length = 1 ∧
        ∀ r ∈ s.dir.runRecords noFloats, r.state = .opened) (by decide +kernel)
    exact ⟨tr, s, hrun, hpass⟩

end Anolis.Proofs.RunDurability
