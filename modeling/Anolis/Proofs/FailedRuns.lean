import Anolis.Proofs.RunRecovery

/-!
# What a failed `open` or `close` leaves

`failed_runs`: where no append of `open` or `close` fails with the whole text of its record in the
index, an `initialize` recovers exactly the runs whose `open` returned ok, and with a reason other
than abandoned only where a `close` with that reason returned ok.

`append_record` reports an error where the write fails, and also where the sync of the file or of
the directory fails behind the write. In that last case the line is in the file as a whole, as it is
where only its line break could not be written. `open` and `close` take the error for a record that
is not there, and the next `initialize` reads it (`failed_open_recovered`).
-/

namespace Anolis.Proofs.FailedRuns

open Lib Lib.Json Lib.RecordLog Runs JournalReads JournalRecords RunRecovery EventIdentity

variable {F : Type} {cfg : JournalConfig} {fl : FloatCodec F}

/-! ### The condition -/

/-- The record that an `open` or a `close` would append in a state, and how far the append gets. -/
def recordAppend (cfg : JournalConfig) (live : Live F) : JournalChoice F → Option
    (Run F × AppendFate)
  | .openRun spec version io =>
    if live.mem.openRunId.isNone then some (openedRun cfg spec version io, io.record) else none
  | .closeRun runId reason io =>
    (live.mem.runs runId).bind fun run =>
      if run.state = .opened then some (run.close reason io.now, io.record) else none
  | _ => none

/-- No append of `open` or `close` fails with the whole text of its record in the index. -/
def leavesNothing (cfg : JournalConfig) (fl : FloatCodec F) (s : JournalState F)
    (l : JournalLabel F) : Bool :=
  s.live.all fun live =>
    (recordAppend cfg live l.choice).all fun append =>
      !leavesWhole (append.1.line fl) append.2 s.dir.index

variable {s : JournalState F} {l : JournalLabel F}

theorem leavesNothing_append {live : Live F}
    (append : Run F × AppendFate) (h : leavesNothing cfg fl s l) (hlive : s.live = some live)
    (happend : recordAppend cfg live l.choice = some append) :
    leavesWhole (append.1.line fl) append.2 s.dir.index = false := by
  simpa [leavesNothing, hlive, happend] using h

/-- The process is not killed in the step. -/
def survives (l : JournalLabel F) : Bool :=
  match l.outcome with
  | .killed => false
  | _ => true

theorem survives_iff : survives l ↔ l.outcome ≠ .killed := by
  unfold survives
  cases l.outcome <;> simp

/-! ### A record in the index was acknowledged -/

variable {w : Run F} {mem : Memory F} {dir : RunsDir} {tr : JournalTrace F}

theorem appendRecord_leaves {run : Run F} {fate : AppendFate}
    (hw : w ∈ writtenRuns (appendRecord cfg fl run fate mem dir).attempts)
    (hleaves : leavesWhole (run.line fl) fate dir.index = false)
    (halive : (appendRecord cfg fl run fate mem dir).outcome ≠ .killed) :
    (appendRecord cfg fl run fate mem dir).outcome = .ok () := by
  have hwhole : (appendLine (run.line fl) fate dir.index).whole := by
    cases hwhole : (appendLine (run.line fl) fate dir.index).whole with
    | true => rfl
    | false => simp [appendRecord, writtenRuns, hwhole] at hw
  have hresult : (appendLine (run.line fl) fate dir.index).result ≠ .killed := by
    intro hkilled
    exact halive (by simp only [appendRecord, hkilled])
  simp only [appendRecord, appendLine_leaves hleaves hwhole hresult]

/-- A transaction whose record is in the index returned it, unless the process was killed. -/
theorem Transacts.acknowledged {t : Transaction F} {answer : Run F} {out : Section F (Run F)}
    (h : Transacts cfg fl t dir answer out) (hid : t.run.runId = t.entry.runId)
    (hw : w ∈ writtenRuns out.attempts)
    (hleaves : leavesWhole (t.run.line fl) t.fate dir.index = false)
    (htype : Utf8.valid t.entry.type)
    (hpayload : Json.isUtf8 t.entry.payload.1) (halive : out.outcome ≠ .killed) :
    out.outcome = .ok answer := by
  have htext : Json.isUtf8 t.run.toJson := h.written hw ▸ h.wrote.texts w hw
  cases h with
  | stopped hrecord _ _ hattempts _ hkilled =>
    -- the record is not one whose append failed
    exact absurd (appendRecord_leaves (hattempts ▸ hw) hleaves fun h => halive (hkilled h)) hrecord
  | done _ _ _ _ houtcome =>
    -- an id that is in a text can be in the text of the event
    have hthrew : (t.event cfg fl dir).outcome ≠ .threw :=
      Entry.not_threw cfg (hid ▸ isUtf8_runId htext) htype hpayload
    rw [houtcome] at halive ⊢
    cases hevent : (t.event cfg fl dir).outcome with
    | ok a => rfl
    | error text => rfl
    | threw => exact absurd hevent hthrew
    | killed => exact absurd (by rw [hevent]; rfl) halive

/-- Which call acknowledged a record that a step wrote. -/
inductive Acknowledged (fl : FloatCodec F) (s : JournalState F) (l : JournalLabel F)
    (w : Run F) : Prop
  | opened (hopen : openedBy l = some w) (hreason : w.closeReason = none)
  | closed (reason : CloseReason) (hclose : closedBy l = some (reason, w))
      (hreason : w.closeReason = some reason)
      (hlisted : ∃ r ∈ s.dir.runRecords fl, r.runId = w.runId)
  | abandoned (hreason : w.closeReason = some .abandoned)
      (hlisted : ∃ r ∈ s.dir.runRecords fl, r.runId = w.runId)

theorem Steps.acknowledged {s' : JournalState F}
    (h : Steps cfg fl s l s') (hindexed : Indexed fl s) (hw : w ∈ writtenRuns l.attempts)
    (hleaves : leavesNothing cfg fl s l) (halive : l.outcome ≠ .killed) :
    Acknowledged fl s l w := by
  cases Steps.writtenBy h hw with
  | recovered io run _ hlast _ hclose =>
    obtain ⟨hrun, hid⟩ := latest_some hlast
    exact .abandoned (by rw [hclose]; rfl) ⟨run, hrun, hid⟩
  | asked live t out heq hlive hasked hout hleft =>
    have hids := (hindexed.coherent live hlive).id
    rw [hleft.attempts] at hw
    have hnotKilled : out.outcome ≠ .killed := by
      intro hkilled
      rw [hleft.outcome, hkilled] at halive
      exact halive rfl
    have hid := (hasked.fits hids).1.id
    generalize hchoice : l.choice = choice, s'.minted = minted at hasked
    cases hasked with
    | opening spec version io hnone =>
      have hok := Transacts.acknowledged hout hid hw (leavesNothing_append
        (openedRun cfg spec version io, io.record) hleaves hlive
        (by rw [hchoice, recordAppend, hnone]; rfl)) rfl rfl hnotKilled
      refine .opened ?_ (by rw [heq]; rfl)
      rw [openedBy, hchoice, hleft.outcome, hok, heq]
      rfl
    | closing runId run reason io hrun hopen =>
      have hok := Transacts.acknowledged hout hid hw (leavesNothing_append
        (run.close reason io.now, io.record) hleaves hlive
        (by simp [hchoice, recordAppend, hrun, hopen])) (isUtf8_reason reason) rfl hnotKilled
      refine .closed reason ?_ (by rw [heq]; rfl) ?_
      · rw [closedBy, hchoice, hleft.outcome, hok, heq]
        rfl
      · rw [heq, hid]
        exact hindexed.listed live hlive runId run hrun

/-! ### The index and the calls that returned ok -/

/-- The index has the runs whose `open` returned ok, with the reasons whose `close` returned ok. -/
structure Faithful (fl : FloatCodec F) (tr : JournalTrace F)
    (s : JournalState F) : Prop where
  opened : ∀ runId, (∃ r ∈ s.dir.runRecords fl, r.runId = runId) ↔
    ∃ run ∈ opens tr, run.runId = runId
  reasons : ∀ r ∈ s.dir.runRecords fl, ∀ reason, r.closeReason = some reason → reason ≠ .abandoned →
    ∃ c ∈ closes tr, c.1 = reason ∧ c.2.runId = r.runId

theorem Faithful.step {s s' : JournalState F}
    {l : JournalLabel F} (h : Faithful fl tr s) (hindexed : Indexed fl s)
    (hstep : Steps cfg fl s l s') (hpower : ∀ loss, l.choice ≠ .powerLoss loss)
    (hleaves : leavesNothing cfg fl s l) (halive : l.outcome ≠ .killed) :
    Faithful fl (tr ++ [(s, l)]) s' := by
  have hrecords := Wrote.mem_runRecords (hstep.wrote hpower)
  have hack {w : Run F} (hw : w ∈ writtenRuns l.attempts) : Acknowledged fl s l w :=
    Steps.acknowledged hstep hindexed hw hleaves halive
  -- a run with a record before the step
  have hbefore {runId : Bytes} (hlisted : ∃ r ∈ s.dir.runRecords fl, r.runId = runId) :
      ∃ run ∈ opens (tr ++ [(s, l)]), run.runId = runId := by
    obtain ⟨run, hrun, hid⟩ := (h.opened runId).mp hlisted
    exact ⟨run, (opens_snoc tr s l run).mpr (.inl hrun), hid⟩
  constructor
  · intro runId
    constructor
    · rintro ⟨r, hr, rfl⟩
      rcases (hrecords r).mp hr with hr | ⟨w, hw, rfl⟩
      · exact hbefore ⟨r, hr, rfl⟩
      · cases hack hw with
        | opened hopen => exact ⟨w, (opens_snoc tr s l w).mpr (.inr hopen), rfl⟩
        | closed _ _ _ hlisted | abandoned _ hlisted => exact hbefore hlisted
    · rintro ⟨run, hrun, rfl⟩
      rcases (opens_snoc tr s l run).mp hrun with hrun | hopen
      · obtain ⟨r, hr, hid⟩ := (h.opened run.runId).mpr ⟨run, hrun, rfl⟩
        exact ⟨r, (hrecords r).mpr (.inl hr), hid⟩
      · refine ⟨run.reread fl.toFloatFormat, (hrecords _).mpr (.inr ⟨run, ?_, rfl⟩), rfl⟩
        rw [(Steps.opens hstep hindexed.coherent hopen).written]
        exact List.mem_singleton_self run
  · intro r hr reason hreason hother
    rcases (hrecords r).mp hr with hr | ⟨w, hw, rfl⟩
    · obtain ⟨c, hc, hboth⟩ := h.reasons r hr reason hreason hother
      exact ⟨c, (closes_snoc tr s l c).mpr (.inl hc), hboth⟩
    · have hw' : w.closeReason = some reason := hreason
      cases hack hw with
      | opened _ hnone =>
        rw [hnone] at hw'
        cases hw'
      | closed given hclose hgiven =>
        rw [hgiven] at hw'
        obtain rfl := Option.some.inj hw'
        exact ⟨(given, w), (closes_snoc tr s l _).mpr (.inr hclose), rfl, rfl⟩
      | abandoned habandoned =>
        rw [habandoned] at hw'
        exact absurd (Option.some.inj hw').symm hother

theorem faithful_run (hrun : Run (journal cfg fl).lts {} tr s) (hpower : NoPowerLoss tr)
    (halive : ∀ i ∈ tr, survives i.2)
    (hleaves : ∀ i ∈ tr, leavesNothing cfg fl i.1 i.2) : Faithful fl tr s := by
  refine hrun.induct_of (C := fun s (l : JournalLabel F) => (∀ loss, l.choice ≠ .powerLoss loss) ∧
    survives l ∧ leavesNothing cfg fl s l) (J := fun tr s => Faithful fl tr s) ?_ ?_
    fun i hi => ⟨hpower i hi, halive i hi, hleaves i hi⟩
  · exact ⟨fun runId => by simp [opens, RunsDir.runRecords, recordsOf], fun r hr => nomatch hr⟩
  · rintro tr s l s' hrun hbefore h ⟨hloss, halive, hleaves⟩ hstep
    have hindexed := indexed_run hrun fun i hi => (hbefore i hi).1
    exact h.step hindexed (steps_of_next hstep) hloss hleaves (survives_iff.mp halive)

/-- Where no append of `open` or `close` fails with the whole text in the index, `initialize`
recovers exactly the runs whose `open` returned ok, and the reasons are of a `close` that returned
ok. -/
theorem failed_runs (cfg : JournalConfig) (fl : FloatCodec F)
    {tr : Trace (JournalState F) (JournalLabel F)} {s s' : JournalState F} {l : JournalLabel F}
    {io : InitializeIo} (hrun : Run (journal cfg fl).lts {} tr s) (hpower : NoPowerLoss tr)
    (halive : ∀ i ∈ tr, survives i.2)
    (hleaves : ∀ i ∈ tr, leavesNothing cfg fl i.1 i.2)
    (hstart : journalNext cfg fl s (.start io) = some (l, s')) (hcreate : io.createError = none)
    (hio : ∀ a ∈ l.attempts, ioSucceeds a) : ∃ live, s'.live = some live ∧
      (∀ runId, (live.mem.runs runId).isSome ↔ ∃ run ∈ opens tr, run.runId = runId) ∧
      ∀ runId run reason, live.mem.runs runId = some run → run.closeReason = some reason →
        reason ≠ .abandoned → ∃ c ∈ closes tr, c.1 = reason ∧ c.2.runId = runId := by
  obtain ⟨-, hattempts, hlive⟩ := start_next hstart
  rw [hattempts] at hio
  have hok := initializeJournal_succeeds (indexed_run hrun hpower).texts hcreate hio
  have hinit := initializeJournal_ok hok
  have hfaithful := faithful_run hrun hpower halive hleaves
  refine ⟨_, hlive hok, fun runId => ?_, fun runId run reason hrun' hreason hother => ?_⟩
  · rw [← hfaithful.opened, hinit.runs, Option.isSome_map]
    constructor
    · intro hsome
      obtain ⟨r, hlast⟩ := Option.isSome_iff_exists.mp hsome
      exact ⟨r, latest_some hlast⟩
    · rintro ⟨r, hr, rfl⟩
      exact latest_isSome hr
  · rw [hinit.runs] at hrun'
    obtain ⟨r, hlast, rfl⟩ := Option.map_eq_some_iff.mp hrun'
    obtain ⟨hr, rfl⟩ := latest_some hlast
    unfold recovered at hreason
    split at hreason
    · -- a run that was left open
      exact absurd (Option.some.inj hreason).symm hother
    · exact hfaithful.reasons r hr reason hreason hother

/-! ### An `open` that fails -/

/-- A process starts, an `open` has a fate, and the process ends. -/
def openOnce (ulid : String) (fate : AppendFate) : List (JournalChoice Empty) := [.start startAtOne,
  .openRun {} none
    { ulid := ascii ulid, now := 1, record := fate, event := atOne .ok },
  .exit]

/-- The record is torn: the `open` fails and leaves no run. The one of the next process succeeds. -/
theorem failed_runs_torn : ∃ tr s s' l live, Run (journal benchConfig noFloats).lts {} tr s ∧
    journalNext benchConfig noFloats s (.start startAtOne) = some (l, s') ∧
    s'.live = some live ∧ opens tr ≠ [] ∧
    ∀ runId, (live.mem.runs runId).isSome ↔ ∃ run ∈ opens tr, run.runId = runId := by
  obtain ⟨tr, s, hrun, hpass⟩ := (journal benchConfig noFloats).run_of_passes {}
    (openOnce "A" (.writeFails 40) ++ openOnce "B" .ok)
    (fun tr s => opens tr ≠ [] ∧ noPowerLoss tr ∧ (∀ i ∈ tr, survives i.2) ∧
      (∀ i ∈ tr, leavesNothing benchConfig noFloats i.1 i.2) ∧
      ∃ r ∈ journalNext benchConfig noFloats s (.start startAtOne),
        ∀ attempt ∈ r.1.attempts, ioSucceeds attempt) (by decide +kernel)
  obtain ⟨hopened, hpower, halive, hleaves, ⟨l, s'⟩, hstart, hio⟩ := hpass
  obtain ⟨live, hlive, hopens, -⟩ := failed_runs benchConfig noFloats hrun
    (noPowerLoss_iff.mp hpower) halive hleaves hstart rfl hio
  exact ⟨tr, s, s', l, live, hrun, hstart, hlive, hopened, hopens⟩

/-- The sync of the record fails. The `open` returns an error, and the next `initialize` recovers
the run. -/
theorem failed_open_recovered : ∃ tr s s' l live,
    Run (journal benchConfig noFloats).lts {} tr s ∧ NoPowerLoss tr ∧
    (∀ i ∈ tr, survives i.2) ∧
    journalNext benchConfig noFloats s (.start startAtOne) = some (l, s') ∧
    (∀ a ∈ l.attempts, ioSucceeds a) ∧ s'.live = some live ∧
    (live.mem.runs (ascii "bench-A")).isSome ∧ opens tr = [] := by
  obtain ⟨tr, s, hrun, hpass⟩ := (journal benchConfig noFloats).run_of_passes {}
    (openOnce "A" .syncFails) (fun tr s => noPowerLoss tr ∧ (∀ i ∈ tr, survives i.2) ∧
      (opens tr).isEmpty ∧
      ∃ r ∈ journalNext benchConfig noFloats s (.start startAtOne),
        (∀ attempt ∈ r.1.attempts, ioSucceeds attempt) ∧
        ∃ live ∈ r.2.live, (live.mem.runs (ascii "bench-A")).isSome) (by decide +kernel)
  obtain ⟨hpower, halive, hopens, ⟨l, s'⟩, hstart, hio, live, hlive, hknown⟩ := hpass
  exact ⟨tr, s, s', l, live, hrun, noPowerLoss_iff.mp hpower, halive, hstart, hio, hlive, hknown,
    List.isEmpty_iff.mp hopens⟩

end Anolis.Proofs.FailedRuns
