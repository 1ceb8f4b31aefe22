import Anolis.Proofs.JournalBook
import Anolis.Proofs.RunRecovery

/-!
# The journal keeps its book

`journal_streams`: in every run of the machine whose I/O succeeds, with restarts and any schedule of
the writer, at most one run is open and `open_run_id_` names it. The events of a run are numbered 1,
2, 3 and so on, from the one that opened it to the one that closed it, and nothing is added to a run
that is closed. The events of the queue get into the streams in the order in which they were queued.

The files of the journal are a book (`bookOf`), and each function takes it from one book to the next
(`Journaled.step`). The memory says of each run what its last record says (`Follows`).

I/O that succeeds leaves the exception for a text that cannot be made. `open`, `close` and
`initialize` make two appends each, and where the text of the record can be made, so can the one of
the event.
-/

namespace Anolis.Proofs.JournalStreams

open Lib Lib.Json Lib.RecordLog Runs JournalReads JournalRecords EventIdentity JournalBook

variable {F : Type} {cfg : JournalConfig} {fl : FloatCodec F} {b : Book F} {l : JournalLabel F}
  {runId : Bytes} {s s' : JournalState F} {t : Transaction F} {tr : JournalTrace F} {α : Type}
  {mem : Memory F} {dir : RunsDir} {choice : JournalChoice F} {out : Section F (Run F)}
  {tr' : JournalTrace F}

/-! ### The files as a book -/

def bookOf (fl : FloatCodec F) (dir : RunsDir) : Book F := ⟨dir.runRecords fl, dir.eventRecords fl⟩

/-- The memory follows the book. -/
structure Follows (fl : FloatCodec F) (mem : Memory F) (dir : RunsDir) : Prop where
  id : ∀ runId run, mem.runs runId = some run → run.runId = runId
  states : ∀ runId, (mem.runs runId).map (fun run => run.state) = (bookOf fl dir).stateOf runId
  counted : Counted fl mem dir

/-- `open_run_id_` names the run that is open. -/
def Names (fl : FloatCodec F) (mem : Memory F) (dir : RunsDir) : Prop :=
  ∀ runId, mem.openRunId = some runId ↔ (bookOf fl dir).stateOf runId = some .opened

theorem Follows.stateOf {run : Run F} (h : Follows fl mem dir) (hrun : mem.runs runId = some run) :
    (bookOf fl dir).stateOf runId = some run.state := by
  rw [← h.states, hrun]
  rfl

/-! ### Appending an event -/

section
variable {entry : Entry F}

theorem isNext_event (h : Counted fl mem dir) : (bookOf fl dir).IsNext entry.runId
    ((entry.event fl mem dir).reread fl.toFloatFormat) :=
  ⟨rfl, h.next entry.runId⟩

theorem bookOf_event (hok : (entry.append cfg fl mem dir).outcome = .ok (entry.event fl mem dir)) :
    bookOf fl (entry.append cfg fl mem dir).dir =
      (bookOf fl dir).append ((entry.event fl mem dir).reread fl.toFloatFormat) := by
  have hresult : (entry.line fl mem dir).result = .ok := by
    rcases entry.append_cases cfg fl mem dir with ⟨hok, -⟩ | ⟨-, hother⟩ | ⟨-, hother⟩ | ⟨_, hother⟩
    · exact hok
    all_goals cases hok.symm.trans hother
  have hwhole : (entry.line fl mem dir).whole := (appendLine_ok hresult).1
  have hid : ((entry.event fl mem dir).reread fl.toFloatFormat).runId = entry.runId := rfl
  have hevents : (entry.append cfg fl mem dir).dir.eventRecords fl =
      ((bookOf fl dir).append ((entry.event fl mem dir).reread fl.toFloatFormat)).streams := by
    funext other
    rw [entry.eventRecords, streams_append, hid]
    by_cases hother : other = entry.runId
    · rw [if_pos ⟨hother, hwhole⟩, if_pos hother]
      rfl
    · rw [if_neg fun hboth => hother hboth.1, if_neg hother, List.append_nil]
      rfl
  unfold bookOf
  rw [hevents, entry.append_runRecords]
  rfl

theorem bookOf_threw (hthrew : (entry.append cfg fl mem dir).outcome = .threw) :
    bookOf fl (entry.append cfg fl mem dir).dir = bookOf fl dir := by
  have hresult : (entry.line fl mem dir).result = .threw := by
    rcases entry.append_cases cfg fl mem dir with ⟨-, hother⟩ | ⟨hthrew, -⟩ | ⟨-,
      hother⟩ | ⟨_, hother⟩
    · cases hthrew.symm.trans hother
    · exact hthrew
    all_goals cases hthrew.symm.trans hother
  have hevents : (entry.append cfg fl mem dir).dir.eventRecords fl = dir.eventRecords fl := by
    funext other
    rw [entry.eventRecords, if_neg, List.append_nil]
    rintro ⟨-, hwhole⟩
    have htext := appendLine_text hwhole
    rw [appendLine_threw hresult] at htext
    cases htext
  unfold bookOf
  rw [hevents, entry.append_runRecords]

/-- The memory follows the book through an append whose I/O succeeds. -/
theorem Follows.event (h : Follows fl mem dir) (hknown : (mem.runs entry.runId).isSome)
    (hio : ∀ a ∈ (entry.append cfg fl mem dir).attempts, ioSucceeds a) :
    Follows fl (entry.append cfg fl mem dir).mem (entry.append cfg fl mem dir).dir where
  id := by
    rw [entry.append_runs]
    exact h.id
  states other := by
    rw [entry.append_runs, h.states, Book.stateOf, Book.stateOf]
    show (latest (dir.runRecords fl) other).map _ = (latest (RunsDir.runRecords fl _) other).map _
    rw [entry.append_runRecords]
  counted := by
    refine h.counted.event cfg hknown (fun _ => ?_) ?_
    · -- a write that fails is not I/O that succeeds
      by_contra hfails
      have hresult := failsWhole_result (eq_true_of_ne_false hfails)
      have hsucceeds := hio _ (List.mem_singleton_self _)
      rw [Entry.event] at hresult
      simp [ioSucceeds, hresult] at hsucceeds
    · rcases Entry.succeeds hio with hok | hthrew
      · rw [hok]
        exact fun hkilled => by cases hkilled
      · rw [hthrew]
        exact fun hkilled => by cases hkilled

end

/-! ### Appending a record -/

section
variable {run : Run F} {fate : AppendFate} {mem' : Memory F}

theorem eventRecords_appendRecord (cfg : JournalConfig) (fl : FloatCodec F) (run : Run F)
    (fate : AppendFate) (mem : Memory F) (dir : RunsDir) :
    (appendRecord cfg fl run fate mem dir).dir.eventRecords fl = dir.eventRecords fl := by
  funext runId
  exact eventRecords_setIndex dir _ runId

theorem bookOf_record (hok : (appendRecord cfg fl run fate mem dir).outcome = .ok ()) :
    bookOf fl (appendRecord cfg fl run fate mem dir).dir =
      (bookOf fl dir).record (run.reread fl.toFloatFormat) := by
  unfold bookOf
  rw [appendRecord_runRecords hok, eventRecords_appendRecord]
  rfl

/-- Where the record is not there and the I/O did not fail, its text could not be made. -/
theorem bookOf_record_threw
    (hio : ∀ a ∈ (appendRecord cfg fl run fate mem dir).attempts, ioSucceeds a)
    (hnot : (appendRecord cfg fl run fate mem dir).outcome ≠ .ok ()) :
    bookOf fl (appendRecord cfg fl run fate mem dir).dir = bookOf fl dir := by
  have hresult := hio _ (List.mem_singleton_self _)
  simp only [ioSucceeds, Bool.or_eq_true, decide_eq_true_eq] at hresult
  rcases hresult with hresult | hresult
  · have hok : (appendRecord cfg fl run fate mem dir).outcome = .ok () := by
      simp only [appendRecord, hresult]
    exact absurd hok hnot
  · have hwritten : writtenRuns (appendRecord cfg fl run fate mem dir).attempts = [] := by
      cases hwhole : (appendLine (run.line fl) fate dir.index).whole with
      | true =>
        have htext := appendLine_text hwhole
        rw [appendLine_threw hresult] at htext
        cases htext
      | false => simp [appendRecord, writtenRuns, hwhole]
    unfold bookOf
    rw [(wrote_appendRecord cfg run fate mem dir).runs, hwritten, eventRecords_appendRecord,
      List.map_nil, List.append_nil]

theorem isUtf8_of_appendRecord (hok : (appendRecord cfg fl run fate mem dir).outcome = .ok ()) :
    Json.isUtf8 run.toJson := by
  have hwritten : run ∈ writtenRuns (appendRecord cfg fl run fate mem dir).attempts := by
    rw [appendRecord_ok hok]
    exact List.mem_singleton_self run
  exact (wrote_appendRecord cfg run fate mem dir).texts run hwritten

theorem Follows.record (h : Follows fl mem dir) (hfits : Fits mem t)
    (hok : (t.record cfg fl dir).outcome = .ok ())
    : Follows fl t.mem (t.record cfg fl dir).dir where
  id := by
    rw [hfits.runs]
    exact id_update h.id t.run
  states runId := by
    have hsame : (t.run.reread fl.toFloatFormat).runId = t.run.runId := rfl
    rw [show bookOf fl (t.record cfg fl dir).dir = _ from bookOf_record hok, stateOf_record, hsame,
      hfits.runs, Function.update_apply]
    by_cases hid : runId = t.run.runId
    · rw [if_pos hid, if_pos hid.symm]
      rfl
    · rw [if_neg hid, if_neg (Ne.symm hid)]
      exact h.states runId
  counted := h.counted.transaction hfits cfg _ _

theorem Follows.congr (h : Follows fl mem dir) {dir' : RunsDir}
    (hbook : bookOf fl dir' = bookOf fl dir) : Follows fl mem dir' where
  id := h.id
  states runId := by rw [hbook, h.states]
  counted := by
    refine h.counted.congr (fun runId => ?_) rfl (fun _ hknown => hknown) h.counted.opened
    exact congrFun (congrArg Book.streams hbook) runId

end

theorem Follows.erase {mem' : Memory F} (h : Follows fl mem dir) (herased : Erased runId mem mem')
    : Follows fl mem' dir where
  id := herased.runs ▸ h.id
  states := herased.runs ▸ h.states
  counted := h.counted.erase herased

/-! ### The functions of the journal -/

/-- A function takes the book on, and the memory follows. -/
structure Advances {α : Type} (fl : FloatCodec F) (dir : RunsDir) (out : Section F α) : Prop where
  steps : Book.Steps (bookOf fl dir) (bookOf fl out.dir)
  follows : Follows fl out.mem out.dir

/-- A transaction whose record is appended takes the book on by the record and the event. -/
theorem Transacts.follows {answer : α} {out : Section F α}
    (ht : Transacts cfg fl t dir answer out) (h : Follows fl mem dir) (hfits : Fits mem t)
    (hok : (t.record cfg fl dir).outcome = .ok ()) (htype : Utf8.valid t.entry.type)
    (hpayload : Json.isUtf8 t.entry.payload.1) (hio : ∀ a ∈ out.attempts, ioSucceeds a) :
    out.mem.openRunId = (bif t.seals then t.mem.seal t.entry.runId else t.mem).openRunId ∧
    Follows fl out.mem out.dir ∧
    ∃ event : RunEvent F, event.category = t.entry.category ∧
      (bookOf fl dir).IsNext t.run.runId event ∧
      bookOf fl out.dir = ((bookOf fl dir).record (t.run.reread fl.toFloatFormat)).append
        event := by
  cases ht with
  | stopped hnot => exact absurd hok hnot
  | done _ hmem hdir hattempts _ hopenRun =>
    rw [hattempts] at hio
    have hset := h.record hfits hok
    obtain ⟨-, hio⟩ := List.forall_mem_append.mp hio
    have hvalid : Utf8.valid t.entry.runId :=
      hfits.id ▸ isUtf8_runId (isUtf8_of_appendRecord hok)
    have hevent := (Entry.succeeds hio).resolve_right (Entry.not_threw cfg hvalid htype hpayload)
    have hknown : (t.mem.runs t.entry.runId).isSome := by
      rw [hfits.runs]
      exact isSome_update _ (.inr hfits.id.symm)
    have hfollows := hset.event hknown hio
    have hbook : bookOf fl (t.record cfg fl dir).dir = _ := bookOf_record hok
    have hnext : (bookOf fl (t.record cfg fl dir).dir).IsNext t.entry.runId _ :=
      isNext_event hset.counted
    rw [hbook, ← hfits.id] at hnext
    refine ⟨?_, ?_, _, ?_, ⟨hnext.ofRun, hnext.sequence⟩, ?_⟩
    · have hsame : (t.event cfg fl dir).mem.openRunId = t.mem.openRunId :=
        t.entry.append_openRunId ..
      rw [hopenRun _ hevent]
      cases t.seals
      · exact hsame
      · simp only [cond_true, Memory.seal, hsame]
    · rw [hdir]
      rcases hmem with hmem | herased
      · rw [hmem]
        exact hfollows
      · exact hfollows.erase herased
    · rfl
    · rw [hdir, ← hbook]
      exact bookOf_event hevent

/-- A transaction whose record is not appended leaves the book as it is. -/
theorem Transacts.stays {answer : Run F}
    (ht : Transacts cfg fl t dir answer out) (hkept : t.kept = mem) (h : Follows fl mem dir)
    (hnames : Names fl mem dir) (hnot : (t.record cfg fl dir).outcome ≠ .ok ())
    (hio : ∀ a ∈ out.attempts, ioSucceeds a) : Advances fl dir out ∧ Names fl out.mem out.dir := by
  cases ht with
  | done hok => exact absurd hok hnot
  | stopped _ hmem hdir hattempts =>
    rw [hattempts] at hio
    have hbook : bookOf fl out.dir = bookOf fl dir := by
      rw [hdir]
      exact bookOf_record_threw hio hnot
    rw [hmem, hkept]
    exact ⟨⟨hbook ▸ .refl, hmem ▸ hkept ▸ h.congr hbook⟩,
      fun runId => by rw [hbook]; exact hnames runId⟩

theorem stateOf_closed {run : Run F} {event : RunEvent F} (hclosed : run.state = .closed)
    (runId : Bytes) : ((b.record (run.reread fl.toFloatFormat)).append event).stateOf runId =
      some .opened ↔ b.stateOf runId = some .opened ∧ run.runId ≠ runId := by
  have hid : (run.reread fl.toFloatFormat).runId = run.runId := rfl
  have hstate : (run.reread fl.toFloatFormat).state = .closed := hclosed
  rw [stateOf_append, stateOf_record, hid, hstate]
  by_cases hsame : run.runId = runId
  · simp [hsame]
  · simp [hsame]

theorem advances_asked {minted minted' : List Bytes}
    (hasked : Asked cfg mem minted choice t minted')
    (ht : Transacts cfg fl t dir t.run out) (h : Follows fl mem dir) (hnames : Names fl mem dir)
    (hio : ∀ a ∈ out.attempts, ioSucceeds a) : Advances fl dir out ∧ Names fl out.mem out.dir := by
  obtain ⟨hfits, hkept⟩ := hasked.fits h.id
  by_cases hok : (t.record cfg fl dir).outcome = .ok ()
  case neg => exact Transacts.stays ht hkept h hnames hok hio
  have hid : (t.run.reread fl.toFloatFormat).runId = t.run.runId := rfl
  cases hasked with
  | opening spec version io hnone hfresh hnew =>
    obtain ⟨hopenRun, hfollows, first, hfirst, hnext, hbook⟩ :=
      Transacts.follows ht h hfits hok rfl rfl hio
    have hfree : ∀ runId, (bookOf fl dir).stateOf runId ≠ some .opened := by
      intro runId hopen
      cases hnone.symm.trans ((hnames runId).mpr hopen)
    have hunknown : (bookOf fl dir).stateOf (mintRunId cfg io.ulid) = none := by
      rw [← h.states, hnew]
      rfl
    refine ⟨⟨?_, hfollows⟩, fun runId => ?_⟩
    · rw [hbook]
      exact .single (.opened _ first hunknown hfree rfl hnext hfirst)
    · rw [hbook, stateOf_append, stateOf_record, hid,
        show out.mem.openRunId = some (mintRunId cfg io.ulid) from hopenRun]
      by_cases hsame : mintRunId cfg io.ulid = runId
      · rw [hsame]
        exact ⟨fun _ => if_pos hsame, fun _ => rfl⟩
      · refine ⟨fun heq => absurd (Option.some.inj heq) hsame, fun hopen => ?_⟩
        exact absurd ((if_neg hsame).symm.trans hopen) (hfree runId)
  | closing runId run reason io hrun hopen =>
    obtain ⟨hopenRun, hfollows, last, hlast, hnext, hbook⟩ := Transacts.follows ht h hfits hok
      (isUtf8_reason reason) rfl hio
    have hstate : (bookOf fl dir).stateOf runId = some .opened := by rw [h.stateOf hrun, hopen]
    refine ⟨⟨?_, hfollows⟩, fun other => ?_⟩
    · rw [hbook]
      refine .single (.closed _ last ?_ rfl hnext hlast)
      rw [hid, hfits.id]
      exact hstate
    · -- no other run was open
      have hsealed : out.mem.openRunId = none := hopenRun.trans (if_pos ((hnames runId).mpr hstate))
      rw [hbook, stateOf_closed rfl, hsealed, hfits.id]
      refine ⟨(fun hnone => nomatch hnone), fun hboth => absurd ?_ hboth.2⟩
      exact Option.some.inj (((hnames runId).mpr hstate).symm.trans ((hnames other).mpr hboth.1))

/-- A call that appends an event to a run that is open. -/
theorem advances_event {entry : Entry F} (h : Follows fl mem dir) (hnames : Names fl mem dir)
    (hopen : (bookOf fl dir).stateOf entry.runId = some .opened)
    (hio : ∀ a ∈ (entry.append cfg fl mem dir).attempts, ioSucceeds a) :
    Advances fl dir (entry.append cfg fl mem dir) ∧
    Names fl (entry.append cfg fl mem dir).mem (entry.append cfg fl mem dir).dir := by
  have hknown : (mem.runs entry.runId).isSome := by
    rw [← Option.isSome_map, h.states, hopen]
    rfl
  have hfollows := h.event hknown hio
  rcases Entry.succeeds hio with hok | hthrew
  · refine ⟨⟨?_, hfollows⟩, fun other => ?_⟩
    · rw [bookOf_event hok]
      exact .single (.event _ hopen (isNext_event h.counted))
    · rw [entry.append_openRunId, bookOf_event hok, stateOf_append]
      exact hnames other
  · refine ⟨⟨?_, hfollows⟩, fun other => ?_⟩
    · rw [bookOf_threw hthrew]
    · rw [entry.append_openRunId, bookOf_threw hthrew]
      exact hnames other

/-! ### Starting -/

theorem advances_recoverRun {run : Run F} {io : RecoveryIo} (h : Follows fl mem dir)
    (hrun : mem.runs runId = some run) (hopen : run.state = .opened)
    (htext : Json.isUtf8 run.toJson)
    (hio : ∀ a ∈ (recoverRun cfg fl runId run io mem dir).attempts, ioSucceeds a) :
    Advances fl dir (recoverRun cfg fl runId run io mem dir) := by
  have hid : run.runId = runId := h.id runId run hrun
  have hok := (recoverRun_transacts runId run io mem dir).of_ok (recoverRun_succeeds htext hid hio)
  obtain ⟨-, hfollows, last, hlast, hnext, hbook⟩ := Transacts.follows (recoverRun_transacts ..) h
    (fits_recovering io hid hrun hopen) hok.2 (isUtf8_reason .abandoned) isUtf8_recoveryPayload hio
  refine ⟨?_, hfollows⟩
  rw [hbook]
  refine .single (.closed _ last ?_ rfl hnext hlast)
  have hstate := h.stateOf hrun
  rw [hopen, ← hid] at hstate
  exact hstate

theorem advances_recover {io : Bytes → RecoveryIo} {ids : List Bytes} (h : Follows fl mem dir)
    (htexts : ∀ runId run, mem.runs runId = some run → Json.isUtf8 run.toJson)
    (hio : ∀ a ∈ (recover cfg fl io ids mem dir).attempts, ioSucceeds a) :
    Advances fl dir (recover cfg fl io ids mem dir) := by
  revert h htexts hio
  fun_induction recover cfg fl io ids mem dir with
  | case1 mem dir => exact fun h _ _ => ⟨.refl, h⟩
  | case2 runId rest mem dir hunknown ih => exact ih
  | case3 runId rest mem dir run hrun hopen one hok others ih =>
    intro h htexts hio
    obtain ⟨hio₁, hio₂⟩ := List.forall_mem_append.mp hio
    have hone : Advances fl dir one :=
      advances_recoverRun h hrun hopen (htexts runId run hrun) hio₁
    have hrest := ih hone.follows (fun other known hknown => ?_) hio₂
    · exact ⟨hone.steps.trans hrest.steps, hrest.follows⟩
    · rw [show one.mem.runs = _ from recoverRun_runs hok, Function.update_apply] at hknown
      split at hknown
      · rw [← Option.some.inj hknown]
        exact isUtf8_close (htexts runId run hrun) .abandoned (io runId).now
      · exact htexts other known hknown
  | case4 runId rest mem dir run hrun hopen one hok =>
    intro h htexts hio
    exact advances_recoverRun h hrun hopen (htexts runId run hrun) hio
  | case5 runId rest mem dir run hrun hopen ih => exact ih

theorem advances_initializeJournal {io : InitializeIo} (hbook : WellKept (bookOf fl dir))
    (htexts : ∀ r ∈ dir.runRecords fl, Json.isUtf8 r.toJson)
    (hio : ∀ a ∈ (initializeJournal cfg fl io dir).attempts, ioSucceeds a) :
    Book.Steps (bookOf fl dir) (bookOf fl (initializeJournal cfg fl io dir).dir) ∧
    ((initializeJournal cfg fl io dir).outcome = .ok () →
      Follows fl (initializeJournal cfg fl io dir).mem (initializeJournal cfg fl io dir).dir) := by
  revert hio
  fun_cases initializeJournal cfg fl io dir with
  | case1 message hsome => exact fun _ => ⟨.refl, fun hok => by cases hok⟩
  | case2 _ mem =>
    intro hio
    obtain ⟨hopen, hseq⟩ := replayAll_rest (dir.runRecords fl)
    have hcoherent : Coherent fl (dir.runRecords fl) mem := coherent_replayAll _
    have hfollows : Follows fl mem dir := by
      refine ⟨hcoherent.id, fun runId => ?_, counted_start (fun runId => ?_) (congrFun hseq) hopen⟩
      · rw [show mem.runs runId = _ from replayAll_runs _ _]
        rfl
      · exact (hbook.runs runId).numbered
    have hadvances := advances_recover hfollows (fun runId run hrun => ?_) hio
    · exact ⟨hadvances.steps, fun _ => hadvances.follows⟩
    · rw [show mem.runs runId = _ from replayAll_runs _ _] at hrun
      exact htexts run (latest_some hrun).1

/-! ### The machine -/

/-- The files are a book that is kept well, and the memory of a running process follows it. -/
structure Journaled (fl : FloatCodec F) (s : JournalState F) : Prop where
  book : WellKept (bookOf fl s.dir)
  follows : ∀ live, s.live = some live → Follows fl live.mem s.dir
  names : ∀ live, s.live = some live → Names fl live.mem s.dir

/-- The I/O of a step succeeds. -/
def StepSucceeds (l : JournalLabel F) : Prop := ∀ a ∈ l.attempts, ioSucceeds a

theorem Journaled.step (h : Journaled fl s) (hindexed : Indexed fl s)
    (hstep : Steps cfg fl s l s') (hpower : ∀ loss, l.choice ≠ .powerLoss loss)
    (hio : StepSucceeds l) : Book.Steps (bookOf fl s.dir) (bookOf fl s'.dir) ∧ Journaled fl s' := by
  -- what a function leaves is what the state has
  have hafter {α : Type} {out : Section F α}
      (hout : Advances fl s.dir out ∧ Names fl out.mem out.dir) (hdir : s'.dir = out.dir)
      (hmem : ∀ live', s'.live = some live' → out.outcome ≠ .killed ∧ live'.mem = out.mem) :
      Book.Steps (bookOf fl s.dir) (bookOf fl s'.dir) ∧ Journaled fl s' := by
    have hsteps : Book.Steps (bookOf fl s.dir) (bookOf fl s'.dir) := hdir ▸ hout.1.steps
    refine ⟨hsteps, h.book.steps hsteps, fun live' hlive' => ?_, fun live' hlive' => ?_⟩
    · rw [hdir, (hmem live' hlive').2]
      exact hout.1.follows
    · rw [hdir, (hmem live' hlive').2]
      exact hout.2
  unfold StepSucceeds at hio
  cases hstep with
  | powerLoss loss hl => exact absurd (congrArg JournalLabel.choice hl) (hpower loss)
  | start io _ _ hattempts hdir _ hmem =>
    rw [hattempts] at hio
    obtain ⟨hsteps, hfollows⟩ := advances_initializeJournal h.book hindexed.texts hio
    rw [← hdir] at hsteps hfollows
    refine ⟨hsteps, h.book.steps hsteps, fun live' hlive' => ?_, fun live' hlive' runId => ?_⟩
    · obtain ⟨hok, hmem⟩ := hmem live' hlive'
      exact hmem ▸ hfollows hok
    · -- every run is closed
      obtain ⟨hok, hmem⟩ := hmem live' hlive'
      have hinit := initializeJournal_ok hok
      rw [hmem, hinit.openRunId, ← (hfollows hok).states, hinit.runs]
      refine ⟨(fun hnone => nomatch hnone), fun hopen => ?_⟩
      obtain ⟨run, hrun, hstate⟩ := Option.map_eq_some_iff.mp hopen
      obtain ⟨known, -, rfl⟩ := Option.map_eq_some_iff.mp hrun
      unfold recovered at hstate
      split at hstate
      · cases hstate
      · exact absurd hstate (by assumption)
  | idle _ _ hdir _ hmem =>
    rw [hdir]
    refine ⟨.refl, hdir ▸ h.book, fun live' hlive' => ?_, fun live' hlive' => ?_⟩
    · obtain ⟨live, hlive, hsame⟩ := hmem live' hlive'
      rw [hdir, hsame]
      exact h.follows live hlive
    · obtain ⟨live, hlive, hsame⟩ := hmem live' hlive'
      rw [hdir, hsame]
      exact h.names live hlive
  | transacted live t out hlive hasked hout hleft =>
    rw [hleft.attempts] at hio
    exact hafter (advances_asked hasked hout (h.follows live hlive) (h.names live hlive) hio)
      hleft.dir hleft.mem
  | appended live entry hlive _ hopen hleft =>
    rw [hleft.attempts] at hio
    refine hafter (advances_event (h.follows live hlive) (h.names live hlive) ?_ hio)
      hleft.dir hleft.mem
    rcases hopen with hopen | ⟨run, hrun, hopen⟩
    · exact (h.names live hlive entry.runId).mp hopen
    · rw [(h.follows live hlive).stateOf hrun, hopen]

theorem wellKept_new : WellKept (bookOf fl {}) := by
  refine ⟨fun runId => ⟨fun _ => rfl, numbered_nil, fun hknown => absurd rfl hknown,
    fun hclosed => ?_⟩,
    fun runId hopen => ?_⟩
  · cases hclosed
  · cases hopen

/-- The steps of a run whose I/O succeeds. -/
def RunSucceeds (tr : JournalTrace F) : Prop :=
  NoPowerLoss tr ∧ ∀ i ∈ tr, StepSucceeds i.2

theorem RunSucceeds.append (h : RunSucceeds tr)
    (h' : RunSucceeds tr') : RunSucceeds (tr ++ tr') := by
  constructor
  · intro i hi
    exact (List.mem_append.mp hi).elim (h.1 i) (h'.1 i)
  · intro i hi
    exact (List.mem_append.mp hi).elim (h.2 i) (h'.2 i)

theorem journaled_run (hrun : Run (journal cfg fl).lts {} tr s) (hio : RunSucceeds tr) :
    Journaled fl s := by
  refine hrun.induct_of (C := fun _ l => (∀ loss, l.choice ≠ .powerLoss loss) ∧ StepSucceeds l)
    (J := fun _ s => Journaled fl s) ?_ ?_ fun i hi => ⟨hio.1 i hi, hio.2 i hi⟩
  · exact ⟨wellKept_new, (fun _ hlive => nomatch hlive), fun _ hlive => nomatch hlive⟩
  · rintro tr s l s' hrun hbefore h ⟨hpower, hio⟩ hstep
    exact (h.step (indexed_run hrun fun i hi => (hbefore i hi).1) (steps_of_next hstep)
      hpower hio).2

theorem book_run (hrun : Run (journal cfg fl).lts {} tr s) (hio : RunSucceeds tr)
    (hmore : Run (journal cfg fl).lts s tr' s') (hio' : RunSucceeds tr') :
    Book.Steps (bookOf fl s.dir) (bookOf fl s'.dir) := by
  refine hmore.induct_of (C := fun _ l => (∀ loss, l.choice ≠ .powerLoss loss) ∧ StepSucceeds l)
    (J := fun _ s' => Book.Steps (bookOf fl s.dir) (bookOf fl s'.dir)) .refl ?_
    fun i hi => ⟨hio'.1 i hi, hio'.2 i hi⟩
  rintro tr' s₁ l s₂ hsofar hbefore hsteps ⟨hpower, hsucceeds⟩ hstep
  have hall := hio.append ⟨fun i hi => (hbefore i hi).1, fun i hi => (hbefore i hi).2⟩
  have hjournaled := journaled_run (hrun.append hsofar) hall
  exact hsteps.trans (hjournaled.step (indexed_run (hrun.append hsofar) hall.1)
    (steps_of_next hstep) hpower hsucceeds).1

/-! ### The queue -/

/-- The tickets of the events that wait for the writer, and of the one that it took. -/
def pending (live : Live F) : List Nat :=
  (live.inHand.toList ++ live.queue).map fun event => event.ticket

/-- The event of the queue that a step persisted, with its ticket. -/
def persistedBy (i : JournalState F × JournalLabel F) : Option (Nat × RunEvent F) :=
  match i.2.choice, i.2.outcome with
  | .persist _, .ok (.event event) =>
    (i.1.live.bind fun live => live.inHand).map fun queued => (queued.ticket, event)
  | _, _ => none

/-- The events of the queue that were persisted, oldest first. -/
def persisted (tr : JournalTrace F) : List (Nat × RunEvent F) :=
  tr.filterMap persistedBy

/-- The tickets that wait in a state. -/
def waiting (s : JournalState F) : List Nat := s.live.elim [] pending

/-- What a step does to the queue: what is persisted comes from the front, and what is new goes to
the end with the next ticket. -/
def QueueStep (s : JournalState F) (l : JournalLabel F) (s' : JournalState F) : Prop :=
  (((persistedBy (s, l)).toList.map Prod.fst ++ waiting s').Sublist (waiting s) ∧
    s'.queued = s.queued) ∨
  (persistedBy (s, l) = none ∧ (waiting s').Sublist (waiting s ++ [s.queued]) ∧
    s'.queued = s.queued + 1)

theorem waiting_settle (s : JournalState F) (live : Live F) (out : Section F α) :
    (waiting (s.settle live out)).Sublist (pending live) := by
  unfold waiting JournalState.settle
  dsimp only
  split
  · exact List.nil_sublist _
  · exact .refl _

theorem waiting_settleWriter (s : JournalState F) (live : Live F) (out : Section F α) :
    (waiting (s.settleWriter live out)).Sublist (pending live) ∧
    (s.settleWriter live out).queued = s.queued := by
  unfold JournalState.settleWriter
  split
  · exact ⟨List.nil_sublist _, rfl⟩
  · exact ⟨waiting_settle s live out, rfl⟩

theorem pending_enqueueEvent (live : Live F) (event : QueuedEvent F) :
    (pending (live.enqueueEvent event)).Sublist (pending live ++ [event.ticket]) := by
  unfold Live.enqueueEvent
  split
  · exact List.sublist_append_left _ _
  · simp [pending]

theorem queueStep_of_call {live : Live F} (hlive : s.live = some live)
    (h : callNext cfg fl s live choice = some (l, s')) : QueueStep s l s' := by
  have hwaiting : waiting s = pending live := by rw [waiting, hlive]; rfl
  unfold QueueStep
  rw [hwaiting]
  revert h
  fun_cases callNext cfg fl s live choice
  all_goals intro h
  case case2 | case3 | case4 =>
    cases h
    exact .inl ⟨waiting_settle s live _, rfl⟩
  case case5 | case6 =>
    cases h
    exact .inr ⟨rfl, pending_enqueueEvent live _, rfl⟩
  case case7 =>
    cases h
    exact .inl ⟨.refl _, rfl⟩
  case case8 =>
    cases h
    exact .inl ⟨hwaiting ▸ .refl _, rfl⟩
  case case9 =>
    obtain ⟨change, -, hout⟩ := Option.map_eq_some_iff.mp h
    cases hout
    exact .inl ⟨waiting_settle s { live with changing := _ } _, rfl⟩
  case case10 event queue hhand hqueue =>
    cases h
    refine .inl ⟨?_, rfl⟩
    simp [persistedBy, waiting, pending, hhand, hqueue]
  case case13 event hopen hhand =>
    cases h
    refine .inl ⟨?_, rfl⟩
    simp [persistedBy, waiting, pending, hhand]
  case case14 io event runId hopen hhand out =>
    cases h
    obtain ⟨hrest, hqueued⟩ := waiting_settleWriter s { live with inHand := none } out
    have hfirst : pending live = event.ticket :: pending { live with inHand := none } := by
      simp [pending, hhand]
    refine .inl ⟨?_, hqueued⟩
    rw [hfirst]
    -- the event was persisted or not
    have hdone : persistedBy (s, ⟨.persist io, out.outcome.map .event, out.attempts⟩) = none ∨
        ∃ e, persistedBy (s, ⟨.persist io, out.outcome.map .event, out.attempts⟩) =
          some (event.ticket, e) := by
      unfold persistedBy
      cases out.outcome <;> simp [Outcome.map, hlive, hhand]
    rcases hdone with hnone | ⟨e, hsome⟩
    · rw [hnone]
      exact hrest.cons _
    · rw [hsome]
      exact hrest.cons_cons _
  all_goals cases h

theorem queueStep_of_next (h : (journal cfg fl).lts.step s l s') : QueueStep s l s' := by
  obtain ⟨choice, hnext⟩ := h
  change journalNext cfg fl s choice = some (l, s') at hnext
  revert hnext
  fun_cases journalNext cfg fl s choice
  all_goals intro hnext
  case case1 | case3 =>
    cases hnext
    exact .inl ⟨List.nil_sublist _, rfl⟩
  case case2 io hlive out =>
    cases hnext
    refine .inl ⟨?_, rfl⟩
    simp only [waiting, persistedBy]
    split <;> exact List.nil_sublist _
  case case4 => exact queueStep_of_call (by assumption) hnext
  case case5 => cases hnext

/-- A step that persisted an event of the queue: the event is the next one of the run that is
open. -/
theorem persistedBy_step {p : Nat × RunEvent F} (hjournaled : Journaled fl s)
    (hstep : Steps cfg fl s l s') (hp : persistedBy (s, l) = some p) :
    (bookOf fl s.dir).stateOf p.2.runId = some .opened ∧
    p.2.sequence.toNat = (s.dir.eventRecords fl p.2.runId).length + 1 ∧
    p.2.reread fl.toFloatFormat ∈ s'.dir.eventRecords fl p.2.runId := by
  -- only the writer persists
  have hpersist : (∃ io, l.choice = .persist io) ∧ ∃ event, l.outcome = .ok (.event event) := by
    unfold persistedBy at hp
    split at hp
    · exact ⟨⟨_, by assumption⟩, _, by assumption⟩
    · cases hp
  obtain ⟨⟨io, hchoice⟩, event, houtcome⟩ := hpersist
  cases hstep with
  | powerLoss _ hl => rw [hl] at hchoice; cases hchoice
  | start _ hother => rw [hchoice] at hother; cases hother
  | idle hanswer =>
    rcases hanswer _ houtcome with hnothing | ⟨_, _, _, _, _, _, _, _, _, hrun⟩
    · cases hnothing
    · cases hrun
  | transacted _ _ _ _ hasked => rw [hchoice] at hasked; cases hasked
  | appended live entry hlive hsent _ hleft =>
    -- the event is the one that was appended
    have hok : (entry.append cfg fl live.mem s.dir).outcome = .ok (entry.event fl live.mem s.dir) ∧
        event = entry.event fl live.mem s.dir := by
      rw [hleft.outcome] at houtcome
      rcases entry.append_cases cfg fl live.mem s.dir with ⟨-, hok⟩ | ⟨-, hother⟩ | ⟨-, hother⟩ |
        ⟨_, hother⟩
      · rw [hok] at houtcome
        cases houtcome
        exact ⟨hok, rfl⟩
      all_goals
        rw [hother] at houtcome
        cases houtcome
    obtain ⟨hok, rfl⟩ := hok
    rw [hchoice] at hsent
    cases hsent with
    | queued queued runId _ hhand hopen =>
      simp only [persistedBy, hchoice, houtcome, hlive, Option.bind_some, hhand, Option.map_some,
        Option.some.injEq] at hp
      obtain rfl := hp
      have hcounted := (hjournaled.follows live hlive).counted
      refine ⟨(hjournaled.names live hlive runId).mp hopen, hcounted.next runId, ?_⟩
      have hstream := congrFun (congrArg Book.streams (bookOf_event hok)) runId
      rw [hleft.dir]
      show _ ∈ (bookOf fl _).streams runId
      rw [hstream, show Book.streams _ runId = _ from streams_append_self _ _]
      exact List.mem_append_right _ (List.mem_singleton_self _)

/-- The event `a` is in front of `b`: in the same run by its sequence, and otherwise in a run that
was opened before. -/
def Before (order : List Bytes) (a b : RunEvent F) : Prop :=
  (a.runId = b.runId → a.sequence < b.sequence) ∧
  (a.runId ≠ b.runId → [a.runId, b.runId].Sublist order)

/-- The events of the queue are persisted in the order of their tickets. -/
structure Ordered (fl : FloatCodec F) (tr : JournalTrace F)
    (s : JournalState F) : Prop where
  tickets : ((persisted tr).map Prod.fst ++ waiting s ++ [s.queued]).Pairwise (· < ·)
  stored : ∀ p ∈ persisted tr, p.2.reread fl.toFloatFormat ∈ s.dir.eventRecords fl p.2.runId
  before : (persisted tr).Pairwise fun p q => Before (bookOf fl s.dir).order p.2 q.2

theorem persisted_snoc (tr : JournalTrace F) (s : JournalState F) (l : JournalLabel F) :
    persisted (tr ++ [(s, l)]) = persisted tr ++ (persistedBy (s, l)).toList := by
  unfold persisted
  rw [List.filterMap_append]
  cases h : persistedBy (s, l) <;> simp [h]

theorem sequence_le (h : WellKept b) {event : RunEvent F} (hevent : event ∈ b.streams runId) :
    event.sequence.toNat ≤ (b.streams runId).length := by
  have hmem : event.sequence.toNat ∈ List.range' 1 (b.streams runId).length := by
    rw [← show _ = _ from (h.runs runId).numbered]
    exact List.mem_map_of_mem hevent
  rw [List.mem_range'_1] at hmem
  omega

/-- An event that is in a stream is in front of the next one of the run that is open. -/
theorem before_next (h : WellKept b) {a next : RunEvent F}
    (ha : a.reread fl.toFloatFormat ∈ b.streams a.runId)
    (hopen : b.stateOf next.runId = some .opened)
    (hseq : next.sequence.toNat = (b.streams next.runId).length + 1) : Before b.order a next := by
  constructor
  · intro hid
    have hle := sequence_le h ha
    rw [UInt64.lt_iff_toNat_lt, hseq, ← hid]
    exact Nat.lt_succ_of_le hle
  · intro hid
    obtain ⟨before, hbefore⟩ := List.getLast?_eq_some_iff.mp (h.last next.runId hopen)
    have hknown : a.runId ∈ b.order := by
      rw [mem_order]
      intro hnone
      rw [(h.runs a.runId).blank hnone] at ha
      cases ha
    rw [hbefore, List.mem_append, List.mem_singleton] at hknown
    rw [hbefore]
    exact (List.singleton_sublist.mpr (hknown.resolve_right hid)).append (List.Sublist.refl _)

theorem Before.mono {order order' : List Bytes} {a b : RunEvent F} (h : Before order a b)
    (horder : order <+: order') : Before order' a b :=
  ⟨h.1, fun hid => (h.2 hid).trans horder.sublist⟩

theorem Ordered.step (h : Ordered fl tr s) (hjournaled : Journaled fl s)
    (hnext : (journal cfg fl).lts.step s l s')
    (hbook : Book.Steps (bookOf fl s.dir) (bookOf fl s'.dir)) : Ordered fl (tr ++ [(s, l)]) s' := by
  have hstep := steps_of_next hnext
  obtain ⟨horder, hstreams⟩ := hbook.grows
  refine ⟨?_, fun p hp => ?_, ?_⟩
  · rw [persisted_snoc, List.map_append]
    rcases queueStep_of_next hnext with ⟨hsub, hqueued⟩ | ⟨hnone, hsub, hqueued⟩
    · rw [hqueued, List.append_assoc (List.map _ _)]
      exact h.tickets.sublist ((hsub.append_left _).append_right _)
    · -- the next ticket is above all that were given
      rw [hnone, hqueued]
      have hgiven : ((persisted tr).map Prod.fst ++ waiting s').Sublist
          ((persisted tr).map Prod.fst ++ waiting s ++ [s.queued]) := by
        rw [List.append_assoc]
        exact hsub.append_left _
      refine List.pairwise_append.mpr ⟨?_, List.pairwise_singleton _ _, fun a ha b hb => ?_⟩
      · simpa using h.tickets.sublist hgiven
      · rw [List.mem_singleton.mp hb]
        have hmem := hgiven.subset (by simpa using ha)
        rcases List.mem_append.mp hmem with hold | hlast
        · have hlt := (List.pairwise_append.mp h.tickets).2.2 a hold s.queued
            (List.mem_singleton_self _)
          omega
        · rw [List.mem_singleton.mp hlast]
          omega
  · rw [persisted_snoc, List.mem_append, Option.mem_toList] at hp
    rcases hp with hp | hp
    · exact (hstreams p.2.runId).subset (h.stored p hp)
    · exact (persistedBy_step hjournaled hstep hp).2.2
  · rw [persisted_snoc, List.pairwise_append]
    refine ⟨h.before.imp fun hpq => hpq.mono horder, ?_, fun p hp q hq => ?_⟩
    · cases persistedBy (s, l) <;> simp
    · rw [Option.mem_toList] at hq
      obtain ⟨hopen, hseq, -⟩ := persistedBy_step hjournaled hstep hq
      exact (before_next hjournaled.book (h.stored p hp) hopen hseq).mono horder

theorem ordered_run (hrun : Run (journal cfg fl).lts {} tr s) (hio : RunSucceeds tr) :
    Ordered fl tr s := by
  refine hrun.induct_of (C := fun _ l => (∀ loss, l.choice ≠ .powerLoss loss) ∧ StepSucceeds l)
    (J := fun tr s => Ordered fl tr s) ?_ ?_ fun i hi => ⟨hio.1 i hi, hio.2 i hi⟩
  · exact ⟨List.pairwise_singleton _ _, (fun _ hp => nomatch hp), .nil⟩
  · rintro tr s l s' hrun hbefore h ⟨hpower, hio⟩ hstep
    have hjournaled := journaled_run hrun ⟨fun i hi => (hbefore i hi).1, fun i hi =>
      (hbefore i hi).2⟩
    have hindexed := indexed_run hrun fun i hi => (hbefore i hi).1
    exact h.step hjournaled hstep
      (hjournaled.step hindexed (steps_of_next hstep) hpower hio).1

theorem pairwise_of_ticket {R : RunEvent F → RunEvent F → Prop} {ps : List (Nat × RunEvent F)}
    (h : ps.Pairwise fun p q => p.1 < q.1 ∧ R p.2 q.2) {p q : Nat × RunEvent F} (hp : p ∈ ps)
    (hq : q ∈ ps) (hlt : p.1 < q.1) : R p.2 q.2 := by
  induction h with
  | nil => cases hp
  | @cons r rest hfirst _ ih =>
    rcases List.mem_cons.mp hp with rfl | hp'
    · rcases List.mem_cons.mp hq with rfl | hq'
      · exact absurd hlt (Nat.lt_irrefl _)
      · exact (hfirst q hq').2
    · rcases List.mem_cons.mp hq with rfl | hq'
      · exact absurd hlt (Nat.lt_asymm (hfirst p hp').1)
      · exact ih hp' hq'

/-! ### The invariants of the journal -/

/-- What holds of the files and of the memory. -/
structure StreamsKept (fl : FloatCodec F) (s : JournalState F) : Prop where
  /-- At most one run is open. -/
  oneOpen : ∀ a b, ((replayAll (s.dir.runRecords fl)).runs a).map (fun run => run.state) =
      some .opened →
    ((replayAll (s.dir.runRecords fl)).runs b).map (fun run => run.state) = some .opened → a = b
  /-- The memory has the runs in the states of the index, and `open_run_id_` names the one that is
  open. -/
  memory : ∀ live, s.live = some live → ∀ runId, (live.mem.runs runId).map (fun run => run.state) =
      ((replayAll (s.dir.runRecords fl)).runs runId).map (fun run => run.state) ∧
    (live.mem.openRunId = some runId ↔
      (live.mem.runs runId).map (fun run => run.state) = some .opened)
  /-- The sequences of a run are 1, 2, 3 and so on. -/
  sequences : ∀ runId, (s.dir.eventRecords fl runId).map (fun event => event.sequence.toNat) =
    List.range' 1 (s.dir.eventRecords fl runId).length
  /-- The first event of a run is `run_opened`. -/
  begins : ∀ runId, ((replayAll (s.dir.runRecords fl)).runs runId).isSome →
    BeginsOpened (s.dir.eventRecords fl runId)
  /-- Once the run is closed, the last one is `run_closed`. -/
  ends : ∀ runId run, (replayAll (s.dir.runRecords fl)).runs runId = some run →
    run.state = .closed → EndsClosed (s.dir.eventRecords fl runId)

theorem stateOf_replayAll (dir : RunsDir) (runId : Bytes) : (bookOf fl dir).stateOf runId =
      ((replayAll (dir.runRecords fl)).runs runId).map fun run => run.state := by
  rw [replayAll_runs]
  rfl

theorem Journaled.streamsKept (h : Journaled fl s) : StreamsKept fl s where
  oneOpen a b ha hb := by
    rw [← stateOf_replayAll] at ha hb
    exact h.book.one_open ha hb
  memory live hlive runId := by
    have hstate := (h.follows live hlive).states runId
    rw [← stateOf_replayAll, hstate]
    exact ⟨rfl, h.names live hlive runId⟩
  sequences runId := (h.book.runs runId).numbered
  begins runId hknown := by
    refine (h.book.runs runId).begins fun hnone => ?_
    rw [stateOf_replayAll, Option.map_eq_none_iff] at hnone
    rw [hnone] at hknown
    cases hknown
  ends runId run hrun hclosed := by
    refine (h.book.runs runId).ends ?_
    rw [stateOf_replayAll, hrun, Option.map_some, hclosed]

/-- With I/O that succeeds, in every state of every run the streams are kept. The stream of a run
that is closed is the same in every later state. The events of the queue that were persisted are in
the streams in the order in which they were queued. -/
theorem journal_streams (cfg : JournalConfig) (fl : FloatCodec F)
    {tr tr' : Trace (JournalState F) (JournalLabel F)} {s s' : JournalState F}
    (hrun : Run (journal cfg fl).lts {} tr s) (hio : RunSucceeds tr)
    (hmore : Run (journal cfg fl).lts s tr' s') (hio' : RunSucceeds tr') : StreamsKept fl s ∧
    (∀ runId run, (replayAll (s.dir.runRecords fl)).runs runId = some run → run.state = .closed →
      s'.dir.eventRecords fl runId = s.dir.eventRecords fl runId) ∧
    (∀ p ∈ persisted tr, p.2.reread fl.toFloatFormat ∈ s.dir.eventRecords fl p.2.runId) ∧
    ∀ p ∈ persisted tr, ∀ q ∈ persisted tr, p.1 < q.1 →
      Before (replayAll (s.dir.runRecords fl)).order p.2 q.2 := by
  have hjournaled := journaled_run hrun hio
  have hordered := ordered_run hrun hio
  have htickets := List.pairwise_map.mp (List.pairwise_append.mp
    (List.pairwise_append.mp hordered.tickets).1).1
  refine ⟨hjournaled.streamsKept, fun runId run hknown hclosed => ?_, hordered.stored,
    fun p hp q hq => pairwise_of_ticket (htickets.and hordered.before) hp hq⟩
  have hstate : (bookOf fl s.dir).stateOf runId = some .closed := by
    rw [stateOf_replayAll, hknown, Option.map_some, hclosed]
  exact ((book_run hrun hio hmore hio').closed hstate).2

/-! ### Two faults -/

/-- Two faults are queued. The first one is persisted in a run that is closed then, and the second
one in the next run, which a restart closes. -/
def twoFaults : List (JournalChoice Empty) := [.start RunRecovery.startAtOne,
  .openRun {} none { ulid := ascii "A", now := 1, event := atOne .ok },
  .enqueueFault (ascii "tree") (ascii "first") 2,
  .enqueueFault (ascii "tree") (ascii "second") 3,
  .take,
  .persist (atOne .ok),
  .closeRun (ascii "bench-A") .completed { now := 4, event := atOne .ok },
  .openRun {} none { ulid := ascii "B", now := 5, event := atOne .ok },
  .take,
  .persist (atOne .ok),
  .exit,
  .start RunRecovery.startAtOne]

/-- A check for `RunSucceeds`. -/
def runSucceeds (tr : JournalTrace F) : Bool :=
  noPowerLoss tr && tr.all fun i => i.2.attempts.all ioSucceeds

theorem runSucceeds_iff : runSucceeds tr ↔ RunSucceeds tr := by
  rw [runSucceeds, Bool.and_eq_true, noPowerLoss_iff, List.all_eq_true]
  simp only [List.all_eq_true]
  exact Iff.rfl

/-- At the end of the first process, and at the start of the next one. -/
theorem journal_streams_two_faults : ∃ tr tr' s s', Run (journal benchConfig noFloats).lts {} tr s ∧
    Run (journal benchConfig noFloats).lts s tr' s' ∧ tr'.length = 2 ∧
    (persisted tr).length = 2 ∧ StreamsKept noFloats s ∧
    s'.dir.eventRecords noFloats (ascii "bench-A") = s.dir.eventRecords noFloats (ascii "bench-A") ∧
    ∀ p ∈ persisted tr, ∀ q ∈ persisted tr, p.1 < q.1 →
      Before (replayAll (s.dir.runRecords noFloats)).order p.2 q.2 := by
  obtain ⟨tr, s', hrun, hpass⟩ := (journal benchConfig noFloats).run_of_passes {} twoFaults
    (fun tr _ => tr.length = 12 ∧ runSucceeds (tr.take 10) ∧ runSucceeds (tr.drop 10) ∧
      (persisted (tr.take 10)).length = 2 ∧ ∃ i ∈ (tr.drop 10).head?,
        ∃ run ∈ (replayAll (i.1.dir.runRecords noFloats)).runs (ascii "bench-A"),
          run.state = .closed) (by decide +kernel)
  obtain ⟨hlength, hio, hio', hpersisted, i, hhead, run, hknown, hclosed⟩ := hpass
  have hcut : Run (journal benchConfig noFloats).lts {} (tr.take 10 ++ tr.drop 10) s' := by
    rw [List.take_append_drop]
    exact hrun
  obtain ⟨s, hfirst, hmore⟩ := hcut.split
  -- the trace has the state in which the first process ends
  have hstate : i.1 = s := by
    obtain ⟨rest, hrest⟩ := List.head?_eq_some_iff.mp hhead
    rw [hrest] at hmore
    exact hmore.of_cons.1
  obtain ⟨hkept, hsealed, -, hbefore⟩ := journal_streams benchConfig noFloats hfirst
    (runSucceeds_iff.mp hio) hmore (runSucceeds_iff.mp hio')
  refine ⟨tr.take 10, tr.drop 10, s, s', hfirst, hmore, ?_, hpersisted, hkept,
    hsealed _ run (hstate ▸ hknown) hclosed, hbefore⟩
  rw [List.length_drop, hlength]

end Anolis.Proofs.JournalStreams
