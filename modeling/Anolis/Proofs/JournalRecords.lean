import Anolis.Proofs.JournalReads

/-!
# Who writes the records of the index

* `Steps.writtenBy`: a record gets into the index by an `open` of a run that is new or by a `close`
  of a run that is open in memory (`Asked`), or by an `initialize` for a run whose last record is
  open.
* `Steps.runs`: the index in memory changes by the record that was written.
* `indexed_run`: the records of the index are of runs that were minted, their texts can be made, and
  every run in memory has one.
* `initializeJournal_succeeds`: with I/O that succeeds `initialize` succeeds. An exception for a
  text that cannot be made is out of the question, since each run was read from a text.
-/

namespace Anolis.Proofs.JournalRecords

open Lib Lib.Json Lib.RecordLog Runs JournalReads

variable {F : Type} {cfg : JournalConfig} {fl : FloatCodec F}

/-! ### Recovery -/

variable {run w : Run F} {fate : AppendFate} {io : Bytes → RecoveryIo} {ids : List Bytes}

variable {dir : RunsDir}

/-- The loop of `initialize` writes records of runs that are open in memory. -/
theorem recover_written {mem : Memory F} (hid : ∀ runId run, mem.runs runId = some run →
    run.runId = runId)
    (hw : w ∈ writtenRuns (recover cfg fl io ids mem dir).attempts) :
    ∃ run, mem.runs w.runId = some run ∧ run.state = .opened ∧
      w = run.close .abandoned (io w.runId).now := by
  revert hid hw
  -- the run of the loop's body
  have hone {runId : Bytes} {run : Run F} {mem : Memory F} {dir : RunsDir}
      (hid : ∀ runId run, mem.runs runId = some run → run.runId = runId)
      (hrun : mem.runs runId = some run) (hopen : run.state = .opened)
      (hw : w ∈ writtenRuns (recoverRun cfg fl runId run (io runId) mem dir).attempts) :
      ∃ run, mem.runs w.runId = some run ∧ run.state = .opened ∧
        w = run.close .abandoned (io w.runId).now := by
    have hclose : w = run.close .abandoned (io runId).now :=
      (recoverRun_transacts runId run (io runId) mem dir).written hw
    have hsame : w.runId = runId := by
      rw [hclose]
      exact hid runId run hrun
    exact ⟨run, hsame ▸ hrun, hopen, hsame ▸ hclose⟩
  fun_induction recover cfg fl io ids mem dir with
  | case1 => intro _ hw; cases hw
  | case2 runId rest mem dir hunknown ih => exact ih
  | case3 runId rest mem dir run hrun hopen one hok others ih =>
    intro hid hw
    rw [writtenRuns_append] at hw
    rcases List.mem_append.mp hw with hw | hw
    · exact hone hid hrun hopen hw
    · have hruns : one.mem.runs = Function.update mem.runs run.runId
          (some (run.close .abandoned (io runId).now)) := recoverRun_runs hok
      have hids : ∀ other known, one.mem.runs other = some known → known.runId = other := by
        rw [hruns]
        exact id_update hid (run.close .abandoned (io runId).now)
      obtain ⟨known, hknown, hstate, hclose⟩ := ih hids hw
      -- it is not the run that was closed just now
      rw [hruns, Function.update_apply] at hknown
      split at hknown
      · rw [← Option.some.inj hknown] at hstate
        cases hstate
      · exact ⟨known, hknown, hstate, hclose⟩
  | case4 runId rest mem dir run hrun hopen one hok => exact fun hid => hone hid hrun hopen
  | case5 runId rest mem dir run hrun hopen ih => exact ih

theorem initializeJournal_written {io : InitializeIo}
    (hw : w ∈ writtenRuns (initializeJournal cfg fl io dir).attempts) :
    ∃ run, latest (dir.runRecords fl) w.runId = some run ∧ run.state = .opened ∧
      w = run.close .abandoned (io.recovery w.runId).now := by
  revert hw
  fun_cases initializeJournal cfg fl io dir with
  | case1 => intro hw; cases hw
  | case2 hcreate mem =>
    intro hw
    have hcoherent : Coherent fl (dir.runRecords fl) mem := coherent_replayAll _
    rw [← replayAll_runs]
    exact recover_written hcoherent.id hw

/-! ### The steps of the machine -/

variable {s s' : JournalState F} {l : JournalLabel F} {reason : CloseReason}

/-- Who wrote a record: an `open` or a `close`, or an `initialize` for a run that was open. -/
inductive WrittenBy (cfg : JournalConfig) (fl : FloatCodec F) (s : JournalState F)
    (l : JournalLabel F) (s' : JournalState F) (w : Run F) : Prop
  | asked (live : Live F) (t : Transaction F) (out : Section F (Run F)) (hw : w = t.run)
      (hlive : s.live = some live) (hasked : Asked cfg live.mem s.minted l.choice t s'.minted)
      (hout : Transacts cfg fl t s.dir t.run out) (hleft : Left out .run l s')
  | recovered (io : InitializeIo) (run : Run F) (hchoice : l.choice = .start io)
      (hlast : latest (s.dir.runRecords fl) w.runId = some run) (hopen : run.state = .opened)
      (hw : w = run.close .abandoned (io.recovery w.runId).now)

theorem Steps.writtenBy (h : Steps cfg fl s l s') (hw : w ∈ writtenRuns l.attempts) :
    WrittenBy cfg fl s l s' w := by
  cases h with
  | powerLoss loss hl =>
    rw [hl] at hw
    cases hw
  | start io hchoice _ hattempts =>
    rw [hattempts] at hw
    obtain ⟨run, hlast, hopen, hclose⟩ := initializeJournal_written hw
    exact .recovered io run hchoice hlast hopen hclose
  | idle _ hattempts =>
    rw [hattempts] at hw
    cases hw
  | transacted live t out hlive hasked hout hleft =>
    rw [hleft.attempts] at hw
    exact .asked live t out (hout.written hw) hlive hasked hout hleft
  | appended live entry _ _ _ hleft =>
    rw [hleft.attempts] at hw
    cases hw

theorem Steps.runs {live' : Live F} (h : Steps cfg fl s l s') (hcoherent : CoherentState fl s)
    (hlive' : s'.live = some live') : (∃ io, l.choice = .start io ∧ ∀ runId, live'.mem.runs runId =
      (latest (s.dir.runRecords fl) runId).map (recovered io.recovery runId)) ∨
    (∃ live, s.live = some live ∧ live'.mem.runs = live.mem.runs) ∨
    (∃ live, s.live = some live ∧ ∃ w ∈ writtenRuns l.attempts,
      live'.mem.runs = Function.update live.mem.runs w.runId (some w)) := by
  cases h with
  | powerLoss _ _ _ _ hlive =>
    rw [hlive] at hlive'
    cases hlive'
  | start io hchoice _ _ _ _ hmem =>
    obtain ⟨hok, hmem⟩ := hmem live' hlive'
    rw [hmem]
    exact .inl ⟨io, hchoice, (initializeJournal_ok hok).runs⟩
  | idle _ _ _ _ hmem =>
    obtain ⟨live, hlive, hsame⟩ := hmem live' hlive'
    exact .inr (.inl ⟨live, hlive, by rw [hsame]⟩)
  | transacted live t out hlive hasked hout hleft =>
    obtain ⟨hfits, hkept⟩ := hasked.fits (hcoherent live hlive).id
    rw [(hleft.mem live' hlive').2, hleft.attempts]
    by_cases hrecord : (t.record cfg fl s.dir).outcome = .ok ()
    · obtain ⟨hwritten, hruns, -⟩ := hout.recorded hrecord
      refine .inr (.inr ⟨live, hlive, t.run, ?_, hruns.trans hfits.runs⟩)
      rw [hwritten]
      exact List.mem_singleton_self _
    · cases hout with
      | stopped _ hmem => exact .inr (.inl ⟨live, hlive, by rw [hmem, hkept]⟩)
      | done hok => exact absurd hok hrecord
  | appended live entry hlive _ _ hleft =>
    rw [(hleft.mem live' hlive').2, entry.append_runs]
    exact .inr (.inl ⟨live, hlive, rfl⟩)

theorem Steps.minted (h : Steps cfg fl s l s') : ∀ runId ∈ s.minted, runId ∈ s'.minted := by
  intro runId hrunId
  cases h with
  | transacted live t out _ hasked =>
    revert hasked
    generalize l.choice = choice, s'.minted = minted
    rintro (⟨_, _, _, _, _, _⟩ | ⟨_, _, _, _, _, _⟩)
    · exact List.mem_cons_of_mem _ hrunId
    · exact hrunId
  | powerLoss _ _ _ hminted | start _ _ _ _ _ hminted | idle _ _ _ hminted
  | appended _ _ _ _ _ _ hminted => exact hminted ▸ hrunId

/-- The record that a call asks for is of a run that is new, or known and open. -/
theorem Asked.known {mem : Memory F} {minted minted' : List Bytes} {choice : JournalChoice F}
    {t : Transaction F} (h : Asked cfg mem minted choice t minted')
    (hid : ∀ runId run, mem.runs runId = some run → run.runId = runId) :
    (t.run.runId ∉ minted ∧ t.run.runId ∈ minted') ∨
    ∃ run, mem.runs t.run.runId = some run ∧ run.state = .opened := by
  cases h with
  | opening spec version io _ hfresh => exact .inl ⟨hfresh, List.mem_cons_self⟩
  | closing runId run reason io hrun hopen =>
    refine .inr ⟨run, ?_, hopen⟩
    rw [show (closing runId run mem reason io).run.runId = runId from hid runId run hrun]
    exact hrun

/-! ### The index along a run -/

/-- The records of the index are of runs that were minted, their texts can be made, and each run in
memory has one. -/
structure Indexed (fl : FloatCodec F) (s : JournalState F) : Prop where
  minted : ∀ r ∈ s.dir.runRecords fl, r.runId ∈ s.minted
  texts : ∀ r ∈ s.dir.runRecords fl, Json.isUtf8 r.toJson
  listed : ∀ live, s.live = some live → ∀ runId run, live.mem.runs runId = some run →
    ∃ r ∈ s.dir.runRecords fl, r.runId = runId
  coherent : ∀ live, s.live = some live → Coherent fl (s.dir.runRecords fl) live.mem

/-- A record after a step was there before it or was written by it. -/
theorem Wrote.mem_runRecords {attempts : List (Attempt F)} {dir dir' : RunsDir}
    (h : Wrote fl attempts dir dir') (r : Run F) : r ∈ dir'.runRecords fl ↔ r ∈ dir.runRecords fl ∨
      ∃ w ∈ writtenRuns attempts, w.reread fl.toFloatFormat = r := by
  rw [h.runs, List.mem_append, List.mem_map]

theorem Indexed.step (h : Indexed fl s)
    (hstep : Steps cfg fl s l s') (hpower : ∀ loss, l.choice ≠ .powerLoss loss) : Indexed fl s' :=
    by
  have hwrote := hstep.wrote hpower
  have hrecords := Wrote.mem_runRecords hwrote
  refine ⟨fun r hr => ?_, fun r hr => ?_, fun live' hlive' runId run hrun => ?_,
    hstep.coherent h.coherent⟩
  · rcases (hrecords r).mp hr with hr | ⟨w, hw, rfl⟩
    · exact Steps.minted hstep _ (h.minted r hr)
    · -- a record that was written is of a run that is new or has one
      show w.runId ∈ s'.minted
      cases Steps.writtenBy hstep hw with
      | asked live t out hw hlive hasked =>
        rw [hw]
        rcases Asked.known hasked (h.coherent live hlive).id with ⟨-, hminted⟩ | ⟨run, hrun, -⟩
        · exact hminted
        · obtain ⟨r, hr, hid⟩ := h.listed live hlive _ run hrun
          exact hid ▸ Steps.minted hstep _ (h.minted r hr)
      | recovered io run _ hlast =>
        obtain ⟨hr, hid⟩ := latest_some hlast
        exact hid ▸ Steps.minted hstep _ (h.minted run hr)
  · rcases (hrecords r).mp hr with hr | ⟨w, hw, rfl⟩
    · exact h.texts r hr
    · exact Run.isUtf8_reread (hwrote.texts w hw)
  · rcases Steps.runs hstep h.coherent hlive' with ⟨io, -, hruns⟩ | ⟨live, hlive, hruns⟩ |
      ⟨live, hlive, w, hw, hruns⟩
    · rw [hruns] at hrun
      obtain ⟨r, hlast, -⟩ := Option.map_eq_some_iff.mp hrun
      obtain ⟨hr, hid⟩ := latest_some hlast
      exact ⟨r, (hrecords r).mpr (.inl hr), hid⟩
    · obtain ⟨r, hr, hid⟩ := h.listed live hlive runId run (hruns ▸ hrun)
      exact ⟨r, (hrecords r).mpr (.inl hr), hid⟩
    · rw [hruns, Function.update_apply] at hrun
      split at hrun
      · rename_i hid
        exact ⟨_, (hrecords _).mpr (.inr ⟨w, hw, rfl⟩), hid.symm⟩
      · obtain ⟨r, hr, hid⟩ := h.listed live hlive runId run hrun
        exact ⟨r, (hrecords r).mpr (.inl hr), hid⟩

theorem indexed_run {tr : JournalTrace F}
    (hrun : Run (journal cfg fl).lts {} tr s) (hpower : NoPowerLoss tr) : Indexed fl s := by
  refine hrun.induct_of (J := fun _ s => Indexed fl s)
    (C := fun _ (l : JournalLabel F) => ∀ loss, l.choice ≠ .powerLoss loss) ?_ ?_ hpower
  · exact ⟨(fun _ hr => nomatch hr), (fun _ hr => nomatch hr), (fun _ hlive => nomatch hlive),
      fun _ hlive => nomatch hlive⟩
  · intro tr s l s' _ _ h hpower hstep
    exact h.step (steps_of_next hstep) hpower

/-! ### Calls that returned ok -/

/-- The run that an `open` returned. -/
def openedBy (l : JournalLabel F) : Option (Run F) :=
  match l.choice, l.outcome with
  | .openRun .., .ok (.run run) => some run
  | _, _ => none

/-- The reason of a `close` that returned ok, and the run that it returned. -/
def closedBy (l : JournalLabel F) : Option (CloseReason × Run F) :=
  match l.choice, l.outcome with
  | .closeRun _ reason _, .ok (.run run) => some (reason, run)
  | _, _ => none

/-- The runs whose `open` returned ok. -/
def opens (tr : JournalTrace F) : List (Run F) :=
  tr.filterMap fun i => openedBy i.2

/-- The runs that a `close` returned, with its reason. -/
def closes (tr : JournalTrace F) : List (CloseReason × Run F) :=
  tr.filterMap fun i => closedBy i.2

theorem opens_snoc (tr : JournalTrace F) (s : JournalState F) (l : JournalLabel F) (run : Run F) :
    run ∈ opens (tr ++ [(s, l)]) ↔ run ∈ opens tr ∨ openedBy l = some run := by
  simp [opens]

theorem closes_snoc (tr : JournalTrace F) (s : JournalState F)
    (l : JournalLabel F) (c : CloseReason × Run F) :
    c ∈ closes (tr ++ [(s, l)]) ↔ c ∈ closes tr ∨ closedBy l = some c := by
  simp [closes]

theorem of_openedBy (h : openedBy l = some run) :
    (∃ spec version io, l.choice = .openRun spec version io) ∧ l.outcome = .ok (.run run) := by
  unfold openedBy at h
  split at h
  · rename_i hchoice houtcome
    cases h
    exact ⟨⟨_, _, _, hchoice⟩, houtcome⟩
  · cases h

theorem of_closedBy (h : closedBy l = some (reason, run)) :
    (∃ runId io, l.choice = .closeRun runId reason io) ∧ l.outcome = .ok (.run run) := by
  unfold closedBy at h
  split at h
  · rename_i hchoice houtcome
    cases h
    exact ⟨⟨_, _, hchoice⟩, houtcome⟩
  · cases h

/-- A call that returns a run wrote the record of that run. -/
structure Booked (cfg : JournalConfig) (fl : FloatCodec F) (s : JournalState F) (l : JournalLabel F)
    (s' : JournalState F) (run : Run F) : Prop where
  asked : ∃ mem minted minted' t, Asked cfg mem minted l.choice t minted' ∧ run = t.run
  written : writtenRuns l.attempts = [run]
  record : ∃ fate mem event, (appendRecord cfg fl run fate mem s.dir).outcome = .ok () ∧
    Wrote fl event (appendRecord cfg fl run fate mem s.dir).dir s'.dir
  runs : ∀ live', s'.live = some live' → live'.mem.runs run.runId = some run

/-- A call that returns a run booked it, or it is a `close` that found it closed. -/
theorem Steps.answered (h : Steps cfg fl s l s') (hcoherent : CoherentState fl s)
    (hrun : l.outcome = .ok (.run run)) : Booked cfg fl s l s' run ∨
    (s'.dir = s.dir ∧ ∃ runId reason io live, s.live = some live ∧
      l.choice = .closeRun runId reason io ∧ live.mem.runs runId = some run ∧ run.state = .closed ∧
      ∀ live', s'.live = some live' → live'.mem = live.mem) := by
  cases h with
  | powerLoss loss hl =>
    rw [hl] at hrun
    cases hrun
  | start io _ houtcome =>
    rw [houtcome] at hrun
    revert hrun
    cases (initializeJournal cfg fl io s.dir).outcome <;> simp [Outcome.map]
  | idle hanswer _ hdir _ hmem =>
    rcases hanswer _ hrun with hnothing | ⟨runId, reason, io, live, known, hlive, hchoice, hknown,
      hclosed, hsame⟩
    · cases hnothing
    · cases hsame
      refine .inr ⟨hdir, runId, reason, io, live, hlive, hchoice, hknown, hclosed, ?_⟩
      intro live' hlive'
      obtain ⟨live₁, hlive₁, hsame⟩ := hmem live' hlive'
      rw [hlive] at hlive₁
      cases hlive₁
      exact hsame
  | transacted live t out hlive hasked hout hleft =>
    have hok : out.outcome = .ok run := by
      rw [hleft.outcome] at hrun
      revert hrun
      cases out.outcome <;> simp [Outcome.map]
    obtain ⟨rfl, hrecord⟩ := hout.of_ok hok
    obtain ⟨hwritten, hruns, hwrote⟩ := hout.recorded hrecord
    refine .inl ⟨⟨live.mem, _, _, t, hasked, rfl⟩, hleft.attempts ▸ hwritten, ?_,
      fun live' hlive' => ?_⟩
    · obtain ⟨event, hwrote⟩ := hwrote
      exact ⟨t.fate, t.kept, event, hrecord, hleft.dir ▸ hwrote⟩
    · rw [(hleft.mem live' hlive').2, hruns, (hasked.fits (hcoherent live hlive).id).1.runs]
      exact Function.update_self ..
  | appended live entry _ _ _ hleft =>
    rw [hleft.outcome] at hrun
    revert hrun
    cases (entry.append cfg fl live.mem s.dir).outcome <;> simp [Outcome.map]

theorem Steps.opens (h : Steps cfg fl s l s') (hcoherent : CoherentState fl s)
    (hrun : openedBy l = some run) : Booked cfg fl s l s' run := by
  obtain ⟨⟨spec, version, io, hopen⟩, houtcome⟩ := of_openedBy hrun
  refine (Steps.answered h hcoherent houtcome).resolve_right ?_
  rintro ⟨-, runId, reason, io, live, -, hclose, -⟩
  rw [hopen] at hclose
  cases hclose

theorem Booked.closed (h : Booked cfg fl s l s' run)
    (hrun : closedBy l = some (reason, run)) : run.state = .closed := by
  obtain ⟨mem, minted, minted', t, hasked, rfl⟩ := h.asked
  obtain ⟨⟨runId, io, hchoice⟩, -⟩ := of_closedBy hrun
  rw [hchoice] at hasked
  cases hasked
  rfl

/-! ### I/O that succeeds -/

/-- The I/O of an append does not fail, and the process is not killed in it. -/
def ioSucceeds (attempt : Attempt F) : Bool := attempt.result = .ok || attempt.result = .threw

theorem isUtf8_close (h : Json.isUtf8 run.toJson) (reason : CloseReason)
    (now : UInt64) : Json.isUtf8 (run.close reason now).toJson := by
  rw [Run.isUtf8_toJson] at h ⊢
  exact h

theorem isUtf8_runId (h : Json.isUtf8 run.toJson) : Utf8.valid run.runId :=
  ((Run.isUtf8_toJson run).mp h).2.2.2.1

theorem appendRecord_not_threw (htext : Json.isUtf8 run.toJson) :
    (appendLine (run.line fl) fate dir.index).result ≠ .threw := by
  intro hthrew
  have hline := (run.line_isSome fl).mpr htext
  rw [appendLine_threw hthrew] at hline
  cases hline

theorem appendRecord_succeeds {mem : Memory F} (htext : Json.isUtf8 run.toJson)
    (hio : ∀ a ∈ (appendRecord cfg fl run fate mem dir).attempts, ioSucceeds a) :
    (appendRecord cfg fl run fate mem dir).outcome = .ok () := by
  have hresult := hio _ (List.mem_singleton_self _)
  simp only [ioSucceeds, Bool.or_eq_true, decide_eq_true_eq] at hresult
  have hok := hresult.resolve_right (appendRecord_not_threw htext)
  simp only [appendRecord, hok]

section
variable {entry : Entry F} {mem : Memory F} {dir : RunsDir}

theorem Entry.not_threw (cfg : JournalConfig) (hid : Utf8.valid entry.runId)
    (htype : Utf8.valid entry.type) (hpayload : Json.isUtf8 entry.payload.1) :
    (entry.append cfg fl mem dir).outcome ≠ .threw := by
  intro h
  have htext : Json.isUtf8 (entry.event fl mem dir).toJson := by
    rw [RunEvent.isUtf8_toJson]
    refine ⟨?_, hid, htype⟩
    unfold Entry.event newEvent
    dsimp only
    split
    · exact hpayload
    · rfl
  have hresult : (entry.line fl mem dir).result = .threw := by
    rcases entry.append_cases cfg fl mem dir with ⟨-, hother⟩ | ⟨hthrew, -⟩ | ⟨-,
      hother⟩ | ⟨_, hother⟩
    · cases h.symm.trans hother
    · exact hthrew
    · cases h.symm.trans hother
    · cases h.symm.trans hother
  have hline := (RunEvent.line_isSome fl _).mpr htext
  rw [appendLine_threw hresult] at hline
  cases hline

/-- What is left for the append of an event whose I/O succeeds. -/
theorem Entry.succeeds (h : ∀ a ∈ (entry.append cfg fl mem dir).attempts, ioSucceeds a) :
    (entry.append cfg fl mem dir).outcome = .ok (entry.event fl mem dir) ∨
    (entry.append cfg fl mem dir).outcome = .threw := by
  have hresult := h _ (List.mem_singleton_self _)
  simp only [ioSucceeds, Bool.or_eq_true, decide_eq_true_eq] at hresult
  unfold Entry.append appendEventLocked
  rcases hresult with hresult | hresult
  · exact .inl (by simp only [hresult]; rfl)
  · exact .inr (by simp only [hresult])

end

theorem isUtf8_recoveryPayload : Json.isUtf8 (recoveryPayload (F := F)).1 := by
  have hkey : Utf8.valid (ascii "recovery") := by decide
  simp [recoveryPayload, Json.isUtf8, Json.isUtf8Fields, Json.isUtf8Field, hkey]

theorem recoverRun_succeeds {runId : Bytes} {io : RecoveryIo} {mem : Memory F}
    {dir : RunsDir} (htext : Json.isUtf8 run.toJson) (hid : run.runId = runId)
    (hio : ∀ a ∈ (recoverRun cfg fl runId run io mem dir).attempts, ioSucceeds a) :
    (recoverRun cfg fl runId run io mem dir).outcome = .ok () := by
  have hclosed := isUtf8_close htext .abandoned io.now
  have ht : Transacts cfg fl (recovering runId run mem io) dir ()
    (recoverRun cfg fl runId run io mem dir) := recoverRun_transacts runId run io mem dir
  cases ht with
  | stopped hrecord _ _ hattempts =>
    rw [hattempts] at hio
    exact absurd (appendRecord_succeeds hclosed hio) hrecord
  | done _ _ _ hattempts houtcome =>
    rw [hattempts] at hio
    have hevent := (Entry.succeeds fun a ha => hio a (List.mem_append_right _ ha)).resolve_right
      (Entry.not_threw cfg (hid ▸ isUtf8_runId htext) (isUtf8_reason .abandoned)
        isUtf8_recoveryPayload)
    rw [houtcome]
    exact congrArg (Outcome.andThen · (.ok ())) hevent

theorem recover_succeeds {mem : Memory F}
    {dir : RunsDir} (htexts : ∀ runId run, mem.runs runId = some run →
      Json.isUtf8 run.toJson ∧ run.runId = runId)
    (hio : ∀ a ∈ (recover cfg fl io ids mem dir).attempts, ioSucceeds a) :
    (recover cfg fl io ids mem dir).outcome = .ok () := by
  revert htexts hio
  fun_induction recover cfg fl io ids mem dir with
  | case1 => exact fun _ _ => rfl
  | case2 runId rest mem dir hunknown ih => exact ih
  | case3 runId rest mem dir run hrun hopen one hok others ih =>
    intro htexts hio
    have hclosed := isUtf8_close (htexts runId run hrun).1 .abandoned (io runId).now
    refine ih (fun other known hknown => ?_) fun a ha => hio a (List.mem_append_right _ ha)
    rw [show one.mem.runs = _ from recoverRun_runs hok] at hknown
    refine ⟨?_, id_update (fun id r hr => (htexts id r hr).2)
      (run.close .abandoned (io runId).now) other known hknown⟩
    rw [Function.update_apply] at hknown
    split at hknown
    · rw [← Option.some.inj hknown]
      exact hclosed
    · exact (htexts other known hknown).1
  | case4 runId rest mem dir run hrun hopen one hok =>
    intro htexts hio
    obtain ⟨htext, hid⟩ := htexts runId run hrun
    exact recoverRun_succeeds htext hid hio
  | case5 runId rest mem dir run hrun hopen ih => exact ih

theorem initializeJournal_succeeds {io : InitializeIo} {dir : RunsDir}
    (htexts : ∀ r ∈ dir.runRecords fl, Json.isUtf8 r.toJson) (hcreate : io.createError = none)
    (hio : ∀ a ∈ (initializeJournal cfg fl io dir).attempts, ioSucceeds a) :
    (initializeJournal cfg fl io dir).outcome = .ok () := by
  revert hio
  fun_cases initializeJournal cfg fl io dir with
  | case1 message hsome =>
    rw [hcreate] at hsome
    cases hsome
  | case2 _ mem =>
    refine recover_succeeds fun runId run hrun => ?_
    rw [show mem.runs runId = _ from replayAll_runs _ _] at hrun
    obtain ⟨hmem, hid⟩ := latest_some hrun
    exact ⟨htexts run hmem, hid⟩

end Anolis.Proofs.JournalRecords
