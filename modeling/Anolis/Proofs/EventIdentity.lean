import Anolis.Proofs.JournalReads

/-!
# The sequences of a run's events

`event_identity`: the events that `list_events` reads of a run have increasing sequences, in every
run of the machine with any failed appends, kills and restarts, as long as no append to a run whose
counter is in memory fails in the write with its whole text in the file.

The invariant is `Counted`: the sequences of each stream are 1, 2, 3 and so on, and a counter in
memory is the next one. A counter that is not in memory is restored from the stream as the next one.
`append_event_locked` advances the counter when the write succeeded, also where a sync fails
afterwards. Where the write fails it does not, and where the text is in the file all the same, the
next append ends its line and takes the same sequence again (`sequence_taken_twice`).

The sequences are `uint64_t`. They do not wrap, since a file that has that many events would be
larger than a file can be.
-/

namespace Anolis.Proofs.EventIdentity

open Lib (Bytes Run Trace ascii)
open Lib.Json (FloatCodec noFloats)
open Lib.RecordLog
open Runs hiding Run
open JournalReads

variable {F : Type} {cfg : JournalConfig} {fl : FloatCodec F} {events : List (RunEvent F)}

/-! ### Sequences -/

/-- The sequences are 1, 2, 3 and so on. -/
def Numbered (events : List (RunEvent F)) : Prop :=
  events.map (fun event => event.sequence.toNat) = List.range' 1 events.length

theorem numbered_nil : Numbered ([] : List (RunEvent F)) := rfl

theorem numbered_snoc (events : List (RunEvent F)) (event : RunEvent F) :
    Numbered (events ++ [event]) ↔ Numbered events ∧ event.sequence.toNat = events.length + 1 := by
  unfold Numbered
  rw [List.map_append, List.length_append, List.map_singleton, List.length_singleton,
    List.range'_concat, Nat.one_mul, Nat.add_comm 1]
  constructor
  · intro h
    obtain ⟨hinit, hlast⟩ := List.append_inj' h rfl
    exact ⟨hinit, (List.cons.inj hlast).1⟩
  · rintro ⟨hinit, hlast⟩
    rw [hinit, hlast]

theorem maxSequence_snoc (events : List (RunEvent F)) (event : RunEvent F) :
    maxSequence (events ++ [event]) =
      if maxSequence events < event.sequence then event.sequence else maxSequence events := by
  rw [maxSequence, List.foldl_append]
  rfl

theorem maxSequence_numbered (h : Numbered events) :
    (maxSequence events).toNat = events.length := by
  induction events using List.reverseRecOn with
  | nil => rfl
  | append_singleton events event ih =>
    obtain ⟨hinit, hlast⟩ := (numbered_snoc events event).mp h
    have hlt : maxSequence events < event.sequence := by
      rw [UInt64.lt_iff_toNat_lt, ih hinit, hlast]
      exact Nat.lt_succ_self _
    rw [maxSequence_snoc, if_pos hlt, hlast, List.length_append]
    rfl

/-! ### Counters -/

/-- The streams are numbered, and a counter in memory is the next number of its stream. -/
structure Counted (fl : FloatCodec F) (mem : Memory F) (dir : RunsDir) : Prop where
  numbered : ∀ runId, Numbered (dir.eventRecords fl runId)
  counter : ∀ runId seq, mem.nextSeq runId = some seq →
    seq.toNat = (dir.eventRecords fl runId).length + 1
  /-- The counters are of runs that the journal knows, and so is the open run. -/
  known : ∀ runId, (mem.nextSeq runId).isSome → (mem.runs runId).isSome
  opened : ∀ runId, mem.openRunId = some runId → (mem.runs runId).isSome

theorem length_eventRecords (fl : FloatCodec F) (dir : RunsDir) (runId : Bytes) :
    (dir.eventRecords fl runId).length + 2 < 2 ^ 64 := by
  have h : (dir.eventRecords fl runId).length ≤ maxFileSize := length_recordsOf_le _ _
  simp only [maxFileSize] at h
  omega

theorem toNat_succ {seq : UInt64} {n : Nat} (h : seq.toNat = n) (hn : n + 1 < 2 ^ 64) :
    (seq + 1).toNat = n + 1 := by
  rw [UInt64.toNat_add, h]
  exact Nat.mod_eq_of_lt hn

theorem Counted.next {mem : Memory F} {dir : RunsDir} (h : Counted fl mem dir) (runId : Bytes) :
    (nextSequence fl mem dir runId).toNat = (dir.eventRecords fl runId).length + 1 := by
  have hbound := length_eventRecords fl dir runId
  unfold nextSequence
  split
  · rename_i seq hseq
    exact h.counter runId seq hseq
  · exact toNat_succ (maxSequence_numbered (h.numbered runId)) (by omega)

section
variable {entry : Entry F} {mem : Memory F} {dir : RunsDir}

theorem Counted.numbered_event (h : Counted fl mem dir) (cfg : JournalConfig) (other : Bytes) :
    Numbered ((entry.append cfg fl mem dir).dir.eventRecords fl other) := by
  rw [entry.eventRecords]
  split
  · rename_i hwhole
    obtain ⟨rfl, -⟩ := hwhole
    rw [numbered_snoc]
    exact ⟨h.numbered _, h.next _⟩
  · rw [List.append_nil]
    exact h.numbered other

theorem whole_of_spent (h : AppendResult.spent (entry.line fl mem dir).result) :
    (entry.line fl mem dir).whole := by
  refine appendLine_synced ?_
  change (entry.line fl mem dir).result = _ ∨ (entry.line fl mem dir).result = _ ∨
    (entry.line fl mem dir).result = _
  revert h
  cases (entry.line fl mem dir).result <;> simp [AppendResult.spent]

/-- A line that is whole is counted, unless the process is killed or the write failed with the whole
text in the file. -/
theorem spent_of_whole (h : (entry.line fl mem dir).whole)
    (hshort : failsWhole ((entry.event fl mem dir).line fl) entry.io.fate
      (dir.events entry.runId) = false) (halive : (entry.append cfg fl mem dir).outcome ≠ .killed) :
    AppendResult.spent (entry.line fl mem dir).result := by
  have hresult := appendLine_whole h
  rw [hshort] at hresult
  change (entry.line fl mem dir).result = _ ∨ (entry.line fl mem dir).result = _ ∨
    (entry.line fl mem dir).result = _ ∨ (entry.line fl mem dir).result = _ ∨ _ at hresult
  rcases hresult with hresult | hresult | hresult | hresult | ⟨-, hfails⟩
  · rw [hresult]
    rfl
  · rw [hresult]
    rfl
  · rw [hresult]
    rfl
  · unfold Entry.line Entry.event at hresult
    exact absurd (by simp only [Entry.append, appendEventLocked, hresult]) halive
  · cases hfails

/-- The counter is the next number again, unless the append failed in the write with the whole text
in the file while there was a counter. -/
theorem Counted.event (h : Counted fl mem dir) (cfg : JournalConfig)
    (hknown : (mem.runs entry.runId).isSome) (hshort : (mem.nextSeq entry.runId).isSome →
      failsWhole ((entry.event fl mem dir).line fl) entry.io.fate (dir.events entry.runId) = false)
    (halive : (entry.append cfg fl mem dir).outcome ≠ .killed) :
    Counted fl (entry.append cfg fl mem dir).mem (entry.append cfg fl mem dir).dir where
  numbered other := h.numbered_event cfg other
  known other hother := by
    rw [entry.append_runs]
    rcases entry.append_mem cfg fl mem dir with heq | ⟨seq, heq⟩
    · rw [heq] at hother
      exact h.known other hother
    · rw [heq] at hother
      by_cases hsame : other = entry.runId
      · rw [hsame]
        exact hknown
      · refine h.known other ?_
        rwa [← Function.update_of_ne hsame (some seq) mem.nextSeq]
  opened other hother := by
    rw [entry.append_openRunId] at hother
    rw [entry.append_runs]
    exact h.opened other hother
  counter other seq hseq := by
    have hmem : (entry.append cfg fl mem dir).mem.nextSeq =
        if AppendResult.spent (entry.line fl mem dir).result then
          Function.update mem.nextSeq entry.runId (some ((entry.event fl mem dir).sequence + 1))
        else mem.nextSeq := by
      unfold Entry.append appendEventLocked
      exact apply_ite Memory.nextSeq _ _ _
    rw [hmem] at hseq
    rw [entry.eventRecords]
    rcases eq_or_ne other entry.runId with rfl | hother
    · have hbound := length_eventRecords fl dir entry.runId
      split at hseq
      · -- the line is in the file, and the counter goes on
        rename_i hspent
        rw [Function.update_self] at hseq
        cases hseq
        rw [if_pos ⟨rfl, whole_of_spent hspent⟩, List.length_append, List.length_singleton]
        exact toNat_succ (h.next entry.runId) (by omega)
      · -- the counter stays, and so does the stream
        rename_i hspent
        have hshort := hshort (by rw [hseq]; rfl)
        rw [if_neg fun hboth => hspent (spent_of_whole hboth.2 hshort halive), List.append_nil]
        exact h.counter _ seq hseq
    · rw [if_neg fun hboth => hother hboth.1, List.append_nil]
      refine h.counter other seq ?_
      rw [← hseq]
      split
      · exact (Function.update_of_ne hother _ _).symm
      · rfl

end

/-! ### The functions of the journal -/

variable {mem' : Memory F} {runId : Bytes} {t : Transaction F} {run : Runs.Run F}

variable {mem : Memory F}

theorem Counted.congr {dir dir' : RunsDir} (h : Counted fl mem dir)
    (hevents : ∀ runId, dir'.eventRecords fl runId = dir.eventRecords fl runId)
    (hseq : mem'.nextSeq = mem.nextSeq)
    (hruns : ∀ runId, (mem.runs runId).isSome → (mem'.runs runId).isSome)
    (hopen : ∀ runId, mem'.openRunId = some runId → (mem'.runs runId).isSome) :
    Counted fl mem' dir' where
  numbered runId := hevents runId ▸ h.numbered runId
  counter runId seq hs := by
    rw [hevents]
    exact h.counter runId seq (hseq ▸ hs)
  known runId hs := hruns runId (h.known runId (hseq ▸ hs))
  opened := hopen

theorem isSome_update {runs : Bytes → Option (Runs.Run F)}
    (other : Bytes) (h : (runs other).isSome ∨ other = runId) :
    (Function.update runs runId (some run) other).isSome := by
  rw [Function.update_apply]
  split
  · rfl
  · rename_i hne
    exact h.resolve_right hne

variable {dir : RunsDir}

theorem Counted.record (h : Counted fl mem dir)
    (cfg : JournalConfig) (run : Runs.Run F) (fate : AppendFate) (mem' : Memory F) :
    Counted fl mem (appendRecord cfg fl run fate mem' dir).dir :=
  h.congr (fun _ => eventRecords_setIndex _ _ _) rfl (fun _ => id) h.opened

theorem Counted.erase (h : Counted fl mem dir)
    (herased : Erased runId mem mem') : Counted fl mem' dir where
  numbered := h.numbered
  counter other seq hother := by
    rw [herased.nextSeq, Function.update_apply] at hother
    split at hother
    · cases hother
    · exact h.counter other seq hother
  known other hother := by
    rw [herased.nextSeq, Function.update_apply] at hother
    rw [herased.runs]
    split at hother
    · cases hother
    · exact h.known other hother
  opened other hother := by
    rw [herased.runs]
    exact h.opened other (herased.openRunId other hother)

theorem Counted.transaction {mem mem₁ : Memory F}
    (h : Counted fl mem dir) (hfits : Fits mem t) (cfg : JournalConfig) (run : Runs.Run F)
    (fate : AppendFate) : Counted fl t.mem (appendRecord cfg fl run fate mem₁ dir).dir := by
  refine (h.record cfg run fate mem₁).congr (fun _ => rfl) hfits.nextSeq (fun other hknown => ?_)
    fun other hother => ?_
  · rw [hfits.runs]
    exact isSome_update other (.inl hknown)
  · rw [hfits.runs]
    rcases hfits.openRunId other hother with hbefore | hid
    · exact isSome_update other (.inl (h.opened other hbefore))
    · exact isSome_update other (.inr hid)

/-- What holds of the streams and the counters after a function of the journal. -/
def CountedAfter {α : Type} (fl : FloatCodec F) (out : Section F α) : Prop :=
  (∀ runId, Numbered (out.dir.eventRecords fl runId)) ∧
    (out.outcome ≠ .killed → Counted fl out.mem out.dir)

theorem failsWhole_setIndex (text : Option Bytes) (fate : AppendFate) (dir : RunsDir)
    (append : Append) (runId : Bytes) : failsWhole text fate ((dir.setIndex append).events runId) =
      failsWhole text fate (dir.events runId) := by
  unfold RunsDir.setIndex
  dsimp only
  split
  · exact failsWhole_link _ _ _
  · rfl

theorem Transacts.counted {α : Type} {answer : α} {out : Section F α}
    (h : Transacts cfg fl t dir answer out) (hfits : Fits mem t)
    (hcounted : Counted fl mem dir) (hkept : t.kept = mem ∨ t.kept = t.mem)
    (hshort : (mem.nextSeq t.entry.runId).isSome →
      failsWhole ((t.entry.event fl mem dir).line fl) t.entry.io.fate
        (dir.events t.entry.runId) = false) : CountedAfter fl out := by
  have hset : Counted fl t.mem (t.record cfg fl dir).dir := hcounted.transaction hfits cfg _ _
  cases h with
  | stopped _ hmem hdir =>
    have hstopped : Counted fl out.mem out.dir := by
      rw [hmem, hdir]
      rcases hkept with hkept | hkept <;> rw [hkept]
      · exact hcounted.record cfg _ _ _
      · exact hset
    exact ⟨hstopped.numbered, fun _ => hstopped⟩
  | done _ hmem hdir _ houtcome =>
    refine ⟨fun runId => hdir ▸ hset.numbered_event cfg runId, fun halive => ?_⟩
    have hknown : (t.mem.runs t.entry.runId).isSome := by
      rw [hfits.runs]
      exact isSome_update _ (.inr hfits.id.symm)
    have hnotKilled : (t.event cfg fl dir).outcome ≠ .killed := by
      intro hkilled
      rw [houtcome, hkilled] at halive
      exact halive rfl
    have hevent : Counted fl (t.event cfg fl dir).mem (t.event cfg fl dir).dir := by
      refine hset.event cfg hknown (fun hcounter => ?_) hnotKilled
      -- the event depends on the stream and the counter only
      have hnew : t.entry.event fl t.mem (t.record cfg fl dir).dir = t.entry.event fl mem dir := by
        have hrecords : (t.record cfg fl dir).dir.eventRecords fl t.entry.runId =
          dir.eventRecords fl t.entry.runId := eventRecords_setIndex _ _ _
        simp only [Entry.event, newEvent, nextSequence, hfits.nextSeq, hrecords]
      rw [hnew]
      exact (failsWhole_setIndex _ _ _ _ _).trans (hshort (hfits.nextSeq ▸ hcounter))
    rw [hdir]
    rcases hmem with hmem | herased
    · rw [hmem]
      exact hevent
    · exact hevent.erase herased

theorem counted_recoverRun {io : RecoveryIo} (h : Counted fl mem dir)
    (hnone : mem.nextSeq runId = none)
    (hfits : Fits mem (recovering runId run mem io)) :
    CountedAfter fl (recoverRun cfg fl runId run io mem dir) := by
  refine Transacts.counted (recoverRun_transacts ..) hfits h (.inr rfl) fun hcounter => ?_
  cases (congrArg Option.isSome hnone).symm.trans hcounter

theorem counted_recover {io : Bytes → RecoveryIo} {ids : List Bytes} (h : Counted fl mem dir)
    (hnone : ∀ runId, mem.nextSeq runId = none)
    (hid : ∀ runId run, mem.runs runId = some run → run.runId = runId) :
    CountedAfter fl (recover cfg fl io ids mem dir) := by
  revert h hnone hid
  fun_induction recover cfg fl io ids mem dir with
  | case1 mem dir => exact fun h _ _ => ⟨h.numbered, fun _ => h⟩
  | case2 runId rest mem dir hunknown ih => exact ih
  | case3 runId rest mem dir run hrun hopen one hone others ih =>
    intro h hnone hid
    have hmem : one.mem = { mem.setRun (run.close .abandoned (io runId).now) with
        nextSeq := Function.update mem.nextSeq runId none } := recoverRun_ok hone
    have hcounted : CountedAfter fl one := counted_recoverRun h (hnone runId)
      (fits_recovering (io runId) (hid runId run hrun) hrun hopen)
    have halive : one.outcome ≠ .killed := by
      rw [hone]
      exact fun hkilled => by cases hkilled
    refine ih (hcounted.2 halive) (fun other => ?_) fun other known hknown => ?_
    · rw [hmem]
      show Function.update mem.nextSeq runId none other = none
      rw [Function.update_apply, hnone, ite_self]
    · rw [hmem] at hknown
      exact id_update hid (run.close .abandoned (io runId).now) other known hknown
  | case4 runId rest mem dir run hrun hopen one hone =>
    intro h hnone hid
    exact counted_recoverRun h (hnone runId)
      (fits_recovering (io runId) (hid runId run hrun) hrun hopen)
  | case5 runId rest mem dir run hrun hopen ih => exact ih

theorem counted_start
    (h : ∀ runId, Numbered (dir.eventRecords fl runId)) (hnone : ∀ runId, mem.nextSeq runId = none)
    (hopen : mem.openRunId = none) : Counted fl mem dir where
  numbered := h
  counter runId seq hseq := by
    rw [hnone] at hseq
    cases hseq
  known runId hseq := by
    rw [hnone] at hseq
    cases hseq
  opened runId hid := by
    rw [hopen] at hid
    cases hid

theorem counted_initializeJournal {io : InitializeIo}
    (h : ∀ runId, Numbered (dir.eventRecords fl runId)) :
    CountedAfter fl (initializeJournal cfg fl io dir) := by
  fun_cases initializeJournal cfg fl io dir with
  | case1 => exact ⟨h, fun _ => counted_start h (fun _ => rfl) rfl⟩
  | case2 hcreate mem =>
    obtain ⟨hopen, hseq⟩ := replayAll_rest (dir.runRecords fl)
    have hnone : ∀ runId, mem.nextSeq runId = none := congrFun hseq
    have hcoherent : Coherent fl (dir.runRecords fl) mem := coherent_replayAll _
    exact counted_recover (counted_start h hnone hopen) hnone hcoherent.id

/-! ### The machine -/

/-- The event that a call would append in a state, and how far the append gets. A run that is new
has no counter, and neither has a run that a prior process left open. -/
def eventAppend (fl : FloatCodec F) (live : Live F) (dir : RunsDir) :
    JournalChoice F → Option (RunEvent F × AppendFate)
  | .closeRun runId reason io =>
    some (newEvent fl runId .runClosed reason.toString emptyObject io.now io.event live.mem dir,
      io.event.fate)
  | .appendEvent runId category type payload occurredAt io =>
    some (newEvent fl runId category type payload occurredAt io live.mem dir, io.fate)
  | .appendModeChange i io =>
    (live.changing[i]?).map fun change =>
      (newEvent fl change.1 .modeChange [] change.2 0 io live.mem dir, io.fate)
  | .persist io =>
    match live.inHand, live.mem.openRunId with
    | some event, some runId =>
      some (newEvent fl runId event.category event.type event.payload event.occurredAt io
        live.mem dir,
        io.fate)
    | _, _ => none
  | _ => none

/-- No append to a run whose counter is in memory fails in the write with its whole text in the
file. -/
def stopsShort (fl : FloatCodec F) (s : JournalState F) (l : JournalLabel F) : Bool :=
  s.live.all fun live =>
    (eventAppend fl live s.dir l.choice).all fun append =>
      (live.mem.nextSeq append.1.runId).isNone ||
        !failsWhole (append.1.line fl) append.2 (s.dir.events append.1.runId)

variable {s : JournalState F} {l : JournalLabel F}

theorem stopsShort_append {live : Live F}
    (append : RunEvent F × AppendFate) (h : stopsShort fl s l) (hlive : s.live = some live)
    (happend : eventAppend fl live s.dir l.choice = some append)
    (hcounter : (live.mem.nextSeq append.1.runId).isSome) :
    failsWhole (append.1.line fl) append.2 (s.dir.events append.1.runId) = false := by
  obtain ⟨seq, hseq⟩ := Option.isSome_iff_exists.mp hcounter
  simpa [stopsShort, hlive, happend, hseq] using h

/-- The state has numbered streams and the counters for them. -/
structure CountedState (fl : FloatCodec F) (s : JournalState F) : Prop where
  numbered : ∀ runId, Numbered (s.dir.eventRecords fl runId)
  counted : ∀ live, s.live = some live → Counted fl live.mem s.dir
  id : ∀ live, s.live = some live → ∀ runId run, live.mem.runs runId = some run → run.runId = runId

theorem CountedState.step {s' : JournalState F} (h : CountedState fl s)
    (hstep : Steps cfg fl s l s') (hcoherent : CoherentState fl s')
    (hpower : ∀ loss, l.choice ≠ .powerLoss loss) (hshort : stopsShort fl s l) :
    CountedState fl s' := by
  -- what the functions leave is what the state has
  have hafter {α : Type} {out : Section F α} (hout : CountedAfter fl out) (hdir : s'.dir = out.dir)
      (hmem : ∀ live', s'.live = some live' → out.outcome ≠ .killed ∧ live'.mem = out.mem) :
      CountedState fl s' := by
    refine ⟨fun runId => ?_, fun live' hlive' => ?_, fun live' hlive' =>
      (hcoherent live' hlive').id⟩
    · rw [hdir]
      exact hout.1 runId
    · rw [hdir, (hmem live' hlive').2]
      exact hout.2 (hmem live' hlive').1
  cases hstep with
  | powerLoss loss hl => exact absurd (congrArg JournalLabel.choice hl) (hpower loss)
  | start io _ _ _ hdir _ hmem =>
    refine hafter (counted_initializeJournal h.numbered) hdir fun live' hlive' => ?_
    obtain ⟨hok, hmem⟩ := hmem live' hlive'
    rw [hok]
    exact ⟨(fun hkilled => nomatch hkilled), hmem⟩
  | idle _ _ hdir _ hmem =>
    refine ⟨hdir ▸ h.numbered, fun live' hlive' => ?_, fun live' hlive' =>
      (hcoherent live' hlive').id⟩
    obtain ⟨live, hlive, hsame⟩ := hmem live' hlive'
    rw [hdir, hsame]
    exact h.counted live hlive
  | transacted live t out hlive hasked hout hleft =>
    have hcounted := h.counted live hlive
    obtain ⟨hfits, hkept⟩ := hasked.fits (h.id live hlive)
    refine hafter (Transacts.counted hout hfits hcounted (.inl hkept) ?_) hleft.dir hleft.mem
    generalize hchoice : l.choice = choice, s'.minted = minted at hasked
    cases hasked with
    | opening spec version io hnone hfresh hnew =>
      -- a run that is new has no counter
      intro hcounter
      cases (congrArg Option.isSome hnew).symm.trans (hcounted.known _ hcounter)
    | closing runId run reason io =>
      exact stopsShort_append ((closing runId run live.mem reason io).entry.event fl live.mem s.dir,
        io.event.fate) hshort hlive (by rw [hchoice]; rfl)
  | appended live entry hlive hsent hopen hleft =>
    have hcounted := h.counted live hlive
    have hknown : (live.mem.runs entry.runId).isSome := by
      rcases hopen with hopen | ⟨run, hrun, -⟩
      · exact hcounted.opened _ hopen
      · rw [hrun]
        rfl
    refine hafter ⟨hcounted.numbered_event cfg, hcounted.event cfg hknown ?_⟩ hleft.dir hleft.mem
    refine stopsShort_append (entry.event fl live.mem s.dir, entry.io.fate) hshort hlive ?_
    generalize l.choice = choice at hsent
    cases hsent with
    | call => rfl
    | modeChange i runId payload io hchange =>
      rw [eventAppend, hchange]
      rfl
    | queued event runId io hhand hrunId =>
      rw [eventAppend, hhand, hrunId]
      rfl

theorem countedState_run {tr : JournalTrace F}
    (hrun : Run (journal cfg fl).lts {} tr s) (hpower : NoPowerLoss tr)
    (hshort : ∀ i ∈ tr, stopsShort fl i.1 i.2) : CountedState fl s ∧ OwnEvents fl s.dir := by
  refine hrun.induct_of (C := fun s l => (∀ loss, l.choice ≠ .powerLoss loss) ∧ stopsShort fl s l)
    (J := fun _ s => CountedState fl s ∧ OwnEvents fl s.dir) ?_ ?_ fun i hi =>
      ⟨hpower i hi, hshort i hi⟩
  · refine ⟨⟨fun _ => numbered_nil, ?_, ?_⟩, fun runId event hevent => nomatch hevent⟩
    · intro live hlive
      cases hlive
    · intro live hlive
      cases hlive
  · rintro tr s l s' hrun _ ⟨hcounted, hown⟩ ⟨hpower, hshort⟩ hstep
    have hsteps := steps_of_next hstep
    exact ⟨hcounted.step hsteps (hsteps.coherent (coherent_run hrun)) hpower hshort,
      (hsteps.wrote hpower).ownEvents hown⟩

theorem Numbered.increasing (h : Numbered events) :
    events.Pairwise fun a b => a.sequence < b.sequence := by
  have hrange : (events.map fun event => event.sequence.toNat).Pairwise (· < ·) := by
    rw [show events.map _ = _ from h]
    exact List.pairwise_lt_range'
  exact (List.pairwise_map.mp hrange).imp fun hlt => UInt64.lt_iff_toNat_lt.mpr hlt

/-- The events that `list_events` reads of a run have increasing sequences. -/
theorem event_identity (cfg : JournalConfig) (fl : FloatCodec F)
    {tr : Trace (JournalState F) (JournalLabel F)} {s : JournalState F}
    (hrun : Run (journal cfg fl).lts {} tr s) (hpower : NoPowerLoss tr)
    (hshort : ∀ i ∈ tr, stopsShort fl i.1 i.2) (runId : Bytes) (limit offset : Nat) :
    (listEvents fl s.dir runId limit offset).Pairwise (fun a b => a.sequence < b.sequence) ∧
    ∀ event ∈ listEvents fl s.dir runId limit offset, event.runId = runId := by
  obtain ⟨hcounted, hown⟩ := countedState_run hrun hpower hshort
  have hpage : (listEvents fl s.dir runId limit offset).Sublist (s.dir.eventRecords fl runId) :=
    (List.take_sublist _ _).trans (List.drop_sublist _ _)
  exact ⟨(hcounted.numbered runId).increasing.sublist hpage, fun event hevent =>
    hown runId event (hpage.subset hevent)⟩

/-! ### Two annotations -/

/-- A runtime, with the clock at one millisecond. -/
def benchConfig : JournalConfig where
  runtimeName := ascii "bench"
  pollingIntervalMs := 100
  version := ascii "1.0.0"
  runsPath := ascii "data/runs"

def atOne (fate : AppendFate) : EventIo := { fate, now := 1, recordedAt := 1 }

/-- A process starts, opens a run and appends two annotations to it, the first with a fate. -/
def annotateTwice (fate : AppendFate) : List (JournalChoice Empty) := [
  .start { recovery := fun _ => { now := 1, event := atOne .ok } },
  .openRun {} none { ulid := ascii "A", now := 1, event := atOne .ok },
  .appendEvent (ascii "bench-A") .annotationMarker [] emptyObject 1 (atOne fate),
  .appendEvent (ascii "bench-A") .annotationMarker [] emptyObject 1 (atOne .ok)]

/-- The first write fails with a part of the text in the file. The second one ends that line and has
the sequence for itself. -/
theorem event_identity_torn : ∃ tr s, Run (journal benchConfig noFloats).lts {} tr s ∧
    (s.dir.eventRecords noFloats (ascii "bench-A")).length = 2 ∧
    (listEvents noFloats s.dir (ascii "bench-A") 10 0).Pairwise fun a b =>
      a.sequence < b.sequence := by
  obtain ⟨tr, s, hrun, hpass⟩ := (journal benchConfig noFloats).run_of_passes {}
    (annotateTwice (.writeFails 148))
    (fun tr s => noPowerLoss tr ∧ (∀ i ∈ tr, stopsShort noFloats i.1 i.2) ∧
      (s.dir.eventRecords noFloats (ascii "bench-A")).length = 2) (by decide +kernel)
  obtain ⟨hpower, hshort, hlength⟩ := hpass
  have hidentity := event_identity benchConfig noFloats hrun (noPowerLoss_iff.mp hpower) hshort
    (ascii "bench-A") 10 0
  exact ⟨tr, s, hrun, hlength, hidentity.1⟩

/-- The first write fails with all of the text in the file but its line break. The call returns an
error, the second one ends the line and takes the same sequence again. -/
theorem sequence_taken_twice : ∃ tr s,
    Run (journal benchConfig noFloats).lts {} tr s ∧ NoPowerLoss tr ∧
    (listEvents noFloats s.dir (ascii "bench-A") 10 0).map (fun event => event.sequence) =
      [1, 2, 2] := by
  obtain ⟨tr, s, hrun, hpass⟩ := (journal benchConfig noFloats).run_of_passes {}
    (annotateTwice (.writeFails 149))
    (fun tr s => noPowerLoss tr ∧
      (listEvents noFloats s.dir (ascii "bench-A") 10 0).map (fun event => event.sequence) =
        [1, 2, 2]) (by decide +kernel)
  exact ⟨tr, s, hrun, noPowerLoss_iff.mp hpass.1, hpass.2⟩

end Anolis.Proofs.EventIdentity
