import Anolis.Proofs.JournalStreams

/-!
# The writer of the journal and the texts of faults

The writer throws at no event, and goes on to the next one, where the texts that were queued are
UTF-8 (`writer_survives`). A fault with another message ends the process, and what waits behind it
is lost (`fault_ends_process`).
-/

namespace Anolis.Proofs.FaultTexts

open Lib Lib.Json Runs JournalReads JournalRecords EventIdentity

variable {F α : Type} {cfg : JournalConfig} {fl : FloatCodec F} {s s' : JournalState F}
  {l : JournalLabel F} {live : Live F}

/-- Are the texts UTF-8 that a call gives to the queue. -/
def textsValid : JournalChoice F → Bool
  | .enqueueFault text text' _ | .recordModeChange text text' _ _ =>
    Utf8.valid text && Utf8.valid text'
  | _ => true

/-- The strings of each event that waits, and of the one that the writer took, are UTF-8. -/
def Printable (running : Option (Live F)) : Prop :=
  ∀ event ∈ running.elim [] fun live => live.inHand.toList ++ live.queue,
    Utf8.valid event.type ∧ Json.isUtf8 event.payload.1

theorem printable_settle (live : Live F) {out : Section F α} (h : Printable (some live)) :
    Printable (s.settle live out).live ∧ Printable (s.settleWriter live out).live := by
  have hsettle : Printable (s.settle live out).live := by
    unfold JournalState.settle
    dsimp only
    split
    · exact fun _ hevent => by cases hevent
    · exact h
  refine ⟨hsettle, ?_⟩
  unfold JournalState.settleWriter
  split
  · exact fun _ hevent => by cases hevent
  · exact hsettle

theorem printable_enqueue (h : Printable (some live)) {event : QueuedEvent F}
    (hevent : Utf8.valid event.type ∧ Json.isUtf8 event.payload.1) :
    Printable (some (live.enqueueEvent event)) := by
  unfold Live.enqueueEvent
  split
  · exact h
  · rw [Printable, Option.elim_some, ← List.append_assoc]
    exact forall_snoc h hevent

theorem printable_call {choice : JournalChoice F} (h : Printable s.live)
    (hlive : s.live = some live)
    (hvalid : textsValid l.choice) (hnext : callNext cfg fl s live choice = some (l, s')) :
    Printable s'.live := by
  rw [hlive] at h
  have hrest : Printable (some { live with inHand := none }) :=
    fun event hevent => h event (List.mem_append_right _ hevent)
  revert hnext
  fun_cases callNext cfg fl s live choice <;> intro hnext
  case case5 locus message occurredAt event =>
    have hkey : Utf8.valid (ascii "message") := by decide +kernel
    cases hnext
    refine printable_enqueue h ?_
    simpa [event, messagePayload, Json.isUtf8, Json.isUtf8Fields, Json.isUtf8Field, hkey,
      textsValid] using hvalid
  case case6 previousMode newMode now payload event =>
    have hkeys : Utf8.valid (ascii "new_mode") ∧ Utf8.valid (ascii "previous_mode") := by
      decide
    cases hnext
    refine printable_enqueue h ⟨rfl, ?_⟩
    simpa [event, payload, modePayload, Json.isUtf8, Json.isUtf8Fields, Json.isUtf8Field, hkeys,
      textsValid, and_comm] using hvalid
  case case9 i io =>
    obtain ⟨change, -, hout⟩ := Option.map_eq_some_iff.mp hnext
    cases hout
    exact (printable_settle { live with changing := live.changing.eraseIdx i } h).1
  case case10 event queue hhand hqueue =>
    cases hnext
    simpa [Printable, hhand, hqueue] using h
  all_goals cases hnext
  case case7 => exact h
  case case8 => rwa [hlive]
  case case13 => exact hrest
  case case14 => exact (printable_settle _ hrest).2
  all_goals exact (printable_settle (s := s) live h).1

theorem printable_run {tr : JournalTrace F} (hrun : Run (journal cfg fl).lts {} tr s)
    (htexts : ∀ i ∈ tr, textsValid i.2.choice) : Printable s.live := by
  refine hrun.induct_of (C := fun _ l => textsValid l.choice) (J := fun _ s => Printable s.live)
    (fun _ hevent => by cases hevent) ?_ htexts
  rintro tr s l s' - - h hvalid ⟨choice, hnext⟩
  change journalNext cfg fl s choice = some (l, s') at hnext
  revert hnext
  fun_cases journalNext cfg fl s choice <;> intro hnext
  case case2 =>
    cases hnext
    dsimp only
    split <;> exact fun _ hevent => by cases hevent
  case case4 => exact printable_call h ‹_› hvalid hnext
  all_goals
    cases hnext
    try exact fun _ hevent => by cases hevent

/-- In every state of a run whose queued texts are UTF-8, as the id of the open run is, the writer
throws nothing at the event in its hand. Unless it is killed it goes on, and takes the next one if
one waits. -/
theorem writer_survives (cfg : JournalConfig) (fl : FloatCodec F) {tr : JournalTrace F}
    {s : JournalState F} (hrun : Run (journal cfg fl).lts {} tr s)
    (htexts : ∀ i ∈ tr, textsValid i.2.choice) {live : Live F} (hlive : s.live = some live)
    (hid : ∀ runId ∈ live.mem.openRunId, Utf8.valid runId) {event : QueuedEvent F}
    (hhand : live.inHand = some event) (io : EventIo) :
    ∃ l s', journalNext cfg fl s (.persist io) = some (l, s') ∧ l.outcome ≠ .threw ∧
      (l.outcome ≠ .killed → ∃ live', s'.live = some live' ∧ live'.queue = live.queue ∧
        (journalNext cfg fl s' .take).isSome = !live.queue.isEmpty) := by
  have htake {s' : JournalState F} {live' : Live F} (hlive' : s'.live = some live')
      (hnone : live'.inHand = none) (hsame : live'.queue = live.queue) :
      (journalNext cfg fl s' .take).isSome = !live.queue.isEmpty := by
    cases hqueue : live.queue <;> simp [journalNext, hlive', callNext, hnone, hsame, hqueue]
  cases hopen : live.mem.openRunId with
  | none =>
    refine ⟨_, _, by simp only [journalNext, hlive, callNext, hhand, hopen]; rfl, by simp,
      fun _ => ?_⟩
    exact ⟨{ live with inHand := none, eventsDropped := _ }, rfl, rfl, htake rfl rfl rfl⟩
  | some runId =>
    let entry : Entry F := ⟨runId, event.category, event.type, event.payload, event.occurredAt, io⟩
    let out := entry.append cfg fl live.mem s.dir
    have hprintable := printable_run hrun htexts
    rw [hlive] at hprintable
    obtain ⟨htype, hpayload⟩ := hprintable event (by simp [hhand])
    have hnot : out.outcome ≠ .threw := Entry.not_threw cfg (hid runId hopen) htype hpayload
    refine ⟨⟨.persist io, out.outcome.map .event, _⟩, s.settleWriter _ out, by
      simp only [journalNext, hlive, callNext, hhand, hopen]; rfl, ?_, fun hkilled => ?_⟩
    · cases hout : out.outcome <;> simp_all [Outcome.map]
    · have hlive' : (s.settleWriter { live with inHand := none } out).live =
          some { live with inHand := none, mem := out.mem } := by
        unfold JournalState.settleWriter JournalState.settle
        cases hout : out.outcome <;> simp_all [Outcome.map]
      exact ⟨_, hlive', rfl, htake hlive' rfl rfl⟩

/-- A run is open, and the writer took the first fault. -/
theorem writer_survives_two_faults : ∃ tr s l s', Run (journal benchConfig noFloats).lts {} tr s ∧
    journalNext benchConfig noFloats s (.persist (atOne .ok)) = some (l, s') ∧
      l.outcome ≠ .threw := by
  obtain ⟨tr, s, hrun, hpass⟩ := (journal benchConfig noFloats).run_of_passes {}
    (JournalStreams.twoFaults.take 5) (fun tr s => (∀ i ∈ tr, textsValid i.2.choice) ∧
      ∃ live ∈ s.live, live.inHand.isSome ∧ ∀ runId ∈ live.mem.openRunId, Utf8.valid runId)
    (by decide +kernel)
  obtain ⟨htexts, live, hlive, hsome, hid⟩ := hpass
  obtain ⟨event, hhand⟩ := Option.isSome_iff_exists.mp hsome
  obtain ⟨l, s', hnext, hnot, -⟩ := writer_survives benchConfig noFloats hrun htexts hlive
    (fun runId hopen => hid runId hopen) hhand (atOne .ok)
  exact ⟨tr, s, l, s', hrun, hnext, hnot⟩

/-- The first message is the byte `0xFF`. The writer throws at it, with I/O that succeeds, and the
process ends with the second fault in the queue. -/
theorem fault_ends_process : ∃ tr s live l s',
    Run (journal benchConfig noFloats).lts {} tr s ∧ s.live = some live ∧
    live.queue.length = 1 ∧ journalNext benchConfig noFloats s (.persist (atOne .ok)) = some
      (l, s') ∧
    (∃ attempt ∈ l.attempts, attempt.result = .threw) ∧ s'.live = none := by
  obtain ⟨tr, s, hrun, hpass⟩ := (journal benchConfig noFloats).run_of_passes {}
    (JournalStreams.twoFaults.take 2 ++ [.enqueueFault [] [0xFF] 2, .enqueueFault [] [] 3, .take])
    (fun _ s => ∃ live ∈ s.live, live.queue.length = 1 ∧
      ∃ r ∈ journalNext benchConfig noFloats s (.persist (atOne .ok)),
        (∃ attempt ∈ r.1.attempts, attempt.result = .threw) ∧ r.2.live.isNone) (by decide +kernel)
  obtain ⟨live, hlive, hqueue, ⟨l, s'⟩, hnext, hthrew, hnone⟩ := hpass
  exact ⟨tr, s, live, l, s', hrun, hlive, hqueue, hnext, hthrew, Option.isNone_iff_eq_none.mp hnone⟩

end Anolis.Proofs.FaultTexts
