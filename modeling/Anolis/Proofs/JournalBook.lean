import Anolis.Proofs.EventIdentity
import Mathlib.Logic.Relation

/-!
# The run journal as a book

What the journal is for, without files and memory: a list of records and a stream of events for each
run (`Book`). A run is opened while none is open, with its first event. Events go to the run that is
open. The run is closed with its last event. That is all that can happen to a book (`Book.Step`).

`WellKept` is what follows for every book: the events of a run are numbered 1, 2, 3 and so on, the
first one says that it was opened and, once it is closed, the last one that it was closed, and the
run that is open is the one that was opened last. The stream of a run that is closed stays as it is
(`Book.Steps.closed`).
-/

namespace Anolis.Proofs.JournalBook

open Lib (Bytes)
open Runs
open JournalReads EventIdentity

variable {F : Type}

/-! ### Books -/

structure Book (F : Type) where
  records : List (Run F)
  streams : Bytes → List (RunEvent F)

namespace Book

/-- The state of a run, by its last record. -/
def stateOf (b : Book F) (runId : Bytes) : Option RunState :=
  (latest b.records runId).map fun run => run.state

/-- The runs in the order in which they were opened. -/
def order (b : Book F) : List Bytes := (replayAll b.records).order

/-- The book with one more event. -/
def append (b : Book F) (event : RunEvent F) : Book F :=
  { b with streams := Function.update b.streams event.runId (b.streams event.runId ++ [event]) }

/-- The book with one more record. -/
def record (b : Book F) (run : Run F) : Book F := { b with records := b.records ++ [run] }

/-- The event is of the run, and its number is the next one. -/
structure IsNext (b : Book F) (runId : Bytes) (event : RunEvent F) : Prop where
  ofRun : event.runId = runId
  sequence : event.sequence.toNat = (b.streams runId).length + 1

/-- What can happen to a book. -/
inductive Step (b : Book F) : Book F → Prop
  | opened (run : Run F) (event : RunEvent F) (hnew : b.stateOf run.runId = none)
      (hnone : ∀ runId, b.stateOf runId ≠ some .opened) (hopen : run.state = .opened)
      (hnext : b.IsNext run.runId event) (hfirst : event.category = .runOpened) :
      Step b ((b.record run).append event)
  | event (event : RunEvent F) (hopen : b.stateOf event.runId = some .opened)
      (hnext : b.IsNext event.runId event) : Step b (b.append event)
  | closed (run : Run F) (event : RunEvent F) (hopen : b.stateOf run.runId = some .opened)
      (hclosed : run.state = .closed) (hnext : b.IsNext run.runId event)
      (hlast : event.category = .runClosed) : Step b ((b.record run).append event)

/-- Any number of steps. -/
abbrev Steps : Book F → Book F → Prop := Relation.ReflTransGen Step

end Book

/-! ### What the parts of a step do -/

section
variable (b : Book F) (run : Run F) (event : RunEvent F) (runId : Bytes)

@[simp] theorem stateOf_append : (b.append event).stateOf runId = b.stateOf runId := rfl

@[simp] theorem order_append : (b.append event).order = b.order := rfl

theorem streams_append : (b.append event).streams runId =
    if runId = event.runId then b.streams runId ++ [event] else b.streams runId := by
  show Function.update b.streams event.runId _ runId = _
  rw [Function.update_apply]
  split
  · rename_i h
    rw [h]
  · rfl

theorem streams_append_self : (b.append event).streams event.runId =
    b.streams event.runId ++ [event] := by
  rw [streams_append]
  exact if_pos rfl

@[simp] theorem streams_record : (b.record run).streams = b.streams := rfl

theorem stateOf_record : (b.record run).stateOf runId =
    if run.runId = runId then some run.state else b.stateOf runId := by
  unfold Book.stateOf Book.record
  rw [latest_snoc]
  split <;> rfl

theorem order_record : (b.record run).order =
    if b.stateOf run.runId = none then b.order ++ [run.runId] else b.order := by
  unfold Book.order Book.record Book.stateOf
  rw [replayAll_snoc]
  show (if ((replayAll b.records).runs run.runId).isNone then _ else _) = _
  rw [replayAll_runs]
  cases latest b.records run.runId <;> simp

theorem mem_order : runId ∈ b.order ↔ b.stateOf runId ≠ none := by
  unfold Book.order Book.stateOf
  rw [mem_replayAll_order]
  cases latest b.records runId <;> simp

end

/-! ### Well-kept books -/

/-- The first event says that the run was opened. -/
def BeginsOpened (events : List (RunEvent F)) : Prop :=
  ∃ event rest, events = event :: rest ∧ event.category = .runOpened

/-- The last event says that the run was closed. -/
def EndsClosed (events : List (RunEvent F)) : Prop :=
  ∃ rest event, events = rest ++ [event] ∧ event.category = .runClosed

/-- What holds of a run in a state, and of its events. -/
structure KeptRun (state : Option RunState) (events : List (RunEvent F)) : Prop where
  blank : state = none → events = []
  numbered : Numbered events
  begins : state ≠ none → BeginsOpened events
  ends : state = some .closed → EndsClosed events

structure WellKept (b : Book F) : Prop where
  runs : ∀ runId, KeptRun (b.stateOf runId) (b.streams runId)
  /-- The run that is open was opened last. -/
  last : ∀ runId, b.stateOf runId = some .opened → b.order.getLast? = some runId

variable {b : Book F}

theorem WellKept.one_open (h : WellKept b) {runId other : Bytes}
    (hrun : b.stateOf runId = some .opened) (hother : b.stateOf other = some .opened) :
    runId = other := by
  have hlast := h.last runId hrun
  rw [h.last other hother] at hlast
  exact (Option.some.inj hlast).symm

variable {events : List (RunEvent F)}

theorem BeginsOpened.snoc (h : BeginsOpened events)
    (event : RunEvent F) : BeginsOpened (events ++ [event]) := by
  obtain ⟨first, rest, rfl, hfirst⟩ := h
  exact ⟨first, rest ++ [event], rfl, hfirst⟩

/-- One more event of a run that is known. A run that is closed is closed by it. -/
theorem KeptRun.snoc {state state' : Option RunState} {event : RunEvent F}
    (h : KeptRun state events) (hknown : state ≠ none)
    (hseq : event.sequence.toNat = events.length + 1) (hstate' : state' ≠ none)
    (hends : state' = some .closed → event.category = .runClosed) :
    KeptRun state' (events ++ [event]) where
  blank hnone := absurd hnone hstate'
  numbered := (numbered_snoc events event).mpr ⟨h.numbered, hseq⟩
  begins _ := (h.begins hknown).snoc event
  ends hclosed := ⟨events, event, rfl, hends hclosed⟩

theorem KeptRun.first {event : RunEvent F} (h : KeptRun none events)
    (hseq : event.sequence.toNat = events.length + 1) (hfirst : event.category = .runOpened) :
    KeptRun (some .opened) (events ++ [event]) where
  blank hnone := nomatch hnone
  numbered := (numbered_snoc events event).mpr ⟨h.numbered, hseq⟩
  begins _ := ⟨event, [], by rw [h.blank rfl, List.nil_append], hfirst⟩
  ends hclosed := nomatch hclosed

variable {b' : Book F}

theorem WellKept.step (h : WellKept b) (hstep : Book.Step b b') : WellKept b' := by
  cases hstep with
  | opened run event hnew hnone hopen hnext hfirst =>
    have hrun := h.runs run.runId
    rw [hnew] at hrun
    constructor
    · intro runId
      rw [stateOf_append, stateOf_record, streams_append, hnext.ofRun, streams_record]
      by_cases hid : run.runId = runId
      · rw [if_pos hid, if_pos hid.symm, ← hid, hopen]
        exact hrun.first hnext.sequence hfirst
      · rw [if_neg hid, if_neg (Ne.symm hid)]
        exact h.runs runId
    · intro runId hlast
      rw [stateOf_append, stateOf_record] at hlast
      rw [order_append, order_record, if_pos hnew, List.getLast?_concat]
      split at hlast
      · rename_i hid
        rw [hid]
      · exact absurd hlast (hnone runId)
  | event event hopen hnext =>
    refine ⟨fun runId => ?_, h.last⟩
    rw [stateOf_append, streams_append]
    split
    · rename_i hid
      have hrun := h.runs runId
      rw [hid, hopen] at hrun ⊢
      exact hrun.snoc (fun hnone => nomatch hnone) hnext.sequence (fun hnone => nomatch hnone)
        fun hclosed => nomatch hclosed
    · exact h.runs runId
  | closed run event hopen hclosed hnext hlast =>
    have hrun := h.runs run.runId
    rw [hopen] at hrun
    constructor
    · intro runId
      rw [stateOf_append, stateOf_record, streams_append, hnext.ofRun, streams_record]
      by_cases hid : run.runId = runId
      · rw [if_pos hid, if_pos hid.symm, ← hid]
        exact hrun.snoc (fun hnone => nomatch hnone) hnext.sequence (fun hnone => nomatch hnone)
          fun _ => hlast
      · rw [if_neg hid, if_neg (Ne.symm hid)]
        exact h.runs runId
    · -- the run that was open is closed
      intro runId hstate
      rw [stateOf_append, stateOf_record] at hstate
      rw [order_append, order_record, hopen, if_neg (fun hnone => nomatch hnone)]
      split at hstate
      · rw [hclosed] at hstate
        cases hstate
      · exact h.last runId hstate

theorem WellKept.steps (h : WellKept b) (hsteps : Book.Steps b b') : WellKept b' := by
  induction hsteps with
  | refl => exact h
  | tail _ hstep ih => exact ih.step hstep

/-! ### What stays -/

/-- The stream of a run that is closed does not change, and the run stays closed. -/
theorem Book.Step.closed_stays (hstep : Book.Step b b') {runId : Bytes}
    (hclosed : b.stateOf runId = some .closed) :
    b'.stateOf runId = some .closed ∧ b'.streams runId = b.streams runId := by
  have hother {other : Bytes} {state : Option RunState} (hstate : b.stateOf other = state)
      (hne : state ≠ some .closed) : other ≠ runId := by
    rintro rfl
    exact hne (hstate.symm.trans hclosed)
  cases hstep with
  | opened run event hnew _ _ hnext =>
    have hne := hother hnew (fun h => nomatch h)
    rw [stateOf_append, stateOf_record, if_neg hne, streams_append, hnext.ofRun, if_neg hne.symm]
    exact ⟨hclosed, rfl⟩
  | event event hopen =>
    have hne := hother hopen (fun h => nomatch h)
    rw [stateOf_append, streams_append, if_neg hne.symm]
    exact ⟨hclosed, rfl⟩
  | closed run event hopen _ hnext =>
    have hne := hother hopen (fun h => nomatch h)
    rw [stateOf_append, stateOf_record, if_neg hne, streams_append, hnext.ofRun, if_neg hne.symm]
    exact ⟨hclosed, rfl⟩

theorem Book.Steps.closed (hsteps : Book.Steps b b') {runId : Bytes}
    (hclosed : b.stateOf runId = some .closed) :
    b'.stateOf runId = some .closed ∧ b'.streams runId = b.streams runId := by
  induction hsteps with
  | refl => exact ⟨hclosed, rfl⟩
  | tail _ hstep ih =>
    obtain ⟨hstate, hstream⟩ := hstep.closed_stays ih.1
    exact ⟨hstate, hstream.trans ih.2⟩

theorem Book.Step.grows (hstep : Book.Step b b') :
    b.order <+: b'.order ∧ ∀ runId, b.streams runId <+: b'.streams runId := by
  have happend (event : RunEvent F) (c : Book F) (runId : Bytes) :
      c.streams runId <+: (c.append event).streams runId := by
    rw [streams_append]
    split
    · exact List.prefix_append _ _
    · exact List.prefix_rfl
  have horder (run : Run F) : b.order <+: (b.record run).order := by
    rw [order_record]
    split
    · exact List.prefix_append _ _
    · exact List.prefix_rfl
  cases hstep with
  | opened run event | closed run event => exact ⟨horder run, happend event (b.record run)⟩
  | event event => exact ⟨List.prefix_rfl, happend event b⟩

theorem Book.Steps.grows (hsteps : Book.Steps b b') :
    b.order <+: b'.order ∧ ∀ runId, b.streams runId <+: b'.streams runId := by
  induction hsteps with
  | refl => exact ⟨List.prefix_rfl, fun _ => List.prefix_rfl⟩
  | tail _ hstep ih =>
    obtain ⟨horder, hstreams⟩ := hstep.grows
    exact ⟨ih.1.trans horder, fun runId => (ih.2 runId).trans (hstreams runId)⟩

end Anolis.Proofs.JournalBook
