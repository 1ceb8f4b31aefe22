import Anolis.Proofs.TelemetryRows
import Anolis.Telemetry.SinkService

/-!
# What a stopped sink leaves behind

`stop` says that it flushes what remains. It does not always: the flush thread leaves its loop as
soon as it reads `running_` as false, and what is in the queue then is lost (`queued_event_lost`);
and the rows of a last flush that is to be tried again go into a retry buffer that no one reads any
more. Neither kind is counted.

`stop_accounts_for_events` says when nothing is lost. `Orderly` is the condition on a step. The
proof has three parts: where an event stands that the queue took (`Accounted`), what is left behind
the last flush (`LastFlush`), and that no row which was there when `stop` was called is among it
(`mark_run`). That a row which is not held was written or counted is the sink's own invariant
(`whereabouts_run`); `sink_run` takes it over.
-/

namespace Anolis.Proofs.SinkStop

open Lib Telemetry TelemetryRows

variable {ρ : Type} {cfg : ServiceConfig}

/-! ### Where the flush thread is -/

/-- Has the flush thread left its loop, or is there none. -/
def behindLoop {α : Type} : FlushPlace α → Bool
  | .off => true
  | .top | .push _ | .check => false
  | .take final | .post final _ | .countWritten final _ | .countRejected final _
  | .countFailed final _ | .keep final _ | .countDropped final _ => final

/-- Has it also taken the rows of its last flush. -/
def finished {α : Type} : FlushPlace α → Bool
  | .take _ => false
  | place => behindLoop place

variable {α : Type}

@[simp] theorem behindLoop_past (final : Bool) :
    behindLoop (FlushPlace.past final : FlushPlace α) = final := by cases final <;> rfl

@[simp] theorem finished_past (final : Bool) :
    finished (FlushPlace.past final : FlushPlace α) = final := by cases final <;> rfl

theorem behindLoop_of_finished {place : FlushPlace α} (h : finished place) : behindLoop place := by
  cases place <;> first | exact h | cases h

/-! ### The steps by name -/

/-- What a step of the service does. -/
inductive ServiceStep (cfg : ServiceConfig) (s : ServiceState ρ) :
    ServiceEvent ρ → ServiceState ρ → Prop
  | start (hoff : s.sink.place = .off) :
      ServiceStep cfg s .started
        { s with
          sink := { s.sink with place := .top }, running := true, popping := false
          subscribed := true, sending := [], queue := [], stopPlace := .idle }
  | emit (row : Option ρ) : ServiceStep cfg s .silent (emitNext s row)
  | accept (e : SinkInput ρ) (sending : List (SinkInput ρ)) :
      ServiceStep cfg s (.accepted e (pushQueue cfg.queueSize s.queue e).1)
        { s with sending := sending, queue := (pushQueue cfg.queueSize s.queue e).2 }
  | enqueue (lines : List ρ) (hfree : s.sink.place.locked = false) :
      ServiceStep cfg s (.sink (.put (s.sink.rows (lines.map .enqueued))))
        { s with sink := s.sink.put (lines.map .enqueued) }
  | read (hplace : s.sink.place = .top) :
      ServiceStep cfg s .silent { s with popping := true }
  | popEmpty (hplace : s.sink.place = .top) (hhead : s.queue.head?.bind SinkInput.line = none) :
      ServiceStep cfg s (.sink .silent)
        { s with sink := { s.sink with place := .check }, popping := false, queue := s.queue.tail }
  | popRow (hplace : s.sink.place = .top) (line : SinkLine ρ)
      (hhead : s.queue.head?.bind SinkInput.line = some line) :
      ServiceStep cfg s (.sink .silent)
        { s with
          sink := { s.sink with place := .push line }, popping := false, queue := s.queue.tail }
  | left (hplace : s.sink.place = .top) (hrunning : s.running = false) :
      ServiceStep cfg s .left { s with sink := { s.sink with place := .take true } }
  | answered (final : Bool) (lines : List (Row (SinkLine ρ))) (result : PostResult)
      (hplace : s.sink.place = .post final lines) :
      ServiceStep cfg s (.answered final result)
        { s with sink := { s.sink with place := result.outcome.place final lines } }
  -- a step inside the loop or a flush
  | flush (c : FlushChoice (SinkLine ρ)) (e : SinkEvent (SinkLine ρ))
      (sink : SinkState (SinkLine ρ))
      (hoff : s.sink.place ≠ .off) (htop : s.sink.place ≠ .top)
      (hpost : ∀ final lines, s.sink.place ≠ .post final lines)
      (hgo : flushNext cfg.toInfluxConfig s.sink s.sink.place c = some (e, sink)) :
      ServiceStep cfg s (.sink e) { s with sink := sink }
  | stopCalled (hplace : s.stopPlace = .idle ∨ s.stopPlace = .returned) :
      ServiceStep cfg s .stopCalled
        { s with
          stopPlace := if s.running then .clearRunning else .returned, mark := s.sink.nextRow }
  | clearRunning (hplace : s.stopPlace = .clearRunning) :
      ServiceStep cfg s .silent { s with running := false, stopPlace := .unsubscribe }
  | unsubscribe (hplace : s.stopPlace = .unsubscribe) :
      ServiceStep cfg s .silent { s with subscribed := false, stopPlace := .join }
  | join (hplace : s.stopPlace = .join) (hoff : s.sink.place = .off) :
      ServiceStep cfg s .silent { s with stopPlace := .returned }

variable {s s' : ServiceState ρ} {e : ServiceEvent ρ} {c : FlushChoice (SinkLine ρ)}

theorem serviceStep_of_top
    (hplace : s.sink.place = .top) (h : topNext cfg s = some (e, s')) : ServiceStep cfg s e s' := by
  unfold topNext at h
  simp only [hplace] at h
  split at h
  · cases hhead : s.queue.head?.bind SinkInput.line with
    | none =>
      rw [hhead] at h
      cases h
      exact .popEmpty hplace hhead
    | some line =>
      rw [hhead] at h
      cases h
      exact .popRow hplace line hhead
  · split at h
    · cases h
      exact .read hplace
    · rename_i hrunning
      cases h
      exact .left hplace (by simpa using hrunning)

theorem serviceStep_of_thread (h : threadNext cfg s c = some (e, s')) : ServiceStep cfg s e s' := by
  unfold threadNext at h
  split at h
  · cases h
  · rename_i hplace
    exact serviceStep_of_top hplace h
  · rename_i final lines result hplace
    simp only [hplace] at h
    cases h
    exact .answered final lines result hplace
  · rename_i c _ _ hoff htop hpost
    simp only [Option.map_eq_some_iff, Prod.mk.injEq] at h
    obtain ⟨⟨e', sink⟩, hgo, rfl, rfl⟩ := h
    refine .flush c e' sink hoff htop ?_ hgo
    intro final lines hplace
    -- a flush that waits for the answer does nothing else
    rw [hplace] at hgo
    cases c with
    | reply result => exact hpost final lines result hplace rfl
    | _ => cases hgo

theorem serviceStep_of_step (h : (service cfg).lts.step s e s') : ServiceStep cfg s e s' := by
  obtain ⟨c, hnext⟩ := h
  cases c with
  | start =>
    simp only [service, serviceNext, startNext] at hnext
    split at hnext
    · cases hplace : s.sink.place with
      | off =>
        rw [hplace] at hnext
        cases hnext
        exact .start hplace
      | _ => rw [hplace] at hnext; cases hnext
    · cases hnext
  | emit row =>
    cases hnext
    exact .emit row
  | deliver i =>
    simp only [service, serviceNext, deliverNext, Option.map_eq_some_iff, Prod.mk.injEq] at hnext
    obtain ⟨e', -, rfl, rfl⟩ := hnext
    exact .accept e' _
  | enqueueLines lines =>
    simp only [service, serviceNext, sinkNext] at hnext
    split at hnext
    · cases hnext
    · rename_i hfree
      cases hnext
      exact .enqueue lines (by simpa using hfree)
  | flush c => exact serviceStep_of_thread hnext
  | stop =>
    simp only [service, serviceNext, stopNext] at hnext
    split at hnext
    · rename_i hplace
      cases hnext
      exact .stopCalled (.inl hplace)
    · rename_i hplace
      cases hnext
      exact .stopCalled (.inr hplace)
    · rename_i hplace
      cases hnext
      exact .clearRunning hplace
    · rename_i hplace
      cases hnext
      exact .unsubscribe hplace
    · rename_i hplace
      split at hnext
      · rename_i hoff
        cases hnext
        exact .join hplace hoff
      · cases hnext

/-! ### The sink inside the service -/

/-- What a step of the service is to the sink. -/
def sinkView : ServiceState ρ × ServiceEvent ρ → Option
    (SinkState (SinkLine ρ) × SinkEvent (SinkLine ρ))
  | (s, .sink e) => some (s.sink, e)
  | (s, .started) | (s, .left) | (s, .answered _ _) => some (s.sink, .silent)
  | _ => none

/-- The sink's part of a trace. -/
def sinkTrace (tr : Trace (ServiceState ρ) (ServiceEvent ρ)) :
    Trace (SinkState (SinkLine ρ)) (SinkEvent (SinkLine ρ)) := tr.filterMap sinkView

/-- A service that was not started yet. -/
def ServiceStart (s : ServiceState ρ) : Prop := s = {}

/-- What is seen of a step of the service is what the sink does in it. -/
def Seen (cfg : ServiceConfig) (s : ServiceState ρ) (e : ServiceEvent ρ) (s' : ServiceState ρ) :
    Prop :=
  (sinkView (s, e) = none → s'.sink = s.sink) ∧
  ∀ j, sinkView (s, e) = some j →
    j.1 = s.sink ∧ (sink cfg.toInfluxConfig).lts.step s.sink j.2 s'.sink

theorem seen_flush {e' : SinkEvent (SinkLine ρ)}
    (c : FlushChoice (SinkLine ρ)) (hview : sinkView (s, e) = some (s.sink, e'))
    (hgo : flushNext cfg.toInfluxConfig s.sink s.sink.place c = some (e', s'.sink)) :
    Seen cfg s e s' := by
  constructor
  · intro hnone
    rw [hview] at hnone
    cases hnone
  · intro j hj
    rw [hview] at hj
    cases hj
    exact ⟨rfl, .flush c, hgo⟩

theorem ServiceStep.seen (h : ServiceStep cfg s e s') : Seen cfg s e s' := by
  cases h with
  | start hoff => exact seen_flush .start rfl (by rw [hoff]; rfl)
  | enqueue lines hfree =>
    constructor
    · intro hnone
      cases hnone
    · intro j hj
      cases hj
      exact ⟨rfl, .enqueueLines (lines.map .enqueued), by simp [sink, sinkNext, hfree]⟩
  | popEmpty hplace hhead => exact seen_flush (.popped none) rfl (by rw [hplace]; rfl)
  | popRow hplace line hhead => exact seen_flush (.popped (some line)) rfl (by rw [hplace]; rfl)
  | left hplace hrunning => exact seen_flush .stopped rfl (by rw [hplace]; rfl)
  | answered final lines result hplace => exact seen_flush (.reply result) rfl (by rw [hplace]; rfl)
  | flush c e sink hoff htop hpost hgo => exact seen_flush c rfl hgo
  | _ =>
    constructor
    · intro _
      rfl
    · intro j hj
      cases hj

variable {s₀ : ServiceState ρ} {tr : Trace (ServiceState ρ) (ServiceEvent ρ)}
  {queue : List (SinkInput ρ)}

theorem sink_run (h : Run (service cfg).lts s₀ tr s) :
    Run (sink cfg.toInfluxConfig).lts s₀.sink (sinkTrace tr) s.sink := by
  refine Run.refines (f := ServiceState.sink) ?_ ?_ h
  · intro _ s l s' _ hstep
    exact (serviceStep_of_step hstep).seen.1
  · intro _ s l s' j _ hstep hview
    exact (serviceStep_of_step hstep).seen.2 j hview

/-! ### The last flush -/

/-- A line that is not of an event. -/
def ofCaller : SinkLine ρ → Bool
  | .event _ _ => false
  | .enqueued _ => true

/-- A row that a caller put in since the last call of `stop`. -/
def Late (mark : Nat) (row : Row (SinkLine ρ)) : Prop := ofCaller row.line ∧
    mark ≤ row.number

/-- Behind the first section of the last flush nothing waits to be tried again, and the batch has
only late rows. The last flush keeps its rows only if there is no room for them. -/
structure LastFlush (cfg : InfluxConfig) (mark : Nat) (s : SinkState (SinkLine ρ)) : Prop where
  emptied : finished s.place → s.retryBuffer = []
  batch : finished s.place → ∀ row ∈ s.batch, Late mark row
  noRoom : ∀ lines, s.place = .keep true lines → cfg.maxRetryBufferSize = 0
  mark_le : mark ≤ s.nextRow

theorem late_rows {mark n : Nat} (hmark : mark ≤ n) (lines : List ρ) :
    ∀ row ∈ rowsFrom n (lines.map SinkLine.enqueued), Late mark row := by
  induction lines generalizing n with
  | nil =>
    intro row hrow
    cases hrow
  | cons line lines ih =>
    intro row hrow
    cases hrow with
    | head => exact ⟨rfl, hmark⟩
    | tail _ hrow => exact ih (Nat.le_succ_of_le hmark) row hrow

section
variable {cfg : InfluxConfig} {mark : Nat} {s s' : SinkState (SinkLine ρ)}

theorem LastFlush.enqueue (h : LastFlush cfg mark s) (lines : List ρ) :
    LastFlush cfg mark (s.put (lines.map .enqueued)) where
  emptied := h.emptied
  batch hfin row hrow := by
    rcases List.mem_append.mp hrow with hold | hnew
    · exact h.batch hfin row hold
    · exact late_rows h.mark_le lines row hnew
  noRoom := h.noRoom
  mark_le := Nat.le_add_right_of_le h.mark_le

theorem LastFlush.unfinished (hmark : mark ≤ s.nextRow) (hfin : finished s.place = false)
    (hkeep : ∀ lines, s.place ≠ .keep true lines) : LastFlush cfg mark s where
  emptied h := by rw [hfin] at h; cases h
  batch h := by rw [hfin] at h; cases h
  noRoom lines h := absurd h (hkeep lines)
  mark_le := hmark

/-- A step that leaves the rows alone. -/
theorem LastFlush.move (h : LastFlush cfg mark s) {place : FlushPlace (SinkLine ρ)}
    (hplace : s'.place = place) (hfin : finished place = finished s.place)
    (hkeep : ∀ lines, place = .keep true lines → cfg.maxRetryBufferSize = 0)
    (hrows : s'.retryBuffer = s.retryBuffer ∧ s'.batch = s.batch ∧ s'.nextRow = s.nextRow) :
    LastFlush cfg mark s' where
  emptied hdone := hrows.1 ▸ h.emptied (hfin ▸ hplace ▸ hdone)
  batch hdone := hrows.2.1 ▸ h.batch (hfin ▸ hplace ▸ hdone)
  noRoom lines hat := hkeep lines (hplace ▸ hat)
  mark_le := hrows.2.2 ▸ h.mark_le

/-- A step inside the loop or a flush. The thread stays on its side of the loop. -/
theorem LastFlush.flush {e : SinkEvent (SinkLine ρ)}
    (h : LastFlush cfg mark s) (hoff : s.place ≠ .off) (htop : s.place ≠ .top)
    (hpost : ∀ final lines, s.place ≠ .post final lines)
    (hgo : flushNext cfg s s.place c = some (e, s')) :
    LastFlush cfg mark s' ∧ behindLoop s'.place = behindLoop s.place := by
  -- a flush that is over
  have hpast (final : Bool) (hfinal : finished s.place = final) (s₁ : SinkState (SinkLine ρ))
      (hplace : s₁.place = .past final) (hrows : s₁.retryBuffer = s.retryBuffer ∧
        s₁.batch = s.batch ∧ s₁.nextRow = s.nextRow) : LastFlush cfg mark s₁ := by
    refine h.move hplace ((finished_past final).trans hfinal.symm) (fun lines hat => ?_) hrows
    cases final <;> cases hat
  generalize hplace : s.place = place at hgo hoff htop hpost
  revert hgo
  fun_cases flushNext cfg s place c <;> intro hgo <;> cases hgo
  case case5 line => exact ⟨.unfinished (Nat.le_succ_of_le h.mark_le) rfl (by simp), rfl⟩
  case case6 ms => split <;> exact ⟨.unfinished h.mark_le rfl (by simp), rfl⟩
  case case7 final =>
    unfold takeLines
    simp only
    split
    · rename_i hnone
      obtain ⟨hretry, hbatch⟩ : s.retryBuffer = [] ∧ s.batch = [] := by simpa using hnone
      refine ⟨⟨fun _ => hretry, fun _ => by simp [hbatch], fun _ hat => ?_, h.mark_le⟩,
        behindLoop_past final⟩
      cases final <;> cases hat
    · exact ⟨⟨fun _ => rfl, fun _ => by simp, fun _ hat => (by cases hat), h.mark_le⟩, rfl⟩
  case case9 final lines | case11 final lines | case12 final lines =>
    exact ⟨hpast final (by rw [hplace]; rfl) _ rfl ⟨rfl, rfl, rfl⟩, behindLoop_past final⟩
  case case10 final lines =>
    exact ⟨h.move rfl (by rw [hplace]; rfl) (fun _ hat => (by cases hat)) ⟨rfl, rfl, rfl⟩, rfl⟩
  case case13 final lines =>
    refine ⟨?_, rfl⟩
    cases final with
    | false => exact .unfinished h.mark_le rfl (by simp [keepLines])
    | true =>
      -- the last flush: nothing is kept
      have hnone : keptCount cfg s lines = 0 := by simp [keptCount, h.noRoom lines hplace]
      have hfin : finished s.place := by rw [hplace]; rfl
      exact ⟨fun _ => by simp [keepLines, hnone, h.emptied hfin], fun _ => h.batch hfin,
        fun _ hat => (by cases hat), h.mark_le⟩
  all_goals first
    | exact absurd rfl hoff
    | exact absurd rfl htop
    | exact absurd rfl (hpost _ _)

end

/-! ### What an orderly stop is -/

/-- The condition on a step. When the flush thread leaves its loop, the queue holds no row, and none
comes into it later. The last flush is answered for good, or there is no retry buffer. A sink that
is stopped runs, or it holds no row. -/
def Orderly (cfg : ServiceConfig) (s : ServiceState ρ) : ServiceEvent ρ → Prop
  | .left => ∀ e ∈ s.queue, e.row = none
  | .accepted e _ => e.row ≠ none → behindLoop s.sink.place = false
  | .answered true result => result.outcome ≠ .retried ∨ cfg.maxRetryBufferSize = 0
  | .stopCalled => s.running ∨ held s.sink = []
  | _ => True

instance decidableOrderly [DecidableEq ρ] (cfg : ServiceConfig) (s : ServiceState ρ) :
    (e : ServiceEvent ρ) → Decidable (Orderly cfg s e)
  | .left => inferInstanceAs (Decidable (∀ e ∈ s.queue, e.row = none))
  | .accepted e _ => inferInstanceAs (Decidable (e.row ≠ none → behindLoop s.sink.place = false))
  | .answered true result =>
    inferInstanceAs (Decidable (result.outcome ≠ .retried ∨ cfg.maxRetryBufferSize = 0))
  | .stopCalled => inferInstanceAs (Decidable (s.running ∨ held s.sink = []))
  | .silent | .started | .sink _ | .answered false _ => inferInstanceAs (Decidable True)

/-- Where the threads are. -/
structure Stopping (cfg : ServiceConfig) (s : ServiceState ρ) : Prop where
  loop : s.running → behindLoop s.sink.place = false
  halted : s.running = false →
    s.stopPlace = .unsubscribe ∨ s.stopPlace = .join ∨ s.sink.place = .off
  returned : s.stopPlace = .returned → s.sink.place = .off
  drained : behindLoop s.sink.place → ∀ e ∈ s.queue, e.row = none
  last : LastFlush cfg.toInfluxConfig s.mark s.sink

theorem Stopping.move {sink : SinkState (SinkLine ρ)} (h : Stopping cfg s)
    (hoff : s.sink.place ≠ .off) (hside : behindLoop sink.place = behindLoop s.sink.place)
    (hlast : LastFlush cfg.toInfluxConfig s.mark sink) : Stopping cfg { s with sink := sink } where
  loop hrunning := hside.trans (h.loop hrunning)
  halted hrunning := by
    rcases h.halted hrunning with hstop | hstop | hplace
    · exact .inl hstop
    · exact .inr (.inl hstop)
    · exact absurd hplace hoff
  returned hstop := absurd (h.returned hstop) hoff
  drained hbehind := h.drained (hside ▸ hbehind)
  last := hlast

theorem mem_pushQueue {size : Nat} {e e' : SinkInput ρ}
    (h : e' ∈ (pushQueue size queue e).2) : e' ∈ queue ∨ e' = e := by
  unfold pushQueue at h
  split at h
  · rcases List.mem_append.mp h with h | h
    · exact .inl (List.mem_of_mem_tail h)
    · exact .inr (by simpa using h)
  · simpa using h

theorem Stopping.step (h : Stopping cfg s)
    (hstep : ServiceStep cfg s e s') (horderly : Orderly cfg s e) : Stopping cfg s' := by
  cases hstep with
  | start hoff =>
    exact {
      loop := fun _ => rfl
      halted := fun hrunning => by cases hrunning
      returned := fun hstop => by cases hstop
      drained := fun hbehind => by cases hbehind
      last := .unfinished h.last.mark_le rfl (by simp) }
  | emit row | read hplace => exact ⟨h.loop, h.halted, h.returned, h.drained, h.last⟩
  | accept e sending =>
    refine ⟨h.loop, h.halted, h.returned, fun hbehind e' he' => ?_, h.last⟩
    rcases mem_pushQueue he' with hold | rfl
    · exact h.drained hbehind e' hold
    · by_contra hrow
      have hinside : behindLoop s.sink.place = false := horderly hrow
      rw [show behindLoop s.sink.place from hbehind] at hinside
      cases hinside
  | enqueue lines hfree => exact ⟨h.loop, h.halted, h.returned, h.drained, h.last.enqueue lines⟩
  | popEmpty hplace hhead =>
    have hmove : Stopping cfg { s with sink := { s.sink with place := .check } } :=
      h.move (by simp [hplace]) (by rw [hplace]; rfl) (.unfinished h.last.mark_le rfl (by simp))
    exact ⟨hmove.loop, hmove.halted, hmove.returned, (fun hbehind => by cases hbehind), hmove.last⟩
  | popRow hplace line hhead =>
    have hmove : Stopping cfg { s with sink := { s.sink with place := .push line } } :=
      h.move (by simp [hplace]) (by rw [hplace]; rfl) (.unfinished h.last.mark_le rfl (by simp))
    exact ⟨hmove.loop, hmove.halted, hmove.returned, (fun hbehind => by cases hbehind), hmove.last⟩
  | left hplace hrunning =>
    exact {
      loop := fun hrunning' => by rw [hrunning] at hrunning'; cases hrunning'
      halted := fun _ => by
        rcases h.halted hrunning with hstop | hstop | hoff
        · exact .inl hstop
        · exact .inr (.inl hstop)
        · rw [hplace] at hoff; cases hoff
      returned := fun hstop => by
        have hoff := h.returned hstop
        rw [hplace] at hoff
        cases hoff
      drained := fun _ => horderly
      last := .unfinished h.last.mark_le rfl (by simp) }
  | answered final lines result hplace =>
    have hfin : finished (result.outcome.place final lines) = finished s.sink.place := by
      rw [hplace]
      cases result.outcome <;> rfl
    have hside : behindLoop (result.outcome.place final lines) = behindLoop s.sink.place := by
      rw [hplace]
      cases result.outcome <;> rfl
    refine h.move (by simp [hplace]) hside
      (h.last.move rfl hfin (fun lines' hkeep => ?_) ⟨rfl, rfl, rfl⟩)
    cases final with
    | false => cases hout : result.outcome <;> rw [hout] at hkeep <;> cases hkeep
    | true =>
      rcases horderly with hgood | hnone
      · cases hout : result.outcome with
        | retried => exact absurd hout hgood
        | _ => rw [hout] at hkeep; cases hkeep
      · exact hnone
  | flush c e sink hoff htop hpost hgo =>
    obtain ⟨hlast, hside⟩ := h.last.flush hoff htop hpost hgo
    exact h.move hoff hside hlast
  | stopCalled hplace =>
    have hoff (hrunning : s.running = false) : s.sink.place = .off := by
      rcases h.halted hrunning with hstop | hstop | hoff
      case inr.inr => exact hoff
      all_goals rcases hplace with hp | hp <;> rw [hp] at hstop <;> cases hstop
    refine ⟨h.loop, fun hrunning => .inr (.inr (hoff hrunning)), fun hstop => ?_, h.drained,
      ⟨h.last.emptied, fun hfin row hrow => ?_, h.last.noRoom, Nat.le_refl _⟩⟩
    · cases hrunning : s.running with
      | true => simp [hrunning] at hstop
      | false => exact hoff hrunning
    · -- a sink that runs has not taken its last rows, and one that does not holds none
      rcases horderly with hrunning | hnone
      · have hside := h.loop hrunning
        rw [behindLoop_of_finished hfin] at hside
        cases hside
      · have hheld : row ∈ held s.sink := List.mem_append_right _ hrow
        rw [hnone] at hheld
        cases hheld
  | clearRunning hplace =>
    exact ⟨(fun hrunning => by cases hrunning), fun _ => .inl rfl, (fun hstop => by cases hstop),
      h.drained, h.last⟩
  | unsubscribe hplace =>
    exact ⟨h.loop, fun _ => .inr (.inl rfl), (fun hstop => by cases hstop), h.drained, h.last⟩
  | join hplace hoff => exact ⟨h.loop, fun _ => .inr (.inr hoff), fun _ => hoff, h.drained, h.last⟩

/-! ### The events that the queue took -/

/-- The events that the sink's queue accepted. -/
def accepted (tr : Trace (ServiceState ρ) (ServiceEvent ρ)) : List (SinkInput ρ) :=
  tr.filterMap fun i => match i.2 with
    | .accepted e _ => some e
    | _ => none

/-- The events that it dropped. -/
def dropped (tr : Trace (ServiceState ρ) (ServiceEvent ρ)) : List (SinkInput ρ) :=
  tr.filterMap fun i => match i.2 with
    | .accepted _ d => d
    | _ => none

/-- Where an event with a row is that the queue has accepted and not dropped. -/
inductive Standing (tr : Trace (ServiceState ρ) (ServiceEvent ρ)) (s : ServiceState ρ)
    (e : SinkInput ρ) (text : ρ) : Prop
  | queued (h : e ∈ s.queue)
  | popped (h : s.sink.place = .push (.event e.eventId text))
  | batched (n : Nat) (h : ⟨n, .event e.eventId text⟩ ∈ rowsPut (sinkTrace tr))

/-- Every such event stands in the queue, is at the batch or was put in it. -/
def Accounted (tr : Trace (ServiceState ρ) (ServiceEvent ρ)) (s : ServiceState ρ) : Prop :=
  ∀ e ∈ accepted tr, ∀ text, e.row = some text → e ∉ dropped tr → Standing tr s e text

theorem rowsPut_mono (tr : Trace (ServiceState ρ) (ServiceEvent ρ))
    (tr' : Trace (ServiceState ρ) (ServiceEvent ρ)) :
    rowsPut (sinkTrace tr) ⊆ rowsPut (sinkTrace (tr ++ tr')) := by
  intro row hrow
  simp only [sinkTrace, rowsPut, List.filterMap_append, List.flatMap_append, List.mem_append]
  exact .inl hrow

/-- A step that takes no event in. The events stand as before but for those that it moves. -/
theorem Accounted.step_of (h : Accounted tr s) (hacc : ∀ x d, e ≠ .accepted x d)
    (hmove : ∀ x text, x.row = some text → Standing tr s x text →
      Standing (tr ++ [(s, e)]) s' x text) :
    Accounted (tr ++ [(s, e)]) s' := by
  have hnone : accepted [(s, e)] = [] ∧ dropped [(s, e)] = [] := by
    cases e <;> first | exact ⟨rfl, rfl⟩ | exact absurd rfl (hacc _ _)
  intro x hx text hrow hdrop
  simp only [accepted, dropped, List.filterMap_append, List.mem_append, not_or] at hx hdrop
  rcases hx with hx | hx
  · exact hmove x text hrow (h x hx text hrow hdrop.1)
  · rw [show List.filterMap _ [(s, e)] = [] from hnone.1] at hx
    cases hx

variable {x : SinkInput ρ} {i : ServiceState ρ × ServiceEvent ρ}

theorem Standing.stay {text : ρ} (h : Standing tr s x text) (hqueue : s'.queue = s.queue)
    (hplace : ∀ line, s.sink.place = .push line → s'.sink.place = .push line) :
    Standing (tr ++ [i]) s' x text := by
  cases h with
  | queued hq => exact .queued (hqueue ▸ hq)
  | popped hp => exact .popped (hplace _ hp)
  | batched n hput => exact .batched n (rowsPut_mono tr [i] hput)

theorem Standing.pop {text : ρ} (h : Standing tr s x text)
    (hrow : x.row = some text) (htop : s.sink.place = .top) (hqueue : s'.queue = s.queue.tail)
    (hhead : ∀ line, s.queue.head?.bind SinkInput.line = some line → s'.sink.place = .push line) :
    Standing (tr ++ [i]) s' x text := by
  cases h with
  | queued hq =>
    cases hcases : s.queue with
    | nil => rw [hcases] at hq; cases hq
    | cons y rest =>
      rw [hcases] at hq hhead hqueue
      rcases List.mem_cons.mp hq with rfl | hq
      · exact .popped (hhead _ (by simp [SinkInput.line, hrow]))
      · exact .queued (hqueue ▸ hq)
  | popped hp =>
    rw [htop] at hp
    cases hp
  | batched n hput => exact .batched n (rowsPut_mono tr [i] hput)

theorem pushQueue_keeps {size : Nat} {e : SinkInput ρ} (h : x ∈ queue ∨ x = e) :
    x ∈ (pushQueue size queue e).2 ∨ (pushQueue size queue e).1 = some x := by
  unfold pushQueue
  split
  · rcases h with h | rfl
    · cases queue with
      | nil => cases h
      | cons y rest =>
        rcases List.mem_cons.mp h with rfl | h
        · exact .inr rfl
        · exact .inl (List.mem_append_left _ h)
    · exact .inl (by simp)
  · left
    simpa using h

theorem Accounted.step (h : Accounted tr s) (hstop : Stopping cfg s)
    (hstep : ServiceStep cfg s e s') : Accounted (tr ++ [(s, e)]) s' := by
  cases hstep with
  | start hoff =>
    refine h.step_of (fun _ _ h => by cases h) fun x text hrow hx => ?_
    cases hx with
    | queued hq =>
      -- the old queue has no row
      have hnone := hstop.drained (by rw [hoff]; rfl) x hq
      rw [hrow] at hnone
      cases hnone
    | popped hp =>
      rw [hoff] at hp
      cases hp
    | batched n hput => exact .batched n (rowsPut_mono tr _ hput)
  | accept e sending =>
    intro x hx text hrow hdrop
    simp only [accepted, dropped, List.filterMap_append, List.mem_append, not_or] at hx hdrop
    obtain ⟨hold, hnew⟩ := hdrop
    have hkept : (pushQueue cfg.queueSize s.queue e).1 ≠ some x := by
      intro hsome
      simp [hsome] at hnew
    have hqueue (hin : x ∈ s.queue ∨ x = e) : x ∈ (pushQueue cfg.queueSize s.queue e).2 :=
      (pushQueue_keeps hin).resolve_right hkept
    rcases hx with hx | hx
    · cases h x hx text hrow hold with
      | queued hq => exact .queued (hqueue (.inl hq))
      | popped hp => exact .popped hp
      | batched n hput => exact .batched n (rowsPut_mono tr _ hput)
    · exact .queued (hqueue (.inr (by simpa using hx)))
  | popEmpty hplace hhead =>
    refine h.step_of (fun _ _ h => by cases h) fun x text hrow hx => ?_
    exact hx.pop hrow hplace rfl fun line hline => by rw [hhead] at hline; cases hline
  | popRow hplace line hhead =>
    refine h.step_of (fun _ _ h => by cases h) fun x text hrow hx => ?_
    refine hx.pop hrow hplace rfl fun line' hline => ?_
    rw [hhead] at hline
    cases hline
    rfl
  | left hplace hrunning | answered final lines result hplace =>
    refine h.step_of (fun _ _ h => by cases h) fun x text hrow hx => ?_
    exact hx.stay rfl fun line hpush => by rw [hplace] at hpush; cases hpush
  | flush c e sink hoff htop hpost hgo =>
    refine h.step_of (fun _ _ h => by cases h) fun x text hrow hx => ?_
    by_cases hpush : s.sink.place = .push (.event x.eventId text)
    · -- the row comes into the batch
      rw [hpush] at hgo
      have hrows : e = .put (s.sink.rows [.event x.eventId text]) := by
        cases c <;> cases hgo
        rfl
      refine .batched s.sink.nextRow ?_
      subst hrows
      simp [sinkTrace, sinkView, putBy, SinkState.rows, rowsFrom]
    · cases hx with
      | queued hq => exact .queued hq
      | popped hp => exact absurd hp hpush
      | batched n hput => exact .batched n (rowsPut_mono tr _ hput)
  | _ =>
    refine h.step_of (fun _ _ h => by cases h) fun x text hrow hx => ?_
    exact hx.stay rfl fun line hpush => hpush

/-! ### Stop accounts for every event -/

theorem stopping_run (h0 : ServiceStart s₀) (hrun : Run (service cfg).lts s₀ tr s)
    (horderly : ∀ i ∈ tr, Orderly cfg i.1 i.2) : Stopping cfg s ∧ Accounted tr s := by
  refine Run.induct_of (C := Orderly cfg) (J := fun tr s => Stopping cfg s ∧ Accounted tr s) ?_ ?_
    hrun horderly
  · subst h0
    have hlast : LastFlush cfg.toInfluxConfig 0 ({} : SinkState (SinkLine ρ)) :=
      ⟨fun _ => rfl, (fun _ _ h => by cases h), (fun _ h => by cases h), Nat.le_refl _⟩
    have hnone : ∀ e ∈ ({} : ServiceState ρ).queue, e.row = none := fun _ h => by cases h
    refine ⟨⟨(fun h => by cases h), fun _ => .inr (.inr rfl), fun _ => rfl, fun _ => hnone,
      hlast⟩, ?_⟩
    intro e he
    cases he
  · rintro tr s e s' - - ⟨hstop, haccount⟩ hmeets hstep
    have hstep := serviceStep_of_step hstep
    exact ⟨hstop.step hstep hmeets, haccount.step hstop hstep⟩

theorem nextRow_le {cfg : InfluxConfig} {s s' : SinkState (SinkLine ρ)}
    {e : SinkEvent (SinkLine ρ)} (h : SinkStep cfg s e s') : s.nextRow ≤ s'.nextRow := by
  cases h with
  | put lines | push line => exact Nat.le_add_right _ _
  | _ => exact Nat.le_refl _

theorem mark_run {n : Nat} (h0 : n ≤ s₀.mark ∧ n ≤ s₀.sink.nextRow)
    (hrun : Run (service cfg).lts s₀ tr s) : n ≤ s.mark := by
  have hall : n ≤ s.mark ∧ n ≤ s.sink.nextRow := by
    refine Run.induct (J := fun _ s => n ≤ s.mark ∧ n ≤ s.sink.nextRow) h0 ?_ hrun
    rintro tr s e s' - ⟨hmark, hnext⟩ hstep
    have hstep := serviceStep_of_step hstep
    have hmore : n ≤ s'.sink.nextRow := by
      cases hview : sinkView (s, e) with
      | none => rwa [hstep.seen.1 hview]
      | some j => exact hnext.trans (nextRow_le (sinkStep_of_step (hstep.seen.2 j hview).2))
    refine ⟨?_, hmore⟩
    cases hstep with
    | stopCalled => exact hnext
    | _ => exact hmark
  exact hall.1

/-- A row of the sink that is not held was written or counted as failed. -/
theorem settled_of_not_held (h0 : ServiceStart s₀)
    (hrun : Run (service cfg).lts s₀ tr s) {row : Row (SinkLine ρ)}
    (hput : row ∈ rowsPut (sinkTrace tr)) (hheld : row ∉ held s.sink) :
    row ∈ rowsWritten (sinkTrace tr) ∨ row ∈ rowsFailed (sinkTrace tr) := by
  have hstart : SinkStart s₀.sink := by rw [h0]; rfl
  have hwhere := whereabouts_run hstart (sink_run hrun)
  have hmem := hwhere.rows.mem_iff.mp hput
  simp only [List.mem_append] at hmem
  rcases hmem with (hwritten | hfailed) | hin
  · exact .inl hwritten
  · exact .inr hfailed
  · exact absurd hin hheld

/-- Take a run whose steps are all orderly, with a call of `stop` in it, that ends with the sink
stopped. Every event with a row that the sink's queue accepted and did not drop, and every row that
was in the batch before the call, was written or counted in `total_failed`. -/
theorem stop_accounts_for_events {s₀ s₁ s : ServiceState ρ}
    {tr tr₁ tr₂ : Trace (ServiceState ρ) (ServiceEvent ρ)} (h0 : ServiceStart s₀)
    (hrun : Run (service cfg).lts s₀ tr s) (hcalled : tr = tr₁ ++ (s₁, .stopCalled) :: tr₂)
    (horderly : ∀ i ∈ tr, Orderly cfg i.1 i.2) (hreturned : s.stopPlace = .returned) :
    (∀ e ∈ accepted tr, ∀ text, e.row = some text → e ∉ dropped tr →
      ∃ n, ⟨n, .event e.eventId text⟩ ∈ rowsWritten (sinkTrace tr) ∨
        ⟨n, .event e.eventId text⟩ ∈ rowsFailed (sinkTrace tr)) ∧ (∀ row ∈ rowsPut (sinkTrace tr₁),
      row ∈ rowsWritten (sinkTrace tr) ∨ row ∈ rowsFailed (sinkTrace tr)) ∧
    s.sink.totalWritten = (rowsWritten (sinkTrace tr)).length ∧
    s.sink.totalFailed = (rowsFailed (sinkTrace tr)).length := by
  obtain ⟨hstop, haccount⟩ := stopping_run h0 hrun horderly
  have hstart : SinkStart s₀.sink := by rw [h0]; rfl
  have hwhere := whereabouts_run hstart (sink_run hrun)
  have hoff := hstop.returned hreturned
  have hfin : finished s.sink.place := by rw [hoff]; rfl
  -- only the batch is left of what the sink holds
  have hheld : held s.sink = s.sink.batch := by
    simp [held, hstop.last.emptied hfin, hoff, FlushPlace.inFlight]
  refine ⟨?_, ?_, hwhere.written, hwhere.failed⟩
  · intro e he text hrow hdrop
    cases haccount e he text hrow hdrop with
    | queued hq =>
      have hnone := hstop.drained (behindLoop_of_finished hfin) e hq
      rw [hrow] at hnone
      cases hnone
    | popped hp =>
      rw [hoff] at hp
      cases hp
    | batched n hput =>
      refine ⟨n, settled_of_not_held h0 hrun hput fun hin => ?_⟩
      rw [hheld] at hin
      have hcaller := (hstop.last.batch hfin _ hin).1
      cases hcaller
  · intro row hput
    subst hcalled
    refine settled_of_not_held h0 hrun (rowsPut_mono tr₁ _ hput) fun hin => ?_
    obtain ⟨hbefore, s₂, hcall, hafter⟩ := hrun.at_step
    have hmark : s₁.sink.nextRow ≤ s.mark := by
      refine mark_run ?_ hafter
      cases serviceStep_of_step hcall with
      | stopCalled => exact ⟨Nat.le_refl _, Nat.le_refl _⟩
    -- the row's number is below the mark
    have hbelow : row.number < s₁.sink.nextRow := by
      have hmem : row.number ∈ (rowsPut (sinkTrace tr₁)).map Row.number := List.mem_map_of_mem hput
      rw [(accounts_run hstart (sink_run hbefore)).numbers] at hmem
      exact List.mem_range.mp hmem
    rw [hheld] at hin
    have hlate := (hstop.last.batch hfin row hin).2
    omega

/-- Is a step the call of `stop`. -/
def isStopCall (i : ServiceState ρ × ServiceEvent ρ) : Bool := match i.2 with
  | .stopCalled => true
  | _ => false

theorem exists_call (h : tr.any isStopCall) :
    ∃ tr₁ s₁ tr₂, tr = tr₁ ++ (s₁, .stopCalled) :: tr₂ := by
  obtain ⟨⟨s₁, e⟩, hi, hcall⟩ := List.any_eq_true.mp h
  obtain ⟨tr₁, tr₂, htr⟩ := List.append_of_mem hi
  cases e with
  | stopCalled => exact ⟨tr₁, s₁, tr₂, htr⟩
  | _ => cases hcall

/-- The sink is started, and an event comes into its queue. -/
def startWithEvent : List (ServiceChoice Nat) := [.start, .emit (some 7), .deliver 0]

/-- The flush thread puts the event's row in the batch and writes it in its last flush. -/
theorem stop_accounts_for_events_written :
    ∃ (tr : Trace (ServiceState Nat) (ServiceEvent Nat)) (s : ServiceState Nat),
      Run (service {}).lts {} tr s ∧ s.stopPlace = .returned ∧ accepted tr = [⟨1, some 7⟩] ∧
      ∃ n, ⟨n, .event 1 7⟩ ∈ rowsWritten (sinkTrace tr) ∨
        ⟨n, .event 1 7⟩ ∈ rowsFailed (sinkTrace tr) := by
  obtain ⟨tr, s, hrun, hend⟩ := (service {}).run_of_passes ({} : ServiceState Nat)
    (startWithEvent ++ [.flush .go, .flush .go, .flush .go, .flush (.elapsed 0), .enqueueLines [9],
      .stop, .stop, .flush .go, .flush .go, .flush (.reply (.status 204)), .flush .go,
        .stop, .stop])
    (fun tr s => s.stopPlace = .returned ∧ accepted tr = [⟨1, some 7⟩] ∧ dropped tr = [] ∧
      (∀ i ∈ tr, Orderly {} i.1 i.2) ∧ tr.any isStopCall) (by decide)
  obtain ⟨hreturned, haccepted, hdropped, horderly, hcall⟩ := hend
  obtain ⟨tr₁, s₁, tr₂, htr⟩ := exists_call hcall
  refine ⟨tr, s, hrun, hreturned, haccepted, ?_⟩
  exact (stop_accounts_for_events rfl hrun htr horderly hreturned).1 ⟨1, some 7⟩
    (by simp [haccepted]) 7 rfl (by simp [hdropped])

/-- An event that stands in the queue when the flush thread reads `running_` as false is neither
written nor counted. -/
theorem queued_event_lost :
    ¬ ∀ (tr tr₁ tr₂ : Trace (ServiceState Nat) (ServiceEvent Nat)) (s₁ s : ServiceState Nat),
      Run (service {}).lts {} tr s → tr = tr₁ ++ (s₁, .stopCalled) :: tr₂ →
      s.stopPlace = .returned → ∀ e ∈ accepted tr, ∀ text, e.row = some text → e ∉ dropped tr →
      ∃ n, ⟨n, .event e.eventId text⟩ ∈ rowsWritten (sinkTrace tr) ∨
        ⟨n, .event e.eventId text⟩ ∈ rowsFailed (sinkTrace tr) := by
  intro hall
  obtain ⟨tr, s, hrun, hend⟩ := (service {}).run_of_passes ({} : ServiceState Nat)
    (startWithEvent ++ [.stop, .stop, .flush .go, .flush .go, .stop, .stop])
    (fun tr s => s.stopPlace = .returned ∧ accepted tr = [⟨1, some 7⟩] ∧ dropped tr = [] ∧
      rowsWritten (sinkTrace tr) = [] ∧ rowsFailed (sinkTrace tr) = [] ∧
      tr.any isStopCall) (by decide)
  obtain ⟨hreturned, haccepted, hdropped, hwritten, hfailed, hcall⟩ := hend
  obtain ⟨tr₁, s₁, tr₂, htr⟩ := exists_call hcall
  obtain ⟨n, hrow⟩ := hall tr tr₁ tr₂ s₁ s hrun htr hreturned ⟨1, some 7⟩
    (by simp [haccepted]) 7 rfl
    (by simp [hdropped])
  simp [hwritten, hfailed] at hrow

end Anolis.Proofs.SinkStop
