import Anolis.Telemetry.InfluxSink
import Mathlib.Data.List.Nodup
import Mathlib.Data.List.Range

/-!
# No telemetry row is lost, doubled or moved

Every row that was ever put in the batch is written, counted as failed, waits in the retry buffer or
in the batch, or is in flight. `Accounts` says so along every run of the sink, next to the order of
the rows: what was written, then the retry buffer, then the rows in flight, then the batch, is a
sublist of the rows in the order they were put in.

The permanent rejections are counted twice, first in `total_rejected_` and then in `total_failed_`.
Between these two additions the first counter is ahead (`rejected_ahead_of_failed`); at every other
point it is not (`rows_are_conserved`).
-/

namespace Anolis.Proofs.TelemetryRows

open Lib Telemetry

variable {ρ : Type} {cfg : InfluxConfig}

/-! ### The steps by name -/

/-- The rows of a flush that are in `total_rejected_` and not yet in `total_failed_`. -/
def uncounted : FlushPlace ρ → List (Row ρ)
  | .countFailed _ lines => lines
  | _ => []

/-- What a step of the sink does. -/
inductive SinkStep (cfg : InfluxConfig) (s : SinkState ρ) : SinkEvent ρ → SinkState ρ → Prop
  -- the flush thread goes on with the rows it has
  | move (place : FlushPlace ρ) (hflight : place.inFlight = s.place.inFlight)
      (hfree : s.place.locked = false ∧ place.locked = false)
      (hcounted : uncounted s.place = [] ∧ uncounted place = []) :
      SinkStep cfg s .silent { s with place := place }
  | put (lines : List ρ) (hfree : s.place.locked = false) :
      SinkStep cfg s (.put (s.rows lines)) (s.put lines)
  | push (line : ρ) (hplace : s.place = .push line) :
      SinkStep cfg s (.put (s.rows [line])) { s.put [line] with place := .check }
  | take (final : Bool) (hplace : s.place = .take final) :
      SinkStep cfg s .silent
        { s with retryBuffer := [], batch := [], place := .post final (s.retryBuffer ++ s.batch) }
  | wrote (final : Bool) (lines : List (Row ρ)) (hplace : s.place = .countWritten final lines) :
      SinkStep cfg s (.wrote lines)
        { s with totalWritten := s.totalWritten + lines.length, place := .past final }
  | rejected (final : Bool) (lines : List (Row ρ)) (hplace : s.place = .countRejected final lines) :
      SinkStep cfg s .silent
        { s with totalRejected := s.totalRejected + lines.length, place :=
          .countFailed final lines }
  | failed (final : Bool) (lines : List (Row ρ))
      (hplace : s.place = .countFailed final lines ∨ s.place = .countDropped final lines) :
      SinkStep cfg s .silent
        { s with totalFailed := s.totalFailed + lines.length, place := .past final }
  | keep (final : Bool) (lines : List (Row ρ)) (hplace : s.place = .keep final lines) :
      SinkStep cfg s .silent (keepLines cfg s final lines)

@[simp] theorem inFlight_past (final : Bool) :
    (FlushPlace.past final : FlushPlace ρ).inFlight = [] := by cases final <;> rfl

@[simp] theorem locked_past (final : Bool) :
    (FlushPlace.past final : FlushPlace ρ).locked = false := by cases final <;> rfl

@[simp] theorem uncounted_past (final : Bool) :
    uncounted (FlushPlace.past final : FlushPlace ρ) = [] := by cases final <;> rfl

theorem place_outcome (outcome : FlushOutcome) (final : Bool) (lines : List (Row ρ)) :
    (outcome.place final lines).inFlight = lines ∧ (outcome.place final lines).locked = false ∧
      uncounted (outcome.place final lines) = [] := by
  cases outcome <;> exact ⟨rfl, rfl, rfl⟩

variable {s : SinkState ρ}

theorem SinkStep.between {place place' : FlushPlace ρ} (hplace : s.place = place)
    (hflight : place'.inFlight = place.inFlight)
    (hfree : place.locked = false ∧ place'.locked = false)
    (hcounted : uncounted place = [] ∧ uncounted place' = []) :
    SinkStep cfg s .silent { s with place := place' } := by
  subst hplace
  exact .move place' hflight hfree hcounted

variable {s' : SinkState ρ} {e : SinkEvent ρ}

theorem sinkStep_of_flush {c : FlushChoice ρ}
    (h : flushNext cfg s s.place c = some (e, s')) : SinkStep cfg s e s' := by
  generalize hplace : s.place = place at h
  revert h
  fun_cases flushNext cfg s place c <;> intro h <;> cases h
  case case5 line => exact .push line hplace
  case case6 ms => split <;> exact .between hplace rfl ⟨rfl, rfl⟩ ⟨rfl, rfl⟩
  case case7 final =>
    unfold takeLines
    simp only
    split
    · exact .between hplace (inFlight_past _) ⟨rfl, locked_past _⟩ ⟨rfl, uncounted_past _⟩
    · exact .take final hplace
  case case8 final lines result =>
    obtain ⟨hflight, hlocked, huncounted⟩ := place_outcome result.outcome final lines
    exact .between hplace hflight ⟨rfl, hlocked⟩ ⟨rfl, huncounted⟩
  case case9 final lines => exact .wrote final lines hplace
  case case10 final lines => exact .rejected final lines hplace
  case case11 final lines => exact .failed final lines (.inl hplace)
  case case12 final lines => exact .failed final lines (.inr hplace)
  case case13 final lines => exact .keep final lines hplace
  all_goals exact .between hplace rfl ⟨rfl, rfl⟩ ⟨rfl, rfl⟩

theorem sinkStep_of_step (h : (sink cfg).lts.step s e s') : SinkStep cfg s e s' := by
  obtain ⟨c, hnext⟩ := h
  cases c with
  | enqueueLines lines =>
    simp only [sink, sinkNext] at hnext
    split at hnext
    · cases hnext
    · rename_i hfree
      cases hnext
      exact .put lines (by simpa using hfree)
  | flush c => exact sinkStep_of_flush hnext

/-! ### The accounts -/

/-- The rows that a step puts in the batch. -/
def putBy : SinkEvent ρ → List (Row ρ)
  | .put rows => rows
  | _ => []

/-- The rows that a step's flush has written. -/
def writtenBy : SinkEvent ρ → List (Row ρ)
  | .wrote rows => rows
  | _ => []

/-- The rows put in the batch, in order. -/
def rowsPut (tr : Trace (SinkState ρ) (SinkEvent ρ)) : List (Row ρ) := tr.flatMap fun i => putBy i.2

/-- The rows written, in order. -/
def rowsWritten (tr : Trace (SinkState ρ) (SinkEvent ρ)) : List (Row ρ) :=
  tr.flatMap fun i => writtenBy i.2

@[simp] theorem rowsPut_snoc (tr : Trace (SinkState ρ) (SinkEvent ρ)) (s : SinkState ρ)
    (e : SinkEvent ρ) : rowsPut (tr ++ [(s, e)]) = rowsPut tr ++ putBy e := by
  simp [rowsPut]

@[simp] theorem rowsWritten_snoc (tr : Trace (SinkState ρ) (SinkEvent ρ)) (s : SinkState ρ)
    (e : SinkEvent ρ) : rowsWritten (tr ++ [(s, e)]) = rowsWritten tr ++ writtenBy e := by
  simp [rowsWritten]

theorem numbers_rowsFrom (n : Nat) (lines : List ρ) :
    (rowsFrom n lines).map Row.number = List.range' n lines.length := by
  induction lines generalizing n with
  | nil => rfl
  | cons line lines ih => simp [rowsFrom, ih, List.range'_succ]

theorem length_rowsFrom (n : Nat) (lines : List ρ) : (rowsFrom n lines).length = lines.length := by
  have h := congrArg List.length (numbers_rowsFrom n lines)
  simpa using h

/-- The rows that the sink holds, in the order in which they are to be written. -/
def held (s : SinkState ρ) : List (Row ρ) := s.retryBuffer ++ s.place.inFlight ++ s.batch

/-- The accounts of the sink behind a trace. -/
structure Accounts (cfg : InfluxConfig) (tr : Trace (SinkState ρ) (SinkEvent ρ))
    (s : SinkState ρ) : Prop where
  numbers : (rowsPut tr).map Row.number = List.range s.nextRow
  balance : s.nextRow = s.totalWritten + s.totalFailed + (held s).length
  ordered : (rowsWritten tr ++ held s).Sublist (rowsPut tr)
  -- a flush empties the retry buffer, and fills it in its last section only
  emptied : s.place.inFlight ≠ [] → s.place.locked = false → s.retryBuffer = []
  bounded : s.retryBuffer.length ≤ cfg.maxRetryBufferSize
  rejected : s.totalRejected ≤ s.totalFailed + (uncounted s.place).length

variable {tr : Trace (SinkState ρ) (SinkEvent ρ)} {s₀ : SinkState ρ}

theorem Accounts.put (h : Accounts cfg tr s) (lines : List ρ) :
    Accounts cfg (tr ++ [(s₀, .put (s.rows lines))]) (s.put lines) where
  numbers := by
    rw [rowsPut_snoc, List.map_append, h.numbers]
    simp only [putBy, SinkState.rows, numbers_rowsFrom, SinkState.put]
    rw [List.range_eq_range', List.range_eq_range', ← List.range'_append_1, Nat.zero_add]
  balance := by
    have hbalance := h.balance
    simp only [held, SinkState.put, SinkState.rows, List.length_append, length_rowsFrom]
      at hbalance ⊢
    omega
  ordered := by
    have hsame : rowsWritten tr ++ held (s.put lines) =
        (rowsWritten tr ++ held s) ++ s.rows lines := by
      simp [held, SinkState.put]
    rw [rowsPut_snoc, rowsWritten_snoc]
    simp only [putBy, writtenBy, List.append_nil, hsame]
    exact h.ordered.append (List.Sublist.refl _)
  emptied := h.emptied
  bounded := h.bounded
  rejected := h.rejected

/-- A step that puts no rows: it takes rows from those held, in order, or leaves them. -/
theorem Accounts.settle (h : Accounts cfg tr s) (hput : putBy e = [])
    (hnext : s'.nextRow = s.nextRow)
    (hcount : s'.totalWritten + s'.totalFailed + (held s').length =
      s.totalWritten + s.totalFailed + (held s).length)
    (hheld : (writtenBy e ++ held s').Sublist (held s))
    (hemptied : s'.place.inFlight ≠ [] → s'.place.locked = false → s'.retryBuffer = [])
    (hbounded : s'.retryBuffer.length ≤ cfg.maxRetryBufferSize)
    (hrejected : s'.totalRejected ≤ s'.totalFailed + (uncounted s'.place).length) :
    Accounts cfg (tr ++ [(s₀, e)]) s' where
  numbers := by simpa [hput, hnext] using h.numbers
  balance := by rw [hnext, h.balance, hcount]
  ordered := by
    rw [rowsPut_snoc, rowsWritten_snoc, hput, List.append_nil, List.append_assoc]
    exact ((List.Sublist.refl _).append hheld).trans h.ordered
  emptied := hemptied
  bounded := hbounded
  rejected := hrejected

/-- The rows in flight stand first: the retry buffer is empty while there are any. -/
theorem Accounts.held_eq (h : Accounts cfg tr s) (hfree : s.place.locked = false) :
    held s = s.place.inFlight ++ (s.retryBuffer ++ s.batch) := by
  by_cases hne : s.place.inFlight = []
  · simp [held, hne]
  · simp [held, h.emptied hne hfree]

theorem Accounts.push {line : ρ} (h : Accounts cfg tr s) (hplace : s.place = .push line) :
    Accounts cfg (tr ++ [(s₀, .put (s.rows [line]))])
      { s.put [line] with place := .check } := by
  have hput : Accounts cfg (tr ++ [(s₀, .put (s.rows [line]))]) (s.put [line]) := h.put [line]
  have hat : (s.put [line]).place = .push line := hplace
  exact {
    numbers := hput.numbers
    balance := by simpa [held, hat, FlushPlace.inFlight] using hput.balance
    ordered := by simpa [held, hat, FlushPlace.inFlight] using hput.ordered
    emptied := fun hne => absurd rfl hne
    bounded := hput.bounded
    rejected := by simpa [hat, uncounted] using hput.rejected }

theorem accounts_step (h : Accounts cfg tr s) (hstep : (sink cfg).lts.step s e s') :
    Accounts cfg (tr ++ [(s, e)]) s' := by
  have hrejected := h.rejected
  cases sinkStep_of_step hstep with
  | move place hflight hfree hcounted =>
    have hheld : held { s with place := place } = held s := by simp [held, hflight]
    refine h.settle rfl rfl (by rw [hheld]) (hheld ▸ List.Sublist.refl _)
      (fun hne _ => h.emptied (hflight ▸ hne) hfree.1) h.bounded ?_
    simpa [hcounted.1, hcounted.2] using hrejected
  | put lines hfree => exact h.put lines
  | push line hplace => exact h.push hplace
  | take final hplace =>
    refine h.settle rfl rfl ?_ ?_ (fun _ _ => rfl) (Nat.zero_le _) ?_
    · simp [held, hplace, FlushPlace.inFlight]
    · simp [held, hplace, FlushPlace.inFlight, writtenBy]
    · simpa [hplace, uncounted] using hrejected
  | wrote final lines hplace =>
    have hheld := h.held_eq (by rw [hplace]; rfl)
    have hcounted : uncounted s.place = [] := by rw [hplace]; rfl
    simp only [hplace, FlushPlace.inFlight] at hheld
    refine h.settle rfl rfl ?_ ?_ (by simp) h.bounded ?_
    · rw [hheld]
      simp [held]
      omega
    · rw [hheld]
      simp [held, writtenBy]
    · simpa [hcounted] using hrejected
  | rejected final lines hplace =>
    refine h.settle rfl rfl ?_ ?_ ?_ h.bounded ?_
    · simp [held, hplace, FlushPlace.inFlight]
    · simp [held, hplace, FlushPlace.inFlight, writtenBy]
    · exact fun hne _ => h.emptied (by rw [hplace]; exact hne) (by rw [hplace]; rfl)
    · simpa [hplace, uncounted] using hrejected
  | failed final lines hplace =>
    have hflight : s.place.inFlight = lines := by rcases hplace with h | h <;> rw [h] <;> rfl
    have huncounted : (uncounted s.place).length ≤ lines.length := by
      rcases hplace with h | h <;> rw [h] <;> simp [uncounted]
    refine h.settle rfl rfl ?_ ?_ (by simp) h.bounded ?_
    · simp [held, hflight]
      omega
    · simp [held, writtenBy]
    · simp only [uncounted_past, List.length_nil]
      omega
  | keep final lines hplace =>
    have hheld : held (keepLines cfg s final lines) = held s := by
      simp only [held, keepLines, hplace, FlushPlace.inFlight]
      rw [List.append_assoc s.retryBuffer, List.take_append_drop]
    have hbounded := h.bounded
    refine h.settle rfl rfl (by rw [hheld]; rfl) (hheld ▸ List.Sublist.refl _) ?_ ?_ ?_
    · exact fun _ hfree => by cases hfree
    · simp only [keepLines, keptCount, List.length_append, List.length_take]
      omega
    · simpa [hplace, uncounted, keepLines] using hrejected

/-- A sink that was not started yet. -/
def SinkStart (s : SinkState ρ) : Prop := s = {}

theorem accounts_run (h0 : SinkStart s₀) (h : Run (sink cfg).lts s₀ tr s) : Accounts cfg tr s := by
  refine Run.induct (T := (sink cfg).lts) (J := Accounts cfg) ?_ ?_ h
  · subst h0
    exact ⟨rfl, rfl, List.Sublist.refl _, fun hne => absurd rfl hne, Nat.zero_le _, Nat.zero_le _⟩
  · intro tr s e s' _ ih hstep
    exact accounts_step ih hstep

/-! ### The rows that are counted as failed -/

/-- The rows that a step adds to `total_failed_`. -/
def failedBy : SinkState ρ × SinkEvent ρ → List (Row ρ)
  | (s, .silent) => match s.place with
    | .countFailed _ lines | .countDropped _ lines => lines
    | _ => []
  | _ => []

/-- The rows counted as failed, in order. -/
def rowsFailed (tr : Trace (SinkState ρ) (SinkEvent ρ)) : List (Row ρ) := tr.flatMap failedBy

@[simp] theorem rowsFailed_snoc (tr : Trace (SinkState ρ) (SinkEvent ρ)) (s : SinkState ρ)
    (e : SinkEvent ρ) : rowsFailed (tr ++ [(s, e)]) = rowsFailed tr ++ failedBy (s, e) := by
  simp [rowsFailed]

theorem held_perm {lines : List (Row ρ)} (hflight : s.place.inFlight = lines) :
    (held s).Perm (lines ++ (s.retryBuffer ++ s.batch)) := by
  rw [held, hflight, ← List.append_assoc]
  exact List.perm_append_comm.append_right _

theorem failedBy_silent (hfree : s.place.locked = false)
    (hcounted : uncounted s.place = []) : failedBy (s, .silent) = [] := by
  simp only [failedBy]
  split
  · rename_i hplace
    simpa [hplace, uncounted] using hcounted
  · rename_i hplace
    simp [hplace, FlushPlace.locked] at hfree
  · rfl

/-- Where the rows are behind a trace. -/
structure Whereabouts (tr : Trace (SinkState ρ) (SinkEvent ρ)) (s : SinkState ρ) : Prop where
  rows : (rowsPut tr).Perm (rowsWritten tr ++ rowsFailed tr ++ held s)
  written : s.totalWritten = (rowsWritten tr).length
  failed : s.totalFailed = (rowsFailed tr).length

/-- A step that neither writes rows nor counts them as failed, and puts the rows that it adds to
those held. -/
theorem Whereabouts.holds (h : Whereabouts tr s) (hwrote : writtenBy e = [])
    (hfail : failedBy (s, e) = [])
    (hheld : (held s ++ putBy e).Perm (held s')) (hwritten : s'.totalWritten = s.totalWritten)
    (hfailed : s'.totalFailed = s.totalFailed) : Whereabouts (tr ++ [(s, e)]) s' where
  rows := by
    simp only [rowsPut_snoc, rowsWritten_snoc, rowsFailed_snoc, hwrote, hfail, List.append_nil]
    refine (h.rows.append_right _).trans ?_
    rw [List.append_assoc]
    exact hheld.append_left _
  written := by simp [hwritten, h.written, hwrote]
  failed := by simp [hfailed, h.failed, hfail]

theorem whereabouts_step (h : Whereabouts tr s) (hstep : (sink cfg).lts.step s e s') :
    Whereabouts (tr ++ [(s, e)]) s' := by
  cases sinkStep_of_step hstep with
  | move place hflight hfree hcounted =>
    exact h.holds rfl (failedBy_silent hfree.1 hcounted.1) (by simp [held, hflight, putBy]) rfl rfl
  | put lines hfree =>
    have hheld : held (s.put lines) = held s ++ s.rows lines := by simp [held, SinkState.put]
    exact h.holds rfl rfl (hheld ▸ List.Perm.refl _) rfl rfl
  | push line hplace =>
    refine h.holds rfl rfl ?_ rfl rfl
    simp [held, hplace, FlushPlace.inFlight, putBy, SinkState.put]
  | take final hplace | rejected final lines hplace =>
    refine h.holds rfl (failedBy_silent (by rw [hplace]; rfl) (by rw [hplace]; rfl)) ?_ rfl rfl
    simp [held, hplace, FlushPlace.inFlight, putBy]
  | wrote final lines hplace =>
    have hflight : s.place.inFlight = lines := by rw [hplace]; rfl
    have hheld := held_perm hflight
    exact {
      rows := by
        simp only [rowsPut_snoc, rowsWritten_snoc, rowsFailed_snoc, putBy, writtenBy, failedBy,
          List.append_nil, held, inFlight_past]
        refine (h.rows.trans (hheld.append_left _)).trans ?_
        simpa [List.append_assoc] using
          (List.perm_append_comm_assoc (rowsFailed tr) lines _).append_left (rowsWritten tr)
      written := by simp [h.written, writtenBy]
      failed := by simp [h.failed, failedBy] }
  | failed final lines hplace =>
    have hflight : s.place.inFlight = lines := by rcases hplace with h | h <;> rw [h] <;> rfl
    have hfail : failedBy (s, .silent) = lines := by
      rcases hplace with h | h <;> simp only [failedBy, h]
    have hheld := held_perm hflight
    exact {
      rows := by
        simp only [rowsPut_snoc, rowsWritten_snoc, rowsFailed_snoc, putBy, writtenBy, hfail,
          List.append_nil, held, inFlight_past]
        refine (h.rows.trans (hheld.append_left _)).trans ?_
        simp only [List.append_assoc, List.Perm.refl]
      written := by simp [h.written, writtenBy]
      failed := by simp [h.failed, hfail] }
  | keep final lines hplace =>
    refine h.holds rfl (failedBy_silent (by rw [hplace]; rfl) (by rw [hplace]; rfl)) ?_ rfl rfl
    simp only [putBy, List.append_nil, held, keepLines, hplace, FlushPlace.inFlight]
    rw [List.append_assoc s.retryBuffer (lines.take _), List.take_append_drop]

theorem whereabouts_run
    (h0 : SinkStart s₀) (h : Run (sink cfg).lts s₀ tr s) : Whereabouts tr s := by
  refine Run.induct (T := (sink cfg).lts) (J := Whereabouts) ?_ ?_ h
  · subst h0
    exact ⟨List.Perm.refl _, rfl, rfl⟩
  · intro tr s e s' _ ih hstep
    exact whereabouts_step ih hstep

/-! ### Conservation -/

/-- At every point of every run: each row that was ever put in the batch is written, counted as
failed, in the retry buffer, in the batch or in flight. The retry buffer keeps its bound. No row is
written twice, and the rows are written in the order they were put in. The rejected rows are among
the failed ones, but for those that a flush has added to the first counter and not yet to the
second, which are in flight. -/
theorem rows_are_conserved {s₀ s : SinkState ρ} {tr : Trace (SinkState ρ) (SinkEvent ρ)}
    (h0 : SinkStart s₀) (h : Run (sink cfg).lts s₀ tr s) :
    (rowsPut tr).length = s.totalWritten + s.totalFailed + s.retryBuffer.length +
      s.batch.length + s.place.inFlight.length ∧
    s.retryBuffer.length ≤ cfg.maxRetryBufferSize ∧
    ((∀ final lines, s.place ≠ .countFailed final lines) → s.totalRejected ≤ s.totalFailed) ∧
    s.totalRejected ≤ s.totalFailed + s.place.inFlight.length ∧
    ((rowsPut tr).map Row.number).Nodup ∧ (rowsWritten tr).Nodup ∧
    (rowsWritten tr).Sublist (rowsPut tr) := by
  have hall := accounts_run h0 h
  have hcount : (rowsPut tr).length = s.nextRow := by simpa using congrArg List.length hall.numbers
  have hdistinct : ((rowsPut tr).map Row.number).Nodup := hall.numbers ▸ List.nodup_range
  have hsub : (rowsWritten tr).Sublist (rowsPut tr) :=
    (List.sublist_append_left _ _).trans hall.ordered
  refine ⟨?_, hall.bounded, ?_, ?_, hdistinct, (List.Nodup.of_map _ hdistinct).sublist hsub, hsub⟩
  · have hbalance := hall.balance
    simp only [held, List.length_append] at hbalance
    omega
  · intro hplace
    have hnone : uncounted s.place = [] := by
      unfold uncounted
      split
      · rename_i final lines hat
        exact absurd hat (hplace final lines)
      · rfl
    simpa [hnone] using hall.rejected
  · refine le_trans hall.rejected (Nat.add_le_add_left ?_ _)
    cases s.place <;> simp [uncounted, FlushPlace.inFlight]

/-- A row that comes in, and a flush of it up to the answer. -/
def flushUpTo (result : PostResult) : List (SinkChoice Nat) :=
  [.enqueueLines [7], .flush .start, .flush (.popped none), .flush (.elapsed 1000), .flush .go,
    .flush (.reply result)]

/-- The row is put back, and a later flush writes it with one that came in meanwhile. -/
theorem rows_are_conserved_retried :
    ∃ tr s, Run (sink {}).lts ({} : SinkState Nat) tr s ∧ s.totalWritten = 2 ∧
      (rowsPut tr).length = s.totalWritten + s.totalFailed + s.retryBuffer.length +
        s.batch.length + s.place.inFlight.length ∧ (rowsWritten tr).Sublist (rowsPut tr) := by
  obtain ⟨tr, s, hrun, hwritten⟩ := (sink {}).run_of_passes ({} : SinkState Nat)
    (flushUpTo (.status 503) ++ [.flush .go, .flush .go, .enqueueLines [8], .flush .stopped,
      .flush .go, .flush (.reply (.status 204)), .flush .go])
    (fun _ s => s.totalWritten = 2) (by decide)
  obtain ⟨hbalance, -, -, -, -, -, hsub⟩ := rows_are_conserved rfl hrun
  exact ⟨tr, s, hrun, hwritten, hbalance, hsub⟩

/-- Between the two additions of a rejected flush, more rows are counted as rejected than as
failed. -/
theorem rejected_ahead_of_failed :
    ¬ ∀ (tr : Trace (SinkState Nat) (SinkEvent Nat)) (s : SinkState Nat),
      Run (sink {}).lts {} tr s → s.totalRejected ≤ s.totalFailed := by
  intro hall
  obtain ⟨tr, s, hrun, hcounts⟩ := (sink {}).run_of_passes ({} : SinkState Nat)
    (flushUpTo (.status 400) ++ [.flush .go]) (fun _ s => s.totalFailed < s.totalRejected)
    (by decide)
  exact absurd (hall tr s hrun) (Nat.not_le.mpr hcounts)

end Anolis.Proofs.TelemetryRows
