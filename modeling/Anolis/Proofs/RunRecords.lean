import Anolis.Proofs.JournalReads

/-!
# The records of the run journal are read as they were written

`to_json`, `dump`, `parse` and `run_from_json` one after the other give the run again, and likewise
an event. The one thing that a text does not keep is a number of the parameters that is not finite:
it is written as `null` (`nan_is_lost`).
-/

namespace Anolis.Proofs.RunRecords

open JournalReads Runs Lib Lib.Json

variable {F : Type} {fl : FloatFormat F}

/-- The floating point numbers of a value are numbers. -/
inductive Finite (fl : FloatFormat F) : Json F → Prop
  | null : Finite fl .null
  | bool (b : Bool) : Finite fl (.bool b)
  | int (i : Int) : Finite fl (.int i)
  | float {x : F} (h : fl.write x ≠ ascii "null") : Finite fl (.float x)
  | string (s : Bytes) : Finite fl (.string s)
  | array {items : List (Json F)} (h : ∀ v ∈ items, Finite fl v) : Finite fl (.array items)
  | object {fields : List (Bytes × Json F)} (h : ∀ field ∈ fields, Finite fl field.2) :
      Finite fl (.object fields)

theorem asRead_of_finite {v : Json F} (h : Finite fl v) : Json.asRead fl v = v := by
  induction h with
  | null | bool _ | int _ | string _ => rfl
  | float h => simp only [Json.asRead, if_neg h]
  | array _ ih => rw [Json.asRead, Json.asReadItems_eq, List.map_congr_left ih, List.map_id']
  | object _ ih =>
    have hfields := List.map_congr_left fun field hfield => congrArg (Prod.mk field.1)
      (ih field hfield)
    rw [Json.asRead, Json.asReadFields_eq, hfields, List.map_id']

theorem objectReread_of_finite {v : Value F} (hobject : isObject v.1)
    (h : Finite fl v.1) : objectReread fl v = v := by
  rw [objectReread, if_pos hobject]
  exact Subtype.ext (asRead_of_finite h)

/-- A run or an event whose strings are UTF-8, with an object of finite numbers, is read as it was
written. The label of a record that has none under its own key is the one under the deprecated
key. -/
theorem run_records_round_trip (fl : FloatCodec F) :
    (∀ run : Run F, Json.isUtf8 run.toJson → isObject run.params.1 →
      Finite fl.toFloatFormat run.params.1 →
      ∃ text, run.line fl = some text ∧ readRun fl text = some run) ∧
    (∀ event : RunEvent F, Json.isUtf8 event.toJson → isObject event.payload.1 →
      Finite fl.toFloatFormat event.payload.1 →
      ∃ text, event.line fl = some text ∧ readRunEvent fl text = some event) ∧
    ∀ (j : Value F) (run : Run F), runFromJson fl j = some run →
      (∀ s, j.1.get? (ascii "label") ≠ some (.string s)) →
      run.label = string? j.1 (ascii "experiment_label") := by
  refine ⟨fun run htext hobject hfinite => ?_, fun event htext hobject hfinite => ?_,
    fun j run hrun hlabel => ?_⟩
  · obtain ⟨text, hline⟩ := Option.isSome_iff_exists.mp ((run.line_isSome fl).mpr htext)
    have hread := (framed_run hline).reads
    rw [Run.reread, objectReread_of_finite hobject hfinite] at hread
    exact ⟨text, hline, hread⟩
  · obtain ⟨text, hline⟩ := Option.isSome_iff_exists.mp ((event.line_isSome fl).mpr htext)
    have hread := (framed_event hline).reads
    rw [RunEvent.reread, objectReread_of_finite hobject hfinite] at hread
    exact ⟨text, hline, hread⟩
  · have hnone : string? j.1 (ascii "label") = none := by
      unfold string?
      split
      · rename_i s hs
        exact absurd hs (hlabel s)
      · rfl
    simp only [runFromJson, Option.bind_eq_bind, Option.bind_eq_some_iff] at hrun
    obtain ⟨_, -, _, -, _, -, _, -, _, -, _, -, hrun⟩ := hrun
    -- the record is the same with and without an automation version
    split at hrun
    all_goals
      obtain ⟨_, -, hrun⟩ := Option.bind_eq_some_iff.mp hrun
      cases hrun
      rw [hnone, Option.none_or]

/-- Two numbers: a half, and one that is not finite. -/
def halfOrNan : FloatCodec Bool where
  read text := if text = ascii "0.5" then some true else none
  write half := if half then ascii "0.5" else ascii "null"
  truncate _ := 0
  written
    | true => .inl ⟨⟨.fraction, ⟨_, _, _, rfl, rfl, rfl⟩, .inl rfl⟩, rfl⟩
    | false => .inr rfl

/-- A run with one of them as a parameter. -/
def gainRun (half : Bool) : Run Bool where
  runId := ascii "r"
  params := ⟨.object [(ascii "gain", .float half)], .object (by simp) (by simpa using .float half)⟩

/-- The run with the half is read as it was written. -/
theorem run_records_round_trip_half : ∃ text, (gainRun true).line halfOrNan = some text ∧
    readRun halfOrNan text = some (gainRun true) := by
  have hhalf : Finite halfOrNan.toFloatFormat (gainRun true).params.1 :=
    .object (by simpa using .float (by decide))
  exact (run_records_round_trip halfOrNan).1 _ (by decide) rfl hhalf

/-- The parameter of the other is read as `null`. -/
theorem nan_is_lost : Json.isUtf8 (gainRun false).toJson ∧ isObject (gainRun false).params.1 ∧
    ∃ text run, (gainRun false).line halfOrNan = some text ∧ readRun halfOrNan text = some run ∧
      run ≠ gainRun false := by
  have htext : Json.isUtf8 (gainRun false).toJson := by decide
  obtain ⟨text, hline⟩ := Option.isSome_iff_exists.mp (((gainRun false).line_isSome _).mpr htext)
  refine ⟨htext, rfl, text, _, hline, (framed_run hline).reads, fun heq => ?_⟩
  have hparams : (.object [(ascii "gain", .null)] : Json Bool) =
      .object [(ascii "gain", .float false)] := congrArg (fun run => run.params.1) heq
  cases hparams

end Anolis.Proofs.RunRecords
