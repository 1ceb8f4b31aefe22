import Anolis.Lib.JsonValues

/-!
# Runs and their events

The records of the run journal (`core/runs/run_types.hpp`) and their JSON texts
(`core/runs/run_journal.cpp`). A record is written as an object with one member for each field.
`runFromJson` and `runEventFromJson` read one back: a member that is missing has a default, one of
another type is an exception for most fields and a default for some. The journal treats an exception
as it treats `nullopt`, so both are `none` here.

`runFromJson_toJson` and `runEventFromJson_toJson`: what is written is read back, where a `params`
or `payload` is read as what its text says (`Value.reread`), and one that is no object as an empty
one.
-/

namespace Anolis.Runs

open Lib Lib.Json

variable {F : Type}

/-! ### The records -/

inductive RunState
  -- `RunState::Open`
  | opened
  | closed
deriving DecidableEq

inductive CloseReason
  | operatorStop | completed | failed | superseded | abandoned
deriving DecidableEq

structure TagScope where
  providerIds : List Bytes := []
  deviceIds : List Bytes := []
  signalIds : List Bytes := []

structure AutomationVersionRecord where
  engineKind : Bytes
  id : Bytes
  digest : Bytes
  digestScope : Bytes

/-- `nlohmann::json::object()`. -/
def emptyObject : Value F := ⟨.object [], .object List.Pairwise.nil (by simp)⟩

structure Run (F : Type) where
  runId : Bytes
  label : Option Bytes := none
  state : RunState := .opened
  closeReason : Option CloseReason := none
  startedAtEpochMs : UInt64 := 0
  endedAtEpochMs : Option UInt64 := none
  automationVersion : Option AutomationVersionRecord := none
  runtimeVersion : Bytes := []
  pollingIntervalMs : Int32 := 0
  params : Value F := emptyObject
  tagScope : TagScope := {}
  schemaVersion : UInt32 := 1

structure RunOpenSpec (F : Type) where
  label : Option Bytes := none
  params : Value F := emptyObject
  tagScope : TagScope := {}

inductive RunEventCategory
  | runOpened | runClosed | modeChange | parameterChange | automationFault
  -- `RunEventCategory::Annotation`
  | annotationMarker
deriving DecidableEq

structure RunEvent (F : Type) where
  runId : Bytes
  sequence : UInt64 := 0
  category : RunEventCategory := .annotationMarker
  type : Bytes := []
  occurredAtEpochMs : UInt64 := 0
  recordedAtEpochMs : UInt64 := 0
  payload : Value F := emptyObject
  schemaVersion : UInt32 := 1

/-! ### Their words -/

def RunState.toString : RunState → Bytes
  | .opened => ascii "open"
  | .closed => ascii "closed"

def CloseReason.toString : CloseReason → Bytes
  | .operatorStop => ascii "operator_stop"
  | .completed => ascii "completed"
  | .failed => ascii "failed"
  | .superseded => ascii "superseded"
  | .abandoned => ascii "abandoned"

def closeReasonFromString (s : Bytes) : Option CloseReason :=
  if s = ascii "operator_stop" then some .operatorStop
  else if s = ascii "completed" then some .completed
  else if s = ascii "failed" then some .failed
  else if s = ascii "superseded" then some .superseded
  else if s = ascii "abandoned" then some .abandoned
  else none

def RunEventCategory.toString : RunEventCategory → Bytes
  | .runOpened => ascii "run_opened"
  | .runClosed => ascii "run_closed"
  | .modeChange => ascii "mode_change"
  | .parameterChange => ascii "parameter_change"
  | .automationFault => ascii "automation_fault"
  | .annotationMarker => ascii "annotation"

def runEventCategoryFromString (s : Bytes) : Option RunEventCategory :=
  if s = ascii "run_opened" then some .runOpened
  else if s = ascii "run_closed" then some .runClosed
  else if s = ascii "mode_change" then some .modeChange
  else if s = ascii "parameter_change" then some .parameterChange
  else if s = ascii "automation_fault" then some .automationFault
  else if s = ascii "annotation" then some .annotationMarker
  else none

theorem closeReasonFromString_toString (reason : CloseReason) :
    closeReasonFromString reason.toString = some reason := by
  cases reason <;> decide

theorem runEventCategoryFromString_toString (category : RunEventCategory) :
    runEventCategoryFromString category.toString = some category := by
  cases category <;> decide

/-! ### Writing -/

/-- A value, or `null`. -/
def orNull {α : Type} (toJson : α → Json F) : Option α → Json F
  | some a => toJson a
  | none => .null

def strings (ids : List Bytes) : Json F := .array (ids.map .string)

def TagScope.toJson (scope : TagScope) : Json F :=
  .object [(ascii "device_ids", strings scope.deviceIds),
    (ascii "provider_ids", strings scope.providerIds),
    (ascii "signal_ids", strings scope.signalIds)]

def AutomationVersionRecord.toJson (v : AutomationVersionRecord) : Json F :=
  .object [(ascii "digest", .string v.digest), (ascii "digest_scope", .string v.digestScope),
    (ascii "engine_kind", .string v.engineKind),
    (ascii "id", .string v.id)]

/-- `to_json(const RunEvent&)`. The members are in the order of their keys. -/
def RunEvent.toJson (event : RunEvent F) : Json F :=
  .object [(ascii "category", .string event.category.toString),
    (ascii "occurred_at_epoch_ms", .int event.occurredAtEpochMs.toNat),
    (ascii "payload", event.payload.1),
    (ascii "recorded_at_epoch_ms", .int event.recordedAtEpochMs.toNat),
    (ascii "run_id", .string event.runId),
    (ascii "schema_version", .int event.schemaVersion.toNat),
    (ascii "sequence", .int event.sequence.toNat),
    (ascii "type", .string event.type)]

/-- `to_json(const Run&)`. The label is written under its deprecated name too. -/
def Run.toJson (run : Run F) : Json F :=
  .object [
    (ascii "automation_version", orNull AutomationVersionRecord.toJson run.automationVersion),
    (ascii "close_reason", orNull (fun reason => .string reason.toString) run.closeReason),
    (ascii "ended_at_epoch_ms", orNull (fun ms => .int ms.toNat) run.endedAtEpochMs),
    (ascii "experiment_label", orNull .string run.label),
    (ascii "label", orNull .string run.label),
    (ascii "params", run.params.1),
    (ascii "polling_interval_ms", .int run.pollingIntervalMs.toInt),
    (ascii "run_id", .string run.runId),
    (ascii "runtime_version", .string run.runtimeVersion),
    (ascii "schema_version", .int run.schemaVersion.toNat),
    (ascii "started_at_epoch_ms", .int run.startedAtEpochMs.toNat),
    (ascii "state", .string run.state.toString),
    (ascii "tag_scope", run.tagScope.toJson)]

/-! ### Reading -/

/-- `value(key, default)` for a string. -/
def stringOr (j : Json F) (key default : Bytes) : Option Bytes :=
  match j.get? key with
  | none => some default
  | some (.string s) => some s
  | some _ => none

/-- `value(key, default)` for a number, before it is cast to the type of the field. -/
def numberOr (fl : FloatCodec F) (j : Json F) (key : Bytes) (default : Int) : Option Int :=
  match j.get? key with
  | none => some default
  | some (.int i) => some i
  | some (.float x) => some (fl.truncate x)
  | some (.bool b) => some (if b then 1 else 0)
  | some _ => none

/-- A member that is a string. -/
def string? (j : Json F) (key : Bytes) : Option Bytes :=
  match j.get? key with
  | some (.string s) => some s
  | _ => none

/-- A member that is an object. -/
def object? (j : Json F) (key : Bytes) : Option (Json F) :=
  match j.get? key with
  | some (.object fields) => some (.object fields)
  | _ => none

/-- A member that is a whole number that is not negative. -/
def unsigned? (j : Json F) (key : Bytes) : Option UInt64 :=
  match j.get? key with
  | some (.int i) => if 0 ≤ i then some (UInt64.ofInt i) else none
  | _ => none

def toStrVec : Json F → List Bytes
  | .array items => items.filterMap fun item =>
    match item with
    | .string s => some s
    | _ => none
  | _ => []

/-- `to_str_vec(j.value(key, nlohmann::json::array()))`. -/
def stringsAt (j : Json F) (key : Bytes) : List Bytes := toStrVec ((j.get? key).getD (.array []))

def isObject : Json F → Bool
  | .object _ => true
  | _ => false

variable {j : Json F} {key : Bytes}

theorem storable_get? {v : Json F} (hj : Storable j) (h : j.get? key = some v) : Storable v := by
  cases hj with
  | @object fields _ hfields =>
    obtain ⟨field, hfind, rfl⟩ := Option.map_eq_some_iff.mp h
    exact hfields field (List.mem_of_find?_eq_some hfind)
  | null | bool _ | int _ | float _ | string _ | array _ => cases h

/-- A member that is an object, as a value. An empty one otherwise. -/
def objectOr (j : Value F) (key : Bytes) : Value F :=
  match h : j.1.get? key with
  | some (.object fields) => ⟨.object fields, storable_get? j.2 h⟩
  | _ => emptyObject

def readTagScope (j : Json F) : TagScope where
  providerIds := stringsAt j (ascii "provider_ids")
  deviceIds := stringsAt j (ascii "device_ids")
  signalIds := stringsAt j (ascii "signal_ids")

def readAutomationVersion (j : Json F) : Option AutomationVersionRecord := do
  let engineKind ← stringOr j (ascii "engine_kind") []
  let id ← stringOr j (ascii "id") []
  let digest ← stringOr j (ascii "digest") []
  let digestScope ← stringOr j (ascii "digest_scope") []
  some { engineKind, id, digest, digestScope }

/-- `run_event_from_json`. -/
def runEventFromJson (fl : FloatCodec F) (j : Value F) : Option (RunEvent F) := do
  let runId ← string? j.1 (ascii "run_id")
  let category ← runEventCategoryFromString (← stringOr j.1 (ascii "category") (ascii "annotation"))
  let schemaVersion ← numberOr fl j.1 (ascii "schema_version") 1
  let sequence ← numberOr fl j.1 (ascii "sequence") 0
  let type ← stringOr j.1 (ascii "type") []
  let occurredAt ← numberOr fl j.1 (ascii "occurred_at_epoch_ms") 0
  let recordedAt ← numberOr fl j.1 (ascii "recorded_at_epoch_ms") 0
  some {
    schemaVersion := UInt32.ofInt schemaVersion
    runId
    sequence := UInt64.ofInt sequence
    category
    type
    occurredAtEpochMs := UInt64.ofInt occurredAt
    recordedAtEpochMs := UInt64.ofInt recordedAt
    payload := objectOr j (ascii "payload") }

/-- `run_from_json`. -/
def runFromJson (fl : FloatCodec F) (j : Value F) : Option (Run F) := do
  let runId ← string? j.1 (ascii "run_id")
  let schemaVersion ← numberOr fl j.1 (ascii "schema_version") 1
  let state ← stringOr j.1 (ascii "state") (ascii "open")
  let startedAt ← numberOr fl j.1 (ascii "started_at_epoch_ms") 0
  let runtimeVersion ← stringOr j.1 (ascii "runtime_version") []
  let pollingInterval ← numberOr fl j.1 (ascii "polling_interval_ms") 0
  let automationVersion ←
    match object? j.1 (ascii "automation_version") with
    | some v => (readAutomationVersion v).map some
    | none => some none
  some {
    schemaVersion := UInt32.ofInt schemaVersion
    runId
    state := if state = ascii "closed" then .closed else .opened
    startedAtEpochMs := UInt64.ofInt startedAt
    runtimeVersion
    pollingIntervalMs := Int32.ofInt pollingInterval
    params := objectOr j (ascii "params")
    -- a record from before the label has only the deprecated name
    label := (string? j.1 (ascii "label")).or (string? j.1 (ascii "experiment_label"))
    closeReason := (string? j.1 (ascii "close_reason")).bind closeReasonFromString
    endedAtEpochMs := unsigned? j.1 (ascii "ended_at_epoch_ms")
    tagScope := ((object? j.1 (ascii "tag_scope")).map readTagScope).getD {}
    automationVersion }

/-! ### What is written is a value -/

theorem fits_toNat (n : UInt64) : Json.fits (n.toNat : Int) := by
  have h := n.toNat_lt
  simp only [Json.fits, decide_eq_true_eq]
  omega

theorem fits_toNat32 (n : UInt32) : Json.fits (n.toNat : Int) := by
  have h := n.toNat_lt
  simp only [Json.fits, decide_eq_true_eq]
  omega

theorem fits_toInt (n : Int32) : Json.fits n.toInt := by
  have hlow := n.le_toInt
  have hhigh := n.toInt_lt
  simp only [Json.fits, decide_eq_true_eq]
  omega

theorem storable_orNull {α : Type} {toJson : α → Json F} (h : ∀ a, Storable (toJson a)) :
    ∀ a : Option α, Storable (orNull toJson a)
  | some a => h a
  | none => .null

theorem storable_strings (ids : List Bytes) : Storable (strings (F := F) ids) := by
  refine .array fun v hv => ?_
  obtain ⟨s, -, rfl⟩ := List.mem_map.mp hv
  exact .string s

theorem TagScope.storable (scope : TagScope) : Storable (scope.toJson (F := F)) := by
  refine .object (by simp only [List.map]; decide) ?_
  simp only [List.forall_mem_cons]
  exact ⟨storable_strings _, storable_strings _, storable_strings _, List.forall_mem_nil _⟩

theorem AutomationVersionRecord.storable (v : AutomationVersionRecord) :
    Storable (v.toJson (F := F)) := by
  refine .object (by simp only [List.map]; decide) ?_
  simp only [List.forall_mem_cons]
  exact ⟨.string _, .string _, .string _, .string _, List.forall_mem_nil _⟩

theorem RunEvent.storable (event : RunEvent F) : Storable event.toJson := by
  refine .object (by simp only [List.map]; decide) ?_
  simp only [List.forall_mem_cons]
  exact ⟨.string _, .int (fits_toNat _), event.payload.2, .int (fits_toNat _), .string _,
    .int (fits_toNat32 _), .int (fits_toNat _), .string _, List.forall_mem_nil _⟩

theorem Run.storable (run : Run F) : Storable run.toJson := by
  refine .object (by simp only [List.map]; decide) ?_
  simp only [List.forall_mem_cons]
  exact ⟨storable_orNull AutomationVersionRecord.storable _, storable_orNull (fun _ => .string _) _,
    storable_orNull (fun _ => .int (fits_toNat _)) _, storable_orNull (fun _ => .string _) _,
    storable_orNull (fun _ => .string _) _, run.params.2, .int (fits_toInt _), .string _, .string _,
    .int (fits_toNat32 _), .int (fits_toNat _), .string _, run.tagScope.storable,
    List.forall_mem_nil _⟩

/-! ### Reading what was written -/

/-- What a value for an object is read as. -/
def objectReread (fl : FloatFormat F) (v : Value F) : Value F :=
  if isObject v.1 then v.reread fl else emptyObject

/-- The event that the text of an event is read as. -/
def RunEvent.reread (fl : FloatFormat F) (event : RunEvent F) : RunEvent F :=
  { event with payload := objectReread fl event.payload }

/-- The run that the text of a run is read as. -/
def Run.reread (fl : FloatFormat F) (run : Run F) : Run F :=
  { run with params := objectReread fl run.params }

theorem asRead_object (fl : FloatFormat F) (v : Json F) : isObject (Json.asRead fl v) =
    isObject v := by
  cases v with
  | float x =>
    simp only [Json.asRead]
    split <;> rfl
  | null | bool _ | int _ | string _ | array _ | object _ => rfl

variable {fl : FloatFormat F}

theorem objectOr_reread {j v : Value F}
    (h : j.1.get? key = some (v.reread fl).1) : objectOr j key = objectReread fl v := by
  unfold objectOr objectReread
  rw [← asRead_object fl]
  split
  · rename_i fields hfields
    have hv : (v.reread fl).1 = .object fields := Option.some.inj (h.symm.trans hfields)
    have hread : Json.asRead fl v.1 = .object fields := hv
    have hobject : isObject (Json.asRead fl v.1) := by rw [hread]; rfl
    rw [if_pos hobject]
    exact Subtype.ext hv.symm
  · rename_i hother
    rw [if_neg]
    intro hobject
    cases hread : Json.asRead fl v.1 with
    | object fields => exact hother fields (h.trans (congrArg some hread))
    | null | bool _ | int _ | float _ | string _ | array _ =>
      rw [hread] at hobject
      cases hobject

theorem ofInt_toNat (n : UInt64) : UInt64.ofInt (n.toNat : Int) = n := by
  have h : ((n.toNat : Int) % 2 ^ 64).toNat = n.toNat := by
    have := n.toNat_lt
    omega
  rw [UInt64.ofInt, h, UInt64.ofNat_toNat]

theorem ofInt_toNat32 (n : UInt32) : UInt32.ofInt (n.toNat : Int) = n := by
  have h : ((n.toNat : Int) % 2 ^ 32).toNat = n.toNat := by
    have := n.toNat_lt
    omega
  rw [UInt32.ofInt, h, UInt32.ofNat_toNat]

theorem runEventFromJson_toJson (fl : FloatCodec F) (event : RunEvent F) :
    runEventFromJson fl (Value.reread fl.toFloatFormat ⟨event.toJson, event.storable⟩) =
      some (event.reread fl.toFloatFormat) := by
  generalize hj : Value.reread fl.toFloatFormat ⟨event.toJson, event.storable⟩ = j
  have hrunId : string? j.1 (ascii "run_id") = some event.runId := by rw [← hj]; rfl
  have hcategory : stringOr j.1 (ascii "category") (ascii "annotation") =
      some event.category.toString := by rw [← hj]; rfl
  have hschema : numberOr fl j.1 (ascii "schema_version") 1 =
      some (event.schemaVersion.toNat : Int) := by
    rw [← hj]
    rfl
  have hsequence : numberOr fl j.1 (ascii "sequence") 0 = some (event.sequence.toNat : Int) := by
    rw [← hj]
    rfl
  have htype : stringOr j.1 (ascii "type") [] = some event.type := by rw [← hj]; rfl
  have hoccurred : numberOr fl j.1 (ascii "occurred_at_epoch_ms") 0 =
      some (event.occurredAtEpochMs.toNat : Int) := by rw [← hj]; rfl
  have hrecorded : numberOr fl j.1 (ascii "recorded_at_epoch_ms") 0 =
      some (event.recordedAtEpochMs.toNat : Int) := by rw [← hj]; rfl
  have hpayload : objectOr j (ascii "payload") = objectReread fl.toFloatFormat event.payload :=
    objectOr_reread (by rw [← hj]; rfl)
  simp only [runEventFromJson, hrunId, hcategory, hschema, hsequence, htype, hoccurred, hrecorded,
    hpayload, runEventCategoryFromString_toString, ofInt_toNat, ofInt_toNat32, Option.bind_eq_bind,
    Option.bind_some]
  rfl

theorem toStrVec_strings (fl : FloatFormat F) (ids : List Bytes) :
    toStrVec (Json.asRead fl (strings ids)) = ids := by
  rw [strings, Json.asRead, Json.asReadItems_eq, List.map_map, toStrVec, List.filterMap_map]
  exact List.filterMap_some

theorem readTagScope_toJson (fl : FloatFormat F) (scope : TagScope) :
    readTagScope (Json.asRead fl scope.toJson) = scope := by
  have hproviders : stringsAt (Json.asRead fl scope.toJson) (ascii "provider_ids") =
      toStrVec (Json.asRead fl (strings scope.providerIds)) := rfl
  have hdevices : stringsAt (Json.asRead fl scope.toJson) (ascii "device_ids") =
      toStrVec (Json.asRead fl (strings scope.deviceIds)) := rfl
  have hsignals : stringsAt (Json.asRead fl scope.toJson) (ascii "signal_ids") =
      toStrVec (Json.asRead fl (strings scope.signalIds)) := rfl
  rw [readTagScope, hproviders, hdevices, hsignals, toStrVec_strings, toStrVec_strings,
    toStrVec_strings]

theorem readAutomationVersion_toJson (fl : FloatFormat F) (v : AutomationVersionRecord) :
    readAutomationVersion (Json.asRead fl v.toJson) = some v := rfl

theorem string?_orNull {α : Type} {text : α → Bytes}
    {a : Option α} (h : j.get? key = some (Json.asRead fl (orNull (fun x => .string (text x)) a))) :
    string? j key = a.map text := by
  cases a <;> simp [string?, h, orNull, Json.asRead]

theorem unsigned?_orNull {a : Option UInt64}
    (h : j.get? key = some (Json.asRead fl (orNull (fun ms => .int ms.toNat) a))) :
    unsigned? j key = a := by
  cases a <;> simp [unsigned?, h, orNull, Json.asRead, ofInt_toNat]

theorem object?_orNull {a : Option AutomationVersionRecord}
    (h : j.get? key = some (Json.asRead fl (orNull AutomationVersionRecord.toJson a))) :
    object? j key = a.map fun v => Json.asRead fl v.toJson := by
  cases a <;> simp [object?, h, orNull, Json.asRead, AutomationVersionRecord.toJson]

theorem runFromJson_toJson (fl : FloatCodec F) (run : Run F) :
    runFromJson fl (Value.reread fl.toFloatFormat ⟨run.toJson, run.storable⟩) =
      some (run.reread fl.toFloatFormat) := by
  generalize hj : Value.reread fl.toFloatFormat ⟨run.toJson, run.storable⟩ = j
  have hrunId : string? j.1 (ascii "run_id") = some run.runId := by rw [← hj]; rfl
  have hschema : numberOr fl j.1 (ascii "schema_version") 1 =
      some (run.schemaVersion.toNat : Int) := by
    rw [← hj]
    rfl
  have hstate : stringOr j.1 (ascii "state") (ascii "open") = some run.state.toString := by
    rw [← hj]
    rfl
  have hstarted : numberOr fl j.1 (ascii "started_at_epoch_ms") 0 =
      some (run.startedAtEpochMs.toNat : Int) := by
    rw [← hj]
    rfl
  have hversion : stringOr j.1 (ascii "runtime_version") [] = some run.runtimeVersion := by
    rw [← hj]
    rfl
  have hpolling : numberOr fl j.1 (ascii "polling_interval_ms") 0 =
      some run.pollingIntervalMs.toInt := by
    rw [← hj]
    rfl
  have hparams : objectOr j (ascii "params") = objectReread fl.toFloatFormat run.params :=
    objectOr_reread (by rw [← hj]; rfl)
  have hscope : object? j.1 (ascii "tag_scope") =
      some (Json.asRead fl.toFloatFormat run.tagScope.toJson) := by
    rw [← hj]
    rfl
  have hlabel : string? j.1 (ascii "label") = run.label.map id := string?_orNull (by rw [← hj]; rfl)
  have hdeprecated : string? j.1 (ascii "experiment_label") = run.label.map id :=
    string?_orNull (by rw [← hj]; rfl)
  have hreason : string? j.1 (ascii "close_reason") = run.closeReason.map CloseReason.toString :=
    string?_orNull (by rw [← hj]; rfl)
  have hended : unsigned? j.1 (ascii "ended_at_epoch_ms") = run.endedAtEpochMs :=
    unsigned?_orNull (by rw [← hj]; rfl)
  have hautomation : object? j.1 (ascii "automation_version") =
      run.automationVersion.map fun v => Json.asRead fl.toFloatFormat v.toJson :=
    object?_orNull (by rw [← hj]; rfl)
  have hreasons : (run.closeReason.map CloseReason.toString).bind closeReasonFromString =
      run.closeReason := by
    cases run.closeReason <;> simp [closeReasonFromString_toString]
  have hstates : (if run.state.toString = ascii "closed" then RunState.closed else .opened) =
      run.state := by
    cases run.state <;> decide
  simp only [runFromJson, hrunId, hschema, hstate, hstarted, hversion, hpolling, hparams, hscope,
    hlabel, hdeprecated, hreason, hreasons, hended, hautomation, hstates, ofInt_toNat,
      ofInt_toNat32,
    Int32.ofInt_toInt, readTagScope_toJson, Option.map_id, id, Option.or_self, Option.map_some,
    Option.getD_some, Option.bind_eq_bind, Option.bind_some]
  cases hauto : run.automationVersion <;>
    simp [readAutomationVersion_toJson, Run.reread, hauto]

/-! ### Texts that can be made -/

theorem isUtf8_reason (reason : CloseReason) : Utf8.valid reason.toString := by
  cases reason <;> decide

theorem isUtf8_closeReason (reason : Option CloseReason) :
    Json.isUtf8 (F := F) (orNull (fun r => .string r.toString) reason) = true := by
  cases reason with
  | none => rfl
  | some reason => exact isUtf8_reason reason

theorem isUtf8_state (state : RunState) : Utf8.valid state.toString := by
  cases state <;> decide

theorem isUtf8_category (category : RunEventCategory) : Utf8.valid category.toString := by
  cases category <;> decide

theorem Run.isUtf8_toJson (run : Run F) : Json.isUtf8 run.toJson ↔
    Json.isUtf8 (F := F) (orNull AutomationVersionRecord.toJson run.automationVersion) ∧
    Json.isUtf8 (F := F) (orNull .string run.label) ∧
    Json.isUtf8 run.params.1 ∧ Utf8.valid run.runId ∧
    Utf8.valid run.runtimeVersion ∧
    Json.isUtf8 (F := F) run.tagScope.toJson := by
  have hkeys : ∀ key ∈ [ascii "automation_version", ascii "close_reason", ascii "ended_at_epoch_ms",
      ascii "experiment_label", ascii "label", ascii "params", ascii "polling_interval_ms",
      ascii "run_id", ascii "runtime_version", ascii "schema_version", ascii "started_at_epoch_ms",
      ascii "state", ascii "tag_scope"], Utf8.valid key = true := by
    decide
  simp only [List.forall_mem_cons] at hkeys
  have hended : Json.isUtf8 (F := F) (orNull (fun ms => .int ms.toNat) run.endedAtEpochMs) =
      true := by
    cases run.endedAtEpochMs <;> rfl
  simp only [Run.toJson, Json.isUtf8, Json.isUtf8Fields, Json.isUtf8Field, hkeys,
    isUtf8_closeReason, isUtf8_state, hended, Bool.true_and, Bool.and_true, Bool.and_eq_true]
  tauto

theorem RunEvent.isUtf8_toJson (event : RunEvent F) : Json.isUtf8 event.toJson ↔
    Json.isUtf8 event.payload.1 ∧ Utf8.valid event.runId ∧
    Utf8.valid event.type := by
  have hkeys : ∀ key ∈ [ascii "category", ascii "occurred_at_epoch_ms", ascii "payload",
      ascii "recorded_at_epoch_ms", ascii "run_id", ascii "schema_version", ascii "sequence",
      ascii "type"], Utf8.valid key = true := by
    decide
  simp only [List.forall_mem_cons] at hkeys
  simp only [RunEvent.toJson, Json.isUtf8, Json.isUtf8Fields, Json.isUtf8Field, hkeys,
    isUtf8_category, Bool.true_and, Bool.and_true, Bool.and_eq_true]

theorem isUtf8_objectReread {v : Value F} (h : Json.isUtf8 v.1) :
    Json.isUtf8 (objectReread fl v).1 := by
  unfold objectReread
  split
  · exact (Json.isUtf8_asRead fl v.2).trans h
  · rfl

theorem Run.isUtf8_reread {run : Run F}
    (h : Json.isUtf8 run.toJson) : Json.isUtf8 (run.reread fl).toJson := by
  rw [Run.isUtf8_toJson] at h ⊢
  exact ⟨h.1, h.2.1, isUtf8_objectReread h.2.2.1, h.2.2.2⟩

/-! ### Lines -/

section
variable (fl : FloatCodec F)

/-- `to_json(run).dump()`. -/
def Run.line (run : Run F) : Option Bytes := Json.dump fl.toFloatFormat run.toJson

def RunEvent.line (event : RunEvent F) : Option Bytes := Json.dump fl.toFloatFormat event.toJson

theorem Run.line_isSome (run : Run F) : (run.line fl).isSome ↔ Json.isUtf8 run.toJson := by
  simp [Run.line, Json.dump]

theorem RunEvent.line_isSome (event : RunEvent F) :
    (event.line fl).isSome ↔ Json.isUtf8 event.toJson := by
  simp [RunEvent.line, Json.dump]

/-- What a line of the index is read as. -/
def readRun (line : Bytes) : Option (Run F) := (Value.parse fl.toFloatFormat line).bind
    (runFromJson fl)

/-- What a line of an event stream is read as. -/
def readRunEvent (line : Bytes) : Option (RunEvent F) :=
  (Value.parse fl.toFloatFormat line).bind (runEventFromJson fl)

end

end Anolis.Runs
