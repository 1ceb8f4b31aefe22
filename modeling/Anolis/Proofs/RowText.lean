import Anolis.Lib.JsonValues
import Anolis.Lib.LineProtocol
import Anolis.Provider.ProviderConfig
import Anolis.Registry.Discovery
import Anolis.Telemetry.LineProtocol

/-!
# Telemetry rows cannot be forged

Every formatter's row is read, by the tokenizer of `Lib.LineProtocol`, as the measurement, the keys
and the timestamp that the formatter means, with values that depend on one input string each
(`tagText`, `fieldText`). No row has a control byte, so no row is read as two.

A tag can be empty, and InfluxDB rejects a batch with such a row: the escaper deletes control bytes,
and nothing upstream asks that a device or a signal has an id (`device_without_id`). No tag is empty
exactly where each of the four strings has a byte that is kept (`no_empty_tag`).
-/

namespace Anolis.Proofs.RowText

open Lib Lib.LineProtocol Events Provider Registry Telemetry
open Lib.Json (dumpInt dumpNat isDigit)

/-! ### What an escaped string is read as -/

/-- What a byte of a tag is read as. The letters stand for a line feed, a carriage return and a
tab: a backslash takes the letter as it is. -/
def tagByte (b : UInt8) : Bytes :=
  if isTagSpecial b then [b]
  else if b = 0x0A then ascii "n"
  else if b = 0x0D then ascii "r"
  else if b = 0x09 then ascii "t"
  else if b < 0x20 ∨ b = 0x7F then []
  else [b]

/-- What a byte of a field string is read as. A backslash before a letter stands for itself. -/
def fieldByte (b : UInt8) : Bytes :=
  if isFieldSpecial b then [b] else escapeByte isFieldSpecial b

/-- The value of a tag. -/
def tagText (s : Bytes) : Bytes := s.flatMap tagByte

/-- The value of a field string. -/
def fieldText (s : Bytes) : Bytes := s.flatMap fieldByte

theorem encodes_tagByte (b : UInt8) :
    Encodes Place.unquoted (escapeByte isTagSpecial b) (tagByte b) := by
  unfold escapeByte tagByte
  split
  · exact encodes_escaped b
  rename_i hspecial
  split
  · exact encodes_escaped 0x6E
  split
  · exact encodes_escaped 0x72
  split
  · exact encodes_escaped 0x74
  split
  · exact .nil
  · simp only [isTagSpecial, Bool.or_eq_true, decide_eq_true_eq, not_or] at hspecial
    obtain ⟨⟨⟨hcomma, hequals⟩, hspace⟩, hslash⟩ := hspecial
    refine encodes_plain hslash ?_
    simp [isDelimiter, comma, equals, space, hcomma, hequals, hspace]

theorem encodes_fieldByte (b : UInt8) :
    Encodes Place.inQuotes (escapeByte isFieldSpecial b) (fieldByte b) := by
  unfold fieldByte escapeByte
  split
  · rename_i hspecial
    have hescaped := encodes_escapedInString b
    have hpair : b = quote ∨ b = backslash := by simpa [isFieldSpecial, quote,
      backslash] using hspecial
    rwa [if_pos hpair] at hescaped
  rename_i hspecial
  split
  · exact encodes_escapedInString 0x6E
  split
  · exact encodes_escapedInString 0x72
  split
  · exact encodes_escapedInString 0x74
  split
  · exact .nil
  · simp only [isFieldSpecial, Bool.or_eq_true, decide_eq_true_eq, not_or] at hspecial
    exact encodes_inString hspecial.2 hspecial.1

theorem clean_escapeByte (special : UInt8 → Bool) (b : UInt8)
    (hspecial : special b → clean [b]) : clean (escapeByte special b) := by
  unfold escapeByte
  split
  · rename_i hb
    exact hspecial hb
  split
  · rfl
  split
  · rfl
  split
  · rfl
  split
  · rfl
  · rename_i hcontrol
    simp only [not_or, UInt8.not_lt] at hcontrol
    simp [hcontrol]

theorem clean_escape {special : UInt8 → Bool} (hspecial : ∀ b, special b → clean [b])
    (s : Bytes) : clean (s.flatMap (escapeByte special)) := by
  induction s with
  | nil => rfl
  | cons b s ih =>
    rw [List.flatMap_cons, clean_append, clean_escapeByte special b (hspecial b), ih]
    rfl

/-- A tag's value, escaped. -/
def tagPart (s : Bytes) : Part Place.unquoted where
  text := escapeTag s
  value := tagText s
  encodes := .flatMap encodes_tagByte s
  isClean := clean_escape (fun b hb => by
    simp only [isTagSpecial, Bool.or_eq_true, decide_eq_true_eq] at hb
    rcases hb with ((rfl | rfl) | rfl) | rfl <;> rfl) s

/-- A field's string, escaped. -/
def stringValue (s : Bytes) : FieldText := .string {
  text := escapeFieldString s
  value := fieldText s
  encodes := .flatMap encodes_fieldByte s
  isClean := clean_escape (fun b hb => by
    simp only [isFieldSpecial, Bool.or_eq_true, decide_eq_true_eq] at hb
    rcases hb with rfl | rfl <;> rfl) s }

/-! ### What a number is read as -/

theorem bareByte_of_number {b : UInt8} (h : isNumberByte b) : bareByte b := by
  simp only [isNumberByte, isDigit, Bool.or_eq_true, decide_eq_true_eq] at h
  rcases h with ⟨hlow, hhigh⟩ | hsign
  · have hlow : 0x30 ≤ b.toNat := hlow
    have hhigh : b.toNat ≤ 0x39 := hhigh
    obtain ⟨n, hn⟩ : ∃ n, b = UInt8.ofNat n ∧ n < 0x3A ∧ 0x30 ≤ n :=
      ⟨b.toNat, by simp, by omega, hlow⟩
    obtain ⟨rfl, hlt, hle⟩ := hn
    interval_cases n <;> rfl
  · have hmem : b ∈ ascii "+-.e" := by simpa using hsign
    have hall : ∀ c ∈ ascii "+-.e", bareByte c = true := by decide +kernel
    exact hall b hmem

theorem bareByte_dumpInt (i : Int) : ∀ b ∈ dumpInt i, bareByte b := by
  have hnat : ∀ b ∈ dumpNat i.natAbs, bareByte b := by
    intro b hb
    unfold dumpNat at hb
    split at hb
    · simp only [List.mem_singleton] at hb
      subst hb
      rfl
    · obtain ⟨d, hd, rfl⟩ := List.mem_map.mp (List.mem_reverse.mp hb)
      have hlt : d < 10 := Nat.digits_lt_base (by decide) hd
      interval_cases d <;> rfl
  intro b hb
  unfold dumpInt at hb
  split at hb
  · rcases List.mem_cons.mp hb with rfl | hb
    · rfl
    · exact hnat b hb
  · exact hnat b hb

theorem dumpInt_ne (i : Int) : dumpInt i ≠ [] := by
  have hnat : dumpNat i.natAbs ≠ [] := by
    obtain ⟨b, rest, place, hb, -⟩ := Json.after_dumpNat i.natAbs
    rw [hb]
    exact List.cons_ne_nil b rest
  unfold dumpInt
  split
  · exact List.cons_ne_nil _ _
  · exact hnat

/-- An integer with the letter of its type. -/
def numberValue (i : Int) (letter : UInt8) (hletter : bareByte letter) : FieldText :=
  .other (dumpInt i ++ [letter]) (by simp) (by
    intro b hb
    rcases List.mem_append.mp hb with hb | hb
    · exact bareByte_dumpInt i b hb
    · rwa [List.mem_singleton.mp hb])

/-- An integer of a health row. -/
def integerValue (i : Int) : FieldText := numberValue i 0x69 rfl

def boolValue (b : Bool) : FieldText :=
  .other (boolText b) (by cases b <;> decide) (by cases b <;> decide +kernel)

theorem isTimestamp_dumpInt (i : Int) : isTimestamp (dumpInt i) := by
  simp only [isTimestamp, Bool.and_eq_true, bne_iff_ne, List.all_eq_true]
  refine ⟨dumpInt_ne i, fun b hb => ?_⟩
  have hbyte := bareByte_dumpInt i b hb
  simp only [bareByte, Bool.and_eq_true, bne_iff_ne] at hbyte
  exact ⟨hbyte.1.1.2, hbyte.2⟩

/-! ### The rows -/

/-- The value field of a state row. -/
def valueFields (dt : DoubleText) : TypedValue → List (Bytes × FieldValue)
  | .double .nan | .double (.inf _) => []
  | .double (.finite q) => [(ascii "value_double", .other (dt.toChars q))]
  | .int64 i => [(ascii "value_int", .other (integer i.toInt))]
  | .uint64 u => [(ascii "value_uint", .other (dumpInt u.toNat ++ ascii "u"))]
  | .bool b => [(ascii "value_bool", .other (boolText b))]
  | .string s => [(ascii "value_string", .string (fieldText s))]

/-- What a state row says. -/
def stateRow (dt : DoubleText) (event : StateUpdateEvent) (runtimeName : Bytes) : RowData where
  measurement := ascii "anolis_signal"
  tags := [(ascii "runtime_name", tagText runtimeName),
    (ascii "provider_id", tagText event.providerId), (ascii "device_id", tagText event.deviceId),
    (ascii "signal_id", tagText event.signalId)]
  fields := valueFields dt event.value ++
    [(ascii "quality", .string (qualityToString event.quality))]
  timestamp := dumpInt event.timestampMs.toInt

/-- What a mode row says. -/
def modeRow (event : ModeChangeEvent) (runtimeName : Bytes) : RowData where
  measurement := ascii "mode_change"
  tags := [(ascii "runtime_name", tagText runtimeName)]
  fields := [(ascii "previous_mode", .string (fieldText event.previousMode)),
    (ascii "new_mode", .string (fieldText event.newMode))]
  timestamp := dumpInt event.timestampMs.toInt

/-- What a parameter row says. -/
def parameterRow (event : ParameterChangeEvent) (runtimeName : Bytes) : RowData where
  measurement := ascii "parameter_change"
  tags := [(ascii "runtime_name", tagText runtimeName),
    (ascii "parameter_name", tagText event.parameterName)]
  fields := [(ascii "old_value", .string (fieldText event.oldValueStr)),
    (ascii "new_value", .string (fieldText event.newValueStr))]
  timestamp := dumpInt event.timestampMs.toInt

/-- The fields of the metrics that are integers. -/
def intFields (metrics : Metrics) (keys : List Bytes) : List (Bytes × FieldValue) :=
  keys.filterMap fun key =>
    ((metrics.find key).bind parseMetricInt).map fun value => (key, .other (integer value))

/-- The fields of the metrics that are booleans. -/
def boolFields (metrics : Metrics) (keys : List Bytes) : List (Bytes × FieldValue) :=
  keys.filterMap fun key =>
    ((metrics.find key).bind parseMetricBool).map fun value => (key, .other (boolText value))

/-- The fields of the metrics that are strings. -/
def stringFields (metrics : Metrics) (keys : List Bytes) : List (Bytes × FieldValue) :=
  keys.filterMap fun key =>
    (metricString metrics key).map fun value => (key, .string (fieldText value))

/-- What a provider's row says. -/
def providerRow (ps : ProviderHealthSnapshot) (runtimeName : Bytes) (timestampMs : Int64) :
    RowData where
  measurement := ascii "anolis_provider_health"
  tags := [(ascii "runtime_name", tagText runtimeName), (ascii "provider_id", tagText
    ps.providerId)]
  fields := [(ascii "state", .string (fieldText ps.state)),
    (ascii "lifecycle_state", .string (fieldText ps.lifecycleState)),
    (ascii "degraded", .other (boolText ps.degraded)),
    (ascii "failed_device_count", .other (integer ps.failedDeviceCount.toInt)),
    (ascii "device_count", .other (integer ps.deviceCount.toNat)),
    (ascii "uptime_seconds", .other (integer ps.uptimeSeconds.toInt)),
    (ascii "supervision_enabled", .other (boolText ps.supervision.enabled)),
    (ascii "attempt_count", .other (integer ps.supervision.attemptCount.toInt)),
    (ascii "crash_detected", .other (boolText ps.supervision.crashDetected)),
    (ascii "circuit_open", .other (boolText ps.supervision.circuitOpen))] ++
    ps.reported.elim [] fun metrics => intFields metrics providerIntKeys
  timestamp := dumpInt timestampMs.toInt

/-- What a device's row says. -/
def deviceRow (ps : ProviderHealthSnapshot) (ds : DeviceHealthSnapshot) (runtimeName : Bytes)
    (timestampMs : Int64) : RowData where
  measurement := ascii "anolis_device_health"
  tags := [(ascii "runtime_name", tagText runtimeName), (ascii "provider_id", tagText
    ps.providerId),
    (ascii "device_id", tagText ds.deviceId)]
  fields := [(ascii "health", .string (fieldText ds.health)),
      (ascii "registered", .other (boolText ds.registered))] ++
    (if 0 < ds.lastPollMs then
      [(ascii "staleness_ms", .other (integer ds.stalenessMs.toNat)),
        (ascii "stale_signal_count", .other (integer ds.staleSignalCount.toNat)),
        (ascii "fault_signal_count", .other (integer ds.faultSignalCount.toNat))]
      else []) ++
    (if ds.typeVersion ≠ [] then [(ascii "type_version", .string (fieldText ds.typeVersion))]
      else []) ++
    ds.reported.elim [] fun metrics =>
      intFields metrics deviceIntKeys ++ boolFields metrics deviceBoolKeys ++
        stringFields metrics deviceStringKeys
  timestamp := dumpInt timestampMs.toInt

theorem reads_mode (event : ModeChangeEvent) (runtimeName : Bytes) :
    Reads (formatModeChangeLineProtocol event runtimeName) (modeRow event runtimeName) := by
  have htags := (ReadsTags.measurement (.of (ascii "mode_change") rfl)).tag
    (.of (ascii "runtime_name") rfl) rfl (tagPart runtimeName)
  have hfields := (htags.field (.of (ascii "previous_mode") rfl) rfl
    (stringValue event.previousMode)).field (.of (ascii "new_mode") rfl) rfl
    (stringValue event.newMode)
  exact hfields.timestamp (isTimestamp_dumpInt event.timestampMs.toInt)

theorem reads_parameter (event : ParameterChangeEvent) (runtimeName : Bytes) :
    Reads (formatParameterChangeLineProtocol event runtimeName)
      (parameterRow event runtimeName) := by
  have htags := ((ReadsTags.measurement (.of (ascii "parameter_change") rfl)).tag
    (.of (ascii "runtime_name") rfl) rfl (tagPart runtimeName)).tag
    (.of (ascii "parameter_name") rfl) rfl (tagPart event.parameterName)
  have hfields := (htags.field (.of (ascii "old_value") rfl) rfl
    (stringValue event.oldValueStr)).field (.of (ascii "new_value") rfl) rfl
    (stringValue event.newValueStr)
  exact hfields.timestamp (isTimestamp_dumpInt event.timestampMs.toInt)

/-- A value field is one that is read, and does not end in a space; or there is none. -/
theorem valueField_cases (dt : DoubleText) (value : TypedValue) :
    valueField dt value = [] ∧ valueFields dt value = [] ∨
    ∃ (k : Key) (v : FieldText), valueField dt value = k.text ++ [equals] ++ v.text ∧
      valueFields dt value = [(k.text, v.value)] ∧ v.text ≠ [] ∧ v.text.getLast? ≠ some space := by
  have hbare : ∀ text : Bytes, (∀ b ∈ text, bareByte b) → text.getLast? ≠ some space :=
    fun text hbytes hlast => absurd (hbytes _ (List.mem_of_getLast? hlast)) (by decide)
  cases value with
  | double d => cases d with
    | nan | inf negative => exact .inl ⟨rfl, rfl⟩
    | finite q =>
      have hbytes : ∀ b ∈ dt.toChars q, bareByte b := fun b hb =>
        bareByte_of_number (dt.toChars_bytes q b hb)
      exact .inr ⟨.of (ascii "value_double") rfl, .other _ (dt.toChars_ne q) hbytes, rfl, rfl,
        dt.toChars_ne q, hbare _ hbytes⟩
  | int64 i =>
    exact .inr ⟨.of (ascii "value_int") rfl, integerValue i.toInt, rfl, rfl,
      by simp [integerValue, numberValue, FieldText.other],
      by simp [integerValue, numberValue, FieldText.other, space]⟩
  | uint64 u =>
    exact .inr ⟨.of (ascii "value_uint") rfl, numberValue u.toNat 0x75 rfl, rfl, rfl,
      by simp [numberValue, FieldText.other], by simp [numberValue, FieldText.other, space]⟩
  | bool b =>
    exact .inr ⟨.of (ascii "value_bool") rfl, boolValue b, rfl, rfl,
      by cases b <;> decide, by cases b <;> decide⟩
  | string s =>
    refine .inr ⟨.of (ascii "value_string") rfl, stringValue s, rfl, rfl, List.cons_ne_nil _ _, ?_⟩
    show (quote :: (escapeFieldString s ++ [quote])).getLast? ≠ some space
    rw [← List.cons_append, List.getLast?_concat]
    decide

/-- The tags of a state row. -/
theorem reads_stateTags (event : StateUpdateEvent) (runtimeName : Bytes) :
    ReadsTags (ascii "anolis_signal" ++ ascii ",runtime_name=" ++ escapeTag runtimeName ++
      ascii ",provider_id=" ++ escapeTag event.providerId ++ ascii ",device_id=" ++
      escapeTag event.deviceId ++ ascii ",signal_id=" ++ escapeTag event.signalId)
      { measurement := ascii "anolis_signal"
        tags := [(ascii "runtime_name", tagText runtimeName),
          (ascii "provider_id", tagText event.providerId),
          (ascii "device_id", tagText event.deviceId),
          (ascii "signal_id", tagText event.signalId)] } :=
  ((((ReadsTags.measurement (.of (ascii "anolis_signal") rfl)).tag
    (.of (ascii "runtime_name") rfl) rfl (tagPart runtimeName)).tag
    (.of (ascii "provider_id") rfl) rfl (tagPart event.providerId)).tag
    (.of (ascii "device_id") rfl) rfl (tagPart event.deviceId)).tag
    (.of (ascii "signal_id") rfl) rfl (tagPart event.signalId)

theorem reads_state (dt : DoubleText) (event : StateUpdateEvent) (runtimeName : Bytes) :
    Reads (formatLineProtocol dt event runtimeName) (stateRow dt event runtimeName) := by
  have htags := reads_stateTags event runtimeName
  have hstamp := isTimestamp_dumpInt event.timestampMs.toInt
  -- the four texts of the quality need no escape
  have hquality : fieldText (qualityToString event.quality) = qualityToString event.quality ∧
      escapeFieldString (qualityToString event.quality) = qualityToString event.quality := by
    cases event.quality <;> exact ⟨rfl, rfl⟩
  have htext : ∀ current : Bytes, current ++ ascii "quality=\"" ++ qualityToString event.quality ++
      ascii "\"" = current ++ ascii "quality=" ++ quoted (qualityToString event.quality) := by
    intro current
    rw [quoted, hquality.2]
    simp only [List.append_assoc]
    rfl
  have hread : (stringValue (qualityToString event.quality)).value =
      .string (qualityToString event.quality) := congrArg _ hquality.1
  unfold formatLineProtocol stateRow
  simp only [htext]
  generalize ascii "anolis_signal" ++ ascii ",runtime_name=" ++ escapeTag runtimeName ++
    ascii ",provider_id=" ++ escapeTag event.providerId ++ ascii ",device_id=" ++
    escapeTag event.deviceId ++ ascii ",signal_id=" ++ escapeTag event.signalId = before at htags ⊢
  rcases valueField_cases dt event.value with ⟨hnone, hfields⟩ | ⟨k, v, hvalue, hfields, hne, hlast⟩
  · -- the quality is the first field
    have hspace : (before ++ ascii " " ++ []).getLast? = some 0x20 := by simp [ascii]
    rw [hnone, hfields, if_neg (not_not_intro hspace), List.append_nil,
      List.append_assoc before (ascii " ")]
    have hrow := (htags.field (.of (ascii "quality") rfl) rfl
      (stringValue (qualityToString event.quality))).timestamp hstamp
    rw [hread] at hrow
    exact hrow
  · have hend : (before ++ ascii " " ++ (k.text ++ [equals] ++ v.text)).getLast? ≠ some 0x20 := by
      rw [List.getLast?_append_of_ne_nil _ (by simp), List.getLast?_append_of_ne_nil _ hne]
      exact hlast
    rw [hvalue, hfields, if_pos hend, List.append_assoc _ (ascii ","),
      List.append_assoc before, ← List.append_assoc (ascii " "), ← List.append_assoc before]
    have hrow := ((htags.field k rfl v).field (.of (ascii "quality") rfl) rfl
      (stringValue (qualityToString event.quality))).timestamp hstamp
    rw [hread] at hrow
    exact hrow

theorem adds_metric {key : Bytes} (hkey : key.all keyByte) (v : FieldText) :
    Adds (ascii "," ++ key ++ ascii "=" ++ v.text) [(key, v.value)] :=
  Adds.field (.of key hkey) rfl v

theorem adds_ints (metrics : Metrics) (keys : List Bytes) (h : ∀ k ∈ keys, k.all keyByte) :
    Adds (appendInts metrics keys) (intFields metrics keys) := by
  refine Adds.flatMap fun key hkey => ?_
  cases (metrics.find key).bind parseMetricInt with
  | none => exact .nil
  | some value => exact adds_metric (h key hkey) (integerValue value)

theorem adds_bools (metrics : Metrics) (keys : List Bytes) (h : ∀ k ∈ keys, k.all keyByte) :
    Adds (appendBools metrics keys) (boolFields metrics keys) := by
  refine Adds.flatMap fun key hkey => ?_
  cases (metrics.find key).bind parseMetricBool with
  | none => exact .nil
  | some value => exact adds_metric (h key hkey) (boolValue value)

theorem adds_strings (metrics : Metrics) (keys : List Bytes)
    (h : ∀ k ∈ keys, k.all keyByte) :
    Adds (appendAllowlistedStrings metrics keys) (stringFields metrics keys) := by
  refine Adds.flatMap fun key hkey => ?_
  cases metricString metrics key with
  | none => exact .nil
  | some value => exact adds_metric (h key hkey) (stringValue value)

theorem reads_provider (ps : ProviderHealthSnapshot) (runtimeName : Bytes) (timestampMs : Int64) :
    Reads (formatProviderHealth ps runtimeName timestampMs)
      (providerRow ps runtimeName timestampMs) := by
  have htags := ((ReadsTags.measurement (.of (ascii "anolis_provider_health") rfl)).tag
    (.of (ascii "runtime_name") rfl) rfl (tagPart runtimeName)).tag
    (.of (ascii "provider_id") rfl) rfl (tagPart ps.providerId)
  have hfields := (((((((((htags.field (.of (ascii "state") rfl) rfl (stringValue ps.state)).field
    (.of (ascii "lifecycle_state") rfl) rfl (stringValue ps.lifecycleState)).field
    (.of (ascii "degraded") rfl) rfl (boolValue ps.degraded)).field
    (.of (ascii "failed_device_count") rfl) rfl (integerValue ps.failedDeviceCount.toInt)).field
    (.of (ascii "device_count") rfl) rfl (integerValue ps.deviceCount.toNat)).field
    (.of (ascii "uptime_seconds") rfl) rfl (integerValue ps.uptimeSeconds.toInt)).field
    (.of (ascii "supervision_enabled") rfl) rfl (boolValue ps.supervision.enabled)).field
    (.of (ascii "attempt_count") rfl) rfl (integerValue ps.supervision.attemptCount.toInt)).field
    (.of (ascii "crash_detected") rfl) rfl (boolValue ps.supervision.crashDetected)).field
    (.of (ascii "circuit_open") rfl) rfl (boolValue ps.supervision.circuitOpen)
  have hmetrics :
      Adds (ps.reported.elim [] fun metrics => appendAllowlistedMetrics metrics providerIntKeys [])
        (ps.reported.elim [] fun metrics => intFields metrics providerIntKeys) := by
    cases ps.reported with
    | none => exact .nil
    | some metrics =>
      have hints := adds_ints metrics providerIntKeys (by decide)
      simpa [appendAllowlistedMetrics, appendBools] using hints
  exact (hmetrics _ _ hfields).timestamp (isTimestamp_dumpInt timestampMs.toInt)

theorem reads_device (ps : ProviderHealthSnapshot) (ds : DeviceHealthSnapshot)
    (runtimeName : Bytes) (timestampMs : Int64) :
    Reads (formatDeviceHealth ps ds runtimeName timestampMs)
      (deviceRow ps ds runtimeName timestampMs) := by
  have htags := (((ReadsTags.measurement (.of (ascii "anolis_device_health") rfl)).tag
    (.of (ascii "runtime_name") rfl) rfl (tagPart runtimeName)).tag
    (.of (ascii "provider_id") rfl) rfl (tagPart ps.providerId)).tag
    (.of (ascii "device_id") rfl) rfl (tagPart ds.deviceId)
  have hfields := (htags.field (.of (ascii "health") rfl) rfl (stringValue ds.health)).field
    (.of (ascii "registered") rfl) rfl (boolValue ds.registered)
  have hpolled : Adds _ _ := ((Adds.field (.of (ascii "staleness_ms") rfl) rfl
    (integerValue ds.stalenessMs.toNat)).append (Adds.field (.of (ascii "stale_signal_count") rfl)
    rfl (integerValue ds.staleSignalCount.toNat))).append (Adds.field
    (.of (ascii "fault_signal_count") rfl) rfl (integerValue ds.faultSignalCount.toNat))
  have hversion : Adds _ _ := Adds.field (.of (ascii "type_version") rfl) rfl
    (stringValue ds.typeVersion)
  have hmetrics : Adds (ds.reported.elim [] fun metrics =>
      appendAllowlistedMetrics metrics deviceIntKeys deviceBoolKeys ++
        appendAllowlistedStrings metrics deviceStringKeys)
      (ds.reported.elim [] fun metrics => intFields metrics deviceIntKeys ++
        boolFields metrics deviceBoolKeys ++ stringFields metrics deviceStringKeys) := by
    cases ds.reported with
    | none => exact .nil
    | some metrics =>
      have hints := adds_ints metrics deviceIntKeys (by decide)
      have hbools := adds_bools metrics deviceBoolKeys (by decide)
      exact (hints.append hbools).append (adds_strings metrics deviceStringKeys (by decide))
  have hall := hmetrics _ _ (Adds.when (ds.typeVersion ≠ []) hversion _ _
    (Adds.when (0 < ds.lastPollMs) hpolled _ _ hfields))
  exact hall.timestamp (isTimestamp_dumpInt timestampMs.toInt)

/-- No telemetry row can be forged. For every state, mode and parameter event and every provider
health snapshot, whatever bytes their strings have: no row has a byte below 0x20 or a 0x7F, and the
tokenizer reads each as the row that is meant, with its measurement, tag keys, field keys and
timestamp, and with the value of each tag and string field made of its own string. -/
theorem rows_cannot_be_forged (dt : DoubleText) (runtimeName : Bytes) :
    (∀ event, Reads (formatLineProtocol dt event runtimeName) (stateRow dt event runtimeName)) ∧
    (∀ event, Reads (formatModeChangeLineProtocol event runtimeName) (modeRow event runtimeName)) ∧
    (∀ event, Reads (formatParameterChangeLineProtocol event runtimeName)
      (parameterRow event runtimeName)) ∧
    ∀ ps timestampMs, List.Forall₂ Reads (formatHealthLines ps runtimeName timestampMs)
      (providerRow ps runtimeName timestampMs ::
        ps.devices.map fun ds => deviceRow ps ds runtimeName timestampMs) := by
  refine ⟨fun event => reads_state dt event runtimeName, fun event => reads_mode event runtimeName,
    fun event => reads_parameter event runtimeName, fun ps timestampMs => ?_⟩
  refine .cons (reads_provider ps runtimeName timestampMs) ?_
  rw [List.forall₂_map_left_iff, List.forall₂_map_right_iff, List.forall₂_same]
  exact fun ds _ => reads_device ps ds runtimeName timestampMs

/-! ### Empty tags -/

/-- The runtime's name in the rows. -/
def runtimeNameTag (name : Bytes) : Bytes := if name.isEmpty then ascii "default" else name

/-- A byte that `escape_tag` does not delete. -/
def Keeps (b : UInt8) : Prop := 0x20 ≤ b ∧ b ≠ 0x7F ∨ b ∈ ascii "\n\r\t"

/-- A string with a byte that `escape_tag` does not delete. -/
def Visible (s : Bytes) : Prop := ∃ b ∈ s, Keeps b

theorem keeps_iff {b : UInt8} : Keeps b ↔ tagByte b ≠ [] := by
  have hletters : b ∈ ascii "\n\r\t" ↔ b = 0x0A ∨ b = 0x0D ∨ b = 0x09 := by simp [ascii]
  unfold Keeps tagByte
  rw [hletters]
  split_ifs with hspecial hn hr ht hcontrol
  · -- the special bytes are printable
    have hpair : 0x20 ≤ b ∧ b ≠ 0x7F := by
      simp only [isTagSpecial, Bool.or_eq_true, decide_eq_true_eq] at hspecial
      rcases hspecial with ((rfl | rfl) | rfl) | rfl <;> decide
    simp [hpair]
  · simp [hn, ascii]
  · simp [hr, ascii]
  · simp [ht, ascii]
  · rcases hcontrol with hlow | rfl
    · simp [hn, hr, ht, UInt8.not_le.mpr hlow]
    · decide
  · obtain ⟨hlow, hdel⟩ := not_or.mp hcontrol
    simp [UInt8.not_lt.mp hlow, hdel]

/-- A tag has a value exactly where its string is visible. -/
theorem tagText_ne_nil {s : Bytes} : tagText s ≠ [] ↔ Visible s := by
  simp [tagText, Visible, keeps_iff, List.flatMap_eq_nil_iff]

theorem visible_runtimeNameTag {name : Bytes} :
    Visible (runtimeNameTag name) ↔ name = [] ∨ Visible name := by
  unfold runtimeNameTag
  cases name with
  | nil => exact iff_of_true ⟨0x64, by decide, .inl (by decide)⟩ (.inl rfl)
  | cons b name => simp

/-- Every tag of a state row has a value exactly where the runtime has no name or a visible one, and
the three ids are visible. -/
theorem no_empty_tag (dt : DoubleText) (name : Bytes) (event : StateUpdateEvent) :
    (∃ row, tokenize (formatLineProtocol dt event (runtimeNameTag name)) = some row ∧
      ∀ tag ∈ row.tags, tag.2 ≠ []) ↔
    (name = [] ∨ Visible name) ∧ Visible event.providerId ∧ Visible event.deviceId ∧
      Visible event.signalId := by
  rw [(reads_state dt event (runtimeNameTag name)).tokens]
  simp only [Option.some.injEq, exists_eq_left', stateRow, List.forall_mem_cons, List.not_mem_nil,
    false_implies, implies_true, and_true, tagText_ne_nil, visible_runtimeNameTag]

/-- A text for every double. -/
def sameText : DoubleText := ⟨fun _ => ascii "0", fun _ => by decide, fun _ => by decide +kernel⟩

theorem no_empty_tag_pump : ∃ row, tokenize (formatLineProtocol sameText
    ⟨ascii "sim", ascii "pump", ascii "level", .bool true, .ok, 5⟩ (runtimeNameTag [])) = some row ∧
      ∀ tag ∈ row.tags, tag.2 ≠ [] :=
  (no_empty_tag sameText [] _).mpr ⟨Or.inl rfl, ⟨0x73, by decide, Or.inl (by decide)⟩,
    ⟨0x70, by decide, Or.inl (by decide)⟩, ⟨0x6C, by decide, Or.inl (by decide)⟩⟩

/-- The configuration is accepted, and so is a provider's device without an id whose signal has an
id of one control byte. The row of that signal has two empty tags. -/
theorem device_without_id : validateProviders [{ id := "sim", command := "sim" }] = .ok () ∧
    (∃ devices, inspect "sim" (.ok [("", some { signals := [⟨"\x01", true⟩] })]) = .ok devices ∧
      ∃ d ∈ devices, d.providerId = "sim" ∧ d.deviceId = "" ∧ ⟨"\x01", true⟩ ∈ d.signalsById) ∧
    (tokenize (formatLineProtocol sameText ⟨ascii "sim", [], [0x01], .bool true, .ok, 5⟩
      (runtimeNameTag []))).map RowData.tags = some [(ascii "runtime_name", ascii "default"),
        (ascii "provider_id", ascii "sim"), (ascii "device_id", []), (ascii "signal_id", [])] := by
  refine ⟨by decide, ⟨_, rfl, _, List.mem_singleton_self _, rfl, rfl, by decide⟩, ?_⟩
  rw [(reads_state sameText _ _).tokens]
  rfl

end Anolis.Proofs.RowText
