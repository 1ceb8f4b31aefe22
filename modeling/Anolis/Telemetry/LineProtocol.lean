import Anolis.Events.EventEmitter
import Anolis.Lib.Json

/-!
# How telemetry rows are written

The escapers and formatters of `influx_sink.hpp` and the health rows of `health_line_protocol.hpp`.
A `std::string` is a list of bytes. Integers are written in decimal, as a stream writes them in the
classic locale; `std::to_chars` is a parameter (`DoubleText`).

Left out: of an event and of a health snapshot, what no formatter reads.
-/

namespace Anolis.Telemetry

open Lib Lib.Json Events

/-! ### Escaping -/

/-- The loop body of the two escapers. They differ in the bytes that get a backslash. -/
def escapeByte (special : UInt8 → Bool) (b : UInt8) : Bytes :=
  if special b then [0x5C, b]
  else if b = 0x0A then ascii "\\n"
  else if b = 0x0D then ascii "\\r"
  else if b = 0x09 then ascii "\\t"
  else if b < 0x20 ∨ b = 0x7F then []
  else [b]

/-- A comma, an equals sign, a space or a backslash. -/
def isTagSpecial (b : UInt8) : Bool := b = 0x2C || b = 0x3D || b = 0x20 || b = 0x5C

/-- A quote or a backslash. -/
def isFieldSpecial (b : UInt8) : Bool := b = 0x22 || b = 0x5C

/-- `escape_tag`. -/
def escapeTag (s : Bytes) : Bytes := s.flatMap (escapeByte isTagSpecial)

/-- `escape_field_string`. -/
def escapeFieldString (s : Bytes) : Bytes := s.flatMap (escapeByte isFieldSpecial)

/-! ### Events -/

/-- A byte of the text of a number. -/
def isNumberByte (b : UInt8) : Bool := isDigit b || (ascii "+-.e").contains b

/-- `std::to_chars` of a finite double: some text of a number. -/
structure DoubleText where
  toChars : Rat → Bytes
  toChars_ne : ∀ q, toChars q ≠ []
  toChars_bytes : ∀ q, ∀ b ∈ toChars q, isNumberByte b

/-- `StateUpdateEvent`. -/
structure StateUpdateEvent where
  providerId : Bytes
  deviceId : Bytes
  signalId : Bytes
  value : TypedValue
  quality : Quality
  timestampMs : Int64

/-- `ModeChangeEvent`. -/
structure ModeChangeEvent where
  previousMode : Bytes
  newMode : Bytes
  timestampMs : Int64

/-- `ParameterChangeEvent`. -/
structure ParameterChangeEvent where
  parameterName : Bytes
  oldValueStr : Bytes
  newValueStr : Bytes
  timestampMs : Int64

/-- `quality_to_string`. -/
def qualityToString : Quality → Bytes
  | .ok => ascii "OK"
  | .stale => ascii "STALE"
  | .unavailable => ascii "UNAVAILABLE"
  | .fault => ascii "FAULT"

/-- A `bool` as it is written. -/
def boolText (b : Bool) : Bytes := if b then ascii "true" else ascii "false"

/-- A quoted field value. -/
def quoted (s : Bytes) : Bytes := ascii "\"" ++ escapeFieldString s ++ ascii "\""

/-- An integer field value. -/
def integer (i : Int) : Bytes := dumpInt i ++ ascii "i"

/-- The value field of a state row. A NaN and an infinity have none. -/
def valueField (dt : DoubleText) : TypedValue → Bytes
  | .double .nan | .double (.inf _) => []
  | .double (.finite q) => ascii "value_double=" ++ dt.toChars q
  | .int64 i => ascii "value_int=" ++ integer i.toInt
  | .uint64 u => ascii "value_uint=" ++ (dumpInt u.toNat ++ ascii "u")
  | .bool b => ascii "value_bool=" ++ boolText b
  | .string s => ascii "value_string=" ++ quoted s

/-- `format_line_protocol`. -/
def formatLineProtocol (dt : DoubleText) (event : StateUpdateEvent)
    (runtimeName : Bytes := ascii "default") : Bytes :=
  let tags := ascii "anolis_signal" ++ ascii ",runtime_name=" ++ escapeTag runtimeName ++
    ascii ",provider_id=" ++ escapeTag event.providerId ++
    ascii ",device_id=" ++ escapeTag event.deviceId ++
    ascii ",signal_id=" ++ escapeTag event.signalId
  let current := tags ++ ascii " " ++ valueField dt event.value
  -- a separator, where a value field was written
  let current := if current.getLast? ≠ some 0x20 then current ++ ascii "," else current
  current ++ ascii "quality=\"" ++ qualityToString event.quality ++ ascii "\"" ++
    ascii " " ++ dumpInt event.timestampMs.toInt

/-- `format_mode_change_line_protocol`. -/
def formatModeChangeLineProtocol (event : ModeChangeEvent)
    (runtimeName : Bytes := ascii "default") : Bytes :=
  ascii "mode_change,runtime_name=" ++ escapeTag runtimeName ++
    ascii " previous_mode=" ++ quoted event.previousMode ++
    ascii ",new_mode=" ++ quoted event.newMode ++
    ascii " " ++ dumpInt event.timestampMs.toInt

/-- `format_parameter_change_line_protocol`. -/
def formatParameterChangeLineProtocol (event : ParameterChangeEvent)
    (runtimeName : Bytes := ascii "default") : Bytes :=
  ascii "parameter_change,runtime_name=" ++ escapeTag runtimeName ++
    ascii ",parameter_name=" ++ escapeTag event.parameterName ++
    ascii " old_value=" ++ quoted event.oldValueStr ++
    ascii ",new_value=" ++ quoted event.newValueStr ++
    ascii " " ++ dumpInt event.timestampMs.toInt

/-! ### Health snapshots -/

/-- The metrics that a provider reports: a map from strings to strings. -/
abbrev Metrics := List (Bytes × Bytes)

/-- `metrics.find`. -/
def Metrics.find (metrics : Metrics) (key : Bytes) : Option Bytes :=
  (metrics.find? fun entry => entry.1 = key).map Prod.snd

/-- `DeviceHealthSnapshot`. `reported` is the metrics of the report, where there is one. -/
structure DeviceHealthSnapshot where
  deviceId : Bytes
  health : Bytes := ascii "UNKNOWN"
  lastPollMs : UInt64 := 0
  stalenessMs : UInt64 := 0
  registered : Bool := true
  staleSignalCount : UInt32 := 0
  faultSignalCount : UInt32 := 0
  typeVersion : Bytes := []
  reported : Option Metrics := none

/-- `SupervisionView`. -/
structure SupervisionView where
  enabled : Bool := false
  attemptCount : Int32 := 0
  crashDetected : Bool := false
  circuitOpen : Bool := false

/-- `ProviderHealthSnapshot`. -/
structure ProviderHealthSnapshot where
  providerId : Bytes
  state : Bytes
  lifecycleState : Bytes
  uptimeSeconds : Int64 := 0
  deviceCount : UInt64 := 0
  degraded : Bool := false
  failedDeviceCount : Int32 := 0
  reported : Option Metrics := none
  supervision : SupervisionView := {}
  devices : List DeviceHealthSnapshot := []

/-- `parse_metric_int`. A number out of range is refused: `std::stoll` throws. -/
def parseMetricInt (s : Bytes) : Option Nat :=
  if s = [] ∨ s.all isDigit = false then none
  else if natOf s < 2 ^ 63 then some (natOf s) else none

/-- `parse_metric_bool`. -/
def parseMetricBool (s : Bytes) : Option Bool :=
  if s = ascii "true" then some true else if s = ascii "false" then some false else none

def deviceIntKeys : List Bytes :=
  [ascii "io_ok", ascii "io_failed", ascii "io_retried_attempts", ascii "watchdog_timeout_ms",
    ascii "watchdog_trip_count", ascii "sample_success_count", ascii "sample_failure_count",
    ascii "call_success_count", ascii "call_failure_count"]

def deviceBoolKeys : List Bytes :=
  [ascii "watchdog_armed", ascii "watchdog_tripped", ascii "missing", ascii "excluded"]

def deviceStringKeys : List Bytes :=
  [ascii "startup_firmware", ascii "startup_product_code", ascii "firmware_version"]

def providerIntKeys : List Bytes :=
  [ascii "startup_configured_devices", ascii "startup_initialized_devices",
    ascii "startup_failed_devices"]

/-- `kMaxStringFieldLen`. -/
def maxStringFieldLen : Nat := 128

/-- The loop of `append_allowlisted_metrics` over the integer keys. -/
def appendInts (metrics : Metrics) (keys : List Bytes) : Bytes :=
  keys.flatMap fun key =>
    match (metrics.find key).bind parseMetricInt with
    | some value => (ascii "," ++ key ++ ascii "=") ++ integer value
    | none => []

/-- The loop over the boolean keys. -/
def appendBools (metrics : Metrics) (keys : List Bytes) : Bytes :=
  keys.flatMap fun key =>
    match (metrics.find key).bind parseMetricBool with
    | some value => (ascii "," ++ key ++ ascii "=") ++ boolText value
    | none => []

/-- `append_allowlisted_metrics`. -/
def appendAllowlistedMetrics (metrics : Metrics) (intKeys boolKeys : List Bytes) : Bytes :=
  appendInts metrics intKeys ++ appendBools metrics boolKeys

/-- A metric that is written as a string: not an empty one, and not more of it than fits. -/
def metricString (metrics : Metrics) (key : Bytes) : Option Bytes :=
  match metrics.find key with
  | some s => if s = [] then none else some (s.take maxStringFieldLen)
  | none => none

/-- `append_allowlisted_strings`. -/
def appendAllowlistedStrings (metrics : Metrics) (keys : List Bytes) : Bytes :=
  keys.flatMap fun key =>
    match metricString metrics key with
    | some value => (ascii "," ++ key ++ ascii "=") ++ quoted value
    | none => []

/-- The provider's row of `format_health_lines`. -/
def formatProviderHealth (ps : ProviderHealthSnapshot) (runtimeName : Bytes) (timestampMs : Int64) :
    Bytes :=
  ascii "anolis_provider_health" ++ ascii ",runtime_name=" ++ escapeTag runtimeName ++
    ascii ",provider_id=" ++ escapeTag ps.providerId ++
    ascii " state=" ++ quoted ps.state ++
    ascii ",lifecycle_state=" ++ quoted ps.lifecycleState ++
    ascii ",degraded=" ++ boolText ps.degraded ++
    ascii ",failed_device_count=" ++ integer ps.failedDeviceCount.toInt ++
    ascii ",device_count=" ++ integer ps.deviceCount.toNat ++
    ascii ",uptime_seconds=" ++ integer ps.uptimeSeconds.toInt ++
    ascii ",supervision_enabled=" ++ boolText ps.supervision.enabled ++
    ascii ",attempt_count=" ++ integer ps.supervision.attemptCount.toInt ++
    ascii ",crash_detected=" ++ boolText ps.supervision.crashDetected ++
    ascii ",circuit_open=" ++ boolText ps.supervision.circuitOpen ++
    (ps.reported.elim [] fun metrics => appendAllowlistedMetrics metrics providerIntKeys []) ++
    ascii " " ++ dumpInt timestampMs.toInt

/-- A device's row. -/
def formatDeviceHealth (ps : ProviderHealthSnapshot) (ds : DeviceHealthSnapshot)
    (runtimeName : Bytes) (timestampMs : Int64) : Bytes :=
  ascii "anolis_device_health" ++ ascii ",runtime_name=" ++ escapeTag runtimeName ++
    ascii ",provider_id=" ++ escapeTag ps.providerId ++
    ascii ",device_id=" ++ escapeTag ds.deviceId ++
    ascii " health=" ++ quoted ds.health ++
    ascii ",registered=" ++ boolText ds.registered ++
    -- only once the device was polled
    (if 0 < ds.lastPollMs then
      (ascii ",staleness_ms=" ++ integer ds.stalenessMs.toNat) ++
        (ascii ",stale_signal_count=" ++ integer ds.staleSignalCount.toNat) ++
        (ascii ",fault_signal_count=" ++ integer ds.faultSignalCount.toNat)
      else []) ++
    (if ds.typeVersion ≠ [] then ascii ",type_version=" ++ quoted ds.typeVersion else []) ++
    (ds.reported.elim [] fun metrics =>
      appendAllowlistedMetrics metrics deviceIntKeys deviceBoolKeys ++
        appendAllowlistedStrings metrics deviceStringKeys) ++
    ascii " " ++ dumpInt timestampMs.toInt

/-- `format_health_lines`. -/
def formatHealthLines (ps : ProviderHealthSnapshot) (runtimeName : Bytes) (timestampMs : Int64) :
    List Bytes :=
  formatProviderHealth ps runtimeName timestampMs ::
    ps.devices.map fun ds => formatDeviceHealth ps ds runtimeName timestampMs

end Anolis.Telemetry
