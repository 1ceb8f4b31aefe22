import Anolis.Lib.Machine
import Anolis.Protocol

/-!
# The runtime's parameters

`parameter_manager.cpp`, the parameters' part of `validate_config`, and the loop of `runtime.cpp`
that defines the parameters of a configuration. `std::to_string` of a double is `showDouble`.
-/

namespace Anolis.Automation

open Lib Protocol

inductive ParameterType
  | double | int64 | bool | string
deriving DecidableEq

inductive ParameterValue
  | double (d : Double) | int64 (i : Int64) | bool (b : Bool) | string (s : String)
deriving DecidableEq

/-- `parameter_type_to_string`. -/
def ParameterType.toString : ParameterType → String
  | .double => "double"
  | .int64 => "int64"
  | .bool => "bool"
  | .string => "string"

/-- The alternative that a value holds. -/
def ParameterValue.type : ParameterValue → ParameterType
  | .double _ => .double
  | .int64 _ => .int64
  | .bool _ => .bool
  | .string _ => .string

structure ParameterDef where
  name : String
  type : ParameterType
  value : ParameterValue
  min : Option Double := none
  max : Option Double := none
  allowedValues : Option (List String) := none
  setByOperator : Bool := false
deriving DecidableEq

/-- The whole part of `n / 2 ^ e`, rounded to the nearest and to even between two. -/
def roundHalfEven (n e : Nat) : Nat :=
  if 2 * (n % 2 ^ e) < 2 ^ e ∨ 2 * (n % 2 ^ e) = 2 ^ e ∧ n / 2 ^ e % 2 = 0 then n / 2 ^ e
  else n / 2 ^ e + 1

/-- `static_cast<double>` of an integer: 53 bits of it. -/
def doubleOfInt64 (i : Int64) : Double :=
  let e := i.toInt.natAbs.log2 - 52
  .finite (i.toInt.sign * (roundHalfEven i.toInt.natAbs e * 2 ^ e : Nat))

/-- `numeric_value`. -/
def ParameterValue.numeric? : ParameterValue → Option Double
  | .double d => some d
  | .int64 i => some (doubleOfInt64 i)
  | .bool _ | .string _ => none

section
variable (showDouble : Double → String)

/-- `ParameterDef::validate`. -/
def ParameterDef.validate (d : ParameterDef) (v : ParameterValue) : Except String Unit :=
  if v.type ≠ d.type then
    .error ("Type mismatch: expected " ++ d.type.toString ++ ", got " ++ v.type.toString)
  else
    match v.numeric?, v with
    | some x, _ =>
      match d.min.filter (x.lt ·), d.max.filter (·.lt x) with
      | some m, _ => .error ("Value " ++ showDouble x ++ " is below minimum " ++ showDouble m)
      | none, some m => .error ("Value " ++ showDouble x ++ " exceeds maximum " ++ showDouble m)
      | none, none => .ok ()
    | none, .string s =>
      match d.allowedValues.filter (s ∉ ·) with
      | some allowed => .error ("Value '" ++ s ++ "' not in allowed values: [" ++
          ", ".intercalate allowed ++ "]")
      | none => .ok ()
    | none, _ => .ok ()

/-- `parameters_`. -/
abbrev Parameters := String → Option ParameterDef

/-- `ParameterManager::define`. -/
def Parameters.define (ps : Parameters) (d : ParameterDef) : Bool × Parameters :=
  match ps d.name, d.validate showDouble d.value with
  | none, .ok () => (true, Function.update ps d.name (some d))
  | _, _ => (false, ps)

/-- A change of a value, as the listeners are told. -/
structure Change where
  name : String
  old : ParameterValue
  new : ParameterValue
deriving DecidableEq

/-- `==` of values of one type. A NaN is not equal to itself. -/
def ParameterValue.same (v w : ParameterValue) : Bool := v = w && v ≠ .double .nan

/-- The section of `ParameterManager::set` under the lock: the change that it makes, if any. -/
def Parameters.set (ps : Parameters) (name : String) (value : ParameterValue) :
    Except String (Option Change) :=
  match ps name with
  | none => .error ("Parameter '" ++ name ++ "' not found")
  | some d =>
    match d.validate showDouble value with
    | .error e => .error e
    | .ok () => .ok (if d.value.same value then none else some ⟨name, d.value, value⟩)

def Parameters.store (ps : Parameters) (change : Change) : Parameters :=
  Function.update ps change.name
    ((ps change.name).map fun d => { d with value := change.new, setByOperator := true })

/-! ### Listeners -/

inductive SetEffect
  -- a `set` that fails or changes nothing
  | kept
  | changed (change : Change)
  | called (listener : Nat) (change : Change)

/-- Threads that call `set`, with `listeners` callbacks. A thread has the callbacks that it still
has to call. It calls them without the lock. The callbacks are those registered before the first
`set`; they do not throw, and do not call `set` themselves. -/
def setters (listeners : Nat) :
    Machine Parameters (List (Nat × Change)) SetEffect (Option (String × ParameterValue)) where
  next ps _ owed choice :=
    match owed, choice with
    | [], some (name, value) =>
      match ps.set showDouble name value with
      | .ok (some change) => some (.changed change, (List.range listeners).map (·, change))
      | _ => some (.kept, [])
    | (listener, change) :: rest, none => some (.called listener change, rest)
    | _, _ => none
  apply ps _ e :=
    match e with
    | .changed change => ps.store change
    | _ => ps

/-! ### The configured parameters -/

structure ParameterConfig where
  name : String
  type : ParameterType := .double
  defaultValue : ParameterValue := .double (.finite 0)
  min : Option Double := none
  max : Option Double := none
  allowedValues : List String := []

/-- The checks of `validate_config` on one parameter. -/
def ParameterConfig.validate (p : ParameterConfig) : Except String Unit :=
  if p.name = "" then .error "Parameter missing name"
  else if p.defaultValue.type ≠ p.type then
    .error ("Parameter '" ++ p.name ++ "' default value type mismatch: expected " ++
      p.type.toString ++
      ", got " ++ p.defaultValue.type.toString)
  else if p.type ≠ .double ∧ p.type ≠ .int64 ∧ (p.min.isSome ∨ p.max.isSome) then
    .error ("Parameter '" ++ p.name ++ "' min/max constraints require numeric type")
  else if p.min.any fun lo => p.max.any fun hi => hi.lt lo then
    .error ("Parameter '" ++ p.name ++ "' has invalid constraints: min > max")
  else if p.type ≠ .string ∧ p.allowedValues ≠ [] then
    .error ("Parameter '" ++ p.name ++ "' allowed_values is only valid for string parameters")
  else .ok ()

/-- The definition that the runtime makes of a configured parameter. -/
def ParameterConfig.toDef (p : ParameterConfig) : ParameterDef where
  name := p.name
  type := p.type
  value := p.defaultValue
  min := p.min
  max := p.max
  allowedValues := if p.allowedValues = [] then none else some p.allowedValues

/-- The loop of the runtime. A definition that fails is only logged. -/
def initParameters (configs : List ParameterConfig) : Parameters :=
  configs.foldl (fun ps p => (ps.define showDouble p.toDef).2) fun _ => none

end

end Anolis.Automation
