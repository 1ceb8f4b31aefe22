import Anolis.Registry.DeviceRegistry

/-!
# Coercing and validating call arguments

`coerce_arguments` and `validate_arguments` of the call router, with their messages. Both are
driven by the function's argument list. Coercion changes integer arguments to the declared
numeric type where the number is representable, and never narrows a double.

The text of a double in a range message is what `operator<<` prints; it is the parameter
`showDouble` here.
-/

namespace Anolis.Control

open Protocol

/-- `kMaxExactDouble`: integers up to here are exact as doubles. -/
def maxExactDouble : Nat := 2 ^ 53

/-- The coercion of one argument, by the declared type of its parameter. -/
def coerceArgument (spec : ArgSpec) (v : Value) : Except String Value :=
  match spec.type, v.kind with
  | .uint64, .int64 raw =>
    if raw < 0 then
      .error ("Argument '" ++ spec.name ++ "': " ++ toString raw ++
        " is negative but the parameter is uint64")
    else .ok ⟨.uint64, .uint64 raw.toUInt64⟩
  | .int64, .uint64 raw =>
    if raw.toNat > 2 ^ 63 - 1 then
      .error ("Argument '" ++ spec.name ++ "': " ++ toString raw ++
        " exceeds the maximum of an int64 parameter")
    else .ok ⟨.int64, .int64 raw.toInt64⟩
  | .double, .int64 raw =>
    if raw.toInt > maxExactDouble ∨ raw.toInt < -(maxExactDouble : Int) then
      .error ("Argument '" ++ spec.name ++ "': " ++ toString raw ++
        " cannot be represented exactly as a double")
    else .ok ⟨.double, .double (.finite raw.toInt)⟩
  | .double, .uint64 raw =>
    if raw.toNat > maxExactDouble then
      .error ("Argument '" ++ spec.name ++ "': " ++ toString raw ++
        " cannot be represented exactly as a double")
    else .ok ⟨.double, .double (.finite raw.toNat)⟩
  -- no narrowing: every other pair is left to the type check
  | _, _ => .ok v

/-- `coerce_arguments`, over the function's argument list. An argument that is absent is
skipped. -/
def coerceArguments : List ArgSpec → ArgMap → Except String ArgMap
  | [], args => .ok args
  | spec :: rest, args =>
    match args.find? spec.name with
    | none => coerceArguments rest args
    | some v =>
      match coerceArgument spec v with
      | .error e => .error e
      | .ok v' => coerceArguments rest (args.insert spec.name v')

/-- `value_type_to_string`. -/
def valueTypeToString : ValueType → String
  | .bool => "bool"
  | .int64 => "int64"
  | .uint64 => "uint64"
  | .double => "double"
  | .string => "string"
  | .bytes => "bytes"
  | .unspecified | .unrecognized _ => "unknown"

/-- `validate_argument_type`: the payload has the declared type. The `type` field of the value
is only printed. -/
def validateArgumentType (spec : ArgSpec) (v : Value) : Except String Unit :=
  let typeMatch : Option Bool :=
    match spec.type with
    | .bool => some (v.kind matches .bool _)
    | .int64 => some (v.kind matches .int64 _)
    | .uint64 => some (v.kind matches .uint64 _)
    | .double => some (v.kind matches .double _)
    | .string => some (v.kind matches .string _)
    | .bytes => some (v.kind matches .bytes _)
    | .unspecified | .unrecognized _ => none
  match typeMatch with
  | none => .error "Unknown type in ArgSpec"
  | some true => .ok ()
  | some false =>
    .error ("Type mismatch: expected " ++ valueTypeToString spec.type ++ ", got " ++
      valueTypeToString v.type)

/-- A list of texts as the messages print it. The separator is left out as long as the text
is empty, so an empty first entry leaves no comma. -/
def listText (texts : List String) : String :=
  texts.foldl (fun acc s => acc ++ (if acc.isEmpty then "" else ", ") ++ s) ""

/-- The check of a number against an optional lower and upper bound, the lower one first. -/
def checkBounds {α : Type} (lt : α → α → Bool) (text : α → String) (v : α)
    (min max : Option α) : Except String Unit :=
  match min.filter (lt v ·), max.filter (lt · v) with
  | some m, _ => .error ("Value " ++ text v ++ " below minimum " ++ text m)
  | none, some m => .error ("Value " ++ text v ++ " above maximum " ++ text m)
  | none, none => .ok ()

/-- `validate_argument_range`. Run after the type check, so the payload has the declared
type. -/
def validateArgumentRange (showDouble : Double → String) (spec : ArgSpec) (v : Value) :
    Except String Unit :=
  match spec.type, v.kind with
  | .double, .double d => checkBounds Double.lt showDouble d spec.minDouble spec.maxDouble
  | .int64, .int64 i =>
    checkBounds (fun a b => decide (a < b)) toString i spec.minInt64 spec.maxInt64
  | .uint64, .uint64 u =>
    checkBounds (fun a b => decide (a < b)) toString u spec.minUint64 spec.maxUint64
  | .string, .string s =>
    if spec.allowedValues.isEmpty || spec.allowedValues.contains s then .ok ()
    else .error ("Value '" ++ s ++ "' not in allowed values: " ++ listText spec.allowedValues)
  | _, _ => .ok ()

/-- The check of one provided argument: it is declared, has the declared type and lies in the
declared range. Of two specifications with one name the later one counts. -/
def validateArgument (showDouble : Double → String) (specs : List ArgSpec)
    (arg : String × Value) : Except String Unit :=
  match specs.reverse.find? fun s => s.name = arg.1 with
  | none => .error ("Unknown argument: " ++ arg.1)
  | some spec =>
    match validateArgumentType spec arg.2, validateArgumentRange showDouble spec arg.2 with
    | .error e, _ => .error ("Argument '" ++ arg.1 ++ "': " ++ e)
    | .ok (), .error e => .error ("Argument '" ++ arg.1 ++ "': " ++ e)
    | .ok (), .ok () => .ok ()

/-- `validate_arguments`: the required arguments in the order of the specification, then the
provided ones in key order. The first failure is the answer. -/
def validateArguments (showDouble : Double → String) (specs : List ArgSpec) (args : ArgMap) :
    Except String Unit :=
  -- a missing argument is reported before any provided one is looked at
  match specs.find? fun s => s.required && (args.find? s.name).isNone with
  | some s => .error ("Missing required argument: " ++ s.name)
  | none => args.entries.forM (validateArgument showDouble specs)

end Anolis.Control
