import Anolis.Lib.SortedMap
import Mathlib.Data.String.Basic

/-!
# The device-provider protocol's data

The messages of the device-provider protocol that the runtime reads and writes: values with
their declared type, argument specifications, function categories, signal qualities and status
codes. Protobuf enumerations are open, so each has an `unrecognized` member.

The text of a signal quality and the numeric code of a status are left to the places that
print them.
-/

namespace Anolis.Protocol

open Lib

/-- A double, as far as the runtime computes with one: it compares doubles and makes them from
integers. The two zeros compare equal and are one value here. -/
inductive Double
  | nan
  | inf (negative : Bool)
  | finite (q : Rat)
deriving DecidableEq

/-- The ordered comparison `<` of doubles. Every comparison with a NaN is false. -/
def Double.lt : Double → Double → Bool
  | .nan, _ | _, .nan => false
  | .inf true, .inf n => !n
  | .inf true, .finite _ => true
  | .inf false, _ => false
  | .finite _, .inf n => !n
  | .finite a, .finite b => a < b

/-- `ValueType`. -/
inductive ValueType
  | unspecified | double | int64 | uint64 | bool | string | bytes
  | unrecognized (code : Nat)
deriving DecidableEq

/-- The payload of a `Value`: the protobuf `oneof`, which may be unset. -/
inductive ValueKind
  | unset
  | double (d : Double)
  | int64 (i : Int64)
  | uint64 (u : UInt64)
  | bool (b : Bool)
  | string (s : String)
  | bytes (bs : List UInt8)
deriving DecidableEq

/-- A `Value`: its declared type, and its payload. The two are independent fields. -/
structure Value where
  type : ValueType
  kind : ValueKind
deriving DecidableEq

/-- `value.bool_value()` where `value.has_bool_value()`. -/
def Value.bool? (v : Value) : Option Bool :=
  match v.kind with
  | .bool b => some b
  | _ => none

/-- The arguments of a call, a `std::map` by argument name. -/
abbrev ArgMap := SortedMap String Value

/-- `ArgSpec`. A bound that is not set is `none`. -/
structure ArgSpec where
  name : String
  type : ValueType
  required : Bool := false
  minDouble : Option Double := none
  maxDouble : Option Double := none
  minInt64 : Option Int64 := none
  maxInt64 : Option Int64 := none
  minUint64 : Option UInt64 := none
  maxUint64 : Option UInt64 := none
  allowedValues : List String := []
deriving DecidableEq

/-- `FunctionPolicy_Category`. -/
inductive Category
  | unspecified | read | config | actuate
  | unrecognized (code : Nat)
deriving DecidableEq

/-- `SignalValue_Quality`. -/
inductive Quality
  | unspecified | ok | stale | fault | unknown
  | unrecognized (code : Nat)
deriving DecidableEq

/-- `Status_Code`, as far as the runtime tells codes apart. -/
inductive StatusCode
  | ok | invalidArgument | notFound | failedPrecondition | outOfRange | unavailable
  | resourceExhausted | deadlineExceeded | internal
  | unrecognized (code : Nat)
deriving DecidableEq

end Anolis.Protocol
