import Anolis.Lib.Utf8

/-!
# The identity of a health snapshot

`clamp_identity` of `health_snapshot.cpp`.
-/

namespace Anolis.Health

open Lib Lib.Utf8

/-- `kMaxIdentityLen`. -/
def kMaxIdentityLen : Nat := 128

/-- The loop of `clamp_identity`: back over continuation bytes. -/
def walkBack (value : Bytes) : Nat → Nat
  | 0 => 0
  | cut + 1 => if isContinuation (value.getD (cut + 1) 0) then walkBack value cut else cut + 1

/-- `clamp_identity`. -/
def clampIdentity (value : Bytes) : Bytes :=
  if value.length ≤ kMaxIdentityLen then value else value.take (walkBack value kMaxIdentityLen)

end Anolis.Health
