/-
  RealmCpp.Library.Binary64
  ─────────────────────────
  **COMPARING DOUBLES BY WHAT THEY STAND FOR — library layer.**

  A bit pattern of the binary64 format stands for a multiple of its smallest
  positive number, an infinity, or no number.  Doubles are compared by that, and
  where one of them is no number there is no order between them.
-/
import Mathlib.Data.Set.Basic

namespace RealmCpp.Library

/-- What a floating-point number stands for; a finite one is so many units of the
smallest positive number of its format. -/
inductive Binary64 where
  | nan
  | infinite (negative : Bool)
  | finite (units : Int)
  deriving DecidableEq, Repr

namespace Binary64

/-- A bit pattern: a sign, eleven bits of exponent and 52 bits of fraction. -/
def ofBits (bits : UInt64) : Binary64 :=
  let negative := 9223372036854775808 ≤ bits.toNat
  let exponent := bits.toNat / 4503599627370496 % 2048
  let fraction := bits.toNat % 4503599627370496
  if exponent = 2047 then
    if fraction = 0 then infinite negative else nan
  else
    -- the subnormal numbers have no leading bit, and the exponent of the least normal ones
    let units : Nat :=
      if exponent = 0 then fraction
      else (4503599627370496 + fraction).shiftLeft (exponent - 1)
    finite (if negative then -units else units)

/-- The order between two doubles, if there is one. -/
def compare : Binary64 → Binary64 → Option Ordering
  | finite a, finite b => some (Ord.compare a b)
  | infinite s, infinite t => some (if s = t then .eq else if s then .lt else .gt)
  | infinite s, finite _ => some (if s then .lt else .gt)
  | finite _, infinite t => some (if t then .gt else .lt)
  | nan, _ => none
  | _, nan => none

example : (ofBits 0x3FF0000000000000).compare (ofBits 0x4000000000000000) = some .lt := by decide

end Binary64

end RealmCpp.Library
