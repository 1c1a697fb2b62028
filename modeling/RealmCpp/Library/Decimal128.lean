/-
  RealmCpp.Library.Decimal128
  ───────────────────────────
  **DECIMALS AND THE NUMBERS THEY STAND FOR — library layer.**

  A pattern of the decimal128 format, in its binary encoding, stands for a multiple of
  the smallest positive number of the format, for an infinity, or for no number.  Other
  than with integers, one number has several patterns.
-/
import Mathlib.Data.Int.Order.Basic
import Mathlib.Order.Compare

namespace RealmCpp.Library

/-- The two words of a decimal, the lower one first. -/
abbrev Bid128 := UInt64 × UInt64

/-- A number or one of the infinities; a finite one is so many units of the smallest
positive number of the format. -/
inductive Extended where
  | infinite (negative : Bool)
  | finite (units : Int)
  deriving DecidableEq, Repr

namespace Extended

/-- The order of the numbers, between the infinities. -/
def compare : Extended → Extended → Ordering
  | finite a, finite b => Ord.compare a b
  | infinite s, infinite t => if s = t then .eq else if s then .lt else .gt
  | infinite s, finite _ => if s then .lt else .gt
  | finite _, infinite t => if t then .gt else .lt

theorem compare_eq_iff (x y : Extended) : x.compare y = .eq ↔ x = y := by
  cases x with
  | finite a =>
    cases y with
    | finite b => simp [compare]
    | infinite t => cases t <;> simp [compare]
  | infinite s =>
    cases y with
    | finite b => cases s <;> simp [compare]
    | infinite t => cases s <;> cases t <;> simp [compare]

theorem compare_swap (x y : Extended) : (x.compare y).swap = y.compare x := by
  cases x with
  | finite a =>
    cases y with
    | finite b =>
      show (Ord.compare a b).swap = Ord.compare b a
      exact Int.compare_swap a b
    | infinite t => cases t <;> rfl
  | infinite s =>
    cases y with
    | finite b => cases s <;> rfl
    | infinite t => cases s <;> cases t <;> rfl

end Extended

namespace Bid128

/-- The sign. -/
def negative (v : Bid128) : Bool := 9223372036854775808 ≤ v.2.toNat

/-- The upper word without the sign. -/
def unsigned (v : Bid128) : Nat := v.2.toNat % 9223372036854775808

/-- The coefficient: 49 bits of the upper word, and the lower one.  What has more than
34 digits stands for zero. -/
def coefficient (v : Bid128) : Nat :=
  let c := v.unsigned % 562949953421312 * 18446744073709551616 + v.1.toNat
  -- with both bits after the sign set, it has a leading 2^113
  if v.unsigned / 2305843009213693952 = 3 ∨ 10000000000000000000000000000000000 ≤ c then 0 else c

/-- The exponent, counted from the least one. -/
def exponent (v : Bid128) : Nat := v.unsigned / 562949953421312

/-- **The number**; none for a NaN. -/
def number (v : Bid128) : Option Extended :=
  if v.unsigned / 288230376151711744 = 31 then none
  else if v.unsigned / 288230376151711744 = 30 then some (.infinite v.negative)
  else
    let units : Nat := v.coefficient * Nat.pow 10 v.exponent
    some (.finite (if v.negative then -(units : Int) else units))

/-- Without the five bits of a NaN, there is one. -/
theorem number_ne_none {v : Bid128} (h : v.unsigned / 288230376151711744 ≠ 31) :
    v.number ≠ none := by
  unfold number
  rw [if_neg h]
  split
  · exact Option.some_ne_none _
  · exact Option.some_ne_none _

/-- **Scaling the coefficient and the exponent** leaves the number as it is. -/
theorem number_eq_of_scaled {v w : Bid128} (hv : v.unsigned / 288230376151711744 < 30)
    (hw : w.unsigned / 288230376151711744 < 30) (hsign : v.negative = w.negative)
    (hexponent : v.exponent = w.exponent + 1) (hcoefficient : w.coefficient = 10 * v.coefficient) :
    v.number = w.number := by
  have hunits : v.coefficient * Nat.pow 10 v.exponent = w.coefficient * Nat.pow 10 w.exponent := by
    rw [hexponent, hcoefficient]
    show v.coefficient * (Nat.pow 10 w.exponent * 10) = _
    rw [Nat.mul_comm 10 v.coefficient, Nat.mul_assoc, Nat.mul_comm 10]
  unfold number
  rw [if_neg (by omega), if_neg (by omega), if_neg (by omega), if_neg (by omega), hunits, hsign]

end Bid128

end RealmCpp.Library
