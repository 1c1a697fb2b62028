/-
  RealmCpp.Library.SignedInteger
  ──────────────────────────────
  **ARITHMETIC THAT HAS TO STAY IN A RANGE — library layer.**

  An operation on integers may have no result, and the result may be none of the range.
  The range is that of a complement of two, which has one number more below zero than
  above.

    • `ArithmeticOperator.exact` — the results of the mathematics,
    • `ArithmeticOperator.Fits` — which of them are in the range, by the operands.
-/
import Mathlib.Data.Int.Init
import Mathlib.Tactic.Common

namespace RealmCpp.Library

inductive ArithmeticOperator where
  | plus | minus | times | divided
  deriving DecidableEq, Repr

/-- The numbers of a complement of two with the greatest `m`. -/
def InRange (m x : Int) : Prop := -m - 1 ≤ x ∧ x ≤ m

instance (m x : Int) : Decidable (InRange m x) := inferInstanceAs (Decidable (_ ∧ _))

namespace ArithmeticOperator

/-- The result, if there is one; a quotient is truncated. -/
def exact : ArithmeticOperator → Int → Int → Option Int
  | plus, v, o => some (v + o)
  | minus, v, o => some (v - o)
  | times, v, o => some (v * o)
  | divided, v, o => if o = 0 then none else some (v.tdiv o)

/-- **The operands with a result in the range.**  One quotient is none of it. -/
def Fits (m : Int) : ArithmeticOperator → Int → Int → Prop
  | plus, v, o => InRange m (v + o)
  | minus, v, o => InRange m (v - o)
  | times, v, o => InRange m (v * o)
  | divided, v, o => o ≠ 0 ∧ ¬ (v = -m - 1 ∧ o = -1)

instance (m : Int) (op : ArithmeticOperator) (v o : Int) : Decidable (op.Fits m v o) := by
  cases op <;> unfold Fits <;> infer_instance

/-- By two or more, a quotient is at most half as far from zero. -/
theorem tdiv_inRange {m v o : Int} (hv : InRange m v) (ho : 2 ≤ o.natAbs) :
    InRange m (v.tdiv o) := by
  have hle : (v.tdiv o).natAbs ≤ v.natAbs / 2 := by
    rw [Int.natAbs_tdiv]
    exact Nat.div_le_div_left ho (by omega)
  unfold InRange at *
  omega

/-- The quotient by `-1` is out of the range for the least number, and for no other. -/
theorem tdiv_inRange_iff {m v o : Int} (hv : InRange m v) (ho : o ≠ 0) :
    InRange m (v.tdiv o) ↔ ¬ (v = -m - 1 ∧ o = -1) := by
  by_cases hone : o = 1
  · rw [hone, Int.tdiv_one]
    exact iff_of_true hv (by omega)
  by_cases hminus : o = -1
  · rw [hminus, Int.tdiv_neg, Int.tdiv_one]
    unfold InRange at *
    omega
  · exact iff_of_true (tdiv_inRange hv (by omega)) (by omega)

/-- **Where the result is in the range**, by the operands. -/
theorem exact_inRange_iff {m v : Int} (hv : InRange m v) (op : ArithmeticOperator) (o : Int) :
    (∃ r, op.exact v o = some r ∧ InRange m r) ↔ op.Fits m v o := by
  cases op with
  | plus => simp [exact, Fits]
  | minus => simp [exact, Fits]
  | times => simp [exact, Fits]
  | divided =>
    simp only [exact, Fits]
    by_cases ho : o = 0
    · simp [ho]
    · rw [if_neg ho, ← tdiv_inRange_iff hv ho]
      simp [ho]

end ArithmeticOperator

end RealmCpp.Library
