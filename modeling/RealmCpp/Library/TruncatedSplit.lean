/-
  RealmCpp.Library.TruncatedSplit
  ───────────────────────────────
  **A COUNT AS UNITS AND A REST — library layer.**

  A count is split by truncated division, so that the rest of a negative count is not
  positive.  The two parts say what the count was, and are in the order of the counts.

    • `IsSplit` — what the two parts are like,
    • `isSplit_tdiv` — truncated division gives them,
    • `IsSplit.mul_inRange` — the units of a count that is in a range,
    • `IsSplit.lt_iff` — the order.
-/
import Mathlib.Tactic.Common
import RealmCpp.Library.SignedInteger

namespace RealmCpp.Library

/-- **A number of units and a rest**: the rest is less than a unit, and neither of the two
is of the other's sign. -/
structure IsSplit (unit whole rest : Int) : Prop where
  rest_lt : -unit < rest ∧ rest < unit
  same_sign : (0 ≤ whole ∧ 0 ≤ rest) ∨ (whole ≤ 0 ∧ rest ≤ 0)

/-- Truncated division splits a count. -/
theorem isSplit_tdiv {unit : Int} (hunit : 0 < unit) (n : Int) :
    IsSplit unit (n.tdiv unit) (n.tmod unit) where
  rest_lt := ⟨Int.lt_tmod_of_pos n hunit, Int.tmod_lt_of_pos n hunit⟩
  same_sign := by
    rcases Int.le_total 0 n with hn | hn
    · exact .inl ⟨Int.tdiv_nonneg hn (by omega), Int.tmod_nonneg unit hn⟩
    · -- a negative count is split as the positive one is
      have hwhole := Int.tdiv_nonneg (a := -n) (b := unit) (by omega) (by omega)
      have hrest := Int.tmod_nonneg (a := -n) unit (by omega)
      rw [Int.neg_tdiv] at hwhole
      rw [Int.neg_tmod] at hrest
      exact .inr ⟨by omega, by omega⟩

namespace IsSplit

variable {unit whole rest whole' rest' : Int}

theorem unit_pos (h : IsSplit unit whole rest) : 0 < unit := by
  have hrest := h.rest_lt
  omega

/-- The units of a count are on the same side of zero, and not further from it. -/
theorem mul_between (h : IsSplit unit whole rest) :
    (0 ≤ whole * unit ∧ 0 ≤ rest) ∨ (whole * unit ≤ 0 ∧ rest ≤ 0) := by
  have hunit := h.unit_pos
  rcases h.same_sign with ⟨hwhole, hrest⟩ | ⟨hwhole, hrest⟩
  · exact .inl ⟨Int.mul_nonneg hwhole (by omega), hrest⟩
  · exact .inr ⟨Int.mul_nonpos_of_nonpos_of_nonneg hwhole (by omega), hrest⟩

/-- **What is calculated on the way to a count in the range is in it.** -/
theorem mul_inRange (h : IsSplit unit whole rest) {m : Int}
    (hcount : InRange m (whole * unit + rest)) : InRange m (whole * unit) := by
  have hmul := h.mul_between
  unfold InRange at *
  omega

/-- More units are more, whatever the rests. -/
theorem lt_of_whole_lt (h : IsSplit unit whole rest) (h' : IsSplit unit whole' rest')
    (hlt : whole < whole') : whole * unit + rest < whole' * unit + rest' := by
  have hunit := h.unit_pos
  have hmul : (whole + 1) * unit ≤ whole' * unit :=
    Int.mul_le_mul_of_nonneg_right (by omega) (by omega)
  rw [Int.add_mul, Int.one_mul] at hmul
  -- one of the two rests has the sign that brings them closer
  have hrest := h.rest_lt
  have hrest' := h'.rest_lt
  have hsign := h.same_sign
  have hsign' := h'.same_sign
  omega

/-- **The order of two counts** is that of the units first, and of the rests then. -/
theorem lt_iff (h : IsSplit unit whole rest) (h' : IsSplit unit whole' rest') :
    whole * unit + rest < whole' * unit + rest' ↔ whole < whole' ∨ whole = whole' ∧ rest < rest' := by
  constructor
  · intro hlt
    rcases Int.lt_trichotomy whole whole' with hwhole | hwhole | hwhole
    · exact .inl hwhole
    · subst hwhole
      exact .inr ⟨rfl, by omega⟩
    · have hgt := h'.lt_of_whole_lt h hwhole
      omega
  · intro hparts
    rcases hparts with hwhole | ⟨hwhole, hrest⟩
    · exact h.lt_of_whole_lt h' hwhole
    · subst hwhole
      omega

end IsSplit

end RealmCpp.Library
