/-
  RealmCpp.Library.Substring
  ──────────────────────────
  **FINDING ONE LIST IN ANOTHER — library layer.**

  The search goes through the positions from the left.  It finds a position
  exactly where the pattern occurs, and mapping both lists letter by letter
  only adds occurrences.
-/
import Mathlib.Data.List.Infix

namespace RealmCpp.Library

variable {α β : Type} [DecidableEq α]

/-- The first position of `text` where `pattern` starts, if it occurs. -/
def findSublist (pattern : List α) : List α → Option Nat
  | [] => if pattern = [] then some 0 else none
  | a :: text =>
      if pattern.isPrefixOf (a :: text) then some 0
      else (findSublist pattern text).map (· + 1)

/-- **The search finds the pattern exactly where it occurs.** -/
theorem findSublist_isSome_iff (pattern text : List α) :
    (findSublist pattern text).isSome = true ↔ pattern <:+: text := by
  induction text with
  | nil =>
    unfold findSublist
    by_cases h : pattern = [] <;> simp [h]
  | cons a text ih =>
    unfold findSublist
    rw [List.infix_cons_iff, ← ih]
    by_cases h : pattern.isPrefixOf (a :: text) = true
    · simp [h, List.isPrefixOf_iff_prefix.mp h]
    · have hno : ¬pattern <+: a :: text := fun hp => h (List.isPrefixOf_iff_prefix.mpr hp)
      rw [if_neg h, Option.isSome_map]
      simp [hno]

omit [DecidableEq α] in
/-- What occurs still occurs when both are mapped. -/
theorem infix_map_of_infix (f : α → β) {pattern text : List α} (h : pattern <:+: text) :
    pattern.map f <:+: text.map f := by
  obtain ⟨before, after, rfl⟩ := h
  exact ⟨before.map f, after.map f, by simp⟩

end RealmCpp.Library
