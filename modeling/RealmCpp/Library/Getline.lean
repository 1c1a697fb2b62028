/-
  RealmCpp.Library.Getline
  ────────────────────────
  **A TEXT, READ LINE BY LINE — library layer.**

  `getline` reads up to the next delimiter, and fails where nothing is left.  A
  loop of it does not tell a text from the same text with a delimiter after it.

    • `getline`, `getlines` — one line, and all of them,
    • `getlines_eq_trimmed` — the loop against `List.splitOn`,
    • `getlines_eq_iff` — the texts that are read as given lines.
-/
import Mathlib.Data.List.TakeWhile

namespace RealmCpp.Library

variable {α : Type} [DecidableEq α]

/-- A line, and what is left after its delimiter. -/
def getline (d : α) (s : List α) : Option (List α × List α) :=
  -- at the end of the stream no character is extracted, and so it fails
  if s.isEmpty then none
  else some (s.takeWhile (· != d), (s.dropWhile (· != d)).drop 1)

/-- `while (getline(stream, line)) lines.push_back(line)`, for a stream of at most
`n` characters. -/
def getlines (d : α) : Nat → List α → List (List α)
  | 0, _ => []
  | n + 1, s =>
      match getline d s with
      | none => []
      | some (line, rest) => line :: getlines d n rest

/-- Pieces of a text without an empty one at the end. -/
def trimmed (gs : List (List α)) : List (List α) :=
  if gs.getLast? = some [] then gs.dropLast else gs

theorem trimmed_concat_nil (gs : List (List α)) : trimmed (gs ++ [[]]) = gs := by
  simp [trimmed]

theorem trimmed_of_getLast? {gs : List (List α)} (h : gs.getLast? ≠ some []) :
    trimmed gs = gs :=
  if_neg h

theorem trimmed_cons (g : List α) {gs : List (List α)} (h : gs ≠ []) :
    trimmed (g :: gs) = g :: trimmed gs := by
  unfold trimmed
  rw [List.getLast?_cons_of_ne_nil h, List.dropLast_cons_of_ne_nil h]
  by_cases hlast : gs.getLast? = some [] <;> simp [hlast]

section Getlines

variable {d : α}

theorem getlines_nil (n : Nat) : getlines d n [] = [] := by
  cases n <;> rfl

theorem getlines_of_getline {s line rest : List α} (h : getline d s = some (line, rest)) (n : Nat) :
    getlines d (n + 1) s = line :: getlines d n rest := by
  simp [getlines, h]

/-- No character of a line is the delimiter. -/
theorem forall_bne {g : List α} (hg : d ∉ g) : ∀ a ∈ g, (a != d) = true := by
  intro a ha
  rw [bne_iff_ne]
  intro heq
  exact hg (heq ▸ ha)

/-- A line that a delimiter ends. -/
theorem getlines_delimited {g : List α} (hg : d ∉ g) (rest : List α) (n : Nat) :
    getlines d (n + 1) (g ++ d :: rest) = g :: getlines d n rest := by
  apply getlines_of_getline
  unfold getline
  rw [List.takeWhile_append_of_pos (forall_bne hg), List.dropWhile_append_of_pos (forall_bne hg)]
  simp

/-- A line that the end of the stream ends. -/
theorem getlines_last {g : List α} (hg : d ∉ g) (hne : g ≠ []) (n : Nat) :
    getlines d (n + 1) g = [g] := by
  have hline : getline d g = some (g, []) := by
    unfold getline
    rw [List.takeWhile_eq_self_iff.mpr (forall_bne hg),
      List.dropWhile_eq_nil_iff.mpr (forall_bne hg)]
    simp [hne]
  rw [getlines_of_getline hline, getlines_nil]

/-- **The loop reads the pieces between the delimiters**, without an empty one at the
end. -/
theorem getlines_eq_trimmed {n : Nat} {s : List α} (hn : s.length ≤ n) :
    getlines d n s = trimmed (s.splitOn d) := by
  induction n generalizing s with
  | zero =>
    have hs : s = [] := List.length_eq_zero_iff.mp (by omega)
    rw [hs]
    rfl
  | succ n ih =>
    by_cases hd : d ∈ s
    · -- up to the first delimiter, and on after it
      obtain ⟨g, rest, rfl, hg⟩ := List.eq_append_cons_of_mem hd
      rw [List.length_append, List.length_cons] at hn
      rw [getlines_delimited hg, List.splitOn_append_cons_self_of_not_mem hg,
        trimmed_cons g (List.splitOn_ne_nil d rest), ih (by omega)]
    · rw [List.splitOn_eq_singleton hd]
      by_cases hs : s = []
      · rw [hs]
        rfl
      · rw [getlines_last hd hs]
        exact (trimmed_of_getLast? (by simp [hs])).symm

omit [DecidableEq α] in
theorem intercalate_concat_nil {gs : List (List α)} (h : gs ≠ []) :
    [d].intercalate (gs ++ [[]]) = [d].intercalate gs ++ [d] := by
  induction gs with
  | nil => exact absurd rfl h
  | cons g gs ih =>
    by_cases hgs : gs = []
    · simp [hgs]
    · rw [List.cons_append, List.intercalate_cons_of_ne_nil (by simp), ih hgs,
        List.intercalate_cons_of_ne_nil hgs]
      simp

/-- **What is read as given lines**: these with a delimiter between them, and maybe one
after them. -/
theorem getlines_eq_iff {n : Nat} {s : List α} (hn : s.length ≤ n) {gs : List (List α)}
    (hgs : gs ≠ []) (hlines : ∀ g ∈ gs, g ≠ [] ∧ d ∉ g) :
    getlines d n s = gs ↔ s = [d].intercalate gs ∨ s = [d].intercalate gs ++ [d] := by
  rw [getlines_eq_trimmed hn]
  have hpieces : ([d].intercalate gs).splitOn d = gs :=
    List.splitOn_intercalate d (fun g hg => (hlines g hg).2) hgs
  constructor
  · intro h
    have hs : [d].intercalate (s.splitOn d) = s := List.intercalate_splitOn d
    unfold trimmed at h
    by_cases hlast : (s.splitOn d).getLast? = some []
    · -- the last piece is empty: there is a delimiter before it
      rw [if_pos hlast] at h
      right
      obtain ⟨init, hinit⟩ := List.getLast?_eq_some_iff.mp hlast
      rw [hinit, List.dropLast_concat] at h
      rw [hinit, h, intercalate_concat_nil hgs] at hs
      exact hs.symm
    · rw [if_neg hlast] at h
      left
      rw [h] at hs
      exact hs.symm
  · rintro (rfl | rfl)
    · rw [hpieces]
      apply trimmed_of_getLast?
      intro hlast
      exact (hlines [] (List.mem_of_getLast? hlast)).1 rfl
    · rw [List.splitOn_append_cons_self, hpieces, List.splitOn_nil]
      exact trimmed_concat_nil gs

end Getlines

end RealmCpp.Library
