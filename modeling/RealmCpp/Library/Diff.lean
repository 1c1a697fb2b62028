/-
  RealmCpp.Library.Diff
  ─────────────────────
  **CHANGES OF A LIST AS INDEXES.**

  A change of a list is told by the indexes of what was deleted from the old
  list, of what was inserted in the new one, and of what was modified in place.
  Applied to the old list it gives the new one: what is left without the
  deletions is what is left without the insertions.

    • `Diffs` — indexes that tell a change,
    • `Diffs.mem_insertions_iff` — a list that was empty is all insertions,
    • `Diffs.mem_modifications_iff` — where nothing is deleted,
    • `diffs_difference` — every change can be told.
-/
import Mathlib.Data.List.Basic

namespace RealmCpp.Library

variable {α : Type}

/-! ## §1. Changes. -/

/-- The elements whose index is not in `is`. -/
def keep (is : List Nat) (l : List α) : List α :=
  (l.zipIdx.filter fun e => !is.contains e.2).map Prod.fst

/-- **What tells a change** from the list `old` to the list `new`, in which the
elements in `modified` were written to.  Lists that are equal have no deletions
and insertions. -/
structure Diffs (old new : List α) (modified : α → Prop)
    (deletions insertions modifications : List Nat) : Prop where
  deletions_lt : ∀ i ∈ deletions, i < old.length
  insertions_lt : ∀ i ∈ insertions, i < new.length
  kept : keep deletions old = keep insertions new
  unchanged : old = new → deletions = [] ∧ insertions = []
  mem_modifications : ∀ i, i ∈ modifications ↔
    i ∉ deletions ∧ ∃ a, old[i]? = some a ∧ modified a

@[simp] theorem keep_nil (l : List α) : keep [] l = l := by
  simp [keep]

@[simp] theorem keep_of_nil (is : List Nat) : keep is ([] : List α) = [] := rfl

/-- Nothing is kept only where every index is given. -/
theorem mem_of_keep_eq_nil {is : List Nat} {l : List α} (h : keep is l = []) {i : Nat}
    (hi : i < l.length) : i ∈ is := by
  unfold keep at h
  rw [List.map_eq_nil_iff, List.filter_eq_nil_iff] at h
  have hmem : (l[i], i) ∈ l.zipIdx := by
    rw [List.mk_mem_zipIdx_iff_getElem?]
    exact List.getElem?_eq_getElem hi
  simpa using h _ hmem

/-- Nothing is kept where every index is given. -/
theorem keep_range (l : List α) : keep (List.range l.length) l = [] := by
  unfold keep
  rw [List.map_eq_nil_iff, List.filter_eq_nil_iff]
  intro e he
  have hlt := List.snd_lt_of_mem_zipIdx he
  simpa using hlt

namespace Diffs

variable {old new : List α} {modified : α → Prop} {d i m : List Nat}

/-- **A list that was empty is all insertions.** -/
theorem mem_insertions_iff (h : Diffs [] new modified d i m) (j : Nat) :
    j ∈ i ↔ j < new.length := by
  constructor
  · exact h.insertions_lt j
  · intro hj
    have hkept := h.kept
    rw [keep_of_nil] at hkept
    exact mem_of_keep_eq_nil hkept.symm hj

/-- Lists that come from the empty one in the same way have the same length. -/
theorem length_eq {new' : List α} {modified' : α → Prop} (h : Diffs [] new modified d i m)
    (h' : Diffs [] new' modified' d i m) : new.length = new'.length := by
  have hiff : ∀ j, j < new.length ↔ j < new'.length := by
    intro j
    rw [← h.mem_insertions_iff, h'.mem_insertions_iff]
  have hle := hiff new.length
  have hge := hiff new'.length
  omega

/-- **Where nothing is deleted, the modifications are what was written to.** -/
theorem mem_modifications_iff (h : Diffs old new modified [] i m) (j : Nat) :
    j ∈ m ↔ ∃ a, old[j]? = some a ∧ modified a := by
  rw [h.mem_modifications j]
  simp

/-- What does not affect a list has no indexes. -/
theorem eq_nil (h : Diffs old old modified d i m) (hmodified : ∀ a ∈ old, ¬ modified a) :
    d = [] ∧ i = [] ∧ m = [] := by
  obtain ⟨rfl, rfl⟩ := h.unchanged rfl
  refine ⟨rfl, rfl, List.eq_nil_iff_forall_not_mem.mpr fun j hj => ?_⟩
  obtain ⟨a, ha, hmod⟩ := (h.mem_modifications_iff j).mp hj
  exact hmodified a (List.mem_of_getElem? ha) hmod

end Diffs

/-! ## §2. Finding a change. -/

/-- The indexes of the elements that satisfy `p`. -/
def indexesOf (p : α → Bool) (l : List α) : List Nat :=
  (List.range l.length).filter fun j => l[j]?.any p

theorem mem_indexesOf {p : α → Bool} {l : List α} {j : Nat} :
    j ∈ indexesOf p l ↔ ∃ a, l[j]? = some a ∧ p a = true := by
  unfold indexesOf
  rw [List.mem_filter, List.mem_range]
  cases hj : l[j]? with
  | none => simp
  | some a =>
    have hlt := (List.getElem?_eq_some_iff.mp hj).1
    simp [hlt]

theorem lt_of_mem_indexesOf {p : α → Bool} {l : List α} {j : Nat} (h : j ∈ indexesOf p l) :
    j < l.length :=
  List.mem_range.mp (List.mem_filter.mp h).1

theorem sorted_indexesOf (p : α → Bool) (l : List α) : (indexesOf p l).Pairwise (· < ·) :=
  List.pairwise_lt_range.filter _

/-- The deletions and insertions between two lists: the elements that only one of
them has, unless the others have moved. -/
def difference [DecidableEq α] (old new : List α) : List Nat × List Nat :=
  let deletions := indexesOf (fun a => !new.contains a) old
  let insertions := indexesOf (fun a => !old.contains a) new
  if keep deletions old = keep insertions new then (deletions, insertions)
  else (List.range old.length, List.range new.length)

theorem sorted_difference [DecidableEq α] (old new : List α) :
    (difference old new).1.Pairwise (· < ·) ∧ (difference old new).2.Pairwise (· < ·) := by
  unfold difference
  simp only []
  split
  · exact ⟨sorted_indexesOf _ _, sorted_indexesOf _ _⟩
  · exact ⟨List.pairwise_lt_range, List.pairwise_lt_range⟩

/-- The deletions are of the old list, and the insertions of the new one. -/
theorem lt_of_mem_difference [DecidableEq α] (old new : List α) :
    (∀ i ∈ (difference old new).1, i < old.length) ∧
      ∀ i ∈ (difference old new).2, i < new.length := by
  unfold difference
  simp only []
  split
  · exact ⟨fun _ => lt_of_mem_indexesOf, fun _ => lt_of_mem_indexesOf⟩
  · exact ⟨fun _ => List.mem_range.mp, fun _ => List.mem_range.mp⟩

/-- **Every change can be told.** -/
theorem diffs_difference [DecidableEq α] (old new : List α) (modified : α → Bool) :
    Diffs old new (fun a => modified a = true) (difference old new).1 (difference old new).2
      ((indexesOf modified old).filter fun j => !(difference old new).1.contains j) := by
  have hlt := lt_of_mem_difference old new
  refine ⟨hlt.1, hlt.2, ?_, ?_, ?_⟩
  · unfold difference
    simp only []
    split
    · next hkeep => exact hkeep
    -- all is deleted and inserted where the order changed
    · rw [keep_range, keep_range]
  · -- nothing is deleted or inserted where nothing changed
    rintro rfl
    have hnone : indexesOf (fun a => !old.contains a) old = [] := by
      rw [List.eq_nil_iff_forall_not_mem]
      intro j hj
      obtain ⟨a, ha, hnot⟩ := mem_indexesOf.mp hj
      simp [List.mem_of_getElem? ha] at hnot
    unfold difference
    simp only [hnone, keep_nil, if_true, and_self]
  · intro i
    rw [List.mem_filter, mem_indexesOf]
    simp [and_comm]

end RealmCpp.Library
