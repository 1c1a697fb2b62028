/-
  RealmCpp.Core.ChangeSet
  ───────────────────────
  **WHAT THE CORE TELLS AN OBSERVER.**

  A notification carries index sets, which list indexes from the smallest up,
  and the columns that were written to.

    • `IndexSet` — a set of indexes,
    • `CollectionChangeSet` — a change.
-/

namespace RealmCpp.Core

/-- A set of indexes, as `as_indexes` goes through it. -/
structure IndexSet where
  indexes : List Nat
  sorted : indexes.Pairwise (· < ·)
  deriving DecidableEq, Repr

namespace IndexSet

/-- No indexes. -/
def none : IndexSet := ⟨[], .nil⟩

/-- `index_set::empty`. -/
def empty (s : IndexSet) : Bool := s.indexes.isEmpty

/-- One index. -/
def single (i : Nat) : IndexSet := ⟨[i], List.pairwise_singleton _ _⟩

theorem empty_iff {s : IndexSet} : s.empty = true ↔ s.indexes = [] := by
  simp [empty]

end IndexSet

/-- A change.  What `empty` answers is up to the core: it also looks at moves,
but does not answer yes where there is an index or the root was deleted. -/
structure CollectionChangeSet where
  deletions : IndexSet
  insertions : IndexSet
  modifications : IndexSet
  columns : List Int
  collection_root_was_deleted : Bool
  empty : Bool
  of_empty : empty = true → deletions.empty = true ∧ insertions.empty = true ∧
    modifications.empty = true ∧ collection_root_was_deleted = false
  deriving DecidableEq, Repr

/-- No change. -/
def CollectionChangeSet.none : CollectionChangeSet where
  deletions := .none
  insertions := .none
  modifications := .none
  columns := []
  collection_root_was_deleted := false
  empty := true
  of_empty _ := ⟨rfl, rfl, rfl, rfl⟩

end RealmCpp.Core
