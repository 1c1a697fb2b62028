/-
  RealmCpp.Bridge.Query
  ─────────────────────
  **`internal::bridge::query`: the core query behind one of two storages.**

  The bridge class stores the core query in place when the bridge types are
  generated, and behind a `shared_ptr` otherwise.  Its methods are given here as
  operations on all live bridge queries at once: which of them keep their value
  is what the rest of the development is about.
-/
import RealmCpp.Core.Query
import RealmCpp.Library.Handles

namespace RealmCpp.Bridge

open RealmCpp.Library
open RealmCpp.Core

/-- The live `bridge::query` objects of a build. -/
abbrev Queries (m : Storage) := Handles m Query

variable {m : Storage}

/-- The column conditions and `links_to`, `not_links_to`: the condition is
added to the core query in place, then the object is assigned the result. -/
def addCondition (s : Queries m) (i : Nat) (c : Condition) : Queries m :=
  (s.modify i (·.addCondition c)).assign i ((s.get i).addCondition c)

/-- `query::and_query`: the core query of the receiver is extended in place. -/
def and_query (s : Queries m) (i j : Nat) : Queries m :=
  s.modify i (·.and_query (s.get j))

/-- `lhs = lhs || rhs`. -/
def assign_or (s : Queries m) (i j : Nat) : Queries m :=
  s.assign i ((s.get i).or (s.get j))

/-- `query::negate`. -/
def negate (s : Queries m) (i : Nat) : Queries m :=
  s.assign i (s.get i).not

/-- `query::dictionary_link_subexpr`: the dictionary column is looked up in the
table of the query, and the expression is built from the table that it links to;
the column and the key only select that table. -/
def dictionary_link_subexpr (schema : Schema) (q : Query) (column_key link_column_key : ColKey)
    (_key : String) : Option Subexpr := do
  let table ← schema.get_target_table q.table column_key
  some ⟨table, [], link_column_key, schema.get_column_type table link_column_key⟩

section
variable (s : Queries m) (i j k : Nat) (c : Condition)

@[simp] theorem count_addCondition : (addCondition s i c).count = s.count := by
  simp [addCondition]

@[simp] theorem count_and_query : (and_query s i j).count = s.count := rfl

@[simp] theorem count_assign_or : (assign_or s i j).count = s.count := by simp [assign_or]

@[simp] theorem count_negate : (negate s i).count = s.count := by simp [negate]

@[simp] theorem get_addCondition_self :
    (addCondition s i c).get i = (s.get i).addCondition c := by
  simp [addCondition]

/-- **A column condition reaches every object on the receiver's cell.** -/
theorem get_addCondition {i j : Nat} (hi : i < s.count) (hj : j < s.count) :
    (addCondition s i c).get j
      = if s.Same j i then (s.get i).addCondition c else s.get j := by
  by_cases h : j = i
  · subst h
    rw [get_addCondition_self, if_pos (show s.Same j j from rfl)]
  · unfold addCondition
    rw [Handles.get_assign_of_ne _ _ (by simpa using hi) (by simpa using hj) h,
      Handles.get_modify]

theorem get_and_query :
    (and_query s i j).get k
      = if s.Same k i then (s.get i).and_query (s.get j) else s.get k :=
  Handles.get_modify s i _ k

end

end RealmCpp.Bridge
