/-
  RealmCpp.Core.Set
  ─────────────────
  **THE SETS OF THE CORE.**

  A set of the core has its elements at indices, in an order of its own.  `insert`
  returns an index and whether the element is new.
-/
import Mathlib.Data.List.Perm.Basic
import Mathlib.Data.Multiset.AddSub

namespace RealmCpp.Core

/-- A set of core values, in the order of their indices. -/
structure CoreSet (C : Type) where
  elements : List C
  nodup : elements.Nodup
  deriving DecidableEq

namespace CoreSet

variable {C : Type}

/-- `remove_all`. -/
def empty : CoreSet C := ⟨[], List.nodup_nil⟩

/-- Where a new element goes; `place` is the core's choice. -/
def position (place : List C → C → Nat) (set : CoreSet C) (c : C) : Nat :=
  min (place set.elements c) set.elements.length

theorem position_le (place : List C → C → Nat) (set : CoreSet C) (c : C) :
    set.position place c ≤ set.elements.length :=
  Nat.min_le_right _ _

theorem nodup_insertIdx {l : List C} (hl : l.Nodup) {c : C} (hc : c ∉ l) {i : Nat}
    (hi : i ≤ l.length) : (l.insertIdx i c).Nodup :=
  (List.perm_insertIdx c l hi).nodup_iff.mpr (List.nodup_cons.mpr ⟨hc, hl⟩)

variable [DecidableEq C]

/-- `insert`: the index of the element, and whether it is new. -/
def insert (place : List C → C → Nat) (set : CoreSet C) (c : C) : CoreSet C × Nat × Bool :=
  if h : c ∈ set.elements then (set, set.elements.idxOf c, false)
  else
    (⟨set.elements.insertIdx (set.position place c) c,
        nodup_insertIdx set.nodup h (set.position_le place c)⟩,
      set.position place c, true)

/-- `find`; none is `npos`. -/
def find (set : CoreSet C) (c : C) : Option Nat :=
  if c ∈ set.elements then some (set.elements.idxOf c) else none

/-- `remove`. -/
def remove (set : CoreSet C) (c : C) : CoreSet C :=
  ⟨set.elements.erase c, set.nodup.erase c⟩

/-- `size`. -/
def size (set : CoreSet C) : Nat := set.elements.length

section Lemmas

variable (place : List C → C → Nat) (set : CoreSet C) (c : C)

end Lemmas

end CoreSet

end RealmCpp.Core
