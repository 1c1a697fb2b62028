/-
  RealmCpp.Managed.Results
  ────────────────────────
  **RESULTS OF THE SDK, FREEZING AND THAWING.**

  Results of the SDK are results of the core on a realm, which follows the store
  or is frozen at a version.  Freezing and thawing get results for another realm
  from the table, and leave the query and the ordering behind.

    • `where_`, `sort`, `observed`, `freeze`, `thaw` — the operations,
    • `contents` — what the results show,
    • `freeze_thaw_iff` — where freezing and thawing keep it.
-/
import RealmCpp.Core.Results
import Mathlib.Order.Lattice
import Mathlib.Order.Nat

namespace RealmCpp.Managed

open RealmCpp.Core

variable {V W : Type}

/-! ## §1. Realms. -/

/-- A realm: it follows the store, or is frozen at a version. -/
inductive Realm (V W : Type) where
  | live
  | frozen (version : Version V W)

namespace Realm

/-- The version that a realm shows, of a store at the version `s`. -/
def version (s : Version V W) : Realm V W → Version V W
  | live => s
  | frozen v => v

/-- `realm::freeze`: a realm that is frozen stays as it is. -/
def freeze (s : Version V W) : Realm V W → Realm V W
  | live => frozen s
  | frozen v => frozen v

/-- `realm::thaw`. -/
def thaw : Realm V W → Realm V W
  | live => live
  | frozen _ => live

@[simp] theorem version_freeze (s t : Version V W) (m : Realm V W) :
    (m.freeze s).version t = m.version s := by
  cases m <;> rfl

@[simp] theorem version_thaw (s : Version V W) (m : Realm V W) : m.thaw.version s = s := by
  cases m <;> rfl

end Realm

/-! ## §2. Results. -/

/-- Results of the SDK. -/
structure ManagedResults (V W : Type) where
  realm : Realm V W
  parent : Results V W

namespace ManagedResults

/-- `db::objects`. -/
def objects (realm : Realm V W) : ManagedResults V W := ⟨realm, .ofTable⟩

/-- `where`: a query on the table of the results. -/
def where_ (r : ManagedResults V W) (query : Version V W → ObjKey → Bool) : ManagedResults V W :=
  ⟨r.realm, .ofQuery query⟩

/-- `sort`. -/
def sort (r : ManagedResults V W) (descriptors : List SortDescriptor) : ManagedResults V W :=
  ⟨r.realm, r.parent.sort descriptors⟩

/-- The results that `observe` adds its callback to. -/
def observed (r : ManagedResults V W) : ManagedResults V W := ⟨r.realm, .ofTable⟩

/-- `freeze`, in a store at the version `s`. -/
def freeze (s : Version V W) (r : ManagedResults V W) : ManagedResults V W :=
  ⟨r.realm.freeze s, .ofTable⟩

/-- `thaw`. -/
def thaw (r : ManagedResults V W) : ManagedResults V W := ⟨r.realm.thaw, .ofTable⟩

section Contents

variable {K : Type} [LinearOrder K] (column : Version V W → String → ObjKey → K)

/-- **What the results show**, in a store at the version `s`. -/
def contents (r : ManagedResults V W) (s : Version V W) : List ObjKey :=
  r.parent.eval column (r.realm.version s)

theorem contents_objects (s : Version V W) : (objects .live).contents column s = s.rows := by
  simp [contents, objects, Realm.version]

theorem contents_observed (r : ManagedResults V W) (s : Version V W) :
    r.observed.contents column s = (r.realm.version s).rows := by
  simp [contents, observed]

/-- Frozen results show the table as it was. -/
theorem contents_freeze (r : ManagedResults V W) (s t : Version V W) :
    (r.freeze s).contents column t = (r.realm.version s).rows := by
  simp [contents, freeze]

/-- Thawed results show the table as it is. -/
theorem contents_thaw (r : ManagedResults V W) (s : Version V W) :
    r.thaw.contents column s = s.rows := by
  simp [contents, thaw]

/-- **Where freezing and thawing keep what results show**: exactly if that is the
table in its order, when the results are frozen and when they are thawed. -/
theorem freeze_thaw_iff (r : ManagedResults V W) (s s' : Version V W) :
    ((∀ t, (r.freeze s).contents column t = r.contents column s) ∧
        (r.freeze s).thaw.contents column s' = r.parent.eval column s') ↔
      r.contents column s = (r.realm.version s).rows ∧ r.parent.eval column s' = s'.rows := by
  simp only [contents_freeze, contents_thaw]
  constructor
  · rintro ⟨hfreeze, hthaw⟩
    exact ⟨(hfreeze s).symm, hthaw.symm⟩
  · rintro ⟨hcontents, heval⟩
    exact ⟨fun _ => hcontents.symm, heval.symm⟩

end Contents

end ManagedResults

/-- Two rows, which hold 2 and 1. -/
def twoRows : Version Int Unit where
  rows := [⟨0⟩, ⟨1⟩]
  nodup := by decide
  value x := if x = ⟨0⟩ then 2 else 1
  rest := ()

/-- The value of a row, at each key path. -/
def valueColumn (s : Version Int Unit) (_ : String) (x : ObjKey) : Int := s.value x

/-- Sorting them puts the second one first. -/
theorem sortBy_twoRows :
    sortBy (valueColumn twoRows) [⟨"value", true⟩] [⟨0⟩, ⟨1⟩] = [⟨1⟩, ⟨0⟩] := by
  simp [sortBy, List.mergeSort, precedes, valueColumn, twoRows]

/-- **Freezing and thawing lose the filter and the order.** -/
theorem freeze_thaw_lost :
    let filtered := (ManagedResults.objects .live).where_ fun (s : Version Int Unit) x => s.value x = 1
    let sorted := (ManagedResults.objects .live).sort [⟨"value", true⟩]
    ((filtered.freeze twoRows).contents valueColumn twoRows ≠ filtered.contents valueColumn twoRows ∧
      (filtered.freeze twoRows).thaw.contents valueColumn twoRows ≠
        filtered.parent.eval valueColumn twoRows) ∧
    (sorted.freeze twoRows).contents valueColumn twoRows ≠ sorted.contents valueColumn twoRows ∧
      (sorted.freeze twoRows).thaw.contents valueColumn twoRows ≠
        sorted.parent.eval valueColumn twoRows := by
  have hfiltered : (Results.ofQuery fun (s : Version Int Unit) x => s.value x = 1).eval valueColumn
      twoRows = [⟨1⟩] := List.mergeSort_singleton _
  have hsorted : (Results.ofTable.sort [⟨"value", true⟩]).eval valueColumn twoRows = [⟨1⟩, ⟨0⟩] :=
    sortBy_twoRows
  refine ⟨⟨?_, ?_⟩, ?_, ?_⟩
  · rw [ManagedResults.contents_freeze]
    exact fun h => absurd (h.trans hfiltered) (by decide)
  · rw [ManagedResults.contents_thaw]
    exact fun h => absurd (h.trans hfiltered) (by decide)
  · rw [ManagedResults.contents_freeze]
    exact fun h => absurd (h.trans hsorted) (by decide)
  · rw [ManagedResults.contents_thaw]
    exact fun h => absurd (h.trans hsorted) (by decide)

end RealmCpp.Managed
