/-
  RealmCpp.Managed.List
  ─────────────────────
  **FILTERING AND SORTING LISTS.**

  A list of objects is filtered and sorted through the table that its links lead
  to: rows that are not in the list come along, and repetitions are lost.  A
  list of primitives sorts its own values.

    • `where_`, `sort`, `PrimitiveList.sort` — the operations,
    • `filter_perm_iff` — a list against the rows of its table,
    • `list_results_iff` — where the results are those of the list.
-/
import RealmCpp.Managed.Results

namespace RealmCpp.Managed

open RealmCpp.Core

variable {V W : Type}

/-- `managed<std::vector<T*>>`: the realm, and the links in the list, which lead
to rows of the table of `T`. -/
structure ManagedList (V W : Type) where
  realm : Realm V W
  list : Version V W → List ObjKey
  subset : ∀ s, list s ⊆ s.rows

namespace ManagedList

/-- `where`: a query on the target table. -/
def where_ (l : ManagedList V W) (query : Version V W → ObjKey → Bool) : ManagedResults V W :=
  ⟨l.realm, .ofQuery query⟩

/-- `sort`: results of the target table. -/
def sort (l : ManagedList V W) (descriptors : List SortDescriptor) : ManagedResults V W :=
  (ManagedResults.objects l.realm).sort descriptors

/-- What the list shows, in a store at the version `s`. -/
def contents (l : ManagedList V W) (s : Version V W) : List ObjKey := l.list (l.realm.version s)

end ManagedList

/-- `managed<std::vector<T>>::sort`: the list sorts its values. -/
def PrimitiveList.sort {α : Type} [LinearOrder α] (list : List α) (ascending : Bool) : List α :=
  sortBy (fun _ v => v) [⟨"self", ascending⟩] list

/-- **A list against the rows of its table**: they have the same elements that
satisfy `p` exactly if none of these is outside the list or in it twice. -/
theorem filter_perm_iff {α : Type} {rows l : List α} (hrows : rows.Nodup) (hl : l ⊆ rows)
    (p : α → Bool) : (rows.filter p).Perm (l.filter p) ↔
      (l.filter p).Nodup ∧ ∀ x ∈ rows, p x = true → x ∈ l := by
  constructor
  · intro h
    refine ⟨h.nodup_iff.mp (hrows.filter p), fun x hx hp => ?_⟩
    exact (List.mem_filter.mp (h.subset (List.mem_filter.mpr ⟨hx, hp⟩))).1
  · rintro ⟨hnodup, hall⟩
    rw [List.perm_ext_iff_of_nodup (hrows.filter p) hnodup]
    intro x
    rw [List.mem_filter, List.mem_filter]
    exact ⟨fun ⟨hx, hp⟩ => ⟨hall x hx hp, hp⟩, fun ⟨hx, hp⟩ => ⟨hl hx, hp⟩⟩

section Lists

variable {K : Type} [LinearOrder K] (column : Version V W → String → ObjKey → K)

namespace ManagedList

theorem contents_where (l : ManagedList V W) (query : Version V W → ObjKey → Bool)
    (s : Version V W) : ((l.where_ query).contents column s).Perm
      ((l.realm.version s).rows.filter (query (l.realm.version s))) :=
  Results.eval_perm column _ _

theorem contents_sort (l : ManagedList V W) (ds : List SortDescriptor) (s : Version V W) :
    (l.sort ds).contents column s = sortBy (column (l.realm.version s)) ds (l.realm.version s).rows := by
  simp [ManagedResults.contents, sort, ManagedResults.sort, ManagedResults.objects, Results.sort,
    Results.ofTable, Results.eval]

theorem where_iff (l : ManagedList V W) (query : Version V W → ObjKey → Bool) (s : Version V W) :
    ((l.where_ query).contents column s).Perm
        ((l.contents s).filter (query (l.realm.version s))) ↔
      ((l.contents s).filter (query (l.realm.version s))).Nodup ∧
        ∀ x ∈ (l.realm.version s).rows, query (l.realm.version s) x = true → x ∈ l.contents s := by
  have hsub : l.contents s ⊆ (l.realm.version s).rows := l.subset _
  rw [← filter_perm_iff (l.realm.version s).nodup hsub]
  exact ⟨(l.contents_where column query s).symm.trans, (l.contents_where column query s).trans⟩

theorem sort_iff (l : ManagedList V W) (ds : List SortDescriptor) (s : Version V W) :
    ((l.sort ds).contents column s).Perm (l.contents s) ↔
      (l.contents s).Nodup ∧ ∀ x ∈ (l.realm.version s).rows, x ∈ l.contents s := by
  rw [contents_sort]
  have hperm := sortBy_perm (column (l.realm.version s)) ds (l.realm.version s).rows
  have hsub : l.contents s ⊆ (l.realm.version s).rows := l.subset _
  have hall := filter_perm_iff (l.realm.version s).nodup hsub fun _ => true
  simp only [List.filter_true, forall_const] at hall
  exact ⟨fun h => hall.mp (hperm.symm.trans h), fun h => hperm.trans (hall.mpr h)⟩

end ManagedList

/-- **Where filtering and sorting a list works on the list.**  Of a list of
objects, exactly if no other rows of the table are concerned and none is in the
list twice; the order is always that of the descriptors.  Lists of primitives
are sorted as they are. -/
theorem list_results_iff (l : ManagedList V W) (s : Version V W) :
    (∀ query : Version V W → ObjKey → Bool,
      ((l.where_ query).contents column s).Perm
          ((l.contents s).filter (query (l.realm.version s))) ↔
        ((l.contents s).filter (query (l.realm.version s))).Nodup ∧
          ∀ x ∈ (l.realm.version s).rows, query (l.realm.version s) x = true →
            x ∈ l.contents s) ∧
    (∀ ds, (((l.sort ds).contents column s).Perm (l.contents s) ↔
        (l.contents s).Nodup ∧ ∀ x ∈ (l.realm.version s).rows, x ∈ l.contents s) ∧
      ((l.sort ds).contents column s).Pairwise fun x y =>
        precedes (column (l.realm.version s)) ds x y = true) ∧
    ∀ (list : List K) (ascending : Bool), (PrimitiveList.sort list ascending).Perm list ∧
      (PrimitiveList.sort list ascending).Pairwise fun v w =>
        precedes (fun _ v => v) [⟨"self", ascending⟩] v w = true := by
  refine ⟨fun query => l.where_iff column query s, fun ds => ⟨l.sort_iff column ds s, ?_⟩, ?_⟩
  · rw [l.contents_sort]
    exact pairwise_sortBy _ _ _
  · exact fun list ascending => ⟨sortBy_perm _ _ _, pairwise_sortBy _ _ _⟩

end Lists

/-- A list with the first of two rows. -/
def firstRow : ManagedList Int Unit where
  realm := .live
  list s := s.rows.take 1
  subset s := List.take_subset 1 s.rows

/-- **The other row of the table comes along.** -/
theorem list_results_other_row :
    ¬ ((firstRow.where_ fun _ _ => true).contents valueColumn twoRows).Perm
        ((firstRow.contents twoRows).filter fun _ => true) ∧
      ¬ ((firstRow.sort [⟨"value", true⟩]).contents valueColumn twoRows).Perm
        (firstRow.contents twoRows) := by
  constructor
  · intro h
    have hlength := ((firstRow.contents_where valueColumn _ twoRows).symm.trans h).length_eq
    exact absurd hlength (by decide)
  · intro h
    rw [firstRow.contents_sort valueColumn] at h
    have hlength := ((sortBy_perm (valueColumn twoRows) _ _).symm.trans h).length_eq
    exact absurd hlength (by decide)

end RealmCpp.Managed
