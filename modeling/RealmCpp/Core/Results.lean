/-
  RealmCpp.Core.Results
  ─────────────────────
  **RESULTS OF THE CORE.**

  Results are a query on the rows of a table, and an ordering.  They are
  evaluated in a version of the store: the rows that the query takes, in the
  order of the table, are sorted by the descriptors of the ordering.

    • `Version` — what results can see of the store,
    • `precedes` — the order of a list of descriptors,
    • `Results.eval` — the rows, `eval_perm` which and `pairwise_eval` in which order.
-/
import RealmCpp.Core.Data
import Mathlib.Data.List.Nodup
import Mathlib.Order.Lattice

namespace RealmCpp.Core

/-! ## §1. Versions. -/

/-- A version of the store: the rows of the table in their order, what each of
them holds, and the rest of the store. -/
structure Version (V W : Type) where
  rows : List ObjKey
  nodup : rows.Nodup
  value : ObjKey → V
  rest : W

/-- A version without rows. -/
def Version.clear {V W : Type} (s : Version V W) : Version V W := { s with rows := [], nodup := .nil }

/-- Write to a row. -/
def Version.set {V W : Type} (s : Version V W) (x : ObjKey) (v : V) : Version V W :=
  { s with value := fun y => if y = x then v else s.value y }

/-- The rows that are not the same in two versions. -/
def Version.Modified {V W : Type} (s s' : Version V W) (x : ObjKey) : Prop := s.value x ≠ s'.value x

/-! ## §2. Orderings. -/

/-- `sort_descriptor`. -/
structure SortDescriptor where
  key_path : String
  ascending : Bool
  deriving DecidableEq, Repr

section Orderings

variable {α K : Type} [LinearOrder K] (column : String → α → K)

/-- Not behind another one: the first descriptor that tells them apart decides. -/
def precedes : List SortDescriptor → α → α → Bool
  | [], _, _ => true
  | d :: ds, x, y =>
      if column d.key_path x = column d.key_path y then precedes ds x y
      else if d.ascending then column d.key_path x < column d.key_path y
      else column d.key_path y < column d.key_path x

theorem precedes_total (ds : List SortDescriptor) (x y : α) :
    (precedes column ds x y || precedes column ds y x) = true := by
  induction ds with
  | nil => rfl
  | cons d ds ih =>
    unfold precedes
    by_cases heq : column d.key_path x = column d.key_path y
    · simpa [heq] using ih
    · have hlt := lt_or_gt_of_ne heq
      rw [if_neg heq, if_neg (Ne.symm heq)]
      cases d.ascending <;> simpa [or_comm] using hlt

theorem precedes_trans (ds : List SortDescriptor) (x y z : α) (hxy : precedes column ds x y = true)
    (hyz : precedes column ds y z = true) : precedes column ds x z = true := by
  induction ds with
  | nil => rfl
  | cons d ds ih =>
    unfold precedes at hxy hyz ⊢
    by_cases hab : column d.key_path x = column d.key_path y
    · by_cases hbc : column d.key_path y = column d.key_path z
      · rw [if_pos hab] at hxy
        rw [if_pos hbc] at hyz
        rw [if_pos (hab.trans hbc)]
        exact ih hxy hyz
      · rw [hab, if_neg hbc]
        rw [if_neg hbc] at hyz
        exact hyz
    · -- the first descriptor decides where the columns differ
      by_cases hbc : column d.key_path y = column d.key_path z
      · rw [← hbc, if_neg hab]
        rw [if_neg hab] at hxy
        exact hxy
      · -- both columns differ, in the direction of the descriptor
        rw [if_neg hab] at hxy
        rw [if_neg hbc] at hyz
        cases hascending : d.ascending with
        | true =>
          simp only [hascending, if_true, decide_eq_true_eq] at hxy hyz ⊢
          have hlt := lt_trans hxy hyz
          rw [if_neg (ne_of_lt hlt)]
          exact decide_eq_true hlt
        | false =>
          simp only [hascending, Bool.false_eq_true, if_false, decide_eq_true_eq] at hxy hyz ⊢
          have hlt := lt_trans hyz hxy
          rw [if_neg (ne_of_gt hlt)]
          exact decide_eq_true hlt

/-- Sort by the descriptors; what they do not tell apart stays in its order. -/
def sortBy (ds : List SortDescriptor) (l : List α) : List α := l.mergeSort (precedes column ds)

theorem sortBy_perm (ds : List SortDescriptor) (l : List α) : (sortBy column ds l).Perm l :=
  List.mergeSort_perm l _

/-- **What is sorted is in order.** -/
theorem pairwise_sortBy (ds : List SortDescriptor) (l : List α) :
    (sortBy column ds l).Pairwise fun x y => precedes column ds x y = true :=
  List.pairwise_mergeSort (precedes_trans column ds) (precedes_total column ds) l

@[simp] theorem sortBy_nil (l : List α) : sortBy column [] l = l :=
  List.mergeSort_of_pairwise (List.pairwise_of_forall fun _ _ => rfl)

@[simp] theorem sortBy_of_nil (ds : List SortDescriptor) : sortBy column ds [] = [] :=
  List.mergeSort_nil

end Orderings

/-! ## §3. Results. -/

/-- Results: a query on the rows of the table, and an ordering. -/
structure Results (V W : Type) where
  query : Version V W → ObjKey → Bool
  ordering : List SortDescriptor

namespace Results

variable {V W : Type}

/-- All rows of the table. -/
def ofTable : Results V W := ⟨fun _ _ => true, []⟩

/-- The rows that a query takes. -/
def ofQuery (query : Version V W → ObjKey → Bool) : Results V W := ⟨query, []⟩

/-- `Results::sort`: the new descriptors come before those there are. -/
def sort (r : Results V W) (descriptors : List SortDescriptor) : Results V W :=
  { r with ordering := descriptors ++ r.ordering }

section Eval

variable {K : Type} [LinearOrder K] (column : Version V W → String → ObjKey → K)

/-- **The rows of the results**, in a version of the store. -/
def eval (r : Results V W) (s : Version V W) : List ObjKey :=
  sortBy (column s) r.ordering (s.rows.filter (r.query s))

/-- The rows that the query takes, each once. -/
theorem eval_perm (r : Results V W) (s : Version V W) :
    (r.eval column s).Perm (s.rows.filter (r.query s)) :=
  sortBy_perm _ _ _

theorem pairwise_eval (r : Results V W) (s : Version V W) :
    (r.eval column s).Pairwise fun x y => precedes (column s) r.ordering x y = true :=
  pairwise_sortBy _ _ _

@[simp] theorem eval_ofTable (s : Version V W) : (ofTable : Results V W).eval column s = s.rows := by
  simp [eval, ofTable]

@[simp] theorem eval_clear (r : Results V W) (s : Version V W) : r.eval column s.clear = [] := by
  simp [eval, Version.clear]

end Eval

end Results

end RealmCpp.Core
