/-
  RealmCpp.Core.Store
  ───────────────────
  **THE OBJECTS OF A STORE, AND WRITING TO THEIR COLUMNS.**

  An object is found by its table and its key, and through the primary keys of
  its table.  Each column of an object has a cell.

    • `Objects.create_object`, `create_object_with_primary_key` — new objects,
    • `Store.writes` — a journal of writes, and `Store.writes_eq_some_iff`, its
      effect on each cell.
-/
import RealmCpp.Core.Cells

namespace RealmCpp.Core

open RealmCpp.Library

/-! ## §1. Objects. -/

/-- An object of a store. -/
structure Ref where
  table : TableKey
  key : ObjKey
  deriving DecidableEq, Repr

/-- The link to an object, as a column holds it. -/
def Ref.link (x : Ref) : Mixed := .link x.table x.key

theorem Ref.link_inj {x y : Ref} : x.link = y.link ↔ x = y := by
  cases x
  cases y
  simp [Ref.link]

/-- The objects of a store: which are live, the next free key of each table, and
the object of each primary key. -/
structure Objects where
  live : Ref → Bool
  next : TableKey → Nat
  index : TableKey → Mixed → Option ObjKey

namespace Objects

/-- `table::create_object`: an object at the next key of the table. -/
def create_object (A : Objects) (t : TableKey) : Objects × Ref :=
  ({ A with
      live := Function.update A.live ⟨t, ⟨A.next t⟩⟩ true
      next := Function.update A.next t (A.next t + 1) }, ⟨t, ⟨A.next t⟩⟩)

/-- `table::create_object_with_primary_key`: the object with that key, which is
created if there is none. -/
def create_object_with_primary_key (A : Objects) (t : TableKey) (pk : Mixed) : Objects × Ref :=
  match A.index t pk with
  | some key => (A, ⟨t, key⟩)
  | none =>
      let (A', x) := A.create_object t
      ({ A' with index := fun t' m => if t' = t ∧ m = pk then some x.key else A'.index t' m }, x)

end Objects

/-! ## §2. Stores. -/

/-- A store: its objects and the cells of their columns. -/
structure Store extends Objects where
  cells : Ref × String → Cell

namespace Store

/-- The cell of a column of an object. -/
def cell (S : Store) (x : Ref) (col : String) : Cell := S.cells (x, col)

/-- Replace a cell. -/
def setCell (S : Store) (x : Ref) (col : String) (c : Cell) : Store :=
  { S with cells := Function.update S.cells (x, col) c }

/-- The store after a write to a column of an object; none where it raises. -/
def tryWrite (S : Store) (x : Ref) (col : String) (w : Write) : Option Store :=
  (w.apply (S.cell x col)).map (S.setCell x col)

/-- The object a link column links to. -/
def get_linked_object (S : Store) (x : Ref) (col : String) : Option Ref :=
  match S.cell x col with
  | [(_, .link t k)] => some ⟨t, k⟩
  | _ => none

@[simp] theorem setCell_cell_self (S : Store) (x : Ref) (col : String) (c : Cell) :
    (S.setCell x col c).cell x col = c :=
  Function.update_self _ _ _

/-- Only that cell is replaced. -/
theorem setCell_cell (S : Store) (x y : Ref) (col col' : String) (c : Cell) :
    (S.setCell x col c).cell y col' = if y = x ∧ col' = col then c else S.cell y col' := by
  show Function.update S.cells (x, col) c (y, col') = _
  rw [Function.update_apply]
  simp only [Prod.mk.injEq]
  rfl

/-- Writing different cells gives different stores. -/
theorem setCell_inj (S : Store) {x : Ref} {col : String} {c c' : Cell} :
    S.setCell x col c = S.setCell x col c' ↔ c = c' := by
  refine ⟨fun h => ?_, fun h => by rw [h]⟩
  have hcell := congrArg (fun S' => S'.cell x col) h
  simpa using hcell

/-! ## §3. Journals. -/

/-- The store with other objects and the same cells. -/
def withObjects (S : Store) (A : Objects) : Store := { S with toObjects := A }

/-- The store after a journal of writes; none where one of them raises. -/
def writes (S : Store) (es : List ((Ref × String) × Write)) : Option Store :=
  (replay Write.apply es S.cells).map fun m => { S with cells := m }

@[simp] theorem writes_nil (S : Store) : S.writes [] = some S := rfl

theorem writes_append (S : Store) (es es' : List ((Ref × String) × Write)) :
    S.writes (es ++ es') = (S.writes es).bind (·.writes es') := by
  unfold writes
  rw [replay_append]
  cases replay Write.apply es S.cells <;> rfl

/-- **A journal writes to each cell by itself**, and creates no objects. -/
theorem writes_eq_some_iff {S S' : Store} {es : List ((Ref × String) × Write)} :
    S.writes es = some S' ↔ S'.toObjects = S.toObjects ∧
      ∀ x col, runWrites Write.apply (writesAt (x, col) es) (S.cell x col)
        = some (S'.cell x col) := by
  have hcells : (∀ x col, runWrites Write.apply (writesAt (x, col) es) (S.cell x col)
      = some (S'.cell x col)) ↔ replay Write.apply es S.cells = some S'.cells := by
    rw [replay_eq_some_iff]
    exact ⟨fun h k => h k.1 k.2, fun h x col => h (x, col)⟩
  rw [hcells]
  unfold writes
  rw [Option.map_eq_some_iff]
  constructor
  · intro ⟨m, hm, hS'⟩
    subst hS'
    exact ⟨rfl, hm⟩
  · intro ⟨hobj, hm⟩
    refine ⟨S'.cells, hm, ?_⟩
    rw [← hobj]

/-- A journal can be replayed where the writes to each cell can be run. -/
theorem exists_writes_iff {S : Store} {es : List ((Ref × String) × Write)} :
    (∃ S', S.writes es = some S') ↔
      ∀ x col, ∃ c, runWrites Write.apply (writesAt (x, col) es) (S.cell x col) = some c := by
  have hreplay : (∃ S', S.writes es = some S') ↔ ∃ m, replay Write.apply es S.cells = some m := by
    unfold writes
    cases replay Write.apply es S.cells <;> simp
  rw [hreplay, exists_replay_iff]
  exact ⟨fun h x col => h (x, col), fun h k => h k.1 k.2⟩

theorem writes_toObjects {S S' : Store} {es : List ((Ref × String) × Write)}
    (h : S.writes es = some S') : S'.toObjects = S.toObjects :=
  (writes_eq_some_iff.mp h).1

/-- Creating objects and writing do not disturb each other. -/
theorem writes_withObjects (S : Store) (A : Objects) (es : List ((Ref × String) × Write)) :
    (S.withObjects A).writes es = (S.writes es).map (·.withObjects A) := by
  show (replay Write.apply es S.cells).map _ = ((replay Write.apply es S.cells).map _).map _
  cases replay Write.apply es S.cells <;> rfl

end Store

end RealmCpp.Core
