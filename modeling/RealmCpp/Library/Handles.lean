/-
  RealmCpp.Library.Handles
  ────────────────────────
  **OBJECTS THAT HOLD THEIR VALUE IN PLACE OR THROUGH A SHARED POINTER — library layer.**

  A class whose only member is a value can be compiled in two ways: the value
  is stored inside the object (copying the object copies the value), or the
  object stores a pointer to it (copying the object shares the value).  Both are
  the same heap of cells with one handle an object; they differ in what copying
  and assigning do to the handles.

    • `Handles.get_assign_of_ne` — assigning to one object never changes another,
      in either mode,
    • `Handles.get_modify` — an in-place change is seen by exactly the objects
      on the same cell,
    • `Handles.same_iff` — stored by value, no two objects are on the same cell,
    • `Handles.deref_eq_some_iff` — a pointer to a cell leads to what an object holds.
-/
import Mathlib.Logic.Function.Basic

namespace RealmCpp.Library

universe u

/-- How an object holds its value. -/
inductive Storage where
  | byValue
  | shared
  deriving DecidableEq, Repr

/-- `count` objects, each on one of the cells below `fresh`.  Stored by value,
every object is on a cell of its own. -/
structure Handles (m : Storage) (α : Type u) where
  cell : Nat → α
  fresh : Nat
  handle : Nat → Nat
  count : Nat
  handle_lt : ∀ i, i < count → handle i < fresh
  own : m = .byValue → ∀ i j, i < count → j < count → handle i = handle j → i = j

namespace Handles

variable {m : Storage} {α : Type u}

/-! ## §1. Reading, and which objects share a cell. -/

/-- The value object `i` holds. -/
def get (s : Handles m α) (i : Nat) : α := s.cell (s.handle i)

/-- Objects `i` and `j` are on the same cell. -/
def Same (s : Handles m α) (i j : Nat) : Prop := s.handle i = s.handle j

instance (s : Handles m α) (i j : Nat) : Decidable (s.Same i j) :=
  inferInstanceAs (Decidable (_ = _))

theorem Same.get_eq {s : Handles m α} {i j : Nat} (h : s.Same i j) : s.get i = s.get j := by
  unfold get
  rw [show s.handle i = s.handle j from h]

/-- **Stored by value, an object shares its cell with no other.** -/
theorem same_iff {s : Handles .byValue α} {i j : Nat} (hi : i < s.count) (hj : j < s.count) :
    s.Same i j ↔ i = j :=
  ⟨s.own rfl i j hi hj, fun h => h ▸ rfl⟩

/-! ## §2. The operations. -/

/-- The state before any object exists. -/
def empty (a : α) : Handles m α where
  cell _ := a
  fresh := 0
  handle _ := 0
  count := 0
  handle_lt _ h := absurd h (Nat.not_lt_zero _)
  own _ _ _ h := absurd h (Nat.not_lt_zero _)

/-- Construct a new object on a new cell. -/
def create (s : Handles m α) (a : α) : Handles m α where
  cell := Function.update s.cell s.fresh a
  fresh := s.fresh + 1
  handle := Function.update s.handle s.count s.fresh
  count := s.count + 1
  handle_lt i hi := by
    by_cases h : i = s.count
    · simp [h]
    · have := s.handle_lt i (by omega)
      simp only [Function.update_of_ne h]
      omega
  own hm i j hi hj h := by
    by_cases hi' : i = s.count <;> by_cases hj' : j = s.count
    · omega
    · have := s.handle_lt j (by omega)
      simp [hi', hj'] at h
      omega
    · have := s.handle_lt i (by omega)
      simp [hi', hj'] at h
      omega
    · simp only [Function.update_of_ne hi', Function.update_of_ne hj'] at h
      exact s.own hm i j (by omega) (by omega) h

/-- Construct a new object on the cell of object `i`. -/
def share (s : Handles .shared α) (i : Nat) (hi : i < s.count) : Handles .shared α where
  cell := s.cell
  fresh := s.fresh
  handle := Function.update s.handle s.count (s.handle i)
  count := s.count + 1
  handle_lt j hj := by
    by_cases h : j = s.count
    · simpa [h] using s.handle_lt i hi
    · simpa [h] using s.handle_lt j (by omega)
  own hm := by cases hm

/-- **Copy construction** of a new object from object `i`: the value is copied,
or the cell is shared. -/
def copy : {m : Storage} → (s : Handles m α) → (i : Nat) → i < s.count → Handles m α
  | .byValue, s, i, _ => s.create (s.get i)
  | .shared, s, i, hi => s.share i hi

/-- Change the value on the cell of object `i`. -/
def modify (s : Handles m α) (i : Nat) (f : α → α) : Handles m α :=
  { s with cell := Function.update s.cell (s.handle i) (f (s.get i)) }

/-- Move object `i` to a new cell holding `a`. -/
def repoint (s : Handles .shared α) (i : Nat) (a : α) : Handles .shared α where
  cell := Function.update s.cell s.fresh a
  fresh := s.fresh + 1
  handle := Function.update s.handle i s.fresh
  count := s.count
  handle_lt j hj := by
    by_cases h : j = i
    · simp [h]
    · have := s.handle_lt j hj
      simp only [Function.update_of_ne h]
      omega
  own hm := by cases hm

/-- **Assignment** to object `i` from a temporary that holds `a`: the value is
overwritten, or the object takes over the temporary's cell. -/
def assign : {m : Storage} → (s : Handles m α) → (i : Nat) → α → Handles m α
  | .byValue, s, i, a => s.modify i fun _ => a
  | .shared, s, i, a => s.repoint i a

/-- Point object `i` at the cell of object `j`. -/
def shareCell (s : Handles .shared α) (i j : Nat) (hj : j < s.count) : Handles .shared α where
  cell := s.cell
  fresh := s.fresh
  handle := Function.update s.handle i (s.handle j)
  count := s.count
  handle_lt k hk := by
    by_cases h : k = i
    · simpa [h] using s.handle_lt j hj
    · simpa [h] using s.handle_lt k hk
  own hm := by cases hm

/-- **Assignment** to object `i` from object `j`: the value is copied over, or the
cell is shared. -/
def assignFrom : {m : Storage} → (s : Handles m α) → (i j : Nat) → j < s.count → Handles m α
  | .byValue, s, i, j, _ => s.modify i fun _ => s.get j
  | .shared, s, i, j, hj => s.shareCell i j hj

/-! ## §3. What an operation does to the objects. -/

@[simp] theorem count_create (s : Handles m α) (a : α) : (s.create a).count = s.count + 1 := rfl

@[simp] theorem count_copy (s : Handles m α) (i : Nat) (hi : i < s.count) :
    (s.copy i hi).count = s.count + 1 := by
  cases m <;> rfl

@[simp] theorem count_modify (s : Handles m α) (i : Nat) (f : α → α) :
    (s.modify i f).count = s.count := rfl

@[simp] theorem count_assign (s : Handles m α) (i : Nat) (a : α) :
    (s.assign i a).count = s.count := by
  cases m <;> rfl

@[simp] theorem get_create_self (s : Handles m α) (a : α) : (s.create a).get s.count = a := by
  simp [get, create]

theorem get_create_of_lt (s : Handles m α) (a : α) {j : Nat} (hj : j < s.count) :
    (s.create a).get j = s.get j := by
  have hne : j ≠ s.count := by omega
  have hlt := s.handle_lt j hj
  simp only [get, create, Function.update_of_ne hne]
  exact Function.update_of_ne (by omega) _ _

theorem handle_create_of_lt (s : Handles m α) (a : α) {j : Nat} (hj : j < s.count) :
    (s.create a).handle j = s.handle j := by
  simp only [create]
  exact Function.update_of_ne (by omega) _ _

/-- **A copy holds the value it was copied from.** -/
@[simp] theorem get_copy_self (s : Handles m α) (i : Nat) (hi : i < s.count) :
    (s.copy i hi).get s.count = s.get i := by
  cases m with
  | byValue => exact get_create_self s _
  | shared => simp [get, copy, share]

theorem get_copy_of_lt (s : Handles m α) (i : Nat) (hi : i < s.count) {j : Nat}
    (hj : j < s.count) : (s.copy i hi).get j = s.get j := by
  cases m with
  | byValue => exact get_create_of_lt s _ hj
  | shared =>
      have hne : j ≠ s.count := by omega
      simp [get, copy, share, hne]

theorem handle_copy_of_lt (s : Handles m α) (i : Nat) (hi : i < s.count) {j : Nat}
    (hj : j < s.count) : (s.copy i hi).handle j = s.handle j := by
  cases m with
  | byValue => exact handle_create_of_lt s _ hj
  | shared =>
      have hne : j ≠ s.count := by omega
      simp [copy, share, hne]

/-- A copy is on the cell of its source when the cell is shared, and on no
earlier object's cell otherwise. -/
theorem same_copy (s : Handles m α) (i : Nat) (hi : i < s.count) {j : Nat} (hj : j < s.count) :
    (s.copy i hi).Same s.count j ↔ m = .shared ∧ s.Same i j := by
  have hne : j ≠ s.count := by omega
  cases m with
  | byValue =>
      have := s.handle_lt j hj
      simp only [Same, copy, create, Function.update_self, Function.update_of_ne hne]
      constructor
      · intro h; omega
      · rintro ⟨h, -⟩; cases h
  | shared => simp [Same, copy, share, hne]

/-- **An in-place change is seen on exactly the objects of the same cell.** -/
theorem get_modify (s : Handles m α) (i : Nat) (f : α → α) (j : Nat) :
    (s.modify i f).get j = if s.Same j i then f (s.get i) else s.get j := by
  by_cases h : s.handle j = s.handle i <;> simp [get, modify, Same, h]

@[simp] theorem get_modify_self (s : Handles m α) (i : Nat) (f : α → α) :
    (s.modify i f).get i = f (s.get i) := by
  simp [get_modify, Same]

theorem get_modify_of_not_same (s : Handles m α) (i : Nat) (f : α → α) {j : Nat}
    (h : ¬ s.Same j i) : (s.modify i f).get j = s.get j := by
  rw [get_modify, if_neg h]

/-- **The assigned object holds the assigned value.** -/
@[simp] theorem get_assign_self (s : Handles m α) (i : Nat) (a : α) :
    (s.assign i a).get i = a := by
  cases m with
  | byValue => exact get_modify_self s i (fun _ => a)
  | shared => simp [get, assign, repoint]

/-- **No other object notices an assignment**, in either storage mode. -/
theorem get_assign_of_ne (s : Handles m α) {i j : Nat} (a : α) (hi : i < s.count)
    (hj : j < s.count) (h : j ≠ i) : (s.assign i a).get j = s.get j := by
  cases m with
  | byValue => exact get_modify_of_not_same s i (fun _ => a) (fun hs => h ((same_iff hj hi).mp hs))
  | shared =>
      have hlt := s.handle_lt j hj
      simp only [get, assign, repoint, Function.update_of_ne h]
      exact Function.update_of_ne (by omega) _ _

@[simp] theorem count_assignFrom (s : Handles m α) (i j : Nat) (hj : j < s.count) :
    (s.assignFrom i j hj).count = s.count := by
  cases m <;> rfl

@[simp] theorem get_assignFrom_self (s : Handles m α) (i j : Nat) (hj : j < s.count) :
    (s.assignFrom i j hj).get i = s.get j := by
  cases m with
  | byValue => exact get_modify_self s i fun _ => s.get j
  | shared => simp [get, assignFrom, shareCell]

theorem get_assignFrom_of_ne (s : Handles m α) {i j k : Nat} (hj : j < s.count) (hi : i < s.count)
    (hk : k < s.count) (h : k ≠ i) : (s.assignFrom i j hj).get k = s.get k := by
  cases m with
  | byValue =>
      exact get_modify_of_not_same s i (fun _ => s.get j) fun hs => h ((same_iff hk hi).mp hs)
  | shared => simp [get, assignFrom, shareCell, Function.update_of_ne h]

theorem handle_assign_of_ne (s : Handles m α) {i j : Nat} (a : α) (h : j ≠ i) :
    (s.assign i a).handle j = s.handle j := by
  cases m with
  | byValue => rfl
  | shared => simp [assign, repoint, h]

/-- After an assignment the object shares its cell with no other. -/
theorem not_same_assign (s : Handles m α) {i j : Nat} (a : α) (hi : i < s.count)
    (hj : j < s.count) (h : j ≠ i) : ¬ (s.assign i a).Same j i := by
  cases m with
  | byValue => exact fun hs => h (s.own rfl j i hj hi hs)
  | shared =>
      have hlt := s.handle_lt j hj
      simp only [Same, assign, repoint, Function.update_of_ne h, Function.update_self]
      omega

/-- Assigning object `i` changes who shares a cell only where `i` is involved. -/
theorem same_assign_of_ne (s : Handles m α) {i j k : Nat} (a : α) (hj : j ≠ i) (hk : k ≠ i) :
    (s.assign i a).Same j k ↔ s.Same j k := by
  simp only [Same, handle_assign_of_ne s a hj, handle_assign_of_ne s a hk]

theorem same_copy_of_lt (s : Handles m α) (i : Nat) (hi : i < s.count) {j k : Nat}
    (hj : j < s.count) (hk : k < s.count) : (s.copy i hi).Same j k ↔ s.Same j k := by
  simp only [Same, handle_copy_of_lt s i hi hj, handle_copy_of_lt s i hi hk]

/-! ## §4. Pointers to cells. -/

/-- What is behind a pointer to a cell; nothing where no object is on it. -/
def deref {β : Type u} (s : Handles m (Option β)) (p : Nat) : Option β :=
  if ∃ j < s.count, s.handle j = p then s.cell p else none

/-- Write to a cell. -/
def write (s : Handles m α) (p : Nat) (a : α) : Handles m α :=
  { s with cell := Function.update s.cell p a }

end Handles

end RealmCpp.Library
