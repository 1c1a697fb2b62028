/-
  RealmCpp.Accessors.Placement
  ────────────────────────────
  **WHERE OBJECTS ARE STORED, AND WHAT IS WRITTEN THERE.**

  Which stored object an unmanaged one becomes depends on the primary keys and
  the free keys of the store alone, not on what its columns hold.  So storing
  falls apart: `place` gives each object of the tree its row, and `events` is
  the journal of all that is then written, in order.

    • `place`, `events` — the rows, and the journal,
    • `setObject_eq` — storing is placing, then replaying the journal.
-/
import RealmCpp.Accessors.Object

namespace RealmCpp.Accessors

open RealmCpp.Library
open RealmCpp.Core

variable {K : DecimalText}

/-! ## §1. Placing. -/

/-- An unmanaged object, each object of it with the row it is stored in. -/
inductive Placed where
  | node (row : Ref) (cls : TableKey) (props : List (String × List (String × Slot Mixed Placed)))

namespace Placed

def row : Placed → Ref
  | node x _ _ => x

def cls : Placed → TableKey
  | node _ t _ => t

def props : Placed → List (String × Content Mixed Placed)
  | node _ _ ps => ps

/-- What a property holds. -/
def content (P : Placed) (name : String) : Content Mixed Placed :=
  (P.props.lookup name).getD []

end Placed

mutual

/-- The rows of the objects behind `u`, which itself is stored in `x`. -/
def place (σ : Schemas) (x : Ref) : Unmanaged → Objects → Objects × Placed
  | .node t props, A =>
      let (A', ps) := placeProperties σ props A
      (A', .node x t ps)
termination_by structural u => u

def placeProperties (σ : Schemas) :
    List (String × List (String × Slot Mixed Unmanaged)) → Objects →
      Objects × List (String × List (String × Slot Mixed Placed))
  | [], A => (A, [])
  | (name, es) :: ps, A =>
      let (A₁, es') := placeEntries σ es A
      let (A₂, ps') := placeProperties σ ps A₁
      (A₂, (name, es') :: ps')
termination_by structural ps => ps

def placeEntries (σ : Schemas) :
    List (String × Slot Mixed Unmanaged) → Objects →
      Objects × List (String × Slot Mixed Placed)
  | [], A => (A, [])
  | (key, .null) :: es, A =>
      let (A', es') := placeEntries σ es A
      (A', (key, .null) :: es')
  | (key, .scalar m) :: es, A =>
      let (A', es') := placeEntries σ es A
      (A', (key, .scalar m) :: es')
  | (key, .object u) :: es, A =>
      let (A₁, y) := create σ A u
      let (A₂, P) := place σ y u A₁
      let (A₃, es') := placeEntries σ es A₂
      (A₃, (key, .object P) :: es')
termination_by structural es => es

end

/-! ## §2. The journal. -/

/-- A write with the cell it goes to. -/
abbrev Event := (Ref × String) × Write

mutual

/-- All writes of storing a placed object. -/
def events (K : DecimalText) (σ : Schemas) : Placed → List Event
  | .node x _ ps => eventsProperties K σ x ps
termination_by structural P => P

def eventsProperties (K : DecimalText) (σ : Schemas) (x : Ref) :
    List (String × List (String × Slot Mixed Placed)) → List Event
  | [] => []
  | (name, es) :: ps =>
      let a := (σ.kind x.table name).accessor K σ
      journal x name (a.values (scalars es)) ++ eventsEntries K σ a x name 0 es ++
        eventsProperties K σ x ps
termination_by structural ps => ps

def eventsEntries (K : DecimalText) (σ : Schemas) (a : Accessor) (x : Ref) (name : String) (i : Nat) :
    List (String × Slot Mixed Placed) → List Event
  | [] => []
  | (key, .null) :: es => journal x name (a.null key) ++ eventsEntries K σ a x name (i + 1) es
  | (_, .scalar _) :: es => eventsEntries K σ a x name (i + 1) es
  | (key, .object P) :: es =>
      journal x name (a.before i key P.row.link) ++ events K σ P ++
        journal x name (a.after key P.row.link) ++ eventsEntries K σ a x name (i + 1) es
termination_by structural es => es

end

/-- The values of a property are the same before and after placing. -/
theorem scalars_placeEntries (σ : Schemas) (es : Content Mixed Unmanaged) (A : Objects) :
    scalars (placeEntries σ es A).2 = scalars es := by
  induction es generalizing A with
  | nil => rfl
  | cons e es ih =>
    obtain ⟨key, s⟩ := e
    cases s with
    | null => exact ih A
    | scalar m =>
      show (key, m) :: scalars (placeEntries σ es A).2 = _
      rw [ih A]
      rfl
    | object u => exact ih _

theorem place_row (σ : Schemas) (x : Ref) (u : Unmanaged) (A : Objects) :
    (place σ x u A).2.row = x := by
  cases u
  rfl

theorem setEntries_object (σ : Schemas) (a : Accessor) (x : Ref) (name : String) (i : Nat)
    (key : String) (u : Unmanaged) (es : Content Mixed Unmanaged) (S : Store) :
    setEntries K σ a x name i ((key, .object u) :: es) S =
      ((S.withObjects (create σ S.toObjects u).1).writes
          (journal x name (a.before i key (create σ S.toObjects u).2.link))).bind fun S₁ =>
        (setObject K σ (create σ S.toObjects u).2 u S₁).bind fun S₂ =>
          (S₂.writes (journal x name (a.after key (create σ S.toObjects u).2.link))).bind
            fun S₃ => setEntries K σ a x name (i + 1) es S₃ := rfl

theorem placeEntries_object (σ : Schemas) (key : String) (u : Unmanaged)
    (es : Content Mixed Unmanaged) (A : Objects) :
    placeEntries σ ((key, .object u) :: es) A =
      ((placeEntries σ es (place σ (create σ A u).2 u (create σ A u).1).1).1,
        (key, .object (place σ (create σ A u).2 u (create σ A u).1).2) ::
          (placeEntries σ es (place σ (create σ A u).2 u (create σ A u).1).1).2) := rfl

/-- A step that places and writes, after writes. -/
theorem writes_bind {S : Store} {j es : List Event} {A' : Objects} {f : Store → Option Store}
    (hf : ∀ S₁ : Store, S₁.toObjects = S.toObjects → f S₁ = (S₁.withObjects A').writes es) :
    (S.writes j).bind f = (S.withObjects A').writes (j ++ es) := by
  rw [Store.writes_append, Store.writes_withObjects]
  cases hj : S.writes j with
  | none => rfl
  | some S₁ => exact hf S₁ (Store.writes_toObjects hj)

mutual

/-- **Storing is placing, then replaying the journal.** -/
theorem setObject_eq (σ : Schemas) (x : Ref) : ∀ (u : Unmanaged) (S : Store),
    setObject K σ x u S = (S.withObjects (place σ x u S.toObjects).1).writes
      (events K σ (place σ x u S.toObjects).2)
  | .node _ props, S => setProperties_eq σ x props S
termination_by structural u => u

theorem setProperties_eq (σ : Schemas) (x : Ref) :
    ∀ (ps : List (String × List (String × Slot Mixed Unmanaged))) (S : Store),
    setProperties K σ x ps S = (S.withObjects (placeProperties σ ps S.toObjects).1).writes
      (eventsProperties K σ x (placeProperties σ ps S.toObjects).2)
  | [], S => rfl
  | (name, es) :: ps, S => by
      show (S.writes (journal x name _)).bind (fun S₁ => (setEntries K σ _ x name 0 es S₁).bind
        fun S₂ => setProperties K σ x ps S₂) = (Store.withObjects S _).writes
          (journal x name _ ++ eventsEntries K σ _ x name 0 _ ++ eventsProperties K σ x _)
      rw [scalars_placeEntries, List.append_assoc]
      apply writes_bind
      intro S₁ hS₁
      rw [setEntries_eq σ _ x name 0 es S₁, hS₁]
      apply writes_bind
      intro S₂ hS₂
      rw [setProperties_eq σ x ps S₂, hS₂]
      rfl
termination_by structural ps => ps

theorem setEntries_eq (σ : Schemas) (a : Accessor) (x : Ref) (name : String) (i : Nat) :
    ∀ (es : List (String × Slot Mixed Unmanaged)) (S : Store),
    setEntries K σ a x name i es S = (S.withObjects (placeEntries σ es S.toObjects).1).writes
      (eventsEntries K σ a x name i (placeEntries σ es S.toObjects).2)
  | [], S => rfl
  | (key, .null) :: es, S => by
      show (S.writes _).bind _ = _
      apply writes_bind
      intro S₁ hS₁
      rw [setEntries_eq σ a x name (i + 1) es S₁, hS₁]
      rfl
  | (_, .scalar _) :: es, S => setEntries_eq σ a x name (i + 1) es S
  | (key, .object u) :: es, S => by
      rw [setEntries_object, placeEntries_object]
      obtain ⟨A, y⟩ := create σ S.toObjects u
      -- create, write, store the object, write, and go on
      show ((S.withObjects A).writes (journal x name (a.before i key y.link))).bind _
        = (Store.withObjects S _).writes (journal x name (a.before i key _) ++ events K σ _ ++
          journal x name (a.after key _) ++ eventsEntries K σ a x name (i + 1) _)
      rw [place_row, List.append_assoc, List.append_assoc]
      refine writes_bind (S := S.withObjects A) ?_
      intro S₁ hS₁
      rw [setObject_eq σ y u S₁, hS₁]
      refine writes_bind (S := S₁.withObjects _) ?_
      intro S₂ hS₂
      apply writes_bind
      intro S₃ hS₃
      rw [setEntries_eq σ a x name (i + 1) es S₃, hS₃, hS₂]
      rfl
termination_by structural es => es

end

end RealmCpp.Accessors
