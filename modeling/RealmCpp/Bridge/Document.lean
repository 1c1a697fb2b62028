/-
  RealmCpp.Bridge.Document
  ────────────────────────
  **`bsoncxx::document`: a core document behind one of two storages.**

  `bson.cpp` stores the core document in the object, or behind a `shared_ptr`.
  Every method works on what is stored: `insert` and `operator[]` write to it in
  place, in both builds.
-/
import RealmCpp.Library.Assoc
import RealmCpp.Library.Copies

namespace RealmCpp.Bridge

open RealmCpp.Library

variable {B : Type}

/-- `realm::bson::BsonDocument`: an indexed map, with its entries in the order in
which the keys were added. -/
structure CoreDocument (B : Type) where
  entries : List (String × B)
  nodup : (entries.map Prod.fst).Nodup
  deriving DecidableEq

namespace CoreDocument

def empty : CoreDocument B := ⟨[], List.nodup_nil⟩

/-- `document[key] = b`. -/
def set (document : CoreDocument B) (key : String) (b : B) : CoreDocument B :=
  ⟨put document.entries key b, nodup_put document.nodup key b⟩

theorem set_eq_self_iff {document : CoreDocument B} {key : String} {b : B} :
    document.set key b = document ↔ document.entries.lookup key = some b := by
  rw [← put_eq_self_iff, CoreDocument.mk.injEq]
  rfl

/-- The document with what an initializer list has. -/
def ofList (l : List (String × B)) : CoreDocument B :=
  l.foldl (fun core_document e => core_document.set e.1 e.2) empty

end CoreDocument

/-- What a program reads from a document. -/
inductive DocumentRead (B : Type) where
  | value (b : B)
  | empty (b : Bool)
  | size (n : Nat)
  | document (document : CoreDocument B)
  deriving DecidableEq

/-- The methods of a document: `index_set` is an assignment to what `operator[]`
returned, `index` its conversion to a value, and `core` the conversion to a core
document, which is what is compared and iterated over. -/
inductive DocumentMethod (B : Type) where
  | insert (key : String) (b : B)
  | index_set (key : String) (b : B)
  | index (key : String)
  | empty
  | size
  | core

namespace DocumentMethod

variable [Inhabited B]

/-- What a method does.  A key that is read is there afterwards, at null. -/
def apply : DocumentMethod B → CoreDocument B → CoreDocument B × List (DocumentRead B)
  | insert key b, document => (document.set key b, [])
  | index_set key b, document => (document.set key b, [])
  | index key, document =>
      match document.entries.lookup key with
      | some b => (document, [.value b])
      | none => (document.set key default, [.value default])
  | empty, document => (document, [.empty document.entries.isEmpty])
  | size, document => (document, [.size document.entries.length])
  | core, document => (document, [.document document])

/-- The document has already what a method writes. -/
def Keeps : DocumentMethod B → CoreDocument B → Prop
  | insert key b, document | index_set key b, document => document.entries.lookup key = some b
  | index key, document => ∃ b, document.entries.lookup key = some b
  | _, _ => True

theorem keeps_iff (method : DocumentMethod B) (document : CoreDocument B) :
    method.Keeps document ↔ (method.apply document).1 = document := by
  cases method with
  | insert key b => exact CoreDocument.set_eq_self_iff.symm
  | index_set key b => exact CoreDocument.set_eq_self_iff.symm
  | index key =>
    show (∃ b, document.entries.lookup key = some b) ↔ _
    unfold apply
    cases hlookup : document.entries.lookup key with
    | some b => simp [hlookup]
    | none =>
      have hset : document.set key default ≠ document := by
        intro heq
        rw [CoreDocument.set_eq_self_iff, hlookup] at heq
        cases heq
      simp [hlookup, hset]
  | _ => exact ⟨fun _ => rfl, fun _ => trivial⟩

/-- A method as an update: what is read is the document, and nothing is outside. -/
def update (method : DocumentMethod B) :
    Update (fun (document : CoreDocument B) (_ : Unit) => document) (DocumentRead B) where
  apply document _ := ((method.apply document).1, (), (method.apply document).2)
  Keeps document _ := method.Keeps document
  Spares _ _ _ := True
  keeps_iff document _ := method.keeps_iff document
  spares_iff _ _ _ := iff_of_true trivial rfl

end DocumentMethod

/-- An operation of a program on documents. -/
inductive DocumentOp (B : Type) where
  | construct (l : List (String × B))
  | copy (i : Nat)
  | move (i : Nat)
  | assign (i j : Nat)
  | moveAssign (i j : Nat)
  | destroy (i : Nat)
  | call (i : Nat) (method : DocumentMethod B)

/-- What a move leaves behind: assignment moves from a `const` document, which is
a copy. -/
def documentMoves (moved : CoreDocument B → CoreDocument B) : Program.Moves (CoreDocument B) :=
  ⟨moved, id⟩

/-- The operation, in either build. -/
def DocumentOp.op [Inhabited B] : DocumentOp B →
    Op (fun (document : CoreDocument B) (_ : Unit) => document) (DocumentRead B)
  | construct l => .construct (.ofList l)
  | copy i => .copy i
  | move i => .move i
  | assign i j => .assign i j
  | moveAssign i j => .moveAssign i j
  | destroy i => .destroy i
  | call i method => .update i method.update

end RealmCpp.Bridge
