/-
  RealmCpp.Library.StdString
  ──────────────────────────
  **`std::string` — library layer.**

  A string is a sequence of characters.  `s[i]` is a character for an index up to the
  size, where it is a `'\0'` that may be written over with `'\0'` only; for others it is
  undefined what it does, as for the ends of an empty string.  A modification invalidates
  the references to characters, other than one through such a reference.

    • `Reply` — what a call comes to, `char_at`, `put_char` — `s[i]`,
    • `StringCall` — the calls, `StringState.step` — what they do.
-/
import Mathlib.Logic.Function.Basic
import RealmCpp.Library.Sequence

namespace RealmCpp.Library

/-- What a call comes to. -/
inductive Reply (α : Type) where
  | returned (a : α)
  | raised
  | undefined
  deriving DecidableEq

def Reply.isUndefined {α : Type} : Reply α → Bool
  | undefined => true
  | returned _ | raised => false

theorem Reply.isUndefined_iff {α : Type} (x : Reply α) : x.isUndefined = true ↔ x = .undefined := by
  cases x <;> simp [isUndefined]

/-- The characters. -/
abbrev StdString := Sequence UInt8

namespace StdString

/-- `s[i]` is read; none is undefined. -/
def char_at (s : StdString) (i : UInt64) : Option UInt8 :=
  if i.toNat = s.elements.length then some 0 else s.get i

/-- `s[i] = c`; none is undefined. -/
def put_char (s : StdString) (i : UInt64) (c : UInt8) : Option StdString :=
  if i.toNat = s.elements.length then if c = 0 then some s else none
  else s.set i c

end StdString

/-! ## §1. Calls. -/

/-- A character to write to. -/
inductive Element where
  | «at» (idx : UInt64)
  | subscript (idx : UInt64)
  | front
  | back
  | data (idx : UInt64)
  deriving DecidableEq

/-- A character to read. -/
inductive ConstElement where
  | front
  | back
  | data (idx : UInt64)
  | c_str (idx : UInt64)
  deriving DecidableEq

/-- The calls.  `write` is an assignment to an element, `s.at(i) = c`, and `read` reads
one; a program may also keep the reference to an element, as its number `r`. -/
inductive StringCall where
  | assign (v : StdString)
  | append (v : StdString)
  | add_assign (v : StdString)
  | push_back (c : UInt8)
  | pop_back
  | clear
  | size
  | detach
  | write (e : Element) (c : UInt8)
  | read (e : ConstElement)
  | keep (r : Nat) (e : Element)
  | write_kept (r : Nat) (c : UInt8)
  | keep_const (r : Nat) (e : ConstElement)
  | read_kept (r : Nat)

/-- What a call returns. -/
abbrev StringCall.Value : StringCall → Type
  | assign _ | append _ | add_assign _ | push_back _ | pop_back | clear => Unit
  | write _ _ | keep _ _ | write_kept _ _ | keep_const _ _ => Unit
  | size => UInt64
  | detach => StdString
  | read _ | read_kept _ => UInt8

/-! ## §2. What they do. -/

/-- A string, and the references that are valid. -/
structure StringState where
  value : StdString
  references : Nat → Option UInt64
  const_references : Nat → Option UInt64

namespace StringState

/-- Another value; no reference is valid after that. -/
def invalidate (u : StringState) (v : StdString) : StringState :=
  { u with value := v, references := fun _ => none, const_references := fun _ => none }

/-- The element that is referred to. -/
def element (u : StringState) : Element → Reply UInt64
  | .«at» idx => if idx.toNat < u.value.elements.length then .returned idx else .raised
  | .subscript idx | .data idx =>
      if idx.toNat ≤ u.value.elements.length then .returned idx else .undefined
  | .front => if u.value.elements.length = 0 then .undefined else .returned 0
  | .back => if u.value.elements.length = 0 then .undefined else .returned (u.value.size - 1)

def const_element (u : StringState) : ConstElement → Reply UInt64
  | .data idx | .c_str idx =>
      if idx.toNat ≤ u.value.elements.length then .returned idx else .undefined
  | .front => if u.value.elements.length = 0 then .undefined else .returned 0
  | .back => if u.value.elements.length = 0 then .undefined else .returned (u.value.size - 1)

/-- An assignment to the character at an index. -/
def put (u : StringState) (i : UInt64) (c : UInt8) : Reply Unit × StringState :=
  match u.value.put_char i c with
  | some v => (.returned (), { u with value := v })
  | none => (.undefined, u)

/-- A character is read. -/
def char (u : StringState) (i : UInt64) : Reply UInt8 :=
  match u.value.char_at i with
  | some c => .returned c
  | none => .undefined

/-- A modification that raises where the string would be too long. -/
def grow (u : StringState) : Option StdString → Reply Unit × StringState
  | some v => (.returned (), u.invalidate v)
  | none => (.raised, u)

/-- The calls. -/
def step (u : StringState) : (c : StringCall) → Reply c.Value × StringState
  | .assign v => (.returned (), u.invalidate v)
  | .append v | .add_assign v => u.grow (u.value.append v)
  | .push_back c => u.grow (u.value.push c)
  | .pop_back =>
      match u.value.pop with
      | some v => (.returned (), u.invalidate v)
      | none => (.undefined, u)
  | .clear => (.returned (), u.invalidate .empty)
  | .size => (.returned u.value.size, u)
  | .detach => (.returned u.value, u)
  | .write e c =>
      match u.element e with
      | .returned i => u.put i c
      | .raised => (.raised, u)
      | .undefined => (.undefined, u)
  | .read e =>
      match u.const_element e with
      | .returned i => (u.char i, u)
      | .raised => (.raised, u)
      | .undefined => (.undefined, u)
  | .keep r e =>
      match u.element e with
      | .returned i =>
          (.returned (), { u with references := Function.update u.references r (some i) })
      | .raised => (.raised, u)
      | .undefined => (.undefined, u)
  | .write_kept r c =>
      match u.references r with
      | some i => u.put i c
      | none => (.undefined, u)
  | .keep_const r e =>
      match u.const_element e with
      | .returned i =>
          (.returned (), { u with const_references := Function.update u.const_references r (some i) })
      | .raised => (.raised, u)
      | .undefined => (.undefined, u)
  | .read_kept r =>
      match u.const_references r with
      | some i => (u.char i, u)
      | none => (.undefined, u)

/-- Once a call was undefined, everything is: there is no state. -/
def stepDefined : Option StringState → (c : StringCall) → Reply c.Value × Option StringState
  | none, _ => (.undefined, none)
  | some u, c => ((u.step c).1, if (u.step c).1.isUndefined then none else some (u.step c).2)

theorem stepDefined_some {u u' : StringState} {c : StringCall}
    (h : (stepDefined (some u) c).2 = some u') : (u.step c).1 ≠ .undefined ∧ (u.step c).2 = u' := by
  have hsome : (if (u.step c).1.isUndefined then none else some (u.step c).2) = some u' := h
  rw [Ne, ← Reply.isUndefined_iff]
  by_cases hundefined : (u.step c).1.isUndefined = true
  · rw [if_pos hundefined] at hsome
    simp at hsome
  · rw [if_neg hundefined] at hsome
    exact ⟨hundefined, Option.some.inj hsome⟩

end StringState

end RealmCpp.Library
