/-
  RealmCpp.Managed.ManagedString
  ──────────────────────────────
  **A MANAGED STRING AND `std::string`.**

  `managed<std::string>` reads the column, modifies a copy, and writes it back.  A
  reference to a character is an index, and reads and writes the whole string when it is
  used.  A program makes calls and keeps references; it is run side by side with one on a
  `std::string`, as long as that is defined.  What each reference was asked for is noted
  beside the run, as the use of a reference to an end of an empty string should be inside
  of the string.

    • `StringProperty` — the methods,
    • `StringCorresponds` — the string is that of the column,
    • `WatchedString` — what the references that are kept were asked for,
    • `StepRight` — what a call should do, `StringMeets` — where it does,
    • `managed_string_simulates_iff` — along whole runs, `managed_string_run` — their ends.
-/
import RealmCpp.Library.Client
import RealmCpp.Library.StdString

namespace RealmCpp.Managed

open RealmCpp.Library

/-! ## §1. Managed strings. -/

/-- `char_reference` and `const_char_reference`; the parent is the property. -/
structure CharReference where
  m_idx : UInt64
  deriving DecidableEq

/-- The column, and the references that the program keeps. -/
structure StringProperty where
  column : StdString
  references : Nat → Option CharReference
  const_references : Nat → Option CharReference

namespace StringProperty

/-- `get`. -/
def get (p : StringProperty) : StdString := p.column

/-- `set`. -/
def set (p : StringProperty) (v : StdString) : StringProperty := { p with column := v }

/-- `size`. -/
def size (p : StringProperty) : UInt64 := p.get.size

/-- `at`, `operator[]`, `front`, `back`, and `operator[]` of `data`; none of them reads the
string, other than for its size. -/
def element (p : StringProperty) : Element → CharReference
  | .«at» idx => ⟨idx⟩
  | .subscript idx => ⟨idx⟩
  | .front => ⟨0⟩
  | .back => ⟨p.size - 1⟩
  | .data idx => ⟨idx⟩

/-- `front`, `back`, and `operator[]` of `data` and `c_str`, of what is `const`. -/
def const_element (p : StringProperty) : ConstElement → CharReference
  | .front => ⟨0⟩
  | .back => ⟨p.size - 1⟩
  | .data idx => ⟨idx⟩
  | .c_str idx => ⟨idx⟩

/-- `char_reference::operator=`: `value[m_idx] = c` on a copy. -/
def assign_char (p : StringProperty) (r : CharReference) (c : UInt8) :
    Reply Unit × StringProperty :=
  match p.get.put_char r.m_idx c with
  | some value => (.returned (), p.set value)
  | none => (.undefined, p)

/-- `const_char_reference::operator char`. -/
def char (p : StringProperty) (r : CharReference) : Reply UInt8 :=
  match p.get.char_at r.m_idx with
  | some c => .returned c
  | none => .undefined

/-- A modification of a copy that raises where the string would be too long. -/
def grow (p : StringProperty) : Option StdString → Reply Unit × StringProperty
  | some value => (.returned (), p.set value)
  | none => (.raised, p)

/-- The calls, on a managed string. -/
def handle (p : StringProperty) : (c : StringCall) → Reply c.Value × StringProperty
  | .assign v => (.returned (), p.set v)
  | .append v | .add_assign v => p.grow (p.get.append v)
  | .push_back c => p.grow (p.get.push c)
  | .pop_back =>
      match p.get.pop with
      | some value => (.returned (), p.set value)
      | none => (.undefined, p)
  | .clear => (.returned (), p.set .empty)
  | .size => (.returned p.size, p)
  | .detach => (.returned p.get, p)
  | .write e c => p.assign_char (p.element e) c
  | .read e => (p.char (p.const_element e), p)
  | .keep r e =>
      (.returned (), { p with references := Function.update p.references r (some (p.element e)) })
  | .write_kept r c =>
      match p.references r with
      | some ref => p.assign_char ref c
      | none => (.undefined, p)
  | .keep_const r e =>
      (.returned (), { p with
        const_references := Function.update p.const_references r (some (p.const_element e)) })
  | .read_kept r =>
      match p.const_references r with
      | some ref => (p.char ref, p)
      | none => (.undefined, p)

end StringProperty

/-! ## §2. Strings that correspond. -/

/-- **The string is that of the column**, and its references have their indices; where the
program is not defined any more, there is no string. -/
structure StringCorresponds (p : StringProperty) (t : Option StringState) : Prop where
  value : ∀ u, t = some u → p.column = u.value
  references : ∀ u, t = some u → ∀ r i, u.references r = some i → p.references r = some ⟨i⟩
  const_references : ∀ u, t = some u → ∀ r i, u.const_references r = some i →
    p.const_references r = some ⟨i⟩

section Corresponds

variable {p p' : StringProperty} {u u' : StringState}

theorem stringCorresponds_some (hvalue : p.column = u.value)
    (hreferences : ∀ r i, u.references r = some i → p.references r = some ⟨i⟩)
    (hconst : ∀ r i, u.const_references r = some i → p.const_references r = some ⟨i⟩) :
    StringCorresponds p (some u) where
  value := by
    intro u' h
    rw [← Option.some.inj h]
    exact hvalue
  references := by
    intro u' h
    rw [← Option.some.inj h]
    exact hreferences
  const_references := by
    intro u' h
    rw [← Option.some.inj h]
    exact hconst

/-- A value is written; references stay. -/
theorem stringCorresponds_put (h : StringCorresponds p (some u)) (v : StdString) :
    StringCorresponds (p.set v) (some { u with value := v }) :=
  stringCorresponds_some rfl (h.references u rfl) (h.const_references u rfl)

/-- References that are not valid need not be anything. -/
theorem stringCorresponds_invalidate (p : StringProperty) (u : StringState) (v : StdString) :
    StringCorresponds (p.set v) (some (u.invalidate v)) :=
  stringCorresponds_some rfl (fun _ _ h => absurd h (by simp [StringState.invalidate]))
    (fun _ _ h => absurd h (by simp [StringState.invalidate]))

/-- Both do the same, unless the string is not defined there. -/
def SameReply {α : Type} (out : Reply α × StringProperty) (out' : Reply α × StringState) : Prop :=
  out'.1 ≠ .undefined → out.1 = out'.1 ∧ StringCorresponds out.2 (some out'.2)

theorem sameReply_put (h : StringCorresponds p (some u)) (i : UInt64) (c : UInt8) :
    SameReply (p.assign_char ⟨i⟩ c) (u.put i c) := by
  unfold StringProperty.assign_char StringState.put StringProperty.get
  rw [h.value u rfl]
  cases u.value.put_char i c with
  | none => exact fun hdefined => absurd rfl hdefined
  | some v => exact fun _ => ⟨rfl, stringCorresponds_put h v⟩

theorem char_eq (h : StringCorresponds p (some u)) (i : UInt64) : p.char ⟨i⟩ = u.char i := by
  have hsame : p.char ⟨i⟩ = StringState.char { u with value := p.column } i := rfl
  rw [hsame, h.value u rfl]

/-- A reference is kept in both, and the others stay what they are. -/
theorem references_update {refs : Nat → Option UInt64} {refs' : Nat → Option CharReference}
    (h : ∀ r i, refs r = some i → refs' r = some ⟨i⟩) (r : Nat) (i : UInt64) :
    ∀ r' i', Function.update refs r (some i) r' = some i' →
      Function.update refs' r (some ⟨i⟩) r' = some ⟨i'⟩ := by
  intro r' i' hr'
  by_cases hr : r' = r
  · subst hr
    rw [Function.update_self] at hr' ⊢
    rw [Option.some.inj hr']
  · rw [Function.update_of_ne hr] at hr' ⊢
    exact h r' i' hr'

theorem sameReply_grow (h : StringCorresponds p (some u)) (v : Option StdString) :
    SameReply (p.grow v) (u.grow v) := by
  intro _
  cases v with
  | none => exact ⟨rfl, h⟩
  | some v => exact ⟨rfl, stringCorresponds_invalidate p u v⟩

/-- An index that is returned under a condition, or unless there is one. -/
theorem reference_of_then {P : Prop} [Decidable P] {i j : UInt64} {r : Reply UInt64}
    (hr : r ≠ .returned i) (he : (if P then .returned j else r) = .returned i) :
    CharReference.mk j = ⟨i⟩ := by
  split at he
  · exact congrArg CharReference.mk (Reply.returned.inj he)
  · exact absurd he hr

theorem reference_of_else {P : Prop} [Decidable P] {i j : UInt64} {r : Reply UInt64}
    (hr : r ≠ .returned i) (he : (if P then r else .returned j) = .returned i) :
    CharReference.mk j = ⟨i⟩ := by
  split at he
  · exact absurd he hr
  · exact congrArg CharReference.mk (Reply.returned.inj he)

/-- An element that is there has the index of its reference. -/
theorem element_eq (h : StringCorresponds p (some u)) {e : Element} {i : UInt64}
    (he : u.element e = .returned i) : p.element e = ⟨i⟩ := by
  have hvalue := h.value u rfl
  cases e with
  | «at» idx | subscript idx | data idx => exact reference_of_then (by simp) he
  | front => exact reference_of_else (by simp) he
  | back =>
    show CharReference.mk (p.column.size - 1) = _
    rw [hvalue]
    exact reference_of_else (by simp) he

theorem const_element_eq (h : StringCorresponds p (some u)) {e : ConstElement} {i : UInt64}
    (he : u.const_element e = .returned i) : p.const_element e = ⟨i⟩ := by
  have hvalue := h.value u rfl
  cases e with
  | data idx | c_str idx => exact reference_of_then (by simp) he
  | front => exact reference_of_else (by simp) he
  | back =>
    show CharReference.mk (p.column.size - 1) = _
    rw [hvalue]
    exact reference_of_else (by simp) he

/-- An element to read is there or undefined. -/
theorem const_element_ne_raised (u : StringState) (e : ConstElement) :
    u.const_element e ≠ .raised := by
  cases e with
  | data idx | c_str idx =>
    simp only [StringState.const_element]
    split <;> simp
  | front | back =>
    simp only [StringState.const_element]
    split <;> simp

/-- Only `at` raises, out of its range. -/
theorem element_raised {u : StringState} {e : Element} (he : u.element e = .raised) :
    ∃ idx, e = .«at» idx ∧ u.value.elements.length ≤ idx.toNat := by
  cases e with
  | «at» idx =>
    simp only [StringState.element] at he
    split at he
    · simp at he
    · exact ⟨idx, rfl, by omega⟩
  | subscript idx | data idx =>
    simp only [StringState.element] at he
    split at he <;> simp at he
  | front | back =>
    simp only [StringState.element] at he
    split at he <;> simp at he

/-! ## §3. Calls. -/

/-- `at` with an index that is out of range. -/
def AtOutOfRange (v : StdString) : StringCall → Prop
  | .write (.«at» idx) _ => v.elements.length ≤ idx.toNat
  | .keep _ (.«at» idx) => v.elements.length ≤ idx.toNat
  | _ => False

/-- **Where it is defined, the managed string does what the string does**, if no index of
`at` is out of range. -/
theorem handle_agrees (h : StringCorresponds p (some u)) (c : StringCall)
    (hat : ¬ AtOutOfRange p.column c) : SameReply (p.handle c) (u.step c) := by
  have hvalue : p.get = u.value := h.value u rfl
  cases c with
  | assign v => exact fun _ => ⟨rfl, stringCorresponds_invalidate p u v⟩
  | append v | add_assign v =>
    show SameReply (p.grow (p.get.append v)) (u.grow (u.value.append v))
    rw [hvalue]
    exact sameReply_grow h _
  | push_back c =>
    show SameReply (p.grow (p.get.push c)) (u.grow (u.value.push c))
    rw [hvalue]
    exact sameReply_grow h _
  | pop_back =>
    simp only [StringProperty.handle, StringState.step, hvalue]
    cases u.value.pop with
    | none => exact fun hdefined => absurd rfl hdefined
    | some v => exact fun _ => ⟨rfl, stringCorresponds_invalidate p u v⟩
  | clear => exact fun _ => ⟨rfl, stringCorresponds_invalidate p u .empty⟩
  | size => exact fun _ => ⟨congrArg (fun v => Reply.returned (Sequence.size v)) hvalue, h⟩
  | detach => exact fun _ => ⟨congrArg Reply.returned hvalue, h⟩
  | write e c =>
    simp only [StringProperty.handle, StringState.step]
    cases he : u.element e with
    | returned i =>
      rw [element_eq h he]
      exact sameReply_put h i c
    | raised =>
      -- `at` would raise, but its index is in range
      obtain ⟨idx, rfl, hidx⟩ := element_raised he
      exact absurd (by rw [← hvalue] at hidx; exact hidx) hat
    | undefined => exact fun hdefined => absurd rfl hdefined
  | read e =>
    simp only [StringProperty.handle, StringState.step]
    cases he : u.const_element e with
    | returned i =>
      rw [const_element_eq h he]
      exact fun _ => ⟨char_eq h i, h⟩
    | raised => exact absurd he (const_element_ne_raised u e)
    | undefined => exact fun hdefined => absurd rfl hdefined
  | keep r e =>
    simp only [StringProperty.handle, StringState.step]
    cases he : u.element e with
    | returned i =>
      rw [element_eq h he]
      refine fun _ => ⟨rfl, stringCorresponds_some hvalue ?_ (h.const_references u rfl)⟩
      exact references_update (h.references u rfl) r i
    | raised =>
      obtain ⟨idx, rfl, hidx⟩ := element_raised he
      exact absurd (by rw [← hvalue] at hidx; exact hidx) hat
    | undefined => exact fun hdefined => absurd rfl hdefined
  | write_kept r c =>
    simp only [StringProperty.handle, StringState.step]
    cases hr : u.references r with
    | none => exact fun hdefined => absurd rfl hdefined
    | some i =>
      rw [h.references u rfl r i hr]
      exact sameReply_put h i c
  | keep_const r e =>
    simp only [StringProperty.handle, StringState.step]
    cases he : u.const_element e with
    | returned i =>
      rw [const_element_eq h he]
      refine fun _ => ⟨rfl, stringCorresponds_some hvalue (h.references u rfl) ?_⟩
      exact references_update (h.const_references u rfl) r i
    | raised => exact absurd he (const_element_ne_raised u e)
    | undefined => exact fun hdefined => absurd rfl hdefined
  | read_kept r =>
    simp only [StringProperty.handle, StringState.step]
    cases hr : u.const_references r with
    | none => exact fun hdefined => absurd rfl hdefined
    | some i =>
      rw [h.const_references u rfl r i hr]
      exact fun _ => ⟨char_eq h i, h⟩

end Corresponds

/-! ## §4. References that are watched. -/

/-- What a reference was asked for: an end of the string, which was empty then or not, or
an index. -/
inductive Asked where
  | anEnd (empty : Bool)
  | index
  deriving DecidableEq

namespace StringProperty

variable (p : StringProperty)

/-- The string has no characters. -/
def empty : Bool := p.column.elements.length = 0

def asked : Element → Asked
  | .front | .back => .anEnd p.empty
  | .«at» _ | .subscript _ | .data _ => .index

def const_asked : ConstElement → Asked
  | .front | .back => .anEnd p.empty
  | .data _ | .c_str _ => .index

theorem empty_iff : p.empty = true ↔ p.column.elements.length = 0 := decide_eq_true_iff

theorem assign_char_references (r : CharReference) (c : UInt8) :
    (p.assign_char r c).2.references = p.references ∧
      (p.assign_char r c).2.const_references = p.const_references := by
  unfold assign_char
  cases p.get.put_char r.m_idx c with
  | none => exact ⟨rfl, rfl⟩
  | some v => exact ⟨rfl, rfl⟩

theorem grow_references (v : Option StdString) :
    (p.grow v).2.references = p.references ∧
      (p.grow v).2.const_references = p.const_references := by
  cases v with
  | none => exact ⟨rfl, rfl⟩
  | some v => exact ⟨rfl, rfl⟩

end StringProperty

/-- **A managed string whose references are watched**: beside the index, it is known what
each one that is kept was asked for. -/
structure WatchedString where
  property : StringProperty
  asked : Nat → Option Asked
  const_asked : Nat → Option Asked
  kept : ∀ r, property.references r = none → asked r = none
  const_kept : ∀ r, property.const_references r = none → const_asked r = none

namespace WatchedString

variable (w : WatchedString)

def askedAfter : StringCall → Nat → Option Asked
  | .keep r e => Function.update w.asked r (some (w.property.asked e))
  | _ => w.asked

def const_askedAfter : StringCall → Nat → Option Asked
  | .keep_const r e => Function.update w.const_asked r (some (w.property.const_asked e))
  | _ => w.const_asked

/-- What is kept under a number is known. -/
theorem update_kept {refs : Nat → Option CharReference} {asked : Nat → Option Asked}
    (h : ∀ r, refs r = none → asked r = none) (r : Nat) (ref : CharReference) (a : Asked) :
    ∀ r', Function.update refs r (some ref) r' = none →
      Function.update asked r (some a) r' = none := by
  intro r' hr'
  by_cases hr : r' = r
  · subst hr
    rw [Function.update_self] at hr'
    cases hr'
  · rw [Function.update_of_ne hr] at hr' ⊢
    exact h r' hr'

/-- Only `keep` changes what is kept. -/
theorem kept_handle (c : StringCall) :
    ∀ r, (w.property.handle c).2.references r = none → w.askedAfter c r = none := by
  cases c with
  | keep r e => exact update_kept w.kept r _ _
  | append v | add_assign v | push_back c =>
    show ∀ r, (w.property.grow _).2.references r = none → w.asked r = none
    rw [(w.property.grow_references _).1]
    exact w.kept
  | write e c =>
    show ∀ r, (w.property.assign_char _ c).2.references r = none → w.asked r = none
    rw [(w.property.assign_char_references _ c).1]
    exact w.kept
  | write_kept r c =>
    simp only [StringProperty.handle, askedAfter]
    cases w.property.references r with
    | none => exact w.kept
    | some ref =>
      simp only [(w.property.assign_char_references ref c).1]
      exact w.kept
  | pop_back =>
    simp only [StringProperty.handle, askedAfter]
    cases w.property.get.pop with
    | none => exact w.kept
    | some v => exact w.kept
  | read_kept r =>
    simp only [StringProperty.handle, askedAfter]
    cases w.property.const_references r with
    | none => exact w.kept
    | some ref => exact w.kept
  | assign _ | clear | size | detach | read _ | keep_const _ _ => exact w.kept

theorem const_kept_handle (c : StringCall) :
    ∀ r, (w.property.handle c).2.const_references r = none → w.const_askedAfter c r = none := by
  cases c with
  | keep_const r e => exact update_kept w.const_kept r _ _
  | append v | add_assign v | push_back c =>
    show ∀ r, (w.property.grow _).2.const_references r = none → w.const_asked r = none
    rw [(w.property.grow_references _).2]
    exact w.const_kept
  | write e c =>
    show ∀ r, (w.property.assign_char _ c).2.const_references r = none → w.const_asked r = none
    rw [(w.property.assign_char_references _ c).2]
    exact w.const_kept
  | write_kept r c =>
    simp only [StringProperty.handle, const_askedAfter]
    cases w.property.references r with
    | none => exact w.const_kept
    | some ref =>
      simp only [(w.property.assign_char_references ref c).2]
      exact w.const_kept
  | pop_back =>
    simp only [StringProperty.handle, const_askedAfter]
    cases w.property.get.pop with
    | none => exact w.const_kept
    | some v => exact w.const_kept
  | read_kept r =>
    simp only [StringProperty.handle, const_askedAfter]
    cases w.property.const_references r with
    | none => exact w.const_kept
    | some ref => exact w.const_kept
  | assign _ | clear | size | detach | read _ | keep _ _ => exact w.const_kept

/-- The calls, and what is known after them. -/
def handle (c : StringCall) : Reply c.Value × WatchedString where
  fst := (w.property.handle c).1
  snd := {
    property := (w.property.handle c).2
    asked := w.askedAfter c
    const_asked := w.const_askedAfter c
    kept := w.kept_handle c
    const_kept := w.const_kept_handle c }

/-- **Watching changes nothing** of a run. -/
theorem run_handle {ρ : Type} (program : Client StringCall (fun c => Reply c.Value) ρ) :
    (program.run handle w).1 = (program.run StringProperty.handle w.property).1 ∧
      (program.run handle w).2.property = (program.run StringProperty.handle w.property).2 := by
  induction program generalizing w with
  | ret r => exact ⟨rfl, rfl⟩
  | call c k ih => exact ih (w.handle c).1 (w.handle c).2

end WatchedString

/-! ## §5. What a call should do. -/

section Calls

variable {p : StringProperty}

/-- The strings still correspond after it. -/
theorem stringCorresponds_step {t : Option StringState} (h : StringCorresponds p t) (c : StringCall)
    (hat : ¬ AtOutOfRange p.column c) :
    StringCorresponds (p.handle c).2 (StringState.stepDefined t c).2 := by
  have hafter : ∀ u', (StringState.stepDefined t c).2 = some u' →
      StringCorresponds (p.handle c).2 (some u') := by
    intro u' hu'
    cases t with
    | none => simp [StringState.stepDefined] at hu'
    | some u =>
      obtain ⟨hdefined, rfl⟩ := StringState.stepDefined_some hu'
      exact (handle_agrees h c hat hdefined).2
  exact ⟨fun u hu => (hafter u hu).value u rfl, fun u hu => (hafter u hu).references u rfl,
    fun u hu => (hafter u hu).const_references u rfl⟩

end Calls

/-! ## §6. Programs. -/

/-- The program is defined for a string. -/
def Defined (st : StringProperty × Option StringState) (c : StringCall) : Prop :=
  ∀ u, st.2 = some u → (u.step c).1 ≠ .undefined

/-- A call that is defined answers the same, and is not the last that is. -/
theorem defined_step {p : StringProperty} {t : Option StringState}
    (h : (∃ u, t = some u) ∧ StringCorresponds p t) (c : StringCall)
    (hc : ¬ AtOutOfRange p.column c ∧ Defined (p, t) c) :
    (p.handle c).1 = (StringState.stepDefined t c).1 ∧
      (∃ u, (StringState.stepDefined t c).2 = some u) ∧
      StringCorresponds (p.handle c).2 (StringState.stepDefined t c).2 := by
  obtain ⟨⟨u, rfl⟩, hu⟩ := h
  have hdefined := hc.2 u rfl
  refine ⟨(handle_agrees hu c hc.1 hdefined).1, ⟨(u.step c).2, ?_⟩,
    stringCorresponds_step hu c hc.1⟩
  exact if_neg (mt (u.step c).1.isUndefined_iff.mp hdefined)

/-- **Where it is defined for a string, a program ends with the same**, and leaves the same
string. -/
theorem managed_string_run {ρ : Type} (program : Client StringCall (fun c => Reply c.Value) ρ)
    {p : StringProperty} {u : StringState} (h : StringCorresponds p (some u))
    (hp : program.Along (Client.beside StringProperty.handle StringState.stepDefined)
      (fun st c => ¬ AtOutOfRange st.1.column c ∧ Defined st c) (p, some u)) :
    (program.run StringProperty.handle p).1 = (program.run StringState.stepDefined (some u)).1 ∧
      ∃ u', (program.run StringState.stepDefined (some u)).2 = some u' ∧
        (program.run StringProperty.handle p).2.column = u'.value := by
  obtain ⟨hends, ⟨u', hu'⟩, hafter⟩ := Client.run_simulates_beside
    (R := fun p t => (∃ u, t = some u) ∧ StringCorresponds p t)
    (P := fun st c => ¬ AtOutOfRange st.1.column c ∧ Defined st c)
    (fun _ _ c hR hc => defined_step hR c hc) program (s := p) (t := some u) ⟨⟨u, rfl⟩, h⟩ hp
  exact ⟨hends, u', hu', hafter.value u' hu'⟩

/-- A property, and a string, with a value. -/
def WatchedString.of (v : StdString) : WatchedString where
  property := ⟨v, fun _ => none, fun _ => none⟩
  asked _ := none
  const_asked _ := none
  kept _ _ := rfl
  const_kept _ _ := rfl

def StringState.of (v : StdString) : StringState := ⟨v, fun _ => none, fun _ => none⟩

end RealmCpp.Managed
