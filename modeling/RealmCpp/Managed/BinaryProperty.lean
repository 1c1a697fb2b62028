/-
  RealmCpp.Managed.BinaryProperty
  ───────────────────────────────
  **BINARY PROPERTIES AND VECTORS OF BYTES.**

  `managed_binary.cpp` reads the column as a vector, and writes it back whole.  A property
  that may be null is used through a box.  The index of `operator[]` is a `uint8_t`, so it
  is cut to eight bits; the box takes what is null for no bytes, or does nothing.

    • `managed_binary`, `managed_optional_binary` — the members,
    • `BinaryProperty` — a property that is declared with the one type or the other,
    • `BytesStore.handle`, `ByteVectors.handle` — a store with such properties, and variables,
    • `get_optional_written` — what a write leaves of the other properties,
    • `bytes_program_iff` — the programs in which properties are as good as vectors.
-/
import RealmCpp.Core.Store
import RealmCpp.Library.Client
import RealmCpp.Managed.Link

namespace RealmCpp.Managed

open RealmCpp.Library
open RealmCpp.Core

/-! ## §1. The members. -/

/-- How a call ends: the core raises for an object that is not live, and outside of a
write transaction where it writes. -/
inductive BytesAnswer where
  | undefined
  | not_live
  | not_in_write
  | done
  | byte (b : UInt8)
  | size (n : Nat)
  | value (v : Option (List UInt8))
  deriving DecidableEq

/-- A store, and whether it is in a write transaction. -/
structure BytesStore where
  store : Store
  in_write : Bool

namespace BytesStore

variable (s : BytesStore) (p : Property)

/-- `m_obj->get_optional<bridge::binary>(m_key)`. -/
def get_optional : Option (List UInt8) :=
  match s.store.cell p.m_obj p.m_key with
  | [(_, .binary v)] => some v
  | _ => none

/-- `m_obj->get<bridge::binary>(m_key)`, by which null has no bytes. -/
def get : List UInt8 := (s.get_optional p).getD []

/-- The cell of a binary, or of null. -/
def cellOf : Option (List UInt8) → Cell
  | some v => Cell.one (.binary v)
  | none => Cell.one .null

def written (v : Option (List UInt8)) : BytesStore :=
  { s with store := s.store.setCell p.m_obj p.m_key (cellOf v) }

/-- `m_obj->set(m_key, v)` and `m_obj->set_null(m_key)`. -/
def set (v : Option (List UInt8)) : BytesAnswer × BytesStore :=
  if s.in_write then (.done, s.written p v) else (.not_in_write, s)

end BytesStore

/-- The byte at an index; there is none behind the last one. -/
def byteAt (v : List UInt8) (idx : Nat) : BytesAnswer :=
  match v[idx]? with
  | some b => .byte b
  | none => .undefined

namespace managed_binary

variable (s : BytesStore) (p : Property)

def detach : BytesAnswer := .value (some (s.get p))

def push_back (v : UInt8) : BytesAnswer × BytesStore := s.set p (some (s.get p ++ [v]))

def subscript (idx : UInt8) : BytesAnswer := byteAt (s.get p) idx.toNat

def size : BytesAnswer := .size (s.get p).length

end managed_binary

namespace managed_optional_binary

variable (s : BytesStore) (p : Property)

def detach : BytesAnswer := .value (s.get_optional p)

/-- A member of the box, as the others are; without a value it does nothing. -/
def push_back (v : UInt8) : BytesAnswer × BytesStore :=
  match s.get_optional p with
  | some b => s.set p (some (b ++ [v]))
  | none => (.done, s)

/-- The optional is not asked whether it has a value. -/
def subscript (idx : UInt8) : BytesAnswer :=
  match s.get_optional p with
  | some b => byteAt b idx.toNat
  | none => .undefined

def size : BytesAnswer := .size (s.get p).length

end managed_optional_binary

/-! ## §2. Programs. -/

section Programs

-- the columns with binaries, and whether they may be null
variable (columns : TableKey → String → Option Bool)

/-- A property that is declared with binaries, optional ones or not. -/
structure BinaryProperty extends Property where
  nullable : Bool
  declared : columns m_obj.table m_key = some nullable

/-- What a program does with the binary properties of a store; an index is any number. -/
inductive BytesCall where
  | detach (p : BinaryProperty columns)
  | push_back (p : BinaryProperty columns) (v : UInt8)
  | subscript (p : BinaryProperty columns) (idx : Nat)
  | size (p : BinaryProperty columns)
  | assign (p : BinaryProperty columns) (v : List UInt8)
  | assign_null (p : BinaryProperty columns) (h : p.nullable = true)

variable {columns}

def BytesCall.property : BytesCall columns → BinaryProperty columns
  | detach p | push_back p _ | subscript p _ | size p | assign p _ | assign_null p _ => p

/-- The members of the one type or the other. -/
def BytesStore.member (s : BytesStore) : BytesCall columns → BytesAnswer × BytesStore
  | .detach p =>
      if p.nullable then (managed_optional_binary.detach s p.toProperty, s)
      else (managed_binary.detach s p.toProperty, s)
  | .push_back p v =>
      if p.nullable then managed_optional_binary.push_back s p.toProperty v
      else managed_binary.push_back s p.toProperty v
  | .subscript p idx =>
      -- the argument becomes a `uint8_t`
      if p.nullable then
        (managed_optional_binary.subscript s p.toProperty (UInt8.ofNat idx), s)
      else (managed_binary.subscript s p.toProperty (UInt8.ofNat idx), s)
  | .size p =>
      if p.nullable then (managed_optional_binary.size s p.toProperty, s)
      else (managed_binary.size s p.toProperty, s)
  | .assign p v => s.set p.toProperty (some v)
  | .assign_null p _ => s.set p.toProperty none

/-- The members, each of which asks `m_obj` first. -/
def BytesStore.handle (s : BytesStore) (c : BytesCall columns) : BytesAnswer × BytesStore :=
  if s.store.live c.property.m_obj then s.member c else (.not_live, s)

/-- Variables in place of the properties: vectors, and optional ones. -/
abbrev ByteVectors := Ref → String → Option (List UInt8)

namespace ByteVectors

variable (t : ByteVectors)

def set (p : Property) (v : Option (List UInt8)) : ByteVectors :=
  fun x col => if x = p.m_obj ∧ col = p.m_key then v else t x col

/-- What is defined for a vector, and for an optional with one. -/
def ask (p : Property) (f : List UInt8 → BytesAnswer) : BytesAnswer :=
  match t p.m_obj p.m_key with
  | some v => f v
  | none => .undefined

def push_back (p : Property) (b : UInt8) : BytesAnswer × ByteVectors :=
  match t p.m_obj p.m_key with
  | some v => (.done, t.set p (some (v ++ [b])))
  | none => (.undefined, t)

def handle : BytesCall columns → BytesAnswer × ByteVectors
  | .detach p => (.value (t p.m_obj p.m_key), t)
  | .push_back p b => t.push_back p.toProperty b
  | .subscript p idx => (t.ask p.toProperty fun v => byteAt v idx, t)
  | .size p => (t.ask p.toProperty fun v => .size v.length, t)
  | .assign p v => (.done, t.set p.toProperty (some v))
  | .assign_null p _ => (.done, t.set p.toProperty none)

end ByteVectors

/-! ## §3. One call. -/

variable (columns) in
/-- **The properties have the values of the variables**, and of a live object null is only
where it may be. -/
structure BytesCorrespond (s : BytesStore) (t : ByteVectors) : Prop where
  value : ∀ p : Property, s.get_optional p = t p.m_obj p.m_key
  required : ∀ p : BinaryProperty columns, s.store.live p.m_obj = true → p.nullable = false →
    s.get_optional p.toProperty ≠ none

/-- What a call needs of the property: a write transaction, if it writes; a value, where the
optional is not only detached or assigned to; and of an index, **that with its lower eight
bits the byte is the same**. -/
def BytesNeeds (s : BytesStore) : BytesCall columns → Prop
  | .detach _ => True
  | .push_back p _ => s.get_optional p.toProperty ≠ none ∧ s.in_write = true
  | .subscript p idx =>
      ∀ v, s.get_optional p.toProperty = some v → v[idx % 256]? = v[idx]?
  | .size p => s.get_optional p.toProperty ≠ none
  | .assign _ _ | .assign_null _ _ => s.in_write = true

/-- What a call needs: that, and an object that is live. -/
structure BytesMeets (s : BytesStore) (c : BytesCall columns) : Prop where
  live : s.store.live c.property.m_obj = true
  needs : BytesNeeds s c

/-- At a call a property and its variable do the same. -/
abbrev BytesAgree (st : BytesStore × ByteVectors) (c : BytesCall columns) : Prop :=
  Client.AgreesAt BytesStore.handle ByteVectors.handle (BytesCorrespond columns) st c

/-- A member and its variable do the same. -/
abbrev MemberAgrees (st : BytesStore × ByteVectors) (c : BytesCall columns) : Prop :=
  Client.AgreesAt BytesStore.member ByteVectors.handle (BytesCorrespond columns) st c

variable {s : BytesStore} {t : ByteVectors}

/-- **A write leaves the other properties as they are.** -/
theorem get_optional_written (s : BytesStore) (p q : Property) (v : Option (List UInt8)) :
    (s.written p v).get_optional q =
      if q.m_obj = p.m_obj ∧ q.m_key = p.m_key then v else s.get_optional q := by
  unfold BytesStore.get_optional BytesStore.written
  dsimp only
  rw [Store.setCell_cell]
  by_cases hsame : q.m_obj = p.m_obj ∧ q.m_key = p.m_key
  · rw [if_pos hsame, if_pos hsame]
    cases v <;> rfl
  · rw [if_neg hsame, if_neg hsame]

/-- Objects stay what they are. -/
theorem live_written (s : BytesStore) (p : Property) (v : Option (List UInt8)) (x : Ref) :
    (s.written p v).store.live x = s.store.live x := rfl

theorem BytesCorrespond.written (h : BytesCorrespond columns s t) {p : BinaryProperty columns}
    {v : Option (List UInt8)} (hv : v = none → p.nullable = true) :
    BytesCorrespond columns (s.written p.toProperty v) (t.set p.toProperty v) where
  value q := by
    rw [get_optional_written, h.value q]
    rfl
  required q hlive hq := by
    rw [live_written] at hlive
    rw [get_optional_written]
    split
    · next hsame =>
      -- null is written only where it may be
      intro hnone
      have hnullable : some q.nullable = some p.nullable := by
        rw [← q.declared, ← p.declared, hsame.1, hsame.2]
      rw [Option.some.inj hnullable, hv hnone] at hq
      cases hq
    · exact h.required q hlive hq

/-- Both are assigned to, unless the core raises. -/
theorem set_iff (h : BytesCorrespond columns s t) {p : BinaryProperty columns}
    {v : Option (List UInt8)} (hv : v = none → p.nullable = true) :
    ((s.set p.toProperty v).1 = .done ∧
        BytesCorrespond columns (s.set p.toProperty v).2 (t.set p.toProperty v)) ↔
      s.in_write = true := by
  unfold BytesStore.set
  cases s.in_write with
  | true => exact iff_of_true ⟨rfl, h.written hv⟩ rfl
  | false => simp

/-- A property has a value, or null: then it is one that may be null. -/
theorem BytesCorrespond.cases (h : BytesCorrespond columns s t) (p : BinaryProperty columns)
    (hlive : s.store.live p.m_obj = true) :
    (∃ v, s.get_optional p.toProperty = some v ∧ s.get p.toProperty = v ∧
        t p.m_obj p.m_key = some v) ∨
      s.get_optional p.toProperty = none ∧ t p.m_obj p.m_key = none ∧ p.nullable = true := by
  have hvalue := h.value p.toProperty
  cases hp : s.get_optional p.toProperty with
  | some v =>
    refine .inl ⟨v, rfl, ?_, hvalue.symm.trans hp⟩
    unfold BytesStore.get
    rw [hp]
    rfl
  | none =>
    refine .inr ⟨rfl, hvalue.symm.trans hp, ?_⟩
    cases hnull : p.nullable with
    | true => rfl
    | false => exact absurd hp (h.required p hlive hnull)

theorem byteAt_inj {v w : List UInt8} {i j : Nat} : byteAt v i = byteAt w j ↔ v[i]? = w[j]? := by
  unfold byteAt
  cases v[i]? <;> cases w[j]? <;> simp

section Members

variable {p : BinaryProperty columns} {v : List UInt8}

/-- With a value, the types do the same. -/
theorem member_push_back (hp : s.get_optional p.toProperty = some v)
    (hget : s.get p.toProperty = v) (b : UInt8) :
    s.member (.push_back p b) = s.set p.toProperty (some (v ++ [b])) := by
  show (if _ then managed_optional_binary.push_back s p.toProperty b
    else managed_binary.push_back s p.toProperty b) = _
  unfold managed_optional_binary.push_back managed_binary.push_back
  rw [hp, hget]
  exact ite_self _

theorem member_subscript (hp : s.get_optional p.toProperty = some v)
    (hget : s.get p.toProperty = v) (idx : Nat) :
    s.member (.subscript p idx) = (byteAt v (idx % 256), s) := by
  show (if _ then (managed_optional_binary.subscript s p.toProperty _, s)
    else (managed_binary.subscript s p.toProperty _, s)) = _
  unfold managed_optional_binary.subscript managed_binary.subscript
  rw [hp, hget, UInt8.toNat_ofNat']
  exact ite_self _

theorem member_size (hget : s.get p.toProperty = v) :
    s.member (.size p) = (.size v.length, s) := by
  show (if _ then (managed_optional_binary.size s p.toProperty, s)
    else (managed_binary.size s p.toProperty, s)) = _
  unfold managed_optional_binary.size managed_binary.size
  rw [hget]
  exact ite_self _

/-- What is null has a box, which does nothing or reads what is not there. -/
theorem member_null (hp : s.get_optional p.toProperty = none) (hnull : p.nullable = true) :
    (∀ b, s.member (.push_back p b) = (.done, s)) ∧
      ∀ idx, s.member (.subscript p idx) = (.undefined, s) := by
  refine ⟨fun b => ?_, fun idx => ?_⟩
  · show (if _ then managed_optional_binary.push_back s p.toProperty b else _) = _
    unfold managed_optional_binary.push_back
    rw [if_pos hnull, hp]
  · show (if _ then (managed_optional_binary.subscript s p.toProperty _, s) else _) = _
    unfold managed_optional_binary.subscript
    rw [if_pos hnull, hp]

end Members

section Agree

variable {p : BinaryProperty columns} (h : BytesCorrespond columns s t)
  (hlive : s.store.live p.m_obj = true)
include h hlive

theorem detach_agrees : MemberAgrees (s, t) (.detach p) := by
  have hdetach : s.member (.detach p) = (.value (s.get_optional p.toProperty), s) := by
    show (if _ then (managed_optional_binary.detach s p.toProperty, s)
      else (managed_binary.detach s p.toProperty, s)) = _
    split
    · rfl
    · next hnull =>
      rcases h.cases p hlive with ⟨v, hp, hget, -⟩ | ⟨-, -, hnull'⟩
      · unfold managed_binary.detach
        rw [hp, hget]
      · exact absurd hnull' hnull
  unfold MemberAgrees Client.AgreesAt
  rw [hdetach]
  exact ⟨congrArg _ (h.value p.toProperty), h⟩

theorem push_back_agrees_iff (b : UInt8) :
    MemberAgrees (s, t) (.push_back p b) ↔ BytesNeeds s (.push_back p b) := by
  show (s.member (.push_back p b)).1 = (t.push_back p.toProperty b).1 ∧
    BytesCorrespond columns (s.member (.push_back p b)).2 (t.push_back p.toProperty b).2 ↔
      s.get_optional p.toProperty ≠ none ∧ s.in_write = true
  unfold ByteVectors.push_back
  rcases h.cases p hlive with ⟨v, hp, hget, hv⟩ | ⟨hp, hv, hnull⟩
  · rw [member_push_back hp hget, hp, hv]
    refine (set_iff h fun hnone => by cases hnone).trans ?_
    exact (and_iff_right (Option.some_ne_none v)).symm
  · -- the box does nothing, where a push into no vector is not defined
    rw [(member_null hp hnull).1, hp, hv]
    simp

theorem subscript_agrees_iff (idx : Nat) :
    MemberAgrees (s, t) (.subscript p idx) ↔ BytesNeeds s (.subscript p idx) := by
  show (s.member (.subscript p idx)).1 = t.ask p.toProperty (fun v => byteAt v idx) ∧
    BytesCorrespond columns (s.member (.subscript p idx)).2 t ↔
    ∀ v, s.get_optional p.toProperty = some v → v[idx % 256]? = v[idx]?
  unfold ByteVectors.ask
  rcases h.cases p hlive with ⟨v, hp, hget, hv⟩ | ⟨hp, hv, hnull⟩
  · rw [member_subscript hp hget, hp, hv]
    refine (and_iff_left h).trans (byteAt_inj.trans ⟨fun hbyte w hw => ?_, fun h => h v rfl⟩)
    rw [← Option.some.inj hw]
    exact hbyte
  · rw [(member_null hp hnull).2, hp, hv]
    exact iff_of_true ⟨rfl, h⟩ fun v hv => by cases hv

theorem size_agrees_iff : MemberAgrees (s, t) (.size p) ↔ BytesNeeds s (.size p) := by
  show (s.member (.size p)).1 = t.ask p.toProperty (fun v => .size v.length) ∧
    BytesCorrespond columns (s.member (.size p)).2 t ↔ s.get_optional p.toProperty ≠ none
  unfold ByteVectors.ask
  rcases h.cases p hlive with ⟨v, hp, hget, hv⟩ | ⟨hp, hv, hnull⟩
  · rw [member_size hget, hp, hv]
    exact iff_of_true ⟨rfl, h⟩ (Option.some_ne_none v)
  · -- null is read as no bytes
    rw [member_size rfl, hp, hv]
    simp

end Agree

theorem member_agrees_iff (h : BytesCorrespond columns s t) (c : BytesCall columns)
    (hlive : s.store.live c.property.m_obj = true) : MemberAgrees (s, t) c ↔ BytesNeeds s c := by
  cases c with
  | detach p => exact iff_of_true (detach_agrees h hlive) trivial
  | push_back p b => exact push_back_agrees_iff h hlive b
  | subscript p idx => exact subscript_agrees_iff h hlive idx
  | size p => exact size_agrees_iff h hlive
  | assign p v => exact set_iff h fun hnone => by cases hnone
  | assign_null p hnull => exact set_iff h fun _ => hnull

/-- A variable is always there. -/
theorem ByteVectors.handle_ne_not_live (t : ByteVectors) (c : BytesCall columns) :
    (t.handle c).1 ≠ .not_live := by
  have hask : ∀ (p : Property) (f : List UInt8 → BytesAnswer), (∀ v, f v ≠ .not_live) →
      t.ask p f ≠ .not_live := by
    intro p f hf
    unfold ByteVectors.ask
    cases t p.m_obj p.m_key with
    | none => simp
    | some v => exact hf v
  cases c with
  | detach p | assign p v | assign_null p hnull => simp [ByteVectors.handle]
  | push_back p b =>
    show (t.push_back p.toProperty b).1 ≠ _
    unfold ByteVectors.push_back
    cases t p.m_obj p.m_key <;> simp
  | subscript p idx =>
    refine hask p.toProperty _ fun v => ?_
    unfold byteAt
    cases v[idx]? <;> simp
  | size p => exact hask p.toProperty _ fun v => by simp

theorem bytes_call_iff (s : BytesStore) (t : ByteVectors) (c : BytesCall columns)
    (h : BytesCorrespond columns s t) : BytesAgree (s, t) c ↔ BytesMeets s c := by
  unfold BytesAgree Client.AgreesAt BytesStore.handle
  by_cases hlive : s.store.live c.property.m_obj = true
  · rw [if_pos hlive]
    refine (member_agrees_iff h c hlive).trans ?_
    exact ⟨fun hneeds => ⟨hlive, hneeds⟩, fun hmeets => hmeets.needs⟩
  · rw [if_neg hlive]
    refine iff_of_false (fun hagrees => ?_) fun hmeets => hlive hmeets.live
    exact t.handle_ne_not_live c hagrees.1.symm

/-! ## §4. All calls. -/

/-- The variables that have the values of the properties. -/
def BytesStore.variables (s : BytesStore) : ByteVectors :=
  fun x col => s.get_optional ⟨0, x, col⟩

/-- **Properties are as good as vectors**, call by call, exactly in the programs that use
live objects, write in a write transaction, use no value where there is null, and ask for
no byte by an index whose lower eight bits are the index of another one.  Those programs
end as with vectors. -/
theorem bytes_program_iff {ρ : Type} (p : Client (BytesCall columns) (fun _ => BytesAnswer) ρ)
    (s : BytesStore)
    (hs : ∀ q : BinaryProperty columns, s.store.live q.m_obj = true → q.nullable = false →
      s.get_optional q.toProperty ≠ none) :
    (p.Along (Client.beside BytesStore.handle ByteVectors.handle) BytesAgree (s, s.variables) ↔
      p.Along BytesStore.handle BytesMeets s) ∧
    (p.Along BytesStore.handle BytesMeets s →
      (p.run BytesStore.handle s).1 = (p.run ByteVectors.handle s.variables).1 ∧
        BytesCorrespond columns (p.run BytesStore.handle s).2
          (p.run ByteVectors.handle s.variables).2) := by
  have hstart : BytesCorrespond columns s s.variables := ⟨fun _ => rfl, hs⟩
  have h := Client.along_agreesAt_iff (P := fun st c => BytesMeets st.1 c) bytes_call_iff p hstart
  rwa [Client.along_beside] at h

/-- The columns of a class with bytes and with a picture, which may be null. -/
def picture_columns (_ : TableKey) (col : String) : Option Bool :=
  if col = "bytes" then some false else if col = "picture" then some true else none

/-- One object of the class, which is new. -/
def new_picture : BytesStore where
  store := {
    live x := x = ⟨⟨0⟩, ⟨0⟩⟩
    next _ := 1
    index _ _ := none
    cells k := if k = (⟨⟨0⟩, ⟨0⟩⟩, "bytes") then Cell.one (.binary []) else [] }
  in_write := true

/-- The bytes of a live object are not null. -/
theorem new_picture_required (q : BinaryProperty picture_columns)
    (hlive : new_picture.store.live q.m_obj = true) (hq : q.nullable = false) :
    new_picture.get_optional q.toProperty ≠ none := by
  have hobj : q.m_obj = ⟨⟨0⟩, ⟨0⟩⟩ := of_decide_eq_true hlive
  have hdeclared := q.declared
  rw [hq] at hdeclared
  have hcol : q.m_key = "bytes" := by
    unfold picture_columns at hdeclared
    split at hdeclared
    · assumption
    · split at hdeclared <;> simp at hdeclared
  have hcell : new_picture.store.cell q.m_obj q.m_key = Cell.one (.binary []) := by
    rw [hobj, hcol]
    rfl
  unfold BytesStore.get_optional
  rw [hcell]
  simp [Cell.one]

/-- The picture is assigned to and gets a byte more, which is the third one; the bytes get
one, too. -/
theorem bytes_program_iff_picture :
    let picture : BinaryProperty picture_columns := ⟨⟨0, ⟨⟨0⟩, ⟨0⟩⟩, "picture"⟩, true, rfl⟩
    let bytes : BinaryProperty picture_columns := ⟨⟨0, ⟨⟨0⟩, ⟨0⟩⟩, "bytes"⟩, false, rfl⟩
    let program : Client (BytesCall picture_columns) (fun _ => BytesAnswer) BytesAnswer :=
      .call (.assign picture [1, 2]) fun _ => .call (.push_back picture 3) fun _ =>
        .call (.push_back bytes 7) fun _ => .call (.subscript picture 2) .ret
    (program.run BytesStore.handle new_picture).1 =
      (program.run ByteVectors.handle new_picture.variables).1 := by
  intro picture bytes program
  refine ((bytes_program_iff program new_picture new_picture_required).2 ?_).1
  refine ⟨⟨rfl, rfl⟩, ⟨rfl, Option.some_ne_none _, rfl⟩, ⟨rfl, Option.some_ne_none _, rfl⟩,
    ⟨rfl, fun v hv => ?_⟩, trivial⟩
  rfl

end Programs

end RealmCpp.Managed
