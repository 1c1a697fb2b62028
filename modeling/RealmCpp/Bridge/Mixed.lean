/-
  RealmCpp.Bridge.Mixed
  ─────────────────────
  **`bridge::mixed`: a core value, and what it refers to.**

  A core `Mixed` only refers to the characters of a string and the bytes of a
  binary.  `bridge::mixed` keeps them in fields of its own, next to the core value,
  which is stored in the object or behind a `shared_ptr`.

    • `construct`, `copy_construct`, … — the special members, both builds,
    • `Holds` — the fields are those of a value,
    • `run_agree` — values are handed on by copies, moves and assignments.
-/
import RealmCpp.Core.Data
import RealmCpp.Library.Handles

namespace RealmCpp.Bridge

open RealmCpp.Library
open RealmCpp.Core

/-! ## §1. The fields. -/

/-- What a core `Mixed` has of a value by itself: of a string or a binary, only
that it is one. -/
inductive View where
  | null
  | int (v : Int)
  | bool (v : Bool)
  | double (bits : UInt64)
  | string
  | binary
  | timestamp (seconds nanoseconds : Int)
  | uuid (bytes : List UInt8)
  | object_id (bytes : List UInt8)
  | decimal128 (low high : UInt64)
  | link (table : TableKey) (key : ObjKey)
  deriving DecidableEq, Repr

/-- The core `Mixed` that is built from a value. -/
def view : Mixed → View
  | .null => .null
  | .int v => .int v
  | .bool v => .bool v
  | .double bits => .double bits
  | .string _ => .string
  | .binary _ => .binary
  | .timestamp seconds nanoseconds => .timestamp seconds nanoseconds
  | .uuid bytes => .uuid bytes
  | .object_id bytes => .object_id bytes
  | .decimal128 low high => .decimal128 low high
  | .link table key => .link table key

/-- `Mixed::get_type`, which must not be asked of null. -/
def View.type : View → Option DataType
  | null => none
  | int _ => some .int
  | bool _ => some .bool
  | double _ => some .double
  | string => some .string
  | binary => some .binary
  | timestamp _ _ => some .timestamp
  | uuid _ => some .uuid
  | object_id _ => some .object_id
  | decimal128 _ _ => some .decimal128
  | link _ _ => some .link

/-- `bridge::binary`: its bytes, if there are any; a null pointer is no bytes, and is
something else than an empty binary. -/
abbrev Binary := Option (List UInt8)

/-- `binary()`. -/
def Binary.default : Storage → Binary
  | .byValue => none
  | .shared => some []

/-- What a binary is after it was moved from: `OwnedBinaryData` gives its bytes
away, the other build copies them. -/
def Binary.leave : Storage → Binary → Binary
  | .byValue, _ => none
  | .shared, b => b

/-- `bridge::mixed`.  There is no core value in storage that was not initialized,
and behind a pointer that was moved from. -/
structure BridgeMixed where
  m_owned_string : String
  m_owned_data : Binary
  m_mixed : Option View
  deriving DecidableEq, Repr

namespace BridgeMixed

variable (m : Storage)

/-- The members before the body of a constructor. -/
def members : BridgeMixed := ⟨"", .default m, none⟩

/-- The constructors from a value, null being `std::monostate`. -/
def construct : Mixed → BridgeMixed
  | .string v => { members m with m_owned_string := v, m_mixed := some (view (.string v)) }
  | .binary v => { members m with m_owned_data := some v, m_mixed := some (view (.binary v)) }
  | v => { members m with m_mixed := some (view v) }

/-- `mixed(const realm::Mixed&)`. -/
def of_core (v : Mixed) : BridgeMixed :=
  if v = .null then { members m with m_mixed := some .null }
  else
    match v with
    | .string s => { members m with m_owned_string := s, m_mixed := some (view v) }
    | .binary b => { members m with m_owned_data := some b, m_mixed := some (view v) }
    | _ => { members m with m_mixed := some (view v) }

/-- `is_null`; none where there is no core value. -/
def is_null (b : BridgeMixed) : Option Bool := b.m_mixed.map fun v => decide (v = .null)

/-- `type`. -/
def type (b : BridgeMixed) : Option DataType := b.m_mixed.bind View.type

/-- What a copy or a move takes of the fields of `other` that own something: the
one that its value refers to. -/
def take_owned (other b : BridgeMixed) : Option BridgeMixed := do
  if !(← other.is_null) then
    match ← other.type with
    | .string => some { b with m_owned_string := other.m_owned_string }
    | .binary => some { b with m_owned_data := other.m_owned_data }
    | _ => some b
  else some b

/-- `mixed(const mixed&)`. -/
def copy_construct (other : BridgeMixed) : Option BridgeMixed :=
  (take_owned other (members m)).map fun b => { b with m_mixed := other.m_mixed }

/-- `operator=(const mixed&)`, of another object. -/
def copy_assign (b other : BridgeMixed) : Option BridgeMixed :=
  (take_owned other b).map fun b => { b with m_mixed := other.m_mixed }

/-- What is left of `other` once it was moved from; `moved` is what the string
leaves. -/
def leave (moved : String → String) (other : BridgeMixed) : BridgeMixed :=
  let other :=
    match other.m_mixed with
    | some .string => { other with m_owned_string := moved other.m_owned_string }
    | some .binary => { other with m_owned_data := other.m_owned_data.leave m }
    | _ => other
  match m with
  | .byValue => other
  | .shared => { other with m_mixed := none }

/-- `mixed(mixed&&)`, and what is left. -/
def move_construct (moved : String → String) (other : BridgeMixed) :
    Option (BridgeMixed × BridgeMixed) :=
  (copy_construct m other).map fun b => (b, leave m moved other)

/-- `operator=(mixed&&)`, of another object, and what is left. -/
def move_assign (moved : String → String) (b other : BridgeMixed) :
    Option (BridgeMixed × BridgeMixed) :=
  (copy_assign b other).map fun b => (b, leave m moved other)

/-- `mixed(const std::optional<T>&)`: a new object is moved over the members. -/
def construct_optional (moved : String → String) (o : Option Mixed) : Option BridgeMixed :=
  match o with
  | some v => (move_assign m moved (members m) (construct m v)).map Prod.fst
  | none => (move_assign m moved (members m) (construct m .null)).map Prod.fst

/-- `operator Mixed`. -/
def to_core (b : BridgeMixed) : Option Mixed := do
  match ← b.m_mixed with
  | .null => some .null
  | .int v => some (.int v)
  | .bool v => some (.bool v)
  | .double bits => some (.double bits)
  | .string => some (.string b.m_owned_string)
  | .binary => some (match b.m_owned_data with
      | some v => .binary v
      | none => .null)
  | .timestamp seconds nanoseconds => some (.timestamp seconds nanoseconds)
  | .uuid bytes => some (.uuid bytes)
  | .object_id bytes => some (.object_id bytes)
  | .decimal128 low high => some (.decimal128 low high)
  | .link table key => some (.link table key)

/-! ## §2. Objects that hold a value. -/

/-- **The fields are those of a value**; those that it does not refer to may be left
over from others. -/
structure Holds (b : BridgeMixed) (v : Mixed) : Prop where
  m_mixed : b.m_mixed = some (view v)
  m_owned_string : ∀ s, v = .string s → b.m_owned_string = s
  m_owned_data : ∀ d, v = .binary d → b.m_owned_data = some d

theorem holds_construct (v : Mixed) : (construct m v).Holds v := by
  cases v <;> refine ⟨rfl, fun s h => ?_, fun d h => ?_⟩ <;> cases h <;> rfl

theorem holds_of_core (v : Mixed) : (of_core m v).Holds v := by
  cases v <;> refine ⟨rfl, fun s h => ?_, fun d h => ?_⟩ <;> cases h <;> rfl

/-- **Taking over from an object that holds a value**, whatever was there. -/
theorem exists_take_owned {other : BridgeMixed} {v : Mixed} (h : other.Holds v)
    (b : BridgeMixed) :
    ∃ b', take_owned other b = some b' ∧ Holds { b' with m_mixed := other.m_mixed } v := by
  obtain ⟨hmixed, hstring, hdata⟩ := h
  unfold take_owned is_null type
  rw [hmixed]
  -- only a string and a binary are more than the core value
  cases v with
  | string s => exact ⟨_, rfl, rfl, hstring, fun d h => by cases h⟩
  | binary d => exact ⟨_, rfl, rfl, fun s h => (by cases h), hdata⟩
  | _ => exact ⟨_, rfl, rfl, fun s h => (by cases h), fun d h => by cases h⟩

theorem exists_copy_assign {other : BridgeMixed} {v : Mixed} (h : other.Holds v)
    (b : BridgeMixed) : ∃ b', copy_assign b other = some b' ∧ b'.Holds v := by
  obtain ⟨b', hb', hholds⟩ := exists_take_owned h b
  exact ⟨_, by rw [copy_assign, hb']; rfl, hholds⟩

theorem exists_construct_optional (moved : String → String) (o : Option Mixed) :
    ∃ b, construct_optional m moved o = some b ∧ b.Holds (o.getD .null) := by
  -- both branches move an object over the members
  have hassign : ∀ v, ∃ b, (move_assign m moved (members m) (construct m v)).map Prod.fst = some b
      ∧ b.Holds v := by
    intro v
    obtain ⟨b, hb, hholds⟩ := exists_copy_assign (holds_construct m v) (members m)
    exact ⟨b, by rw [move_assign, hb]; rfl, hholds⟩
  cases o with
  | none => exact hassign .null
  | some v => exact hassign v

/-- The core value that is taken from an object is the one it holds. -/
theorem to_core_of_holds {b : BridgeMixed} {v : Mixed} (h : b.Holds v) :
    b.to_core = some v := by
  obtain ⟨hmixed, hstring, hdata⟩ := h
  unfold to_core
  rw [hmixed]
  cases v with
  | string s => exact congrArg (fun s => some (Mixed.string s)) (hstring s rfl)
  | binary d => simp [view, hdata d rfl]
  | _ => rfl

end BridgeMixed

/-! ## §3. Programs on objects. -/

/-- An operation on numbered objects; a constructor may reuse a number. -/
inductive MixedOp where
  | construct (i : Nat) (v : Mixed)
  | construct_optional (i : Nat) (o : Option Mixed)
  | of_core (i : Nat) (v : Mixed)
  | copy_construct (i j : Nat)
  | move_construct (i j : Nat)
  | copy_assign (i j : Nat)
  | move_assign (i j : Nat)
  deriving DecidableEq, Repr

/-- The objects. -/
abbrev MixedObjects := Nat → Option BridgeMixed

namespace MixedOp

variable (m : Storage) (moved : String → String)

/-- The objects after an operation; none where an object is missing, or a core
value is read that is not there. -/
def step (s : MixedObjects) : MixedOp → Option MixedObjects
  | construct i v => some (Function.update s i (some (.construct m v)))
  | construct_optional i o => do
      let b ← BridgeMixed.construct_optional m moved o
      some (Function.update s i (some b))
  | of_core i v => some (Function.update s i (some (.of_core m v)))
  | copy_construct i j => do
      let b ← BridgeMixed.copy_construct m (← s j)
      some (Function.update s i (some b))
  | move_construct i j =>
      if i = j then none
      else do
        let (b, other) ← BridgeMixed.move_construct m moved (← s j)
        some (Function.update (Function.update s i (some b)) j (some other))
  | copy_assign i j => do
      let b ← s i
      -- `this != &other`
      if i = j then some s
      else do
        let b ← b.copy_assign (← s j)
        some (Function.update s i (some b))
  | move_assign i j => do
      let b ← s i
      if i = j then some s
      else do
        let (b, other) ← b.move_assign m moved (← s j)
        some (Function.update (Function.update s i (some b)) j (some other))

/-- The objects after a program. -/
def run (s : MixedObjects) : List MixedOp → Option MixedObjects
  | [] => some s
  | op :: ops => (step m moved s op).bind fun s => run s ops

end MixedOp

/-- What a number is meant to stand for: no object, one that was moved from, or one
that holds a value. -/
inductive Meant where
  | absent
  | left
  | value (v : Mixed)
  deriving DecidableEq, Repr

namespace MixedOp

/-- What the numbers are meant to stand for after an operation: a move takes the
value away. -/
def meant (g : Nat → Meant) : MixedOp → Nat → Meant
  | construct i v | of_core i v => Function.update g i (.value v)
  | construct_optional i o => Function.update g i (.value (o.getD .null))
  | copy_construct i j => Function.update g i (g j)
  | copy_assign i j => if i = j then g else Function.update g i (g j)
  | move_construct i j | move_assign i j =>
      if i = j then g else Function.update (Function.update g i (g j)) j .left

/-- What they are meant to stand for after a program. -/
def meantAfter (g : Nat → Meant) (ops : List MixedOp) : Nat → Meant := ops.foldl meant g

/-- The operation reads an object that holds a value, and assigns to one that is
there. -/
def Legal (g : Nat → Meant) : MixedOp → Prop
  | copy_construct _ j => ∃ v, g j = .value v
  | move_construct i j => i ≠ j ∧ ∃ v, g j = .value v
  | copy_assign i j | move_assign i j => g i ≠ .absent ∧ ∃ v, g j = .value v
  | _ => True

/-- All operations of a program are legal. -/
def LegalProgram : (Nat → Meant) → List MixedOp → Prop
  | _, [] => True
  | g, op :: ops => op.Legal g ∧ LegalProgram (meant g op) ops

end MixedOp

/-- **The objects are what they are meant to be.** -/
structure Agree (s : MixedObjects) (g : Nat → Meant) : Prop where
  present : ∀ i, g i ≠ .absent → ∃ b, s i = some b
  holds : ∀ i v b, g i = .value v → s i = some b → b.Holds v

section Agree

open MixedOp

variable {m : Storage} {moved : String → String} {s s' : MixedObjects} {g : Nat → Meant}

theorem agree_start : Agree (fun _ => none) fun _ => .absent where
  present i h := absurd rfl h
  holds i v b h := by cases h

/-- One object is replaced. -/
theorem agree_update (h : Agree s g) (i : Nat) {b : BridgeMixed} {o : Meant}
    (hb : ∀ v, o = .value v → b.Holds v) :
    Agree (Function.update s i (some b)) (Function.update g i o) := by
  constructor
  · intro k hk
    by_cases hki : k = i
    · exact ⟨b, by rw [hki, Function.update_self]⟩
    · rw [Function.update_of_ne hki] at hk ⊢
      exact h.present k hk
  · intro k v b' hv hb'
    by_cases hki : k = i
    · subst hki
      rw [Function.update_self] at hv hb'
      cases hb'
      exact hb v hv
    · rw [Function.update_of_ne hki] at hv hb'
      exact h.holds k v b' hv hb'

/-- What is copied from an object is what it holds. -/
theorem holds_of_take {j : Nat} {other b b' : BridgeMixed} (h : Agree s g)
    (hj : s j = some other)
    (hb : (BridgeMixed.take_owned other b).map (fun b => { b with m_mixed := other.m_mixed })
      = some b') (v : Mixed) (hv : g j = .value v) : b'.Holds v := by
  obtain ⟨b₁, hb₁, hholds⟩ := BridgeMixed.exists_take_owned (h.holds j v other hv hj) b
  rw [hb₁] at hb
  cases hb
  exact hholds

/-- Object `i` takes over from object `j`. -/
theorem agree_take {i j : Nat} {other b b' : BridgeMixed} (h : Agree s g)
    (hj : s j = some other)
    (hb : (BridgeMixed.take_owned other b).map (fun b => { b with m_mixed := other.m_mixed })
      = some b') :
    Agree (Function.update s i (some b')) (Function.update g i (g j)) :=
  agree_update h i (holds_of_take h hj hb)

/-- Nothing is meant of an object that was moved from. -/
theorem agree_leave (h : Agree s g) (j : Nat) (b : BridgeMixed) :
    Agree (Function.update s j (some b)) (Function.update g j .left) := by
  apply agree_update h j
  intro v hv
  cases hv

/-- Object `i` is copied from object `j`, over the members `b`. -/
theorem agree_copy {i j : Nat} {b : BridgeMixed} (h : Agree s g)
    (hstep : ((s j).bind fun other => (b.copy_assign other).bind fun b =>
      some (Function.update s i (some b))) = some s') :
    Agree s' (Function.update g i (g j)) := by
  obtain ⟨other, hj, hstep⟩ := Option.bind_eq_some_iff.mp hstep
  obtain ⟨b', hb, hstep⟩ := Option.bind_eq_some_iff.mp hstep
  cases hstep
  exact agree_take h hj hb

/-- Object `i` is moved from object `j`, over the members `b`. -/
theorem agree_move {i j : Nat} {b : BridgeMixed} (h : Agree s g)
    (hstep : ((s j).bind fun other => (b.move_assign m moved other).bind fun p =>
      some (Function.update (Function.update s i (some p.1)) j (some p.2))) = some s') :
    Agree s' (Function.update (Function.update g i (g j)) j .left) := by
  obtain ⟨other, hj, hstep⟩ := Option.bind_eq_some_iff.mp hstep
  obtain ⟨p, hp, hstep⟩ := Option.bind_eq_some_iff.mp hstep
  obtain ⟨b', hb, rfl⟩ := Option.map_eq_some_iff.mp hp
  cases hstep
  -- the fields are taken first, and what is left of the other one is written after
  exact agree_leave (agree_take h hj hb) j _

/-- **An operation hands the values on.** -/
theorem step_agree (h : Agree s g) (op : MixedOp) (hstep : step m moved s op = some s') :
    Agree s' (meant g op) := by
  cases op with
  | construct i v =>
    cases hstep
    exact agree_update h i fun w hw => by cases hw; exact BridgeMixed.holds_construct m v
  | of_core i v =>
    cases hstep
    exact agree_update h i fun w hw => by cases hw; exact BridgeMixed.holds_of_core m v
  | construct_optional i o =>
    obtain ⟨b, hb, hholds⟩ := BridgeMixed.exists_construct_optional m moved o
    obtain ⟨b', hb', hstep⟩ := Option.bind_eq_some_iff.mp hstep
    rw [hb] at hb'
    cases hb'
    cases hstep
    exact agree_update h i fun w hw => by cases hw; exact hholds
  | copy_construct i j => exact agree_copy (b := .members m) h hstep
  | move_construct i j =>
    change (if i = j then none else _) = _ at hstep
    show Agree s' (if i = j then g else _)
    by_cases hij : i = j
    · -- an object is not constructed from itself
      rw [if_pos hij] at hstep
      cases hstep
    · rw [if_neg hij] at hstep ⊢
      exact agree_move (b := .members m) h hstep
  | copy_assign i j =>
    obtain ⟨b, hi, hstep⟩ := Option.bind_eq_some_iff.mp hstep
    show Agree s' (if i = j then g else _)
    by_cases hij : i = j
    · -- assignment to itself does nothing
      rw [if_pos hij] at hstep ⊢
      cases hstep
      exact h
    · rw [if_neg hij] at hstep ⊢
      exact agree_copy h hstep
  | move_assign i j =>
    obtain ⟨b, hi, hstep⟩ := Option.bind_eq_some_iff.mp hstep
    show Agree s' (if i = j then g else _)
    by_cases hij : i = j
    · rw [if_pos hij] at hstep ⊢
      cases hstep
      exact h
    · rw [if_neg hij] at hstep ⊢
      exact agree_move h hstep

/-- An object that is meant to hold a value can be copied over any members. -/
theorem exists_copy {j : Nat} {v : Mixed} (h : Agree s g) (hv : g j = .value v)
    (b : BridgeMixed) : ∃ other b', s j = some other ∧ b.copy_assign other = some b' := by
  obtain ⟨other, hj⟩ := h.present j (by rw [hv]; exact Meant.noConfusion)
  obtain ⟨b', hb, -⟩ := BridgeMixed.exists_copy_assign (h.holds j v other hv hj) b
  exact ⟨other, b', hj, hb⟩

/-- **A legal operation can be done.** -/
theorem exists_step (h : Agree s g) (op : MixedOp) (hop : op.Legal g) :
    ∃ s', step m moved s op = some s' := by
  cases op with
  | construct i v => exact ⟨_, rfl⟩
  | of_core i v => exact ⟨_, rfl⟩
  | construct_optional i o =>
    obtain ⟨b, hb, -⟩ := BridgeMixed.exists_construct_optional m moved o
    exact ⟨_, by simp only [step, hb]; rfl⟩
  | copy_construct i j =>
    obtain ⟨v, hv⟩ := hop
    obtain ⟨other, b, hj, hb⟩ := exists_copy h hv (.members m)
    have hconstruct : BridgeMixed.copy_construct m other = some b := hb
    exact ⟨Function.update s i (some b),
      by simp only [step, hj, Option.bind_eq_bind, Option.bind_some, hconstruct]⟩
  | move_construct i j =>
    obtain ⟨hij, v, hv⟩ := hop
    obtain ⟨other, b, hj, hb⟩ := exists_copy h hv (.members m)
    have hconstruct : BridgeMixed.copy_construct m other = some b := hb
    exact ⟨Function.update (Function.update s i (some b)) j (some (other.leave m moved)),
      by simp only [step, if_neg hij, hj, BridgeMixed.move_construct, hconstruct,
        Option.bind_eq_bind, Option.bind_some, Option.map_some]⟩
  | copy_assign i j =>
    obtain ⟨hi, v, hv⟩ := hop
    obtain ⟨b₀, hb₀⟩ := h.present i hi
    obtain ⟨other, b, hj, hb⟩ := exists_copy h hv b₀
    by_cases hij : i = j
    · exact ⟨s, by simp only [step, hb₀, if_pos hij, Option.bind_eq_bind, Option.bind_some]⟩
    · exact ⟨Function.update s i (some b),
        by simp only [step, hb₀, if_neg hij, hj, hb, Option.bind_eq_bind, Option.bind_some]⟩
  | move_assign i j =>
    obtain ⟨hi, v, hv⟩ := hop
    obtain ⟨b₀, hb₀⟩ := h.present i hi
    obtain ⟨other, b, hj, hb⟩ := exists_copy h hv b₀
    by_cases hij : i = j
    · exact ⟨s, by simp only [step, hb₀, if_pos hij, Option.bind_eq_bind, Option.bind_some]⟩
    · exact ⟨Function.update (Function.update s i (some b)) j (some (other.leave m moved)),
        by simp only [step, hb₀, if_neg hij, hj, BridgeMixed.move_assign, hb, Option.bind_eq_bind,
          Option.bind_some, Option.map_some]⟩

/-- **Values are handed on** by copies, moves and assignments, however many there
are, and over whatever values. -/
theorem run_agree (ops : List MixedOp) (h : Agree s g) (hrun : run m moved s ops = some s') :
    Agree s' (meantAfter g ops) := by
  induction ops generalizing s g with
  | nil =>
    cases hrun
    exact h
  | cons op ops ih =>
    obtain ⟨s₁, hstep, hrest⟩ := Option.bind_eq_some_iff.mp hrun
    exact ih (step_agree h op hstep) hrest

/-- **A legal program runs to its end.** -/
theorem exists_mixed_run (ops : List MixedOp) (h : Agree s g) (hops : LegalProgram g ops) :
    ∃ s', run m moved s ops = some s' := by
  induction ops generalizing s g with
  | nil => exact ⟨s, rfl⟩
  | cons op ops ih =>
    obtain ⟨s₁, hs₁⟩ := exists_step (m := m) h op hops.1
    obtain ⟨s', hs'⟩ := ih (step_agree h op hs₁) hops.2
    exact ⟨s', by rw [run, hs₁]; exact hs'⟩

end Agree

end RealmCpp.Bridge
