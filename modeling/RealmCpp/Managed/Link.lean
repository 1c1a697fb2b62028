/-
  RealmCpp.Managed.Link
  ─────────────────────
  **A MANAGED LINK AS AN ARGUMENT.**

  A property of type `managed<T*>` knows the object that owns it (`m_obj`) and
  its column (`m_key`); the object it links to is only found through the column.
  The operations that take one as an argument should act as they do for the
  `managed<T>` that it links to.  Most of them take the key of `m_obj` instead,
  the key of the owner, and look it up in the table of the target.

    • `Operation.run` — the overloads that take a `managed<T*>`,
    • `Operation.intended` — the overload for what it links to,
    • `link_argument_iff` — exactly where the two agree,
    • `assigned_link_differs` — `a.link = b.link` that links `a` elsewhere.
-/
import RealmCpp.Core.Store
import RealmCpp.Rbool.Context

namespace RealmCpp.Managed

open RealmCpp.Core
open RealmCpp.Rbool (Leaf)

/-! ## §1. Properties. -/

/-- What the overloads read of the class `T` that a link points to. -/
structure TargetClass where
  table : TableKey
  is_embedded : Bool
  deriving DecidableEq, Repr

/-- A property of a stored object, as `managed_base` has it. -/
structure Property where
  m_realm : Nat
  m_obj : Ref
  m_key : String
  deriving DecidableEq, Repr

/-- The `managed<T>` of a stored object. -/
structure Object where
  m_realm : Nat
  m_obj : Ref
  deriving DecidableEq, Repr

/-- The entry of a dictionary property at a key. -/
structure Box extends Property where
  key : String
  deriving DecidableEq, Repr

/-- The left-hand side of a comparison: it belongs to the object of a query,
where a column is all there is to it, or to a stored object. -/
inductive Receiver (κ α : Type) where
  | query (m_key : κ)
  | stored (p : α)
  deriving DecidableEq, Repr

/-- What a call returns. -/
inductive Outcome where
  | done
  | verdict (b : Bool)
  | comparison (l : Leaf)
  | position (i : Nat)
  deriving DecidableEq, Repr

variable (T : TargetClass) (S : Store)

/-- A link to an object of the class. -/
def TargetClass.link (k : ObjKey) : Mixed := Ref.link ⟨T.table, k⟩

theorem TargetClass.link_inj {j k : ObjKey} : T.link j = T.link k ↔ j = k := by
  unfold link
  rw [Ref.link_inj]
  simp

/-- The object that a link property links to. -/
def Property.target (p : Property) : Option Ref := S.get_linked_object p.m_obj p.m_key

/-- `core_dictionary::get_object`. -/
def Box.target (b : Box) : Option Ref :=
  match (S.cell b.m_obj b.m_key).lookup b.key with
  | some (.link t k) => some ⟨t, k⟩
  | _ => none

/-- **A link property of the store**, null or not: what it links to is a live
object of the class. -/
structure LinkProperty extends Property where
  resolves : ∀ y, toProperty.target S = some y → y.table = T.table ∧ S.live y = true

/-! ## §2. Writing a key. -/

/-- A key that a link into the class can take. -/
abbrev Linkable (key : ObjKey) : Prop := T.is_embedded = false ∧ S.live ⟨T.table, key⟩ = true

/-- `obj::set` of an object key; the core refuses a key that is not linkable. -/
def set_key (p : Property) (key : ObjKey) : Option Store :=
  if Linkable T S key then S.tryWrite p.m_obj p.m_key (.set (Cell.one (T.link key))) else none

/-- `obj::set_null`. -/
def set_null (p : Property) : Option Store := S.tryWrite p.m_obj p.m_key (.set (Cell.one .null))

/-- `list::add` of an object key. -/
def list_add (p : Property) (key : ObjKey) : Option Store :=
  if Linkable T S key then S.tryWrite p.m_obj p.m_key (.add (T.link key)) else none

/-- `set::find` of an object key; none is `not_in_collection`. -/
def set_find (p : Property) (key : ObjKey) : Option Nat :=
  (S.cell p.m_obj p.m_key).idxOf? ("", T.link key)

/-- `core_dictionary::insert` of an object key. -/
def dictionary_insert (b : Box) (key : ObjKey) : Option Store :=
  if S.live ⟨T.table, key⟩ = true then
    S.tryWrite b.m_obj b.m_key (.dictionary_insert b.key (T.link key))
  else none

/-- `core_dictionary::insert` of a null value. -/
def dictionary_insert_null (b : Box) : Option Store :=
  S.tryWrite b.m_obj b.m_key (.dictionary_insert b.key .null)

/-- A write and what the call returns after it. -/
def returning (o : Outcome) (w : Option Store) : Option (Store × Outcome) := w.map (·, o)

theorem returning_inj {o : Outcome} {w w' : Option Store} :
    returning o w = returning o w' ↔ w = w' := by
  refine ⟨fun h => ?_, fun h => by rw [h]⟩
  exact Option.map_injective (fun a b hab => (Prod.mk.inj hab).1) h

theorem tryWrite_inj {x : Ref} {col : String} {w w' : Write} {c : Cell}
    (hw : w.apply (S.cell x col) = some c) :
    S.tryWrite x col w' = S.tryWrite x col w ↔ w'.apply (S.cell x col) = some c := by
  unfold Store.tryWrite
  rw [hw, Option.map_some, Option.map_eq_some_iff]
  constructor
  · rintro ⟨c', hc', h⟩
    rw [hc', S.setCell_inj.mp h]
  · exact fun h => ⟨c, h, rfl⟩

/-- What links to two objects leave behind differs, so that the objects can be told apart. -/
theorem linked_write_eq_iff (p : Property) (w : Mixed → Write) (c : Mixed → Cell)
    (hw : ∀ m, (w m).apply (S.cell p.m_obj p.m_key) = some (c m))
    (hinj : Function.Injective c) {j k : ObjKey} (hk : Linkable T S k) :
    (if Linkable T S j then S.tryWrite p.m_obj p.m_key (w (T.link j)) else none)
      = (if Linkable T S k then S.tryWrite p.m_obj p.m_key (w (T.link k)) else none) ↔ k = j := by
  constructor
  · intro h
    rw [if_pos hk] at h
    by_cases hj : Linkable T S j
    · rw [if_pos hj, tryWrite_inj S (hw _), hw] at h
      exact (T.link_inj.mp (hinj (Option.some.inj h))).symm
    · rw [if_neg hj, Store.tryWrite, hw] at h
      cases h
  · intro h
    rw [h]

/-- **Two keys give the same link only where they are the same**, unless links
to the class are refused. -/
theorem set_key_eq_iff (p : Property) {j k : ObjKey} (hk : S.live ⟨T.table, k⟩ = true) :
    set_key T S p j = set_key T S p k ↔ T.is_embedded = true ∨ k = j := by
  by_cases hemb : T.is_embedded = true
  · simp [set_key, Linkable, hemb]
  · have hl : Linkable T S k := ⟨by simpa using hemb, hk⟩
    rw [or_iff_right hemb]
    refine linked_write_eq_iff T S p (fun m => .set (Cell.one m)) Cell.one (fun m => rfl) ?_ hl
    intro m n h
    simpa [Cell.one] using h

theorem set_key_ne_null (p : Property) (j : ObjKey) : set_key T S p j ≠ set_null S p := by
  unfold set_key set_null
  split
  · rw [Ne, tryWrite_inj S rfl]
    simp [Write.apply, Cell.one, TargetClass.link, Ref.link]
  · exact fun h => by cases h

/-- **Two keys are the same at the end of a list only where they are the same.** -/
theorem list_add_eq_iff (p : Property) {j k : ObjKey} (hk : Linkable T S k) :
    list_add T S p j = list_add T S p k ↔ k = j := by
  refine linked_write_eq_iff T S p .add (fun m => S.cell p.m_obj p.m_key ++ [("", m)])
    (fun m => rfl) ?_ hk
  intro m n h
  simpa using h

/-- An object key is in a set property. -/
def Holds (p : Property) (key : ObjKey) : Prop := ("", T.link key) ∈ S.cell p.m_obj p.m_key

/-! ## §3. The overloads. -/

/-- The verdict of a comparison of keys between two realms. -/
def keysEqual (r r' : Nat) (a : Option ObjKey) (key : ObjKey) : Bool :=
  if r ≠ r' then false else decide (a = some key)

section Link

/-- `managed<T*>::operator=(const managed<T*>&)`. -/
def assign (r l : Property) : Option (Store × Outcome) :=
  returning .done (set_key T S r l.m_obj.key)

/-- `managed<T*>::operator=(const managed<T>&)`. -/
def assign_object (r : Property) (y : Object) : Option (Store × Outcome) :=
  returning .done (set_key T S r y.m_obj.key)

/-- `managed<T*>::operator=(std::nullptr_t)`. -/
def assign_null (r : Property) : Option (Store × Outcome) := returning .done (set_null S r)

/-- `managed<T*>::operator==(const managed<T*>&)`. -/
def equal : Receiver ColKey Property → Property → Option (Store × Outcome)
  | .query m_key, l => some (S, .comparison (.link_equal m_key (some l.m_obj.key)))
  | .stored r, l =>
      some (S, .verdict (keysEqual r.m_realm l.m_realm ((r.target S).map Ref.key) l.m_obj.key))

/-- `managed<T*>::operator==(const managed<T>&)`. -/
def equal_object : Receiver ColKey Property → Object → Option (Store × Outcome)
  | .query m_key, y => some (S, .comparison (.link_equal m_key (some y.m_obj.key)))
  | .stored r, y =>
      some (S, .verdict (keysEqual r.m_realm y.m_realm ((r.target S).map Ref.key) y.m_obj.key))

/-- `managed<T*>::operator==(std::nullptr_t)`. -/
def equal_null : Receiver ColKey Property → Option (Store × Outcome)
  | .query m_key => some (S, .comparison (.link_equal m_key none))
  | .stored r => some (S, .verdict (r.target S).isNone)

/-- `managed<T*>::operator!=(const managed<T*>&)`: in value mode it asks only
whether the left-hand side is null, as do the other two. -/
def not_equal : Receiver ColKey Property → Property → Option (Store × Outcome)
  | .query m_key, l => some (S, .comparison (.link_not_equal m_key (some l.m_obj.key)))
  | .stored r, _ => some (S, .verdict (r.target S).isSome)

/-- `managed<T*>::operator!=(const managed<T>&)`. -/
def not_equal_object : Receiver ColKey Property → Object → Option (Store × Outcome)
  | .query m_key, y => some (S, .comparison (.link_not_equal m_key (some y.m_obj.key)))
  | .stored r, _ => some (S, .verdict (r.target S).isSome)

/-- `managed<T*>::operator!=(std::nullptr_t)`. -/
def not_equal_null : Receiver ColKey Property → Option (Store × Outcome)
  | .query m_key => some (S, .comparison (.link_not_equal m_key none))
  | .stored r => some (S, .verdict (r.target S).isSome)

end Link

section Collections

/-- `managed<std::vector<T*>>::push_back(const managed<T*>&)`. -/
def push_back (r l : Property) : Option (Store × Outcome) :=
  if T.is_embedded = false then returning .done (list_add T S r l.m_obj.key)
  else none

/-- `managed<std::vector<T*>>::push_back(const managed<T>&)`. -/
def push_back_object (r : Property) (y : Object) : Option (Store × Outcome) :=
  if T.is_embedded = false then returning .done (list_add T S r y.m_obj.key)
  else none

/-- The iterator for what `set::find` returns. -/
def iteratorAt (p : Property) (idx : Option Nat) : Outcome :=
  match idx with
  | some i => .position i
  | none => .position (S.cell p.m_obj p.m_key).length

/-- `managed<std::set<T*>>::find(const managed<T*>&)`. -/
def find (r l : Property) : Option (Store × Outcome) :=
  some (S, iteratorAt S r (set_find T S r l.m_obj.key))

/-- `managed<std::set<T*>>::find(const managed<T>&)`. -/
def find_object (r : Property) (y : Object) : Option (Store × Outcome) :=
  some (S, iteratorAt S r (set_find T S r y.m_obj.key))

end Collections

section Boxes

/-- `box<managed<V*>>::operator=(const managed<V*>&)`: `o->m_obj` is the linked
object, and for a null link there is none to build a `managed<V>` of. -/
def box_assign (b : Box) (l : Property) : Option (Store × Outcome) :=
  match l.target S with
  | some y => returning .done (dictionary_insert T S b y.key)
  | none => none

/-- `box<managed<V*>>::operator=(const managed<V>&)`. -/
def box_assign_object (b : Box) (y : Object) : Option (Store × Outcome) :=
  returning .done (dictionary_insert T S b y.m_obj.key)

/-- `box<managed<V*>>::operator=(V*)` of a null pointer. -/
def box_assign_null (b : Box) : Option (Store × Outcome) :=
  returning .done (dictionary_insert_null S b)

/-- What `box<managed<V*>>::operator==(const managed<V*>&)` compares with in a query. -/
def boxOperand (l : Property) : Mixed :=
  match l.target S with
  | some _ => l.m_obj.link
  | none => .null

/-- A comparison of an entry: `op` in a query, and `sense` is the verdict of a match. -/
def box_compare (op : Comparison) (sense : Bool) :
    Receiver (ColKey × String) Box → Property → Option (Store × Outcome)
  | .query (col, key), l =>
      some (S, .comparison (.dictionary_has_value_for_key op col key (boxOperand S l)))
  | .stored b, l =>
      some (S, .verdict
        (keysEqual b.m_realm l.m_realm ((b.target S).map Ref.key) l.m_obj.key == sense))

/-- The same with a `managed<V>`. -/
def box_compare_object (op : Comparison) (sense : Bool) :
    Receiver (ColKey × String) Box → Object → Option (Store × Outcome)
  | .query (col, key), y =>
      some (S, .comparison (.dictionary_has_value_for_key op col key y.m_obj.link))
  | .stored b, y =>
      some (S, .verdict
        (keysEqual b.m_realm y.m_realm ((b.target S).map Ref.key) y.m_obj.key == sense))

/-- The same with a null link. -/
def box_compare_null (op : Comparison) (sense : Bool) :
    Receiver (ColKey × String) Box → Option (Store × Outcome)
  | .query (col, key) => some (S, .comparison (.dictionary_has_value_for_key op col key .null))
  | .stored b => some (S, .verdict ((b.target S).isNone == sense))

/-- `box<managed<V*>>::operator==(const managed<V*>&)`. -/
def box_equal := box_compare S .equal true

/-- `box<managed<V*>>::operator!=(const managed<V*>)`. -/
def box_not_equal := box_compare S .not_equal false

/-- `box<managed<V*>>::operator==(const managed<V>&)`. -/
def box_equal_object := box_compare_object S .equal true

/-- `box<managed<V*>>::operator!=(const managed<V>)`. -/
def box_not_equal_object := box_compare_object S .not_equal false

end Boxes

/-! ## §4. All operations. -/

/-- The operations that take a `const managed<T*>&`, on their receivers. -/
inductive Operation where
  | assign (r : Property)
  | equal (r : Receiver ColKey Property)
  | not_equal (r : Receiver ColKey Property)
  | push_back (r : Property)
  | find (r : Property)
  | box_assign (b : Box)
  | box_equal (b : Receiver (ColKey × String) Box)
  | box_not_equal (b : Receiver (ColKey × String) Box)
  deriving DecidableEq, Repr

namespace Operation

/-- The overload for a `managed<T*>`; none where it throws. -/
def run (l : Property) : Operation → Option (Store × Outcome)
  | assign r => Managed.assign T S r l
  | equal r => Managed.equal S r l
  | not_equal r => Managed.not_equal S r l
  | push_back r => Managed.push_back T S r l
  | find r => Managed.find T S r l
  | box_assign b => Managed.box_assign T S b l
  | box_equal b => Managed.box_equal S b l
  | box_not_equal b => Managed.box_not_equal S b l

/-- The overload for a `managed<T>`. -/
def run_object (y : Object) : Operation → Option (Store × Outcome)
  | assign r => assign_object T S r y
  | equal r => equal_object S r y
  | not_equal r => not_equal_object S r y
  | push_back r => push_back_object T S r y
  | find r => find_object T S r y
  | box_assign b => box_assign_object T S b y
  | box_equal b => box_equal_object S b y
  | box_not_equal b => box_not_equal_object S b y

/-- **What the operation should do for a null link.**  A list and a set of links
hold no null: nothing can be added, and nothing is found. -/
def run_null : Operation → Option (Store × Outcome)
  | assign r => assign_null S r
  | equal r => equal_null S r
  | not_equal r => not_equal_null S r
  | push_back _ => none
  | find r => some (S, iteratorAt S r none)
  | box_assign b => box_assign_null S b
  | box_equal b => box_compare_null S .equal true b
  | box_not_equal b => box_compare_null S .not_equal false b

/-- **What a link argument stands for**: the object it links to. -/
def intended (l : Property) (op : Operation) : Option (Store × Outcome) :=
  match l.target S with
  | some y => op.run_object T S ⟨l.m_realm, y⟩
  | none => op.run_null S

/-- Comparing with `owner` is no different from comparing with `target`, where
`a` is what the left-hand side links to. -/
def VerdictAgrees (sameRealm : Prop) (a : Option Ref) (owner : ObjKey) (target : Option Ref) :
    Prop :=
  match target with
  | some y => sameRealm → y.key = owner ∨
      (a.map Ref.key ≠ some y.key ∧ a.map Ref.key ≠ some owner)
  | none => a.isSome ∧ (sameRealm → a.map Ref.key ≠ some owner)

/-- **When an operation does for the link `l` what it should**, by the key of the
object that owns `l` and of the one it links to. -/
def Agrees (l : Property) : Operation → Prop
  | assign _ => ∃ y, l.target S = some y ∧ (T.is_embedded = true ∨ y.key = l.m_obj.key)
  | push_back _ => T.is_embedded = true ∨
      match l.target S with
      | some y => y.key = l.m_obj.key
      | none => S.live ⟨T.table, l.m_obj.key⟩ = false
  | find r =>
      match l.target S with
      | some y => y.key = l.m_obj.key ∨ (¬ Holds T S r y.key ∧ ¬ Holds T S r l.m_obj.key)
      | none => ¬ Holds T S r l.m_obj.key
  | equal (.query _) | not_equal (.query _) => ∃ y, l.target S = some y ∧ y.key = l.m_obj.key
  | equal (.stored r) =>
      VerdictAgrees (r.m_realm = l.m_realm) (r.target S) l.m_obj.key (l.target S)
  | not_equal (.stored _) => True
  | box_assign _ => ∃ y, l.target S = some y
  | box_equal (.query _) | box_not_equal (.query _) => ∀ y, l.target S = some y → y = l.m_obj
  | box_equal (.stored b) | box_not_equal (.stored b) =>
      VerdictAgrees (b.m_realm = l.m_realm) (b.target S) l.m_obj.key (l.target S)

/-! ## §5. Where they agree. -/

theorem iteratorAt_find (p : Property) (key : ObjKey) :
    iteratorAt S p (set_find T S p key)
      = .position ((S.cell p.m_obj p.m_key).idxOf ("", T.link key)) := by
  rw [List.idxOf_eq_getD_idxOf?]
  unfold set_find iteratorAt
  cases (S.cell p.m_obj p.m_key).idxOf? ("", T.link key) <;> rfl

/-- **Two keys are found at the same place** only where they are the same or
neither is there. -/
theorem find_eq_iff (p : Property) (j k : ObjKey) :
    iteratorAt S p (set_find T S p j) = iteratorAt S p (set_find T S p k)
      ↔ k = j ∨ (¬ Holds T S p k ∧ ¬ Holds T S p j) := by
  rw [iteratorAt_find, iteratorAt_find, Outcome.position.injEq]
  constructor
  · intro h
    by_cases hj : Holds T S p j
    · have hlink := (List.idxOf_inj hj).mp h
      exact .inl (T.link_inj.mp (Prod.mk.inj hlink).2).symm
    · -- the key that is not there is found at the end, where no element is
      rw [List.idxOf_eq_length hj] at h
      exact .inr ⟨List.idxOf_eq_length_iff.mp h.symm, hj⟩
  · rintro (rfl | ⟨hk, hj⟩)
    · rfl
    · rw [List.idxOf_eq_length hj, List.idxOf_eq_length hk]

theorem find_none_iff (p : Property) (j : ObjKey) :
    iteratorAt S p (set_find T S p j) = iteratorAt S p none ↔ ¬ Holds T S p j := by
  rw [iteratorAt_find]
  unfold iteratorAt Holds
  rw [Outcome.position.injEq]
  exact List.idxOf_eq_length_iff

/-- The verdicts on two keys. -/
theorem keysEqual_eq_iff (r r' : Nat) (a : Option ObjKey) (j k : ObjKey) :
    keysEqual r r' a j = keysEqual r r' a k
      ↔ (r = r' → k = j ∨ (a ≠ some k ∧ a ≠ some j)) := by
  unfold keysEqual
  by_cases hr : r = r'
  · simp only [hr, ne_eq, not_true_eq_false, if_false, forall_const, decide_eq_decide]
    constructor
    · intro h
      by_cases hj : a = some j
      · exact .inl (Option.some.inj ((h.mp hj).symm.trans hj))
      · exact .inr ⟨fun hk => hj (h.mpr hk), hj⟩
    · rintro (rfl | ⟨hk, hj⟩)
      · exact Iff.rfl
      · exact ⟨fun h => absurd h hj, fun h => absurd h hk⟩
  · simp [hr]

/-- The verdict on a key, and whether there is a link at all. -/
theorem keysEqual_null_iff (r r' : Nat) (a : Option Ref) (j : ObjKey) :
    keysEqual r r' (a.map Ref.key) j = a.isNone
      ↔ (a.isSome ∧ (r = r' → a.map Ref.key ≠ some j)) := by
  unfold keysEqual
  cases a <;> by_cases hr : r = r' <;> simp [hr]

/-- **A comparison with an object's key or with nothing**, in terms of what each
side is. -/
theorem verdict_agrees (r r' : Nat) (a : Option Ref) (owner : ObjKey) (target : Option Ref) :
    keysEqual r r' (a.map Ref.key) owner
        = (match target with
          | some y => keysEqual r r' (a.map Ref.key) y.key
          | none => a.isNone)
      ↔ VerdictAgrees (r = r') a owner target := by
  cases target with
  | some y => exact keysEqual_eq_iff r r' _ owner y.key
  | none => exact keysEqual_null_iff r r' a owner

/-- The comparison of an entry, for both of its operators. -/
theorem box_compare_agrees (op : Comparison) (sense : Bool) (b : Box) (l : Property) :
    box_compare S op sense (.stored b) l
        = (match l.target S with
          | some y => box_compare_object S op sense (.stored b) ⟨l.m_realm, y⟩
          | none => box_compare_null S op sense (.stored b))
      ↔ VerdictAgrees (b.m_realm = l.m_realm) (b.target S) l.m_obj.key (l.target S) := by
  rw [← verdict_agrees]
  cases l.target S <;> cases sense <;> simp [box_compare, box_compare_object, box_compare_null]

/-- The same in a query. -/
theorem box_compare_agrees_query (op : Comparison) (sense : Bool) (c : ColKey × String)
    (l : Property) :
    box_compare S op sense (.query c) l
        = (match l.target S with
          | some y => box_compare_object S op sense (.query c) ⟨l.m_realm, y⟩
          | none => box_compare_null S op sense (.query c))
      ↔ ∀ y, l.target S = some y → y = l.m_obj := by
  cases htarget : l.target S with
  | some y => simp [box_compare, boxOperand, htarget, box_compare_object, Ref.link_inj, eq_comm]
  | none => simp [box_compare, boxOperand, htarget, box_compare_null]

section Resolved

variable {l : Property} (hl : ∀ y, l.target S = some y → y.table = T.table ∧ S.live y = true)
include hl

/-- An assignment takes the key that the link is stored at for one of its class. -/
theorem assign_agrees (r : Property) :
    (assign r).run T S l = (assign r).intended T S l ↔ (assign r).Agrees T S l := by
  simp only [intended, run, Agrees, Managed.assign]
  cases htarget : l.target S with
  | some y =>
    -- the object that the link leads to is one of the table
    obtain ⟨htable, hlive⟩ := hl y htarget
    have hy : S.live ⟨T.table, y.key⟩ = true := by rw [← htable]; exact hlive
    simp only [run_object, assign_object, returning_inj, Option.some.injEq]
    rw [set_key_eq_iff T S r hy]
    simp
  | none =>
    simp only [run_null, assign_null, returning_inj]
    simpa using set_key_ne_null T S r l.m_obj.key

/-- So does `push_back`, to a list of objects that are not embedded. -/
theorem push_back_agrees (r : Property) :
    (push_back r).run T S l = (push_back r).intended T S l ↔ (push_back r).Agrees T S l := by
  simp only [intended, run, Agrees, Managed.push_back]
  cases hemb : T.is_embedded with
  | true =>
    cases l.target S <;> simp [run_object, run_null, push_back_object, hemb]
  | false =>
    cases htarget : l.target S with
    | some y =>
      obtain ⟨htable, hlive⟩ := hl y htarget
      have hy : Linkable T S y.key := ⟨hemb, by rw [← htable]; exact hlive⟩
      simp [run_object, push_back_object, hemb, returning_inj, list_add_eq_iff T S r hy]
    | none =>
      simp [run_null, returning, list_add, Linkable, hemb, Store.tryWrite, Write.apply]

end Resolved

/-- **Exactly when a link argument stands for the object it links to**, for every
operation, receiver and link of a store. -/
theorem link_argument_iff (l : LinkProperty T S) (op : Operation) :
    op.run T S l.toProperty = op.intended T S l.toProperty ↔ op.Agrees T S l.toProperty := by
  obtain ⟨l, hl⟩ := l
  unfold intended
  cases op with
  | assign r => exact assign_agrees T S hl r
  | equal r =>
    cases r with
    | query m_key =>
      simp only [run, Agrees, Managed.equal]
      cases l.target S <;> simp [run_object, run_null, equal_object, equal_null, eq_comm]
    | stored r =>
      simp only [run, Agrees]
      rw [← verdict_agrees]
      cases l.target S <;>
        simp [run_object, run_null, Managed.equal, equal_object, equal_null]
  | not_equal r =>
    cases r with
    | query m_key =>
      simp only [run, Agrees, Managed.not_equal]
      cases l.target S <;> simp [run_object, run_null, not_equal_object, not_equal_null, eq_comm]
    | stored r =>
      simp only [run, Agrees, Managed.not_equal]
      cases l.target S <;> simp [run_object, run_null, not_equal_object, not_equal_null]
  | push_back r => exact push_back_agrees T S hl r
  | find r =>
    simp only [run, Agrees, Managed.find]
    cases l.target S with
    | some y =>
      simp only [run_object, find_object, Option.some.injEq, Prod.mk.injEq, true_and]
      exact find_eq_iff T S r _ _
    | none =>
      simp only [run_null, Option.some.injEq, Prod.mk.injEq, true_and]
      exact find_none_iff T S r _
  | box_assign b =>
    simp only [run, Agrees, Managed.box_assign]
    cases l.target S with
    | some y => simp [run_object, box_assign_object]
    | none =>
      simp [run_null, box_assign_null, returning, dictionary_insert_null, Store.tryWrite,
        Write.apply]
  | box_equal b =>
    cases b with
    | query c => exact box_compare_agrees_query S .equal true c l
    | stored b => exact box_compare_agrees S .equal true b l
  | box_not_equal b =>
    cases b with
    | query c => exact box_compare_agrees_query S .not_equal false c l
    | stored b => exact box_compare_agrees S .not_equal false b l

end Operation

/-- Objects 1 and 2 of tables 0 and 1, where object 2 of table 0 links to object 1 of table 1. -/
def linkedStore : Store where
  live x := decide (x.table.value < 2 ∧ (x.key.value = 1 ∨ x.key.value = 2))
  next _ := 3
  index _ _ := none
  cells p := if p = (⟨⟨0⟩, ⟨2⟩⟩, "link") then Cell.one (.link ⟨1⟩ ⟨1⟩) else Cell.one .null

/-- **After `a.link = b.link`**, with `b.link` at object 1, `a.link` is at object 2:
the key of `b`. -/
theorem assigned_link_differs :
    let T : TargetClass := ⟨⟨1⟩, false⟩
    let a : Property := ⟨0, ⟨⟨0⟩, ⟨1⟩⟩, "link"⟩
    let b : Property := ⟨0, ⟨⟨0⟩, ⟨2⟩⟩, "link"⟩
    ∃ S', assign T linkedStore a b = some (S', .done) ∧
      a.target S' = some ⟨⟨1⟩, ⟨2⟩⟩ ∧ b.target S' = some ⟨⟨1⟩, ⟨1⟩⟩ ∧
      (Operation.assign a).run T linkedStore b ≠ (Operation.assign a).intended T linkedStore b := by
  refine ⟨_, rfl, rfl, rfl, fun h => ?_⟩
  have hcell := congrArg (fun o => o.map fun p => p.1.get_linked_object ⟨⟨0⟩, ⟨1⟩⟩ "link") h
  revert hcell
  decide

/-- The link of object 2, to a live object of its class. -/
def linked : LinkProperty ⟨⟨1⟩, false⟩ linkedStore where
  m_realm := 0
  m_obj := ⟨⟨0⟩, ⟨2⟩⟩
  m_key := "link"
  resolves := by
    intro y hy
    obtain rfl : ⟨⟨1⟩, ⟨1⟩⟩ = y := Option.some.inj hy
    exact ⟨rfl, rfl⟩

/-- It does not stand for what it links to where it is assigned, and it does where a stored
link is asked whether it is another one. -/
theorem link_argument_linked :
    (Operation.assign ⟨0, ⟨⟨0⟩, ⟨1⟩⟩, "link"⟩).run ⟨⟨1⟩, false⟩ linkedStore linked.toProperty ≠
        (Operation.assign ⟨0, ⟨⟨0⟩, ⟨1⟩⟩, "link"⟩).intended ⟨⟨1⟩, false⟩ linkedStore
          linked.toProperty ∧
      (Operation.not_equal (.stored ⟨0, ⟨⟨0⟩, ⟨1⟩⟩, "link"⟩)).run ⟨⟨1⟩, false⟩ linkedStore
          linked.toProperty =
        (Operation.not_equal (.stored ⟨0, ⟨⟨0⟩, ⟨1⟩⟩, "link"⟩)).intended ⟨⟨1⟩, false⟩ linkedStore
          linked.toProperty := by
  constructor
  · rw [Ne, Operation.link_argument_iff]
    rintro ⟨y, hy, hembedded | hkey⟩
    · cases hembedded
    · obtain rfl : ⟨⟨1⟩, ⟨1⟩⟩ = y := Option.some.inj hy
      revert hkey
      decide
  · exact (Operation.link_argument_iff _ _ linked _).mpr trivial

end RealmCpp.Managed
