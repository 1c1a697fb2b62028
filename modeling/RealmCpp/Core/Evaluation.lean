/-
  RealmCpp.Core.Evaluation
  ────────────────────────
  **WHAT A CONDITION SAYS OF AN OBJECT.**

  A condition follows its path from the object and asks its test of a column
  there.  Values of one type are compared by their order, doubles as IEEE 754
  has it.  Where there is no order between two values, with null on one side in
  particular, they differ, and nothing else.

    • `Comparison.holds` — the six operators, on the order between two values,
    • `Semantics.sat` — the interpretation of the conditions of a query.
-/
import RealmCpp.Core.Query
import RealmCpp.Core.Store
import RealmCpp.Library.Binary64
import RealmCpp.Library.Substring
import Mathlib.Tactic.SplitIfs

namespace RealmCpp.Core

open RealmCpp.Library

/-! ## §1. Operators. -/

/-- The order between two values by their equality and `<`. -/
def ordering {α : Type} [DecidableEq α] [LT α] [DecidableLT α] (a b : α) : Ordering :=
  if a = b then .eq else if a < b then .lt else .gt

/-- The operator, on the order between its operands; `none` if there is none. -/
def Comparison.holds : Comparison → Option Ordering → Bool
  | equal, o => o == some .eq
  | not_equal, o => o != some .eq
  | greater, o => o == some .gt
  | less, o => o == some .lt
  | greater_equal, o => o == some .gt || o == some .eq
  | less_equal, o => o == some .lt || o == some .eq

/-- `!=` is the negation of `==`. -/
theorem holds_not_equal (o : Option Ordering) :
    Comparison.not_equal.holds o = !Comparison.equal.holds o := rfl

@[simp] theorem ordering_eq_iff {α : Type} [DecidableEq α] [LT α] [DecidableLT α] {a b : α} :
    ordering a b = .eq ↔ a = b := by
  unfold ordering
  by_cases heq : a = b
  · simp [heq]
  · by_cases hlt : a < b <;> simp [heq, hlt]

/-- Integers, by the order of the integers. -/
def Comparison.int (op : Comparison) (a b : Int) : Bool := op.holds (some (ordering a b))

section
variable (a b : Int)

@[simp] theorem int_equal : Comparison.equal.int a b = decide (a = b) := by
  unfold Comparison.int Comparison.holds ordering
  split_ifs <;> simp <;> omega

@[simp] theorem int_not_equal : Comparison.not_equal.int a b = decide (a ≠ b) := by
  have heq := int_equal a b
  unfold Comparison.int at heq ⊢
  rw [holds_not_equal, heq]
  simp

@[simp] theorem int_greater : Comparison.greater.int a b = decide (b < a) := by
  unfold Comparison.int Comparison.holds ordering
  split_ifs <;> simp <;> omega

@[simp] theorem int_less : Comparison.less.int a b = decide (a < b) := by
  unfold Comparison.int Comparison.holds ordering
  split_ifs <;> simp <;> omega

@[simp] theorem int_greater_equal : Comparison.greater_equal.int a b = decide (b ≤ a) := by
  unfold Comparison.int Comparison.holds ordering
  split_ifs <;> simp <;> omega

@[simp] theorem int_less_equal : Comparison.less_equal.int a b = decide (a ≤ b) := by
  unfold Comparison.int Comparison.holds ordering
  split_ifs <;> simp <;> omega

end

/-! ## §2. Values. -/

/-- What the evaluation of a condition takes from the core as it is: the order of
decimals, the folding of letters, and the order of values of any two types in a
dictionary. -/
structure Semantics where
  decimal_compare : UInt64 × UInt64 → UInt64 × UInt64 → Option Ordering
  fold : Char → Char
  mixed_compare : Mixed → Mixed → Ordering

namespace Semantics

variable (K : Semantics)

/-- The order between two values of a typed column, if there is one. -/
def compare : Mixed → Mixed → Option Ordering
  | .null, .null => some .eq
  | .int a, .int b => some (ordering a b)
  | .bool a, .bool b => some (if a = b then .eq else if b then .lt else .gt)
  | .double a, .double b => (Binary64.ofBits a).compare (Binary64.ofBits b)
  | .string a, .string b => some (ordering a b)
  | .binary a, .binary b => some (ordering a b)
  | .timestamp s n, .timestamp s' n' =>
      some (if s = s' then ordering n n' else ordering s s')
  | .uuid a, .uuid b => some (ordering a b)
  | .object_id a, .object_id b => some (ordering a b)
  | .decimal128 l h, .decimal128 l' h' => K.decimal_compare (l, h) (l', h')
  | .link t k, .link t' k' =>
      some (if t = t' then ordering k.value k'.value else ordering t.value t'.value)
  | _, _ => none

/-- Does `rhs` occur in `s`, ignoring case or not. -/
def contains (s rhs : String) (case_sensitive : Bool) : Bool :=
  if case_sensitive then decide (rhs.toList <:+: s.toList)
  else decide (rhs.toList.map K.fold <:+: s.toList.map K.fold)

/-- What an occurrence is does not get less when case is ignored. -/
theorem contains_of_case_sensitive {s rhs : String} (h : K.contains s rhs true = true) :
    K.contains s rhs false = true := by
  unfold contains at h ⊢
  simp only [if_true, decide_eq_true_eq] at h
  simpa using infix_map_of_infix K.fold h

/-- The object key that a link holds. -/
def linked : Mixed → Option ObjKey
  | .link _ k => some k
  | _ => none

/-! ## §3. Conditions. -/

/-- A test, on the value of a column, or on its entries where it is a dictionary.
An entry that is not there is null. -/
def test (v : Mixed) (entries : List (String × Mixed)) : Test → Bool
  | .compare op rhs => op.holds (K.compare v rhs)
  | .contains rhs case_sensitive =>
    match v with
    | .string s => K.contains s rhs case_sensitive
    | _ => false
  | .links_to target => linked v == target
  | .not_links_to target => linked v != target
  | .dictionary_value op key rhs =>
      op.holds (some (K.mixed_compare ((entries.lookup key).getD .null) rhs))
  | .dictionary_contains_string key rhs =>
    match entries.lookup key with
    | some (.string s) => K.contains s rhs true
    | _ => false
  | .dictionary_contains_key key => (entries.lookup key).isSome

end Semantics

/-- The rows of all tables: the value of each column that has one, and the
entries of each dictionary. -/
structure Rows where
  value : Ref → ColKey → Mixed
  entries : Ref → ColKey → List (String × Mixed)

namespace Rows

variable (R : Rows)

/-- Where one step of a path leads. -/
def step (x : Ref) : PathStep → Option Ref
  | .link col =>
    match R.value x col with
    | .link t k => some ⟨t, k⟩
    | _ => none
  | .dictionary col key =>
    match (R.entries x col).lookup key with
    | some (.link t k) => some ⟨t, k⟩
    | _ => none

/-- Where a path leads. -/
def follow : List PathStep → Ref → Option Ref
  | [], x => some x
  | p :: path, x => (R.step x p).bind (follow path)

end Rows

/-- Does the object of the table meet the condition.  Behind a null link every
column is null. -/
def Semantics.sat (K : Semantics) (R : Rows) (t : TableKey) (c : Condition) (x : ObjKey) : Bool :=
  match R.follow c.path ⟨t, x⟩ with
  | some y => K.test (R.value y c.col) (R.entries y c.col) c.test
  | none => K.test .null [] c.test

theorem Semantics.sat_of_follow {K : Semantics} {R : Rows} {t : TableKey} {c : Condition}
    {x : ObjKey} {y : Ref} (h : R.follow c.path ⟨t, x⟩ = some y) :
    K.sat R t c x = K.test (R.value y c.col) (R.entries y c.col) c.test := by
  unfold sat
  rw [h]

end RealmCpp.Core
