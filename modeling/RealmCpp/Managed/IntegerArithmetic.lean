/-
  RealmCpp.Managed.IntegerArithmetic
  ──────────────────────────────────
  **ARITHMETIC ON INTEGER PROPERTIES.**

  The operators of `managed<int64_t>` and `managed<std::optional<int64_t>>` read the
  column, calculate with the operators of C++, and write the column.  A null raises; that
  the result is an `int64_t` nothing sees to.

    • `managed_int64.add_assign`, …, `managed_optional_int64.divided` — the operators,
    • `ExactOrRefused` — what a property should be after one,
    • `integer_arithmetic_exact_iff` — where it is.
-/
import RealmCpp.Library.SignedInteger
import RealmCpp.Managed.Scalar

namespace RealmCpp.Managed

open RealmCpp.Library

/-! ## §1. Properties. -/

abbrev Int64 := Integral .int64

/-- A property that is read and written through `m_obj`. -/
structure NumericProperty (V : Type) where
  value : V
  in_write : Bool
  deriving DecidableEq

/-- Why an operator raises. -/
inductive ArithmeticError where
  | runtime_error (message : String)
  | not_in_write
  deriving DecidableEq, Repr

/-- How an operator ends: after an overflow or a division by zero, C++ says nothing of
the program. -/
inductive ArithmeticOutcome (V : Type) where
  | undefined
  | raised (e : ArithmeticError) (left : NumericProperty V)
  | returned (left : NumericProperty V)
  deriving DecidableEq

/-- `m_obj->set`, which raises outside of a write transaction. -/
def NumericProperty.set {V : Type} (p : NumericProperty V) (v : V) : ArithmeticOutcome V :=
  if p.in_write then .returned { p with value := v } else .raised .not_in_write p

/-- The operators of C++ on `int64_t`: undefined where the result is none of the type. -/
def evaluate (op : ArithmeticOperator) (v o : Int64) : Option Int64 :=
  (op.exact v.value o.value).bind fun r =>
    if h : IntegralType.int64.least ≤ r ∧ r ≤ IntegralType.int64.greatest then some ⟨r, h⟩ else none

/-- `1`, as an `int64_t`. -/
def one : Int64 := ⟨1, by decide⟩

/-! ## §2. The operators. -/

namespace managed_int64

/-- `set(m_key, get(m_key) op o)`. -/
def rewrite (op : ArithmeticOperator) (p : NumericProperty Int64) (o : Int64) :
    ArithmeticOutcome Int64 :=
  let old_val := p.value
  match evaluate op old_val o with
  | none => .undefined
  | some v => p.set v

def add_assign := rewrite .plus

def post_increment (p : NumericProperty Int64) := rewrite .plus p one

def increment (p : NumericProperty Int64) := rewrite .plus p one

def sub_assign := rewrite .minus

def post_decrement (p : NumericProperty Int64) := rewrite .minus p one

def decrement (p : NumericProperty Int64) := rewrite .minus p one

def mul_assign := rewrite .times

end managed_int64

namespace managed_optional_int64

/-- The same with `get_optional`, unless that is null. -/
def rewrite (op : ArithmeticOperator) (p : NumericProperty (Option Int64)) (o : Int64) :
    ArithmeticOutcome (Option Int64) :=
  match p.value with
  | none => .raised (.runtime_error "Cannot perform arithmetic on null value.") p
  | some old_val =>
    match evaluate op old_val o with
    | none => .undefined
    | some v => p.set (some v)

def add_assign := rewrite .plus

def post_increment (p : NumericProperty (Option Int64)) := rewrite .plus p one

def sub_assign := rewrite .minus

def post_decrement (p : NumericProperty (Option Int64)) := rewrite .minus p one

def mul_assign := rewrite .times

/-- `operator*` writes the column as well. -/
def times := rewrite .times

/-- As `operator/` does. -/
def divided := rewrite .divided

end managed_optional_int64

/-- An operator of `managed<int64_t>` with its operand. -/
inductive Int64Operator where
  | add_assign (o : Int64) | post_increment | increment
  | sub_assign (o : Int64) | post_decrement | decrement
  | mul_assign (o : Int64)

/-- An operator of `managed<std::optional<int64_t>>` with its operand. -/
inductive OptionalInt64Operator where
  | add_assign (o : Int64) | post_increment
  | sub_assign (o : Int64) | post_decrement
  | mul_assign (o : Int64) | times (o : Int64) | divided (o : Int64)

namespace Int64Operator

def run (p : NumericProperty Int64) : Int64Operator → ArithmeticOutcome Int64
  | add_assign o => managed_int64.add_assign p o
  | post_increment => managed_int64.post_increment p
  | increment => managed_int64.increment p
  | sub_assign o => managed_int64.sub_assign p o
  | post_decrement => managed_int64.post_decrement p
  | decrement => managed_int64.decrement p
  | mul_assign o => managed_int64.mul_assign p o

/-- What an operator is for: the operation and its operand. -/
def operation : Int64Operator → ArithmeticOperator × Int
  | add_assign o => (.plus, o.value)
  | post_increment | increment => (.plus, 1)
  | sub_assign o => (.minus, o.value)
  | post_decrement | decrement => (.minus, 1)
  | mul_assign o => (.times, o.value)

end Int64Operator

namespace OptionalInt64Operator

def run (p : NumericProperty (Option Int64)) :
    OptionalInt64Operator → ArithmeticOutcome (Option Int64)
  | add_assign o => managed_optional_int64.add_assign p o
  | post_increment => managed_optional_int64.post_increment p
  | sub_assign o => managed_optional_int64.sub_assign p o
  | post_decrement => managed_optional_int64.post_decrement p
  | mul_assign o => managed_optional_int64.mul_assign p o
  | times o => managed_optional_int64.times p o
  | divided o => managed_optional_int64.divided p o

def operation : OptionalInt64Operator → ArithmeticOperator × Int
  | add_assign o => (.plus, o.value)
  | post_increment => (.plus, 1)
  | sub_assign o => (.minus, o.value)
  | post_decrement => (.minus, 1)
  | mul_assign o | times o => (.times, o.value)
  | divided o => (.divided, o.value)

end OptionalInt64Operator

/-! ## §3. Exact or refused. -/

/-- **The exact result is stored, or the operator raises and the property is unchanged.**
Here a value is a number, or null. -/
def ExactOrRefused {V : Type} (number : V → Option Int) (op : ArithmeticOperator) (o : Int)
    (p : NumericProperty V) : ArithmeticOutcome V → Prop
  | .undefined => False
  | .raised _ left => left = p
  | .returned left => ∃ v r, number p.value = some v ∧ op.exact v o = some r ∧
      number left.value = some r

/-- The greatest `int64_t`. -/
def int64_max : Int := IntegralType.int64.greatest

theorem int64_inRange (v : Int64) : InRange int64_max v.value := v.inRange

/-- What is evaluated is the exact result, where that is an `int64_t`. -/
theorem evaluate_eq_some_iff (op : ArithmeticOperator) (v o : Int64) (w : Int64) :
    evaluate op v o = some w ↔ op.exact v.value o.value = some w.value := by
  unfold evaluate
  rw [Option.bind_eq_some_iff]
  constructor
  · intro ⟨r, hr, hw⟩
    split at hw
    · rw [hr, ← Option.some.inj hw]
    · exact absurd hw (by simp)
  · intro h
    exact ⟨w.value, h, dif_pos w.inRange⟩

/-- Something is evaluated for the operands that fit. -/
theorem evaluate_isSome_iff (op : ArithmeticOperator) (v o : Int64) :
    (∃ w, evaluate op v o = some w) ↔ op.Fits int64_max v.value o.value := by
  rw [← ArithmeticOperator.exact_inRange_iff (int64_inRange v)]
  constructor
  · intro ⟨w, hw⟩
    exact ⟨w.value, (evaluate_eq_some_iff op v o w).mp hw, int64_inRange w⟩
  · intro ⟨r, hr, hrange⟩
    exact ⟨⟨r, hrange⟩, (evaluate_eq_some_iff op v o ⟨r, hrange⟩).mpr hr⟩

/-- Writing the exact result of the operands is what the operator should do. -/
theorem exactOrRefused_set {V : Type} {number : V → Option Int} {op : ArithmeticOperator}
    {o : Int} {p : NumericProperty V} {v r : Int} {w : V} (hv : number p.value = some v)
    (hr : op.exact v o = some r) (hw : number w = some r) :
    ExactOrRefused number op o p (p.set w) := by
  unfold NumericProperty.set
  by_cases hwrite : p.in_write = true
  · rw [if_pos hwrite]
    exact ⟨v, r, hv, hr, hw⟩
  · -- outside of a write transaction the property keeps its value
    rw [if_neg hwrite]
    exact rfl

/-- **`managed<int64_t>`**: exact where the operands fit. -/
theorem rewrite_int64_exact_iff (op : ArithmeticOperator) (p : NumericProperty Int64) (o : Int64) :
    ExactOrRefused (fun v => some v.value) op o.value p (managed_int64.rewrite op p o) ↔
      op.Fits int64_max p.value.value o.value := by
  rw [← evaluate_isSome_iff]
  show ExactOrRefused _ op o.value p (match evaluate op p.value o with
    | none => .undefined
    | some v => p.set v) ↔ _
  cases h : evaluate op p.value o with
  | none => simp [ExactOrRefused]
  | some w =>
    refine iff_of_true ?_ ⟨w, rfl⟩
    exact exactOrRefused_set rfl ((evaluate_eq_some_iff op p.value o w).mp h) rfl

/-- **`managed<std::optional<int64_t>>`**: exact where the operands fit, and null is
refused. -/
theorem rewrite_optional_exact_iff (op : ArithmeticOperator) (p : NumericProperty (Option Int64))
    (o : Int64) :
    ExactOrRefused (Option.map Integral.value) op o.value p (managed_optional_int64.rewrite op p o) ↔
      ∀ v, p.value = some v → op.Fits int64_max v.value o.value := by
  unfold managed_optional_int64.rewrite
  cases hp : p.value with
  | none => simp [ExactOrRefused]
  | some v =>
    simp only [Option.some.injEq, forall_eq']
    rw [← evaluate_isSome_iff]
    cases h : evaluate op v o with
    | none => simp [ExactOrRefused]
    | some w =>
      refine iff_of_true ?_ ⟨w, rfl⟩
      exact exactOrRefused_set (congrArg (Option.map Integral.value) hp)
        ((evaluate_eq_some_iff op v o w).mp h) rfl

/-- **Where integer arithmetic is exact or refused**: on null, and for operands whose
result is an `int64_t`, which a quotient by zero and that of the least number by `-1` are
not. -/
theorem integer_arithmetic_exact_iff :
    (∀ (c : Int64Operator) (p : NumericProperty Int64),
      ExactOrRefused (fun v => some v.value) c.operation.1 c.operation.2 p (c.run p) ↔
        c.operation.1.Fits int64_max p.value.value c.operation.2) ∧
    (∀ (c : OptionalInt64Operator) (p : NumericProperty (Option Int64)),
      ExactOrRefused (Option.map Integral.value) c.operation.1 c.operation.2 p (c.run p) ↔
        ∀ v, p.value = some v → c.operation.1.Fits int64_max v.value c.operation.2) := by
  constructor
  · intro c p
    cases c with
    | add_assign o | sub_assign o | mul_assign o => exact rewrite_int64_exact_iff _ p o
    | post_increment | increment | post_decrement | decrement => exact rewrite_int64_exact_iff _ p one
  · intro c p
    cases c with
    | add_assign o | sub_assign o | mul_assign o | times o | divided o =>
      exact rewrite_optional_exact_iff _ p o
    | post_increment | post_decrement => exact rewrite_optional_exact_iff _ p one

/-- A property with the greatest `int64_t`. -/
def greatest_property : NumericProperty Int64 := ⟨⟨9223372036854775807, by decide⟩, true⟩

/-- **The greatest `int64_t` has no successor**: `++` overflows. -/
theorem increment_of_greatest :
    ¬ ExactOrRefused (fun v => some v.value) .plus 1 greatest_property
      (Int64Operator.increment.run greatest_property) := by
  intro h
  have hundefined : Int64Operator.increment.run greatest_property = .undefined := by decide
  rw [hundefined] at h
  exact h

end RealmCpp.Managed
