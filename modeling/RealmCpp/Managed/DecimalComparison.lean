/-
  RealmCpp.Managed.DecimalComparison
  ──────────────────────────────────
  **`decimal128`: EQUALITY AND ORDER.**

  The order of two decimals is that of the core, by the numbers that they stand for.
  Their equality compares the words, and one number has several.

    • `Decimal128.equal`, …, `Decimal128.less_equal` — the operators,
    • `DecimalOrder.Numeric` — the order of the core,
    • `decimal_consistent_iff` — where both are consistent.
-/
import RealmCpp.Library.Decimal128
import RealmCpp.Managed.StorableValues

namespace RealmCpp.Managed

open RealmCpp.Library

/-! ## §1. The operators. -/

/-- The comparisons of `Decimal128`, on the words of two of them. -/
structure DecimalOrder where
  equal : Bid128 → Bid128 → Bool
  greater : Bid128 → Bid128 → Bool
  less : Bid128 → Bid128 → Bool
  greater_equal : Bid128 → Bid128 → Bool
  less_equal : Bid128 → Bid128 → Bool

/-- **The core compares by number**, where there are two of them. -/
structure DecimalOrder.Numeric (order : DecimalOrder) : Prop where
  equal : ∀ {a b x y}, a.number = some x → b.number = some y → (order.equal a b = true ↔ x = y)
  greater : ∀ {a b x y}, a.number = some x → b.number = some y →
    (order.greater a b = true ↔ x.compare y = .gt)
  less : ∀ {a b x y}, a.number = some x → b.number = some y →
    (order.less a b = true ↔ x.compare y = .lt)
  greater_equal : ∀ {a b x y}, a.number = some x → b.number = some y →
    (order.greater_equal a b = true ↔ x.compare y ≠ .lt)
  less_equal : ∀ {a b x y}, a.number = some x → b.number = some y →
    (order.less_equal a b = true ↔ x.compare y ≠ .gt)

/-- `bridge::decimal128`; the operators of `realm::decimal128` are those of its
`m_decimal`. -/
structure Decimal128 where
  m_decimal : Bid128
  deriving DecidableEq

namespace Decimal128

variable (order : DecimalOrder)

/-- `operator==`. -/
def equal (a b : Decimal128) : Bool :=
  a.m_decimal.1 == b.m_decimal.1 && a.m_decimal.2 == b.m_decimal.2

/-- `operator!=`. -/
def not_equal (a b : Decimal128) : Bool :=
  a.m_decimal.1 != b.m_decimal.1 || a.m_decimal.2 != b.m_decimal.2

/-- `operator>`: the words are copied into decimals of the core. -/
def greater (a b : Decimal128) : Bool := order.greater a.m_decimal b.m_decimal

/-- `operator<`. -/
def less (a b : Decimal128) : Bool := order.less a.m_decimal b.m_decimal

/-- `operator>=`. -/
def greater_equal (a b : Decimal128) : Bool := order.greater_equal a.m_decimal b.m_decimal

/-- `operator<=`. -/
def less_equal (a b : Decimal128) : Bool := order.less_equal a.m_decimal b.m_decimal

/-- A value that is stored in a column and read: `bridge::decimal128` is made from it
through its text, and the column has the words of that. -/
def stored (K : CoreConversions) (v : Decimal128) : Decimal128 := ⟨K.decimal128 v.m_decimal⟩

def is_NaN (v : Decimal128) : Prop := v.m_decimal.number = none

end Decimal128

/-! ## §2. Consistency. -/

/-- Exactly one of three. -/
def ExactlyOne (p q r : Prop) : Prop := (p ∧ ¬ q ∧ ¬ r) ∨ (¬ p ∧ q ∧ ¬ r) ∨ (¬ p ∧ ¬ q ∧ r)

/-- **Equality is consistent with the order**, for two values, and they are equal to what
is read back of them. -/
structure Consistent (order : DecimalOrder) (K : CoreConversions) (a b : Decimal128) : Prop where
  equal_iff : a.equal b = true ↔ a.less_equal order b = true ∧ b.less_equal order a = true
  not_equal_iff : a.not_equal b = true ↔ ¬ a.equal b = true
  exactly_one : ExactlyOne (a.less order b = true) (a.equal b = true) (a.greater order b = true)
  read_back : (a.stored K).equal a = true ∧ (b.stored K).equal b = true

section

variable {order : DecimalOrder} {K : CoreConversions} {a b : Decimal128}

/-- Equality is that of the words. -/
theorem decimal128_equal_iff : a.equal b = true ↔ a.m_decimal = b.m_decimal := by
  unfold Decimal128.equal
  rw [Bool.and_eq_true, beq_iff_eq, beq_iff_eq]
  exact Prod.ext_iff.symm

theorem decimal128_not_equal_iff : a.not_equal b = true ↔ ¬ a.equal b = true := by
  unfold Decimal128.not_equal Decimal128.equal
  rw [Bool.or_eq_true, bne_iff_ne, bne_iff_ne, Bool.and_eq_true, beq_iff_eq, beq_iff_eq]
  tauto

/-- A stored value is equal to what is read back just where its text keeps the words. -/
theorem stored_equal_iff : (a.stored K).equal a = true ↔ K.decimal128 a.m_decimal = a.m_decimal :=
  decimal128_equal_iff

theorem less_equal_of_number_eq (horder : order.Numeric) {x y : Extended}
    (ha : a.m_decimal.number = some x) (hb : b.m_decimal.number = some y) (h : x = y) :
    a.less_equal order b = true := by
  apply (horder.less_equal ha hb).mpr
  rw [(x.compare_eq_iff y).mpr h]
  simp

/-- **Where one number has one pattern**, the order says when values are equal. -/
theorem consistent_of_injective (horder : order.Numeric) {x y : Extended}
    (ha : a.m_decimal.number = some x) (hb : b.m_decimal.number = some y)
    (hsame : x = y → a.m_decimal = b.m_decimal) :
    (a.equal b = true ↔ a.less_equal order b = true ∧ b.less_equal order a = true) ∧
      ExactlyOne (a.less order b = true) (a.equal b = true) (a.greater order b = true) := by
  have hequal : a.equal b = true ↔ x = y := by
    rw [decimal128_equal_iff]
    refine ⟨fun h => ?_, hsame⟩
    rw [h, hb] at ha
    exact (Option.some.inj ha).symm
  unfold Decimal128.less_equal Decimal128.less Decimal128.greater ExactlyOne
  rw [hequal, horder.less_equal ha hb, horder.less_equal hb ha, horder.less ha hb,
    horder.greater ha hb, ← x.compare_eq_iff y, ← x.compare_swap y]
  -- the order of the numbers is one of three
  cases x.compare y with
  | lt => simp
  | eq => simp
  | gt => simp

end

/-- **Where equality is consistent with the order**: for values that are not two patterns
of one number, and whose texts are read as the same words. -/
theorem decimal_consistent_iff (order : DecimalOrder) (K : CoreConversions) (a b : Decimal128)
    (horder : order.Numeric) (ha : ¬ a.is_NaN) (hb : ¬ b.is_NaN) :
    Consistent order K a b ↔
      (a.m_decimal.number = b.m_decimal.number → a.m_decimal = b.m_decimal) ∧
        K.decimal_of_string (K.decimal_to_string a.m_decimal) = a.m_decimal ∧
        K.decimal_of_string (K.decimal_to_string b.m_decimal) = b.m_decimal := by
  obtain ⟨x, hx⟩ := Option.ne_none_iff_exists'.mp ha
  obtain ⟨y, hy⟩ := Option.ne_none_iff_exists'.mp hb
  rw [hx, hy, Option.some_inj]
  constructor
  · intro h
    refine ⟨fun hxy => ?_, stored_equal_iff.mp h.read_back.1, stored_equal_iff.mp h.read_back.2⟩
    -- equal numbers are less than or equal to each other
    apply decimal128_equal_iff.mp
    apply h.equal_iff.mpr
    exact ⟨less_equal_of_number_eq horder hx hy hxy, less_equal_of_number_eq horder hy hx hxy.symm⟩
  · intro ⟨hsame, hreada, hreadb⟩
    obtain ⟨hequal, hone⟩ := consistent_of_injective horder hx hy hsame
    exact ⟨hequal, decimal128_not_equal_iff, hone,
      stored_equal_iff.mpr hreada, stored_equal_iff.mpr hreadb⟩

/-! ## §3. `1.0` and `1.00`. -/

/-- A comparison of the numbers of two decimals; there is none with a NaN. -/
def compare_numbers (rel : Extended → Extended → Bool) (a b : Bid128) : Bool :=
  match a.number, b.number with
  | some x, some y => rel x y
  | _, _ => false

/-- The comparisons of the numbers. -/
def numeric_order : DecimalOrder where
  equal := compare_numbers fun x y => decide (x = y)
  greater := compare_numbers fun x y => decide (x.compare y = .gt)
  less := compare_numbers fun x y => decide (x.compare y = .lt)
  greater_equal := compare_numbers fun x y => decide (x.compare y ≠ .lt)
  less_equal := compare_numbers fun x y => decide (x.compare y ≠ .gt)

theorem compare_numbers_decide (p : Extended → Extended → Prop) [DecidableRel p] {a b : Bid128}
    {x y : Extended} (ha : a.number = some x) (hb : b.number = some y) :
    compare_numbers (fun x y => decide (p x y)) a b = true ↔ p x y := by
  unfold compare_numbers
  rw [ha, hb]
  exact decide_eq_true_iff

theorem numeric_order_numeric : numeric_order.Numeric where
  equal := compare_numbers_decide fun x y => x = y
  greater := compare_numbers_decide fun x y => x.compare y = .gt
  less := compare_numbers_decide fun x y => x.compare y = .lt
  greater_equal := compare_numbers_decide fun x y => x.compare y ≠ .lt
  less_equal := compare_numbers_decide fun x y => x.compare y ≠ .gt

/-- `decimal128("1.0")`. -/
def one_0 : Decimal128 := ⟨(10, 0x303E000000000000)⟩

/-- `decimal128("1.00")`. -/
def one_00 : Decimal128 := ⟨(100, 0x303C000000000000)⟩

/-- Two patterns of one number. -/
theorem number_one_0 : one_0.m_decimal.number = one_00.m_decimal.number := by
  -- the coefficients are 10 and 100, and the exponents 6175 and 6174
  apply (Bid128.number_eq_of_scaled ..)
  · decide
  · decide
  · decide
  · decide
  · decide

theorem one_0_not_NaN : ¬ one_0.is_NaN := by
  apply Bid128.number_ne_none
  decide

/-- Conversions that keep `1.0` and `1.00` apart, as the core does. -/
def scale_keeping : CoreConversions :=
  { plain_conversions with
    decimal_to_string := fun v =>
      if v = one_0.m_decimal then "1.0"
      else if v = one_00.m_decimal then "1.00"
      else plain_conversions.decimal_to_string v
    decimal_of_string := fun text =>
      if text = "1.0" then one_0.m_decimal
      else if text = "1.00" then one_00.m_decimal
      else plain_conversions.decimal_of_string text }

/-- Both are read back. -/
theorem scale_keeping_one_0 : scale_keeping.decimal128 one_0.m_decimal = one_0.m_decimal := by
  decide

theorem scale_keeping_one_00 : scale_keeping.decimal128 one_00.m_decimal = one_00.m_decimal := by
  decide

/-- `1.0` is equal to itself, and to what is read back of it. -/
theorem decimal_consistent_one_0 : Consistent numeric_order scale_keeping one_0 one_0 :=
  (decimal_consistent_iff numeric_order scale_keeping one_0 one_0 numeric_order_numeric
    one_0_not_NaN one_0_not_NaN).mpr ⟨fun _ => rfl, scale_keeping_one_0, scale_keeping_one_0⟩

/-- **`1.0` and `1.00` are less than or equal to each other, and not equal.** -/
theorem one_0_not_equal_one_00 : ¬ Consistent numeric_order scale_keeping one_0 one_00 := by
  intro h
  obtain ⟨x, hx⟩ := Option.ne_none_iff_exists'.mp one_0_not_NaN
  have hx' : one_00.m_decimal.number = some x := number_one_0.symm.trans hx
  have hequal := h.equal_iff.mpr
    ⟨less_equal_of_number_eq numeric_order_numeric hx hx' rfl,
      less_equal_of_number_eq numeric_order_numeric hx' hx rfl⟩
  exact absurd hequal (by decide)

end RealmCpp.Managed
