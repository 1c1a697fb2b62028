/-
  RealmCpp.Managed.Scalar
  ───────────────────────
  **THE COMPARISON OPERATORS OF SCALAR PROPERTIES.**

  Each operator has two branches.  In a query it calls a method of the `rbool`
  with its right-hand side; on an object it detaches the property and uses the
  operator of C++.  A `Comparator` is one operator with both branches, as they
  are written.

    • `Integral`, `Arithmetic` — what may stand on the right-hand side,
    • `managed_int64`, …, `primary_key_optional_int64_int` — the operators,
    • `Call` — one of them, on a property and a right-hand side.
-/
import RealmCpp.Core.Evaluation
import RealmCpp.Rbool.Context

namespace RealmCpp.Managed

open RealmCpp.Library
open RealmCpp.Core
open RealmCpp.Rbool (Leaf)

/-! ## §1. Integral types. -/

/-- The integral types. -/
inductive IntegralType where
  | bool | int8 | uint8 | int16 | uint16 | int32 | uint32 | int64 | uint64
  deriving DecidableEq, Repr

namespace IntegralType

/-- The least value of the type. -/
def least : IntegralType → Int
  | bool | uint8 | uint16 | uint32 | uint64 => 0
  | int8 => -128
  | int16 => -32768
  | int32 => -2147483648
  | int64 => -9223372036854775808

/-- The greatest value of the type. -/
def greatest : IntegralType → Int
  | bool => 1
  | int8 => 127
  | uint8 => 255
  | int16 => 32767
  | uint16 => 65535
  | int32 => 2147483647
  | uint32 => 4294967295
  | int64 => 9223372036854775807
  | uint64 => 18446744073709551615

/-- The number of its values. -/
def size : IntegralType → Int
  | bool => 2
  | int8 | uint8 => 256
  | int16 | uint16 => 65536
  | int32 | uint32 => 4294967296
  | int64 | uint64 => 18446744073709551616

/-- Conversion of an integer to the type. -/
def static_cast : IntegralType → Int → Int
  | bool, n => if n = 0 then 0 else 1
  | T, n => (n - T.least) % T.size + T.least

/-- A conversion gives a value of the type. -/
theorem static_cast_inRange (T : IntegralType) (n : Int) :
    T.least ≤ T.static_cast n ∧ T.static_cast n ≤ T.greatest := by
  cases T with
  | bool =>
    simp only [static_cast, least, greatest]
    split_ifs <;> omega
  | _ =>
    simp only [static_cast, least, greatest, size]
    omega

end IntegralType

/-- A value of an integral type, or of an enumeration over it. -/
structure Integral (T : IntegralType) where
  value : Int
  inRange : T.least ≤ value ∧ value ≤ T.greatest
  deriving DecidableEq, Repr

/-- An integer converted to an integral type. -/
def Integral.static_cast (T : IntegralType) (n : Int) : Integral T :=
  ⟨T.static_cast n, T.static_cast_inRange n⟩

/-- `(int64_t)n`. -/
def cast_int64 (n : Int) : Int := IntegralType.int64.static_cast n

/-- A comparison of an `int64_t` with a `T`: both are converted to their common
type, which is `uint64_t` if `T` is and `int64_t` otherwise. -/
def compare_integral (op : Comparison) (T : IntegralType) (v r : Int) : Bool :=
  match T with
  | .uint64 => op.int (IntegralType.uint64.static_cast v) r
  | _ => op.int v r

/-! ## §2. Floating-point types. -/

/-- The order between two doubles, by their bits. -/
def compare_double (v r : UInt64) : Option Ordering :=
  (Binary64.ofBits v).compare (Binary64.ofBits r)

/-- What an implementation of C++ decides: the conversions to `double`, and the
type `long double`, of which every `double` is a value.  A conversion to `double`
gives one of the two neighbours, so that it never goes past a `double`. -/
structure Platform where
  integral_to_double : Int → UInt64
  float_to_double : UInt32 → UInt64
  LongDouble : Type
  compare_long_double : UInt64 → LongDouble → Option Ordering
  long_double_to_double : LongDouble → UInt64
  not_past : ∀ v r, compare_long_double v r = compare_double v (long_double_to_double r) ∨
    compare_double v (long_double_to_double r) = some .eq

/-- Where `long double` is `double`. -/
def Platform.sameAsDouble (integral_to_double : Int → UInt64) (float_to_double : UInt32 → UInt64) :
    Platform where
  integral_to_double := integral_to_double
  float_to_double := float_to_double
  LongDouble := UInt64
  compare_long_double := compare_double
  long_double_to_double := id
  not_past := fun _ _ => .inl rfl

/-- A value of an integral or a floating-point type. -/
inductive Arithmetic (P : Platform) where
  | integral (T : IntegralType) (r : Integral T)
  | float (bits : UInt32)
  | double (bits : UInt64)
  | long_double (r : P.LongDouble)

namespace Arithmetic

variable {P : Platform}

/-- `(double)r`. -/
def cast_double : Arithmetic P → UInt64
  | integral _ r => P.integral_to_double r.value
  | float bits => P.float_to_double bits
  | double bits => bits
  | long_double r => P.long_double_to_double r

/-- A comparison of a `double` with `r`: `r` is converted to `double`, unless it
is a `long double`, to which the `double` is converted. -/
def compare (v : UInt64) : Arithmetic P → Option Ordering
  | integral _ r => compare_double v (P.integral_to_double r.value)
  | float bits => compare_double v (P.float_to_double bits)
  | double bits => compare_double v bits
  | long_double r => P.compare_long_double v r

end Arithmetic

/-! ## §3. Types that are compared for equality. -/

/-- `==` and `!=`. -/
inductive Equality where
  | equal | not_equal
  deriving DecidableEq, Repr

/-- `>`, `<`, `>=` and `<=`. -/
inductive Order where
  | greater | less | greater_equal | less_equal
  deriving DecidableEq, Repr

/-- The operator as one of the six. -/
def Equality.comparison : Equality → Comparison
  | equal => .equal
  | not_equal => .not_equal

/-- The operator as one of the six. -/
def Order.comparison : Order → Comparison
  | greater => .greater
  | less => .less
  | greater_equal => .greater_equal
  | less_equal => .less_equal

/-- The operator on the values of a type with `==`. -/
def Equality.eval {α : Type} [DecidableEq α] : Equality → α → α → Bool
  | equal, a, b => decide (a = b)
  | not_equal, a, b => decide (a ≠ b)

/-- The operator of `std::optional` on an optional and a value: an optional
without a value is less than every value. -/
def Order.optional (op : Order) (v : Option Int) (r : Int) : Bool :=
  match v with
  | some a => op.comparison.int a r
  | none => op.comparison.holds (some .lt)

/-- The types that the macros of `macros.hpp` and `managed_primary_key.cpp` are
used at, for a property of the type, an optional one or a primary key. -/
inductive PlainType where
  | bool | int64 | string | uuid | object_id
  deriving DecidableEq, Repr

namespace PlainType

/-- The values of the type. -/
def Value : PlainType → Type
  | bool => Bool
  | int64 => Integral .int64
  | string => String
  | uuid | object_id => List UInt8

instance : (t : PlainType) → DecidableEq t.Value
  | bool => inferInstanceAs (DecidableEq Bool)
  | int64 => inferInstanceAs (DecidableEq (Integral .int64))
  | string => inferInstanceAs (DecidableEq String)
  | uuid | object_id => inferInstanceAs (DecidableEq (List UInt8))

/-- A value as a column has it. -/
def serialize : (t : PlainType) → t.Value → Mixed
  | bool, b => .bool b
  | int64, v => .int v.value
  | string, s => .string s
  | uuid, bytes => .uuid bytes
  | object_id, bytes => .object_id bytes

/-- An optional value as a column has it. -/
def serialize_optional (t : PlainType) : Option t.Value → Mixed
  | some v => t.serialize v
  | none => .null

/-- The column type. -/
def column : PlainType → DataType
  | bool => .bool
  | int64 => .int
  | string => .string
  | uuid => .uuid
  | object_id => .object_id

end PlainType

/-! ## §4. The operators. -/

/-- An operator of a property: the comparison it calls in a query, and what it
returns on an object, where the property has a value of type `α`. -/
structure Comparator (α β : Type) where
  query : (m_key : ColKey) → (rhs : β) → Leaf
  value : α → (rhs : β) → Bool

/-- `managed<int64_t>`, all six operators. -/
def managed_int64 (op : Comparison) (T : IntegralType) :
    Comparator (Integral .int64) (Integral T) where
  query m_key rhs := .compare .int op m_key (.int (cast_int64 rhs.value))
  value v rhs := compare_integral op T v.value rhs.value

/-- `managed<double>`, all six operators. -/
def managed_double (P : Platform) (op : Comparison) : Comparator UInt64 (Arithmetic P) where
  query m_key rhs := .compare .double op m_key (.double rhs.cast_double)
  value v rhs := op.holds (rhs.compare v)

/-- The method that an operator of `managed<enum>` calls in a query. -/
def managed_enum_method : Comparison → Comparison
  | .equal => .equal
  | .not_equal => .not_equal
  | .greater => .greater
  | .less => .greater
  | .greater_equal => .greater_equal
  | .less_equal => .less_equal

/-- `managed<T>` for an enumeration `T` over the integral type `E`.  What is stored is an
`int64_t`, whether or not it is a value of `E`. -/
def managed_enum (op : Comparison) (E : IntegralType) :
    Comparator (Integral .int64) (Integral E) where
  query m_key rhs := .compare .int (managed_enum_method op) m_key (.int (cast_int64 rhs.value))
  value v rhs := op.int (E.static_cast v.value) rhs.value

/-- `serialize` of an optional enumerator. -/
def serialize_enum {E : IntegralType} : Option (Integral E) → Mixed
  | some v => .int (cast_int64 v.value)
  | none => .null

/-- `managed<std::optional<T>>::detach` for an enumeration `T`. -/
def detach_optional_enum (E : IntegralType) (v : Option (Integral .int64)) : Option Int :=
  v.map fun a => E.static_cast a.value

/-- `managed<std::optional<T>>` for an enumeration `T`: `==` and `!=`. -/
def managed_optional_enum (op : Equality) (E : IntegralType) :
    Comparator (Option (Integral .int64)) (Option (Integral E)) where
  query m_key rhs := .compare .int op.comparison m_key (serialize_enum rhs)
  value v rhs := op.eval (detach_optional_enum E v) (rhs.map Integral.value)

/-- The other four.  They hand `rhs` to the method as it is, which is a call
without ambiguity only for an unscoped enumeration over `int64_t`. -/
def managed_optional_enum_order (op : Order) :
    Comparator (Option (Integral .int64)) (Integral .int64) where
  query m_key rhs := .compare .int op.comparison m_key (.int rhs.value)
  value v rhs := op.optional (detach_optional_enum .int64 v) rhs.value

/-- `__cpprealm_build_query` and `__cpprealm_build_pk_query` for `==` and `!=`;
a `const char*` on the right-hand side is a string. -/
def build_query (t : PlainType) (op : Equality) : Comparator t.Value t.Value where
  query m_key rhs := .compare t.column op.comparison m_key (t.serialize rhs)
  value v rhs := op.eval v rhs

/-- `__cpprealm_build_optional_query` and `__cpprealm_build_optional_pk_query`. -/
def build_optional_query (t : PlainType) (op : Equality) :
    Comparator (Option t.Value) (Option t.Value) where
  query m_key rhs := .compare t.column op.comparison m_key (t.serialize_optional rhs)
  value v rhs := op.eval v rhs

/-- `managed<std::string>::contains`: on an object `case_sensitive` is not read. -/
def managed_string_contains (case_sensitive : Bool) : Comparator String String where
  query m_key rhs := .contains m_key rhs case_sensitive
  value v rhs := (findSublist rhs.toList v.toList).isSome

/-- `managed<primary_key<int64_t>>` with an `int64_t`. -/
def primary_key_int64 (op : Comparison) : Comparator (Integral .int64) (Integral .int64) where
  query m_key rhs := .compare .int op m_key (.int rhs.value)
  value v rhs := op.int v.value rhs.value

/-- `managed<primary_key<int64_t>>` with an `int`. -/
def primary_key_int64_int (op : Comparison) : Comparator (Integral .int64) (Integral .int32) where
  query m_key rhs := .compare .int op m_key (.int (cast_int64 rhs.value))
  value v rhs := op.int v.value (cast_int64 rhs.value)

/-- `managed<primary_key<std::optional<int64_t>>>` with an `int64_t`. -/
def primary_key_optional_int64 (op : Order) :
    Comparator (Option (Integral .int64)) (Integral .int64) where
  query m_key rhs := .compare .int op.comparison m_key (.int rhs.value)
  value v rhs := op.optional (v.map Integral.value) rhs.value

/-- `managed<primary_key<std::optional<int64_t>>>` with an `int`. -/
def primary_key_optional_int64_int (op : Order) :
    Comparator (Option (Integral .int64)) (Integral .int32) where
  query m_key rhs := .compare .int op.comparison m_key (.int (cast_int64 rhs.value))
  value v rhs := op.optional (v.map Integral.value) (cast_int64 rhs.value)

/-! ## §5. Calls. -/

/-- A comparison of a scalar property of value `v`; that of an enumeration is an integer. -/
inductive Call (P : Platform) where
  | int64 (op : Comparison) (v : Integral .int64) (T : IntegralType) (rhs : Integral T)
  | double (op : Comparison) (v : UInt64) (rhs : Arithmetic P)
  | enum (op : Comparison) (E : IntegralType) (v : Integral .int64) (rhs : Integral E)
  | optional_enum (op : Equality) (E : IntegralType) (v : Option (Integral .int64))
      (rhs : Option (Integral E))
  | optional_enum_order (op : Order) (v : Option (Integral .int64)) (rhs : Integral .int64)
  | plain (t : PlainType) (op : Equality) (v rhs : t.Value)
  | optional (t : PlainType) (op : Equality) (v rhs : Option t.Value)
  | string_contains (v rhs : String) (case_sensitive : Bool)
  | primary_key_int64 (op : Comparison) (v rhs : Integral .int64)
  | primary_key_int64_int (op : Comparison) (v : Integral .int64) (rhs : Integral .int32)
  | primary_key_optional_int64 (op : Order) (v : Option (Integral .int64))
      (rhs : Integral .int64)
  | primary_key_optional_int64_int (op : Order) (v : Option (Integral .int64))
      (rhs : Integral .int32)

namespace Call

variable {P : Platform}

/-- The value of the column. -/
def stored : Call P → Mixed
  | int64 _ v _ _ | enum _ _ v _ | primary_key_int64 _ v _ | primary_key_int64_int _ v _ =>
      .int v.value
  | double _ v _ => .double v
  | optional_enum _ _ v _ | optional_enum_order _ v _ | primary_key_optional_int64 _ v _
  | primary_key_optional_int64_int _ v _ => serialize_enum v
  | plain t _ v _ => t.serialize v
  | optional t _ v _ => t.serialize_optional v
  | string_contains v _ _ => .string v

/-- The comparison in a query. -/
def query (m_key : ColKey) : Call P → Leaf
  | int64 op _ T rhs => (managed_int64 op T).query m_key rhs
  | double op _ rhs => (managed_double P op).query m_key rhs
  | enum op E _ rhs => (managed_enum op E).query m_key rhs
  | optional_enum op E _ rhs => (managed_optional_enum op E).query m_key rhs
  | optional_enum_order op _ rhs => (managed_optional_enum_order op).query m_key rhs
  | plain t op _ rhs => (build_query t op).query m_key rhs
  | optional t op _ rhs => (build_optional_query t op).query m_key rhs
  | string_contains _ rhs case_sensitive =>
      (managed_string_contains case_sensitive).query m_key rhs
  | primary_key_int64 op _ rhs => (Managed.primary_key_int64 op).query m_key rhs
  | primary_key_int64_int op _ rhs => (Managed.primary_key_int64_int op).query m_key rhs
  | primary_key_optional_int64 op _ rhs =>
      (Managed.primary_key_optional_int64 op).query m_key rhs
  | primary_key_optional_int64_int op _ rhs =>
      (Managed.primary_key_optional_int64_int op).query m_key rhs

/-- The comparison on the object. -/
def value : Call P → Bool
  | int64 op v T rhs => (managed_int64 op T).value v rhs
  | double op v rhs => (managed_double P op).value v rhs
  | enum op E v rhs => (managed_enum op E).value v rhs
  | optional_enum op E v rhs => (managed_optional_enum op E).value v rhs
  | optional_enum_order op v rhs => (managed_optional_enum_order op).value v rhs
  | plain t op v rhs => (build_query t op).value v rhs
  | optional t op v rhs => (build_optional_query t op).value v rhs
  | string_contains v rhs case_sensitive => (managed_string_contains case_sensitive).value v rhs
  | primary_key_int64 op v rhs => (Managed.primary_key_int64 op).value v rhs
  | primary_key_int64_int op v rhs => (Managed.primary_key_int64_int op).value v rhs
  | primary_key_optional_int64 op v rhs => (Managed.primary_key_optional_int64 op).value v rhs
  | primary_key_optional_int64_int op v rhs =>
      (Managed.primary_key_optional_int64_int op).value v rhs

end Call

end RealmCpp.Managed
