/-
  RealmCpp.Managed.ScalarAgreement
  ────────────────────────────────
  **WHERE A COMPARISON MEANS THE SAME ON AN OBJECT AND IN A QUERY.**

  For each operator, the comparison on the object is put beside the test that
  the query makes of the column.  They part in six places: `<` of an
  enumeration calls `greater`; an integer that is no value of the enumeration is
  read as one on the object; `contains` ignores `case_sensitive`; `<` and `<=`
  of an optional property hold of null; a `uint64_t` is compared as it is on the
  object and as an `int64_t` in a query; and a `long double` is rounded only in
  a query.

    • `Call.agrees_iff` — one operator, against the test of its query,
    • `value_matches_iff` — the object against the query of a `where` callback.
-/
import RealmCpp.Managed.Scalar
import RealmCpp.Rbool.Trees

namespace RealmCpp.Managed

open RealmCpp.Library
open RealmCpp.Core
open RealmCpp.Rbool (Leaf Expr results_where results_where_spec)

/-! ## §1. Integers. -/

/-- Both or neither are values of `int64_t`. -/
def SameSide (a b : Int) : Prop := a ≤ 9223372036854775807 ↔ b ≤ 9223372036854775807

instance (a b : Int) : Decidable (SameSide a b) := inferInstanceAs (Decidable (_ ↔ _))

theorem cast_int64_of_le {n : Int} (hlow : -9223372036854775808 ≤ n)
    (h : n ≤ 9223372036854775807) : cast_int64 n = n := by
  simp only [cast_int64, IntegralType.static_cast, IntegralType.least, IntegralType.size]
  omega

theorem cast_int64_of_gt {n : Int} (h : 9223372036854775807 < n)
    (hhigh : n ≤ 18446744073709551615) : cast_int64 n = n - 18446744073709551616 := by
  simp only [cast_int64, IntegralType.static_cast, IntegralType.least, IntegralType.size]
  omega

namespace IntegralType

/-- A type other than `uint64_t` has only values of `int64_t`. -/
theorem le_of_ne {T : IntegralType} (h : T ≠ .uint64) :
    T.greatest ≤ 9223372036854775807 := by
  cases T <;> simp [greatest] at h ⊢

theorem ge (T : IntegralType) : -9223372036854775808 ≤ T.least := by
  cases T <;> simp [least]

/-- A type with more positive values than `int64_t` has no negative ones. -/
theorem least_of_gt {T : IntegralType} (h : 9223372036854775807 < T.greatest) : T.least = 0 := by
  cases T <;> simp [greatest, least] at h ⊢

theorem le (T : IntegralType) : T.greatest ≤ 18446744073709551615 := by
  cases T <;> simp [greatest]

/-- **What was stored as an `int64_t` is read back.** -/
theorem static_cast_cast_int64 {T : IntegralType} (v : Integral T) :
    T.static_cast (cast_int64 v.value) = v.value := by
  have ⟨hlow, hhigh⟩ := v.inRange
  cases T with
  | bool =>
    simp only [cast_int64, static_cast, least, greatest, size] at hlow hhigh ⊢
    split_ifs <;> omega
  | _ =>
    simp only [cast_int64, static_cast, least, greatest, size] at hlow hhigh ⊢
    omega

/-- **The integers that are stored for the values of a type**: all for `uint64_t`, else the
values themselves. -/
def Stores (T : IntegralType) (n : Int) : Prop :=
  T = .uint64 ∨ (T.least ≤ n ∧ n ≤ T.greatest)

/-- An integer that is stored for a value is read as that value. -/
theorem cast_int64_static_cast {T : IntegralType} {v : Integral .int64} (h : T.Stores v.value) :
    cast_int64 (T.static_cast v.value) = v.value := by
  have ⟨hvlow, hvhigh⟩ := v.inRange
  rcases h with rfl | ⟨hlow, hhigh⟩
  · simp only [cast_int64, static_cast, least, greatest, size] at hvlow hvhigh ⊢
    omega
  · cases T with
    | bool =>
      simp only [cast_int64, static_cast, least, greatest, size] at hlow hhigh hvlow hvhigh ⊢
      split_ifs <;> omega
    | _ =>
      simp only [cast_int64, static_cast, least, greatest, size] at hlow hhigh hvlow hvhigh ⊢
      omega

/-- What is stored for no value is below or above all of them, which are values of
`int64_t`. -/
theorem not_stores {T : IntegralType} {n : Int} (h : ¬T.Stores n) :
    T ≠ .uint64 ∧ (n < T.least ∨ T.greatest < n) := by
  unfold Stores at h
  rw [not_or, not_and_or, Int.not_le, Int.not_le] at h
  exact h

end IntegralType

theorem Integral.value_inj {T : IntegralType} {a b : Integral T} :
    a.value = b.value ↔ a = b := by
  cases a
  cases b
  simp

/-- A value of an integral type, where it is one of `int64_t`. -/
theorem Integral.cast_of_ne {T : IntegralType} (hT : T ≠ .uint64) (r : Integral T) :
    cast_int64 r.value = r.value := by
  have ⟨hlow, hhigh⟩ := r.inRange
  have hle := IntegralType.le_of_ne hT
  have hge := IntegralType.ge T
  exact cast_int64_of_le (by omega) (by omega)

/-- The conversion to `int64_t` keeps the order of two values on one side, and
turns it around between the sides. -/
theorem cast_int64_lt_iff {E : IntegralType} (v r : Integral E) :
    cast_int64 v.value < cast_int64 r.value ↔
      if SameSide v.value r.value then v.value < r.value else r.value < v.value := by
  have ⟨hvlow, hvhigh⟩ := v.inRange
  have ⟨hrlow, hrhigh⟩ := r.inRange
  have hle := E.le
  have hge := E.ge
  by_cases hv : v.value ≤ 9223372036854775807 <;> by_cases hr : r.value ≤ 9223372036854775807
  · rw [cast_int64_of_le (by omega) hv, cast_int64_of_le (by omega) hr,
      if_pos (show SameSide _ _ from iff_of_true hv hr)]
  · rw [cast_int64_of_le (by omega) hv, cast_int64_of_gt (by omega) (by omega),
      if_neg fun h => hr (h.mp hv)]
    have hleast := IntegralType.least_of_gt (T := E) (by omega)
    omega
  · rw [cast_int64_of_gt (by omega) (by omega), cast_int64_of_le (by omega) hr,
      if_neg fun h => hv (h.mpr hr)]
    have hleast := IntegralType.least_of_gt (T := E) (by omega)
    omega
  · rw [cast_int64_of_gt (by omega) (by omega), cast_int64_of_gt (by omega) (by omega),
      if_pos (show SameSide _ _ from iff_of_false hv hr)]
    omega

theorem cast_int64_inj {E : IntegralType} (v r : Integral E) :
    cast_int64 v.value = cast_int64 r.value ↔ v.value = r.value := by
  have hv := IntegralType.static_cast_cast_int64 v
  have hr := IntegralType.static_cast_cast_int64 r
  refine ⟨fun h => ?_, fun h => by rw [h]⟩
  rw [← hv, ← hr, h]

theorem cast_int64_le_iff {E : IntegralType} (v r : Integral E) :
    cast_int64 v.value ≤ cast_int64 r.value ↔
      if SameSide v.value r.value then v.value ≤ r.value else r.value ≤ v.value := by
  have hlt := cast_int64_lt_iff r v
  have hswap : SameSide r.value v.value ↔ SameSide v.value r.value := iff_comm
  rw [← Int.not_lt, hlt]
  by_cases h : SameSide v.value r.value
  · rw [if_pos (hswap.mpr h), if_pos h, Int.not_lt]
  · rw [if_neg (fun h' => h (hswap.mp h')), if_neg h, Int.not_lt]

theorem static_cast_uint64 (v : Integral .int64) :
    IntegralType.uint64.static_cast v.value =
      if v.value < 0 then v.value + 18446744073709551616 else v.value := by
  have ⟨hlow, hhigh⟩ := v.inRange
  simp only [IntegralType.static_cast, IntegralType.least, IntegralType.greatest,
    IntegralType.size] at hlow hhigh ⊢
  split <;> omega

/-! ## §2. The operators, one by one. -/

/-- **An `int64_t` and another integer**: the two modes agree unless the latter is
a `uint64_t` and only one of the two changes when it is converted. -/
theorem managed_int64_agrees_iff (op : Comparison) (T : IntegralType) (v : Integral .int64)
    (r : Integral T) :
    compare_integral op T v.value r.value = op.int v.value (cast_int64 r.value)
      ↔ T = .uint64 → op = .equal ∨ op = .not_equal ∨
          (v.value < 0 ↔ 9223372036854775807 < r.value) := by
  by_cases hT : T = .uint64
  · subst hT
    have ⟨hvlow, hvhigh⟩ := v.inRange
    have ⟨hrlow, hrhigh⟩ := r.inRange
    simp only [IntegralType.least, IntegralType.greatest] at hvlow hvhigh hrlow hrhigh
    show op.int (IntegralType.uint64.static_cast v.value) r.value = _ ↔ _
    rw [static_cast_uint64]
    -- on the object both are unsigned, and in the query both are signed
    by_cases hr : r.value ≤ 9223372036854775807
    · rw [cast_int64_of_le (by omega) hr]
      cases op <;> split_ifs <;> simp <;> omega
    · rw [cast_int64_of_gt (by omega) hrhigh]
      cases op <;> split_ifs <;> simp <;> omega
  · have hop : compare_integral op T v.value r.value = op.int v.value r.value := by
      cases T <;> first | rfl | exact absurd rfl hT
    rw [hop, r.cast_of_ne hT]
    exact iff_of_true rfl fun h => absurd h hT

/-- **A double and another number**: only a `long double` is not converted on the
object, and what matters is whether it is rounded to the double it is compared with. -/
theorem managed_double_agrees_iff {P : Platform} (op : Comparison) (v : UInt64)
    (r : Arithmetic P) :
    op.holds (r.compare v) = op.holds (compare_double v r.cast_double)
      ↔ compare_double v r.cast_double = some .eq →
          op.holds (r.compare v) = op.holds (some .eq) := by
  constructor
  · intro h heq
    rw [h, heq]
  · intro h
    -- rounding to a double does not go past one
    have hpast : r.compare v = compare_double v r.cast_double ∨
        compare_double v r.cast_double = some .eq := by
      cases r with
      | long_double r => exact P.not_past v r
      | integral T r => exact .inl rfl
      | float bits => exact .inl rfl
      | double bits => exact .inl rfl
    rcases hpast with hsame | heq
    · rw [hsame]
    · rw [heq]
      exact h heq

/-- **An enumerator and another one.**  The operators `<` on the object and
`greater` in a query agree on equal ones only, or where the conversion turns
the order around. -/
theorem managed_enum_agrees_iff (op : Comparison) {E : IntegralType} (v r : Integral E) :
    op.int v.value r.value
        = (managed_enum_method op).int (cast_int64 v.value) (cast_int64 r.value)
      ↔ op = .equal ∨ op = .not_equal ∨
        if op = .less then v.value = r.value ∨ ¬SameSide v.value r.value
        else SameSide v.value r.value := by
  have hinj := cast_int64_inj v r
  have hlt := cast_int64_lt_iff r v
  have hle := cast_int64_le_iff v r
  have hge := cast_int64_le_iff r v
  have hswap : SameSide r.value v.value ↔ SameSide v.value r.value := iff_comm
  rw [if_congr hswap rfl rfl] at hlt hge
  by_cases hside : SameSide v.value r.value
  · rw [if_pos hside] at hlt hle hge
    cases op <;> simp [managed_enum_method, hinj, hlt, hle, hge, hside]
    -- `<` and `greater` of one order
    omega
  · -- equal values are on one side
    have hne : v.value ≠ r.value := fun h => hside (h ▸ Iff.rfl)
    rw [if_neg hside] at hlt hle hge
    cases op <;> simp [managed_enum_method, hinj, hlt, hle, hge, hside] <;> omega

/-- Where an operator of an enumeration agrees, for an integer that is stored for no
enumerator but read as `e`: it is on the same side of `r` as `e` is. -/
def AgreesOutside (op : Comparison) (above : Prop) (e r : Int) : Prop :=
  match op with
  | .equal | .not_equal => e ≠ r
  | .greater | .less_equal => r < e ↔ above
  | .greater_equal => r ≤ e ↔ above
  -- `greater` is called
  | .less => e < r ↔ above

/-- **An integer that is stored for no enumerator.** -/
theorem managed_enum_outside_iff (op : Comparison) {E : IntegralType} {v : Integral .int64}
    (h : ¬E.Stores v.value) (r : Integral E) :
    op.int (E.static_cast v.value) r.value
        = (managed_enum_method op).int v.value (cast_int64 r.value)
      ↔ AgreesOutside op (E.greatest < v.value) (E.static_cast v.value) r.value := by
  obtain ⟨hE, hside⟩ := IntegralType.not_stores h
  have ⟨hrlow, hrhigh⟩ := r.inRange
  have hleast : E.least ≤ E.greatest := by omega
  rw [r.cast_of_ne hE]
  -- the integer is not equal to any enumerator, and greater than all or none
  have hne : v.value ≠ r.value := by omega
  have hgt : r.value < v.value ↔ E.greatest < v.value := by omega
  have hge : r.value ≤ v.value ↔ E.greatest < v.value := by omega
  have hle : v.value ≤ r.value ↔ ¬E.greatest < v.value := by omega
  generalize E.static_cast v.value = e
  cases op with
  | equal => simp [managed_enum_method, AgreesOutside, hne]
  | not_equal => simp [managed_enum_method, AgreesOutside, hne]
  | greater => simp [managed_enum_method, AgreesOutside, hgt]
  | less => simp [managed_enum_method, AgreesOutside, hgt]
  | greater_equal => simp [managed_enum_method, AgreesOutside, hge]
  | less_equal =>
    simp only [managed_enum_method, AgreesOutside, int_less_equal, hle, decide_eq_decide]
    rw [← Int.not_lt, not_iff_not]

/-- `==` and `!=` of a type agree where the column knows when values are equal. -/
theorem equality_agrees {α : Type} [DecidableEq α] (op : Equality) {a b : α}
    {o : Option Ordering} (h : o = some .eq ↔ a = b) : op.eval a b = op.comparison.holds o := by
  cases op <;> simp only [Equality.eval, Equality.comparison, Comparison.holds]
  · by_cases hab : a = b <;> simp [hab, h]
  · by_cases hab : a = b <;> simp [hab, h]

section
variable (K : Semantics)

theorem compare_int_eq_iff {a b : Int} : K.compare (.int a) (.int b) = some .eq ↔ a = b := by
  simp [Semantics.compare]

theorem ordering_some_iff {α : Type} [DecidableEq α] [LT α] [DecidableLT α] {a b : α} :
    some (ordering a b) = some Ordering.eq ↔ a = b := by
  rw [Option.some_inj, ordering_eq_iff]

theorem PlainType.compare_eq_iff (t : PlainType) (a b : t.Value) :
    K.compare (t.serialize a) (t.serialize b) = some .eq ↔ a = b := by
  cases t with
  | bool =>
    change Bool at a b
    show some (if a = b then Ordering.eq else if b then .lt else .gt) = some .eq ↔ a = b
    cases a <;> cases b <;> simp
  | int64 => exact (compare_int_eq_iff K).trans Integral.value_inj
  | string => exact ordering_some_iff (α := String)
  | uuid => exact ordering_some_iff (α := List UInt8)
  | object_id => exact ordering_some_iff (α := List UInt8)

theorem PlainType.serialize_ne_null (t : PlainType) (a : t.Value) : t.serialize a ≠ .null := by
  cases t <;> simp [serialize]

/-- Nothing that is stored has an order with null, null apart. -/
theorem compare_null_left {m : Mixed} (h : m ≠ .null) : K.compare .null m = none := by
  cases m <;> first | rfl | exact absurd rfl h

theorem compare_null_right {m : Mixed} (h : m ≠ .null) : K.compare m .null = none := by
  cases m <;> first | rfl | exact absurd rfl h

theorem PlainType.compare_optional_eq_iff (t : PlainType) (a b : Option t.Value) :
    K.compare (t.serialize_optional a) (t.serialize_optional b) = some .eq ↔ a = b := by
  cases a with
  | none =>
    cases b with
    | none => simp [serialize_optional, Semantics.compare]
    | some b => simp [serialize_optional, compare_null_left K (t.serialize_ne_null b)]
  | some a =>
    cases b with
    | none => simp [serialize_optional, compare_null_right K (t.serialize_ne_null a)]
    | some b =>
      rw [Option.some_inj]
      exact t.compare_eq_iff K a b

/-- An optional enumerator is equal to what is read where it is equal to what is stored, but
for a stored integer that is read as it without being it. -/
theorem optional_enum_agrees_iff (op : Equality) {E : IntegralType} (v : Option (Integral .int64))
    (r : Option (Integral E)) :
    op.eval (detach_optional_enum E v) (r.map Integral.value)
        = op.comparison.holds (K.compare (serialize_enum v) (serialize_enum r))
      ↔ ∀ a b, v = some a → r = some b → ¬E.Stores a.value → E.static_cast a.value ≠ b.value := by
  cases v with
  | none =>
    refine iff_of_true ?_ fun a b ha => by cases ha
    cases r <;> cases op <;> rfl
  | some a =>
    cases r with
    | none =>
      refine iff_of_true ?_ fun a b _ hb => by cases hb
      cases op <;> rfl
    | some b =>
      have hforall : (∀ a' b', some a = some a' → some b = some b' → ¬E.Stores a'.value →
          E.static_cast a'.value ≠ b'.value) ↔
          (¬E.Stores a.value → E.static_cast a.value ≠ b.value) :=
        ⟨fun h => h a b rfl rfl, fun h a' b' ha hb => by cases ha; cases hb; exact h⟩
      have hcast : cast_int64 a.value = a.value := a.cast_of_ne (by simp)
      have hstored : K.compare (serialize_enum (some a)) (serialize_enum (some b)) = some .eq ↔
          a.value = cast_int64 b.value := by
        simp only [serialize_enum, hcast]
        exact compare_int_eq_iff K
      rw [hforall]
      by_cases hstores : E.Stores a.value
      · refine iff_of_true (equality_agrees op (hstored.trans ?_)) fun h => absurd hstores h
        -- what is stored is the form of what is read
        have hinj := cast_int64_inj (.static_cast E a.value) b
        change cast_int64 (E.static_cast a.value) = _ ↔ E.static_cast a.value = _ at hinj
        rw [IntegralType.cast_int64_static_cast hstores] at hinj
        simpa [detach_optional_enum] using hinj
      · -- it is the form of no enumerator
        have hne : a.value ≠ cast_int64 b.value := by
          obtain ⟨hE, hside⟩ := IntegralType.not_stores hstores
          have ⟨hblow, hbhigh⟩ := b.inRange
          rw [b.cast_of_ne hE]
          omega
        have hholds : (K.compare (serialize_enum (some a)) (serialize_enum (some b)) ==
            some .eq) = false := beq_eq_false_iff_ne.mpr fun h => hne (hstored.mp h)
        cases op <;>
          simp [Equality.eval, Equality.comparison, Comparison.holds, detach_optional_enum, bne,
            hstores, hholds]

/-- **An optional integer and a value**: `std::optional` puts null before every
value, the query before none. -/
theorem optional_order_agrees_iff (op : Order) (v : Option (Integral .int64)) (r : Int) :
    op.optional (v.map Integral.value) r = op.comparison.holds (K.compare (serialize_enum v) (.int r))
      ↔ v = none → op = .greater ∨ op = .greater_equal := by
  cases v with
  | none =>
    -- the query has no order between null and a value
    show op.comparison.holds (some .lt) = op.comparison.holds none ↔ _
    cases op <;> simp [Order.comparison, Comparison.holds]
  | some a =>
    show op.comparison.int a.value r = op.comparison.int (cast_int64 a.value) r ↔ _
    rw [a.cast_of_ne (by simp)]
    simp

/-- `std::string::find` on the object finds what the core does that minds case. -/
theorem find_isSome_eq_contains (v rhs : String) :
    (findSublist rhs.toList v.toList).isSome = K.contains v rhs true := by
  rw [Bool.eq_iff_iff, findSublist_isSome_iff]
  simp [Semantics.contains]

/-- **`contains`**: on the object case is never ignored. -/
theorem string_contains_agrees_iff (v rhs : String) (case_sensitive : Bool) :
    (findSublist rhs.toList v.toList).isSome = K.contains v rhs case_sensitive
      ↔ case_sensitive = false → K.contains v rhs false = true → K.contains v rhs true = true := by
  rw [find_isSome_eq_contains K]
  cases case_sensitive with
  | true => simp
  | false =>
    -- ignoring case only adds occurrences
    have hmono : K.contains v rhs true = true → K.contains v rhs false = true :=
      K.contains_of_case_sensitive
    rw [Bool.eq_iff_iff]
    exact ⟨fun h _ => h.mpr, fun h => ⟨hmono, h rfl⟩⟩

end

/-! ## §3. Objects and queries. -/

namespace Call

variable {P : Platform}

/-- **Where the comparison on the object is what the query asks.** -/
def Agrees (K : Semantics) : Call P → Prop
  | int64 op v T r => T = .uint64 → op = .equal ∨ op = .not_equal ∨
      (v.value < 0 ↔ 9223372036854775807 < r.value)
  | double op v (.long_double r) => compare_double v (P.long_double_to_double r) = some .eq →
      op.holds (P.compare_long_double v r) = op.holds (some .eq)
  | double _ _ _ => True
  | enum op E v r =>
      (E.Stores v.value → op = .equal ∨ op = .not_equal ∨
        if op = .less then
          E.static_cast v.value = r.value ∨ ¬SameSide (E.static_cast v.value) r.value
        else SameSide (E.static_cast v.value) r.value) ∧
      (¬E.Stores v.value →
        AgreesOutside op (E.greatest < v.value) (E.static_cast v.value) r.value)
  | optional_enum _ E v r => ∀ a b, v = some a → r = some b → ¬E.Stores a.value →
      E.static_cast a.value ≠ b.value
  | optional_enum_order op v _ | primary_key_optional_int64 op v _
  | primary_key_optional_int64_int op v _ => v = none → op = .greater ∨ op = .greater_equal
  | string_contains v rhs case_sensitive => case_sensitive = false →
      K.contains v rhs false = true → K.contains v rhs true = true
  | plain .. | optional .. | primary_key_int64 .. | primary_key_int64_int .. => True

/-- **One comparison, on the object and as a test of the column.** -/
theorem agrees_iff (K : Semantics) (m_key : ColKey) (c : Call P) :
    c.value = K.test c.stored [] (c.query m_key).test ↔ c.Agrees K := by
  cases c with
  | int64 op v T r => exact managed_int64_agrees_iff op T v r
  | double op v r =>
    refine (managed_double_agrees_iff op v r).trans ?_
    cases r with
    | long_double r => exact Iff.rfl
    | integral T r => exact iff_of_true (congrArg _) trivial
    | float bits => exact iff_of_true (congrArg _) trivial
    | double bits => exact iff_of_true (congrArg _) trivial
  | enum op E v r =>
    show op.int (E.static_cast v.value) r.value
      = (managed_enum_method op).int v.value (cast_int64 r.value) ↔ _
    by_cases hstores : E.Stores v.value
    · have hread := managed_enum_agrees_iff op (.static_cast E v.value) r
      change op.int (E.static_cast v.value) r.value
        = (managed_enum_method op).int (cast_int64 (E.static_cast v.value)) _ ↔ _ at hread
      rw [IntegralType.cast_int64_static_cast hstores] at hread
      exact hread.trans ⟨fun h => ⟨fun _ => h, fun h' => absurd hstores h'⟩, fun h => h.1 hstores⟩
    · exact (managed_enum_outside_iff op hstores r).trans
        ⟨fun h => ⟨fun h' => absurd h' hstores, fun _ => h⟩, fun h => h.2 hstores⟩
  | optional_enum op E v r => exact optional_enum_agrees_iff K op v r
  | optional_enum_order op v r =>
    -- every `int64_t` is an enumerator here
    have hdetach : detach_optional_enum .int64 v = v.map Integral.value := by
      unfold detach_optional_enum
      refine Option.map_congr fun a _ => ?_
      exact a.cast_of_ne (by simp)
    show op.optional (detach_optional_enum .int64 v) r.value = _ ↔ _
    rw [hdetach]
    exact optional_order_agrees_iff K op v r.value
  | plain t op v r => exact iff_of_true (equality_agrees op (t.compare_eq_iff K v r)) trivial
  | optional t op v r =>
    exact iff_of_true (equality_agrees op (t.compare_optional_eq_iff K v r)) trivial
  | string_contains v rhs cs => exact string_contains_agrees_iff K v rhs cs
  | primary_key_int64 op v r => exact iff_of_true rfl trivial
  | primary_key_int64_int op v r => exact iff_of_true rfl trivial
  | primary_key_optional_int64 op v r =>
    rw [show (primary_key_optional_int64 op v r : Call P).stored = serialize_enum v from rfl]
    exact optional_order_agrees_iff K op v r.value
  | primary_key_optional_int64_int op v r =>
    exact optional_order_agrees_iff K op v (cast_int64 r.value)

end Call

/-- The query of one comparison on a column of its own asks the comparison's test
of that column. -/
theorem matches_leaf (m : Storage) (schema : Schema) (K : Semantics) (R : Rows) (t : TableKey)
    (x : ObjKey) {l : Leaf} (hl : l.Accumulates = false) :
    ∃ q, results_where m schema t (.leaf [] l) = some q ∧ q.table = t ∧
      q.Matches (K.sat R t) x
        = K.test (R.value ⟨t, x⟩ l.col) (R.entries ⟨t, x⟩ l.col) l.test := by
  obtain ⟨q, hq, htable, hval⟩ := results_where_spec m schema t (.leaf [] l) (.inl rfl)
  refine ⟨q, hq, htable, ?_⟩
  rw [hval (K.sat R t) x]
  show (if l.Accumulates then true && _ else _) = _
  rw [hl]
  exact Semantics.sat_of_follow (K := K) (R := R) (c := l.condition []) (y := ⟨t, x⟩) rfl

namespace Call

variable {P : Platform}

theorem query_col (m_key : ColKey) (c : Call P) : (c.query m_key).col = m_key := by
  cases c <;> rfl

theorem query_accumulates (m_key : ColKey) (c : Call P) :
    (c.query m_key).Accumulates = false := by
  cases c <;> rfl

/-- None of the tests reads the entries of a dictionary. -/
theorem test_entries (K : Semantics) (m_key : ColKey) (c : Call P) (v : Mixed)
    (es : List (String × Mixed)) :
    K.test v es (c.query m_key).test = K.test v [] (c.query m_key).test := by
  cases c <;> rfl

end Call

/-- **Exactly when a scalar comparison means the same on an object and in a query**,
for every property, operator and right-hand side: the query of the comparison
returns the object if and only if the comparison on the object is true. -/
theorem value_matches_iff (m : Storage) (schema : Schema) (K : Semantics) (P : Platform)
    (R : Rows) (t : TableKey) (x : ObjKey) (m_key : ColKey) (c : Call P)
    (hstored : R.value ⟨t, x⟩ m_key = c.stored) :
    ∃ q, results_where m schema t (.leaf [] (c.query m_key)) = some q ∧ q.table = t ∧
      (c.value = q.Matches (K.sat R t) x ↔ c.Agrees K) := by
  obtain ⟨q, hq, htable, hmatch⟩ := matches_leaf m schema K R t x (c.query_accumulates m_key)
  refine ⟨q, hq, htable, ?_⟩
  rw [hmatch, c.query_col m_key, hstored, c.test_entries]
  exact c.agrees_iff K m_key

/-- A core without decimals, whose letters are ASCII. -/
def asciiCore : Semantics where
  decimal_compare _ _ := none
  fold := Char.toLower
  mixed_compare _ _ := .eq

/-- A table with one value in every column. -/
def rowsOf (v : Mixed) : Rows := ⟨fun _ _ => v, fun _ _ => []⟩

/-- `o.name.contains("RA", true)` and the object of name `Fra`. -/
theorem value_matches_iff_contains :
    ∃ q, results_where .byValue (Schema.uniform .string ⟨0⟩) ⟨0⟩
        (.leaf [] (.contains ⟨1⟩ "RA" true)) = some q ∧
      q.Matches (asciiCore.sat (rowsOf (.string "Fra")) ⟨0⟩) ⟨5⟩ = false := by
  obtain ⟨q, hq, -, hiff⟩ := value_matches_iff .byValue (Schema.uniform .string ⟨0⟩) asciiCore
    (Platform.sameAsDouble (fun _ => 0) (fun _ => 0)) (rowsOf (.string "Fra")) ⟨0⟩ ⟨5⟩ ⟨1⟩
    (.string_contains "Fra" "RA" true) rfl
  refine ⟨q, hq, ?_⟩
  have hagree := hiff.mpr fun h => by cases h
  exact hagree.symm.trans (by decide)

/-- **Comparisons that part**: `e < 2` of an enumerator 1, `contains("RA", false)`
of `Fra`, and `pk < 3` of a null primary key. -/
theorem comparisons_part :
    let P := Platform.sameAsDouble (fun _ => 0) (fun _ => 0)
    let schema : Schema := .uniform .int ⟨0⟩
    let disagree (c : Call P) (value query : Bool) : Prop :=
      c.value = value ∧
        (results_where .byValue schema ⟨0⟩ (.leaf [] (c.query ⟨1⟩))).map
          (fun q => q.Matches (asciiCore.sat (rowsOf c.stored) ⟨0⟩) ⟨5⟩) = some query
    disagree (.enum .less .int32 ⟨1, by decide⟩ ⟨2, by decide⟩) true false ∧
      disagree (.string_contains "Fra" "RA" false) false true ∧
      disagree (.primary_key_optional_int64 .less none ⟨3, by decide⟩) true false := by
  exact ⟨⟨by decide, by decide⟩, ⟨by decide, by decide⟩, ⟨by decide, by decide⟩⟩

end RealmCpp.Managed
