/-
  RealmCpp.Managed.DecimalArithmetic
  ──────────────────────────────────
  **ARITHMETIC ON DECIMAL PROPERTIES.**

  `managed_decimal.cpp` makes `operator+` and `operator+=` of a property from nearly the
  same text: both write the column.  Those of `realm::decimal128` differ, as usual: the
  first leaves its operands alone.

    • `managed_decimal128`, `managed_optional_decimal128` — the operators of a property,
    • `decimal128_variable`, `optional_decimal128_variable` — those of a variable,
    • `decimal_program_iff` — the programs for which a property is as good as a variable.
-/
import RealmCpp.Library.Client
import RealmCpp.Managed.DecimalComparison
import RealmCpp.Managed.IntegerArithmetic

namespace RealmCpp.Managed

open RealmCpp.Library

/-! ## §1. Decimals of the core. -/

/-- What the core calculates, on the words of two decimals.  An assignment leaves what
the operator returns. -/
structure CoreDecimal where
  calculate : ArithmeticOperator → Bid128 → Bid128 → Bid128
  calculate_assign : ArithmeticOperator → Bid128 → Bid128 → Bid128
  assign_eq : ∀ op v o, calculate_assign op v o = calculate op v o

/-- What a program does with a decimal, or with one that may be null. -/
inductive DecimalCall (V : Type) where
  | detach
  | calculate (op : ArithmeticOperator) (o : Bid128)
  | calculate_assign (op : ArithmeticOperator) (o : Bid128)
  | assign (v : V)

/-- How a call ends, and with what value. -/
inductive DecimalAnswer (V : Type) where
  | undefined
  | raised (e : ArithmeticError)
  | done
  | decimal (v : Bid128)
  | value (v : V)
  deriving DecidableEq

/-- A call writes the column and ends with `a`, unless that raises. -/
def ArithmeticOutcome.answer {V : Type} (p : NumericProperty V) (a : DecimalAnswer V) :
    ArithmeticOutcome V → DecimalAnswer V × NumericProperty V
  | .undefined => (.undefined, p)
  | .raised e left => (.raised e, left)
  | .returned left => (a, left)

/-! ## §2. Properties and variables. -/

section Operators

variable (core : CoreDecimal) (K : CoreConversions)

namespace managed_decimal128

variable (p : NumericProperty Bid128)

/-- `operator+` and the others: the result is written, and returned. -/
def calculate (op : ArithmeticOperator) (o : Bid128) :
    DecimalAnswer Bid128 × NumericProperty Bid128 :=
  let new_val := core.calculate op p.value o
  -- `m_obj->set` stands here as it does in the assignments
  (p.set new_val).answer p (.decimal new_val)

/-- `operator+=` and the others. -/
def calculate_assign (op : ArithmeticOperator) (o : Bid128) :
    DecimalAnswer Bid128 × NumericProperty Bid128 :=
  let new_val := core.calculate op p.value o
  (p.set new_val).answer p .done

/-- `operator=` of the base, which makes a `bridge::decimal128`. -/
def assign (v : Bid128) : DecimalAnswer Bid128 × NumericProperty Bid128 :=
  (p.set (K.decimal128 v)).answer p .done

def handle : (c : DecimalCall Bid128) → DecimalAnswer Bid128 × NumericProperty Bid128
  | .detach => (.value p.value, p)
  | .calculate op o => calculate core p op o
  | .calculate_assign op o => calculate_assign core p op o
  | .assign v => assign K p v

end managed_decimal128

namespace managed_optional_decimal128

variable (p : NumericProperty (Option Bid128))

def null_error : ArithmeticError := .runtime_error "Optional decimal128 property has null value"

/-- The same, unless the value is null. -/
def calculate (op : ArithmeticOperator) (o : Bid128) :
    DecimalAnswer (Option Bid128) × NumericProperty (Option Bid128) :=
  match p.value with
  | some old_val =>
      let new_val := core.calculate op old_val o
      (p.set (some new_val)).answer p (.decimal new_val)
  | none => (.raised null_error, p)

def calculate_assign (op : ArithmeticOperator) (o : Bid128) :
    DecimalAnswer (Option Bid128) × NumericProperty (Option Bid128) :=
  match p.value with
  | some old_val => (p.set (some (core.calculate op old_val o))).answer p .done
  | none => (.raised null_error, p)

/-- `operator=` of the base, with an optional or with `nullopt`. -/
def assign (v : Option Bid128) : DecimalAnswer (Option Bid128) × NumericProperty (Option Bid128) :=
  (p.set (v.map K.decimal128)).answer p .done

def handle : (c : DecimalCall (Option Bid128)) →
    DecimalAnswer (Option Bid128) × NumericProperty (Option Bid128)
  | .detach => (.value p.value, p)
  | .calculate op o => calculate core p op o
  | .calculate_assign op o => calculate_assign core p op o
  | .assign v => assign K p v

end managed_optional_decimal128

/-- A `realm::decimal128`. -/
def decimal128_variable (v : Bid128) : (c : DecimalCall Bid128) → DecimalAnswer Bid128 × Bid128
  | .detach => (.value v, v)
  | .calculate op o => (.decimal (core.calculate op v o), v)
  | .calculate_assign op o => (.done, core.calculate_assign op v o)
  | .assign w => (.done, w)

/-- A `std::optional` of one, with the operators on what it holds. -/
def optional_decimal128_variable (v : Option Bid128) :
    (c : DecimalCall (Option Bid128)) → DecimalAnswer (Option Bid128) × Option Bid128
  | .detach => (.value v, v)
  | .calculate op o =>
      match v with
      | some old_val => (.decimal (core.calculate op old_val o), v)
      | none => (.undefined, v)
  | .calculate_assign op o =>
      match v with
      | some old_val => (.done, some (core.calculate_assign op old_val o))
      | none => (.undefined, v)
  | .assign w => (.done, w)

/-! ## §3. One call. -/

/-- The property has the value of the variable. -/
def HoldsValue {V : Type} (p : NumericProperty V) (v : V) : Prop := p.value = v

/-- What a call on a property needs: a write transaction, unless it reads; a decimal that
its text keeps; and of an operator that only calculates, **that the result is the value
that is there**. -/
def DecimalMeets (p : NumericProperty Bid128) : DecimalCall Bid128 → Prop
  | .detach => True
  | .calculate op o => p.in_write = true ∧ core.calculate op p.value o = p.value
  | .calculate_assign _ _ => p.in_write = true
  | .assign v => p.in_write = true ∧ K.decimal128 v = v

/-- The same, where there is no null to calculate with. -/
def OptionalDecimalMeets (p : NumericProperty (Option Bid128)) : DecimalCall (Option Bid128) → Prop
  | .detach => True
  | .calculate op o => p.in_write = true ∧ ∃ v, p.value = some v ∧ core.calculate op v o = v
  | .calculate_assign _ _ => p.in_write = true ∧ p.value ≠ none
  | .assign v => p.in_write = true ∧ v.map K.decimal128 = v

/-- In a write transaction the value is written and the call ends as it should. -/
theorem answer_set_iff {V : Type} (p : NumericProperty V) (v w : V) (a : DecimalAnswer V)
    (ha : ∀ e, a ≠ .raised e) :
    (((p.set v).answer p a).1 = a ∧ ((p.set v).answer p a).2.value = w) ↔
      p.in_write = true ∧ v = w := by
  unfold NumericProperty.set
  cases hwrite : p.in_write with
  | true => simp [ArithmeticOutcome.answer]
  | false =>
    -- the call raises, as the variable never does
    simp only [Bool.false_eq_true, if_false, ArithmeticOutcome.answer, false_and, iff_false, not_and]
    exact fun h => absurd h.symm (ha _)

theorem decimal_call_iff {p : NumericProperty Bid128} {v : Bid128} (h : HoldsValue p v)
    (c : DecimalCall Bid128) :
    Client.AgreesAt (managed_decimal128.handle core K) (decimal128_variable core) HoldsValue
      (p, v) c ↔ DecimalMeets core K p c := by
  obtain rfl : p.value = v := h
  cases c with
  | detach => exact iff_of_true ⟨rfl, rfl⟩ trivial
  | calculate op o =>
    -- the variable keeps its value, so that the result has to be this one
    exact answer_set_iff p (core.calculate op p.value o) p.value (.decimal _) (by simp)
  | calculate_assign op o =>
    refine (answer_set_iff p (core.calculate op p.value o) _ .done (by simp)).trans ?_
    exact and_iff_left (core.assign_eq op p.value o).symm
  | assign v => exact answer_set_iff p (K.decimal128 v) v .done (by simp)

theorem optional_decimal_call_iff {p : NumericProperty (Option Bid128)} {v : Option Bid128}
    (h : HoldsValue p v) (c : DecimalCall (Option Bid128)) :
    Client.AgreesAt (managed_optional_decimal128.handle core K) (optional_decimal128_variable core)
      HoldsValue (p, v) c ↔ OptionalDecimalMeets core K p c := by
  replace h : p.value = v := h
  cases c with
  | detach => exact iff_of_true ⟨congrArg _ h, h⟩ trivial
  | calculate op o =>
    show ((managed_optional_decimal128.calculate core p op o).1 = _ ∧
      (managed_optional_decimal128.calculate core p op o).2.value = _) ↔ _ ∧ _
    unfold managed_optional_decimal128.calculate
    rw [h]
    cases v with
    | none => simp [optional_decimal128_variable]
    | some v =>
      refine (answer_set_iff p (some (core.calculate op v o)) (some v)
        (.decimal (core.calculate op v o)) (by simp)).trans ?_
      simp
  | calculate_assign op o =>
    show ((managed_optional_decimal128.calculate_assign core p op o).1 = _ ∧
      (managed_optional_decimal128.calculate_assign core p op o).2.value = _) ↔ _ ∧ _
    unfold managed_optional_decimal128.calculate_assign
    rw [h]
    cases v with
    | none => simp [optional_decimal128_variable]
    | some v =>
      refine (answer_set_iff p (some (core.calculate op v o))
        (some (core.calculate_assign op v o)) .done (by simp)).trans ?_
      simp [core.assign_eq]
  | assign w => exact answer_set_iff p (w.map K.decimal128) w .done (by simp)

/-! ## §4. Programs. -/

variable {ρ : Type}

/-- **A property is as good as a variable**, call by call, exactly in the programs that
calculate with `+`, `-`, `*` and `/` only what is there already; the other calls need a
write transaction, decimals that their text keeps, and no null.  Those programs end as
with a variable. -/
theorem decimal_program_iff :
    (∀ (p : Client (DecimalCall Bid128) (fun _ => DecimalAnswer Bid128) ρ)
        (s : NumericProperty Bid128),
      (p.Along (Client.beside (managed_decimal128.handle core K) (decimal128_variable core))
          (Client.AgreesAt (managed_decimal128.handle core K) (decimal128_variable core) HoldsValue)
          (s, s.value) ↔
        p.Along (managed_decimal128.handle core K) (DecimalMeets core K) s) ∧
      (p.Along (managed_decimal128.handle core K) (DecimalMeets core K) s →
        (p.run (managed_decimal128.handle core K) s).1 =
            (p.run (decimal128_variable core) s.value).1 ∧
          HoldsValue (p.run (managed_decimal128.handle core K) s).2
            (p.run (decimal128_variable core) s.value).2)) ∧
    ∀ (p : Client (DecimalCall (Option Bid128)) (fun _ => DecimalAnswer (Option Bid128)) ρ)
        (s : NumericProperty (Option Bid128)),
      (p.Along (Client.beside (managed_optional_decimal128.handle core K)
          (optional_decimal128_variable core))
          (Client.AgreesAt (managed_optional_decimal128.handle core K)
            (optional_decimal128_variable core) HoldsValue) (s, s.value) ↔
        p.Along (managed_optional_decimal128.handle core K) (OptionalDecimalMeets core K) s) ∧
      (p.Along (managed_optional_decimal128.handle core K) (OptionalDecimalMeets core K) s →
        (p.run (managed_optional_decimal128.handle core K) s).1 =
            (p.run (optional_decimal128_variable core) s.value).1 ∧
          HoldsValue (p.run (managed_optional_decimal128.handle core K) s).2
            (p.run (optional_decimal128_variable core) s.value).2) := by
  constructor
  · intro p s
    have h := Client.along_agreesAt_iff (R := HoldsValue)
      (P := fun st c => DecimalMeets core K st.1 c)
      (fun q v c hq => decimal_call_iff core K hq c) p (s := s) rfl
    rwa [Client.along_beside] at h
  · intro p s
    have h := Client.along_agreesAt_iff (R := HoldsValue)
      (P := fun st c => OptionalDecimalMeets core K st.1 c)
      (fun q v c hq => optional_decimal_call_iff core K hq c) p (s := s) rfl
    rwa [Client.along_beside] at h

end Operators

/-- The arithmetic of the core, of whole numbers whose result is one; their exponent is
that of the upper word. -/
def whole_numbers : CoreDecimal :=
  let calculate (op : ArithmeticOperator) (v o : Bid128) : Bid128 :=
    match op with
    | .plus => (v.1 + o.1, v.2)
    | .minus => (v.1 - o.1, v.2)
    | .times => (v.1 * o.1, v.2)
    | .divided => (v.1 / o.1, v.2)
  ⟨calculate, calculate, fun _ _ _ => rfl⟩

/-- `2` is added to `40`, and the `42` is multiplied with `1`: in a required property and
in an optional one. -/
theorem decimal_program_iff_whole_numbers :
    (Client.call (.calculate_assign .plus (2, 0x3040000000000000)) fun _ =>
        .call (.calculate .times (1, 0x3040000000000000)) fun _ => .ret () :
      Client (DecimalCall Bid128) (fun _ => DecimalAnswer Bid128) Unit).Along
        (Client.beside (managed_decimal128.handle whole_numbers plain_conversions)
          (decimal128_variable whole_numbers))
        (Client.AgreesAt (managed_decimal128.handle whole_numbers plain_conversions)
          (decimal128_variable whole_numbers) HoldsValue)
        (⟨(40, 0x3040000000000000), true⟩, (40, 0x3040000000000000)) ∧
      (Client.call (.calculate_assign .plus (2, 0x3040000000000000)) fun _ =>
        .call (.calculate .times (1, 0x3040000000000000)) fun _ => .ret () :
      Client (DecimalCall (Option Bid128)) (fun _ => DecimalAnswer (Option Bid128)) Unit).Along
        (Client.beside (managed_optional_decimal128.handle whole_numbers plain_conversions)
          (optional_decimal128_variable whole_numbers))
        (Client.AgreesAt (managed_optional_decimal128.handle whole_numbers plain_conversions)
          (optional_decimal128_variable whole_numbers) HoldsValue)
        (⟨some (40, 0x3040000000000000), true⟩, some (40, 0x3040000000000000)) :=
  ⟨((decimal_program_iff whole_numbers plain_conversions).1 _
      ⟨(40, 0x3040000000000000), true⟩).1.mpr ⟨rfl, ⟨rfl, by decide⟩, trivial⟩,
    ((decimal_program_iff whole_numbers plain_conversions).2 _
      ⟨some (40, 0x3040000000000000), true⟩).1.mpr
        ⟨⟨rfl, by decide⟩, ⟨rfl, (42, 0x3040000000000000), by decide, by decide⟩, trivial⟩⟩

end RealmCpp.Managed
