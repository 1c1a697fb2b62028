/-
  RealmCpp.Managed.TimestampProperty
  ──────────────────────────────────
  **PROPERTIES OF TIMES, AND VARIABLES.**

  A `managed<time_point>` is read in two ways: `detach` and the comparisons go through the
  core, `time_since_epoch` and `+=` calculate the ticks themselves.  Of an optional property
  `+=` and `time_since_epoch` do not ask whether it is null.

    • `managed_time_point`, `managed_optional_time_point` — the operators,
    • `time_point_variable`, `optional_time_point_variable` — those of a variable,
    • `IsTime` — a timestamp that a file may hold, of a time point,
    • `plus_seconds_isSome_iff` — where `+=` does not overflow,
    • `time_program_iff` — the programs for which a property is as good as a variable.
-/
import RealmCpp.Library.Client
import RealmCpp.Managed.Timestamp

namespace RealmCpp.Managed

open RealmCpp.Library
open RealmCpp.Core
open Timestamp

/-! ## §1. The operators. -/

/-- A `duration` of seconds is added, which is converted to nanoseconds first; none where
one of the two overflows. -/
def plus_seconds (tp : TimePoint) (rhs : Int64) : Option TimePoint :=
  (evaluate .times rhs (widen nanoseconds_per_second)).bind fun duration =>
    evaluate .plus tp duration

/-- What a program does with a time, or with one that may be null; `O` are the operators
that compare it. -/
inductive TimeCall (V O : Type) where
  | detach
  | time_since_epoch
  | add_assign (rhs : Int64)
  | assign (v : V)
  | compare (op : O) (rhs : V)

/-- How a call ends, and with what. -/
inductive TimeAnswer (V : Type) where
  | undefined
  | not_in_write
  | done
  | value (v : V)
  | ticks (n : Int64)
  | verdict (b : Bool)
  deriving DecidableEq

/-- A call that writes. -/
def ArithmeticOutcome.timeAnswer {V W : Type} (p : NumericProperty V) :
    ArithmeticOutcome V → TimeAnswer W × NumericProperty V
  | .undefined => (.undefined, p)
  | .raised _ left => (.not_in_write, left)
  | .returned left => (.done, left)

/-- A call that reads; none where it is not defined. -/
def TimeAnswer.of {V A : Type} (answer : A → TimeAnswer V) : Option A → TimeAnswer V
  | some a => answer a
  | none => .undefined

/-- `operator==` and `operator!=`, which is all there is of an optional. -/
inductive EqualityOperator where
  | equal
  | not_equal
  deriving DecidableEq, Repr

def EqualityOperator.comparison : EqualityOperator → Comparison
  | equal => .equal
  | not_equal => .not_equal

namespace Timestamp

variable (K : Semantics)

/-- The operators of `bridge::timestamp`, which are those of the core. -/
def holds (op : Comparison) (a b : Timestamp) : Bool := op.holds (K.compare a.mixed b.mixed)

/-- And of a `std::optional` of one. -/
def holds_optional (op : EqualityOperator) : Option Timestamp → Option Timestamp → Bool
  | some a, some b => a.holds K op.comparison b
  | none, none => op = .equal
  | some _, none | none, some _ => op = .not_equal

end Timestamp

section Operators

variable (core : CoreTimestamp) (K : Semantics)

namespace managed_time_point

variable (p : NumericProperty Timestamp)

def detach : Option TimePoint := deserialize core p.value

def time_since_epoch : Option Int64 := p.value.get_time_point

def add_assign (rhs : Int64) : ArithmeticOutcome Timestamp :=
  match p.value.get_time_point.bind fun tp => plus_seconds tp rhs with
  | none => .undefined
  | some tp => p.set (of_time_point core tp)

/-- `operator=` of the base. -/
def assign (v : TimePoint) : ArithmeticOutcome Timestamp := p.set (serialize core v)

/-- A comparison on an object; none where the conversion overflows. -/
def compare (op : Comparison) (rhs : TimePoint) : Option Bool :=
  (detach core p).map fun tp => (serialize core tp).holds K op (serialize core rhs)

def handle : TimeCall TimePoint Comparison → TimeAnswer TimePoint × NumericProperty Timestamp
  | .detach => (.of .value (detach core p), p)
  | .time_since_epoch => (.of .ticks (time_since_epoch p), p)
  | .add_assign rhs => (add_assign core p rhs).timeAnswer p
  | .assign v => (assign core p v).timeAnswer p
  | .compare op rhs => (.of .verdict (compare core K p op rhs), p)

end managed_time_point

namespace managed_optional_time_point

variable (p : NumericProperty (Option Timestamp))

def detach : Option (Option TimePoint) := deserialize_optional core p.value

/-- `box::time_since_epoch`; `ts->` of a null is not defined. -/
def time_since_epoch : Option Int64 := p.value.bind get_time_point

/-- `box::operator+=`. -/
def add_assign (rhs : Int64) : ArithmeticOutcome (Option Timestamp) :=
  match (p.value.bind get_time_point).bind fun tp => plus_seconds tp rhs with
  | none => .undefined
  | some tp => p.set (some (of_time_point core tp))

/-- `operator=` of the base, with an optional or with `nullopt`. -/
def assign (v : Option TimePoint) : ArithmeticOutcome (Option Timestamp) :=
  p.set (serialize_optional core v)

def compare (op : EqualityOperator) (rhs : Option TimePoint) : Option Bool :=
  (detach core p).map fun v =>
    holds_optional K op (serialize_optional core v) (serialize_optional core rhs)

def handle : TimeCall (Option TimePoint) EqualityOperator →
    TimeAnswer (Option TimePoint) × NumericProperty (Option Timestamp)
  | .detach => (.of .value (detach core p), p)
  | .time_since_epoch => (.of .ticks (time_since_epoch p), p)
  | .add_assign rhs => (add_assign core p rhs).timeAnswer p
  | .assign v => (assign core p v).timeAnswer p
  | .compare op rhs => (.of .verdict (compare core K p op rhs), p)

end managed_optional_time_point

end Operators

/-! ## §2. Variables. -/

/-- A `time_point`, which is compared by its ticks. -/
def time_point_variable (v : TimePoint) :
    TimeCall TimePoint Comparison → TimeAnswer TimePoint × TimePoint
  | .detach => (.value v, v)
  | .time_since_epoch => (.ticks v, v)
  | .add_assign rhs =>
      match plus_seconds v rhs with
      | some w => (.done, w)
      | none => (.undefined, v)
  | .assign w => (.done, w)
  | .compare op rhs => (.verdict (op.int v.value rhs.value), v)

/-- A `std::optional` of one, with the operators on what it holds. -/
def optional_time_point_variable (v : Option TimePoint) :
    TimeCall (Option TimePoint) EqualityOperator →
      TimeAnswer (Option TimePoint) × Option TimePoint
  | .detach => (.value v, v)
  | .time_since_epoch => (.of .ticks v, v)
  | .add_assign rhs =>
      match v.bind fun tp => plus_seconds tp rhs with
      | some w => (.done, some w)
      | none => (.undefined, v)
  | .assign w => (.done, w)
  | .compare .equal rhs => (.verdict (v = rhs), v)
  | .compare .not_equal rhs => (.verdict (v ≠ rhs), v)

/-- **Where `+=` does not overflow**: the seconds in nanoseconds are an `int64_t`, and so is
the sum. -/
theorem plus_seconds_isSome_iff (tp : TimePoint) (rhs : Int64) :
    (∃ w, plus_seconds tp rhs = some w) ↔ InRange int64_max (rhs.value * 1000000000) ∧
      InRange int64_max (tp.value + rhs.value * 1000000000) := by
  constructor
  · intro ⟨w, hw⟩
    unfold plus_seconds at hw
    rw [times_second_bind_eq_some_iff] at hw
    obtain ⟨hduration, hsum⟩ := hw
    rw [evaluate_eq_some_iff] at hsum
    have hexact : tp.value + rhs.value * 1000000000 = w.value := Option.some.inj hsum
    refine ⟨hduration, ?_⟩
    rw [hexact]
    exact int64_inRange w
  · intro ⟨hduration, hsum⟩
    refine ⟨⟨tp.value + rhs.value * 1000000000, hsum⟩, ?_⟩
    unfold plus_seconds
    rw [times_second_bind_eq_some_iff]
    refine ⟨hduration, ?_⟩
    rw [evaluate_eq_some_iff]
    rfl

/-! ## §3. One call. -/

/-- **A timestamp is a time point**: a file may hold it, and it has the ticks. -/
structure IsTime (t : Timestamp) (v : TimePoint) : Prop where
  stored : t.Stored
  ticks : t.ticks = v.value

/-- What a call needs: a write transaction, if it writes; nothing is written where the
seconds that are added overflow. -/
def TimeMeets (p : NumericProperty Timestamp) (v : TimePoint) :
    TimeCall TimePoint Comparison → Prop
  | .add_assign rhs => InRange int64_max (rhs.value * 1000000000) ∧
      InRange int64_max (v.value + rhs.value * 1000000000) → p.in_write = true
  | .assign _ => p.in_write = true
  | _ => True

/-- The same, where nothing is added to null. -/
def OptionalTimeMeets (p : NumericProperty (Option Timestamp)) (v : Option TimePoint) :
    TimeCall (Option TimePoint) EqualityOperator → Prop
  | .add_assign rhs => ∀ tp, v = some tp →
      InRange int64_max (rhs.value * 1000000000) ∧
        InRange int64_max (tp.value + rhs.value * 1000000000) → p.in_write = true
  | .assign _ => p.in_write = true
  | _ => True

/-- A write is done in a write transaction. -/
theorem timeAnswer_set_iff {V W X : Type} {R : V → X → Prop} (p : NumericProperty V) {v : V}
    {w : X} (h : R v w) :
    (((p.set v).timeAnswer p : TimeAnswer W × NumericProperty V).1 = .done ∧
        R ((p.set v).timeAnswer p : TimeAnswer W × NumericProperty V).2.value w) ↔
      p.in_write = true := by
  unfold NumericProperty.set
  cases p.in_write with
  | true => exact iff_of_true ⟨rfl, h⟩ rfl
  | false => simp [ArithmeticOutcome.timeAnswer]

section Calls

variable {core : CoreTimestamp} (hcore : core.Documented)

/-- A time has one time point, by the calculation. -/
theorem IsTime.get_time_point {t : Timestamp} {v : TimePoint} (h : IsTime t v) :
    t.get_time_point = some v :=
  (get_time_point_of_stored h.stored v).mpr h.ticks

include hcore

theorem isTime_of_time_point (tp : TimePoint) : IsTime (of_time_point core tp) tp where
  stored := stored_of_time_point hcore tp
  ticks := ticks_of_time_point hcore tp

/-- And by the core. -/
theorem IsTime.time_point {t : Timestamp} {v : TimePoint} (h : IsTime t v) :
    t.time_point core = some v :=
  time_point_of_ticks hcore h.stored h.ticks

/-- The operators compare the ticks. -/
theorem holds_serialize (K : Semantics) (op : Comparison) (v w : TimePoint) :
    (serialize core v).holds K op (serialize core w) = op.int v.value w.value := by
  have hv : IsTime (of_time_point core v) v := isTime_of_time_point hcore v
  have hw : IsTime (of_time_point core w) w := isTime_of_time_point hcore w
  show op.holds (K.compare (of_time_point core v).mixed (of_time_point core w).mixed) = _
  rw [compare_mixed K hv.stored hw.stored, hv.ticks, hw.ticks]
  rfl

theorem holds_optional_serialize (K : Semantics) (op : EqualityOperator)
    (v w : Option TimePoint) :
    holds_optional K op (serialize_optional core v) (serialize_optional core w) =
      (match op with | .equal => decide (v = w) | .not_equal => decide (v ≠ w)) := by
  cases v with
  | none => cases w <;> cases op <;> rfl
  | some v =>
    cases w with
    | none => cases op <;> rfl
    | some w =>
      have hvalue : v.value = w.value ↔ v = w := Integral.value_inj
      show (serialize core v).holds K op.comparison (serialize core w) = _
      rw [holds_serialize hcore]
      cases op <;> simp [EqualityOperator.comparison, hvalue]

/-- **A property does what a variable does**, where it needs no more than it has. -/
theorem time_call_iff (K : Semantics) {p : NumericProperty Timestamp} {v : TimePoint}
    (h : IsTime p.value v) (c : TimeCall TimePoint Comparison) :
    Client.AgreesAt (managed_time_point.handle core K) time_point_variable
      (fun p v => IsTime p.value v) (p, v) c ↔ TimeMeets p v c := by
  cases c with
  | detach =>
    refine iff_of_true ⟨?_, h⟩ trivial
    show TimeAnswer.of .value (p.value.time_point core) = .value v
    rw [h.time_point hcore]
    rfl
  | time_since_epoch =>
    refine iff_of_true ⟨?_, h⟩ trivial
    show TimeAnswer.of .ticks p.value.get_time_point = .ticks v
    rw [h.get_time_point]
    rfl
  | add_assign rhs =>
    have hneeds : TimeMeets p v (.add_assign rhs) ↔
        ((∃ w, plus_seconds v rhs = some w) → p.in_write = true) := by
      rw [plus_seconds_isSome_iff]
      exact Iff.rfl
    have hget := h.get_time_point
    rw [hneeds]
    cases hplus : plus_seconds v rhs with
    | none =>
      -- of neither it is said what it does
      have hp : managed_time_point.handle core K p (.add_assign rhs) = (.undefined, p) := by
        simp [managed_time_point.handle, managed_time_point.add_assign, hget, hplus,
          ArithmeticOutcome.timeAnswer]
      have hv : time_point_variable v (.add_assign rhs) = (.undefined, v) := by
        simp [time_point_variable, hplus]
      unfold Client.AgreesAt
      rw [hp, hv]
      refine iff_of_true ⟨rfl, h⟩ ?_
      rintro ⟨w, hw⟩
      cases hw
    | some w =>
      have hp : managed_time_point.handle core K p (.add_assign rhs) =
          (p.set (of_time_point core w)).timeAnswer p := by
        simp [managed_time_point.handle, managed_time_point.add_assign, hget, hplus]
      have hv : time_point_variable v (.add_assign rhs) = (.done, w) := by
        simp [time_point_variable, hplus]
      unfold Client.AgreesAt
      rw [hp, hv]
      refine (timeAnswer_set_iff p (isTime_of_time_point hcore w)).trans ?_
      exact ⟨fun hwrite _ => hwrite, fun hwrite => hwrite ⟨w, rfl⟩⟩
  | assign w => exact timeAnswer_set_iff p (isTime_of_time_point hcore w)
  | compare op rhs =>
    refine iff_of_true ⟨?_, h⟩ trivial
    show TimeAnswer.of .verdict ((p.value.time_point core).map _) = .verdict _
    rw [h.time_point hcore, Option.map_some, holds_serialize hcore]
    rfl

/-- The two ways back of an optional. -/
theorem detach_optional {t : Option Timestamp} {v : Option TimePoint} (h : Option.Rel IsTime t v) :
    deserialize_optional core t = some v ∧ t.bind get_time_point = v := by
  cases h with
  | none => exact ⟨rfl, rfl⟩
  | some h =>
    constructor
    · show (_ : Option TimePoint).map some = _
      rw [h.time_point hcore]
      rfl
    · exact h.get_time_point

theorem isTime_serialize_optional (v : Option TimePoint) :
    Option.Rel IsTime (serialize_optional core v) v := by
  cases v with
  | none => exact .none
  | some v => exact .some (isTime_of_time_point hcore v)

theorem optional_time_call_iff (K : Semantics) {p : NumericProperty (Option Timestamp)}
    {v : Option TimePoint} (h : Option.Rel IsTime p.value v)
    (c : TimeCall (Option TimePoint) EqualityOperator) :
    Client.AgreesAt (managed_optional_time_point.handle core K) optional_time_point_variable
      (fun p v => Option.Rel IsTime p.value v) (p, v) c ↔ OptionalTimeMeets p v c := by
  obtain ⟨hdetach, hget⟩ := detach_optional hcore h
  cases c with
  | detach =>
    refine iff_of_true ⟨?_, h⟩ trivial
    show TimeAnswer.of .value (deserialize_optional core p.value) = .value v
    rw [hdetach]
    rfl
  | time_since_epoch =>
    refine iff_of_true ⟨?_, h⟩ trivial
    show TimeAnswer.of .ticks (p.value.bind get_time_point) = .of .ticks v
    rw [hget]
  | add_assign rhs =>
    have hneeds : OptionalTimeMeets p v (.add_assign rhs) ↔
        ((∃ w, v.bind (plus_seconds · rhs) = some w) → p.in_write = true) := by
      simp only [OptionalTimeMeets, ← plus_seconds_isSome_iff, Option.bind_eq_some_iff]
      grind
    rw [hneeds]
    cases hplus : v.bind (plus_seconds · rhs) with
    | none =>
      have hp : managed_optional_time_point.handle core K p (.add_assign rhs) =
          (.undefined, p) := by
        simp [managed_optional_time_point.handle, managed_optional_time_point.add_assign, hget,
          hplus, ArithmeticOutcome.timeAnswer]
      have hv : optional_time_point_variable v (.add_assign rhs) = (.undefined, v) := by
        simp [optional_time_point_variable, hplus]
      unfold Client.AgreesAt
      rw [hp, hv]
      refine iff_of_true ⟨rfl, h⟩ ?_
      rintro ⟨w, hw⟩
      cases hw
    | some w =>
      have hp : managed_optional_time_point.handle core K p (.add_assign rhs) =
          (p.set (some (of_time_point core w))).timeAnswer p := by
        simp [managed_optional_time_point.handle, managed_optional_time_point.add_assign, hget,
          hplus]
      have hv : optional_time_point_variable v (.add_assign rhs) = (.done, some w) := by
        simp [optional_time_point_variable, hplus]
      unfold Client.AgreesAt
      rw [hp, hv]
      refine (timeAnswer_set_iff p (isTime_serialize_optional hcore (some w))).trans ?_
      exact ⟨fun hwrite _ => hwrite, fun hwrite => hwrite ⟨w, rfl⟩⟩
  | assign w => exact timeAnswer_set_iff p (isTime_serialize_optional hcore w)
  | compare op rhs =>
    refine iff_of_true ⟨?_, ?_⟩ trivial
    · show TimeAnswer.of .verdict ((deserialize_optional core p.value).map _) = _
      rw [hdetach, Option.map_some, holds_optional_serialize hcore]
      cases op <;> rfl
    · cases op <;> exact h

end Calls

/-! ## §4. Programs. -/

/-- **A property of times is as good as a variable**, call by call, exactly in the programs
that write in a write transaction, where the time that it starts with is a `time_point`.
Those programs end as with a variable, and what is overflown there is overflown here. -/
theorem time_program_iff {ρ : Type} {core : CoreTimestamp} (hcore : core.Documented)
    (K : Semantics) :
    (∀ (program : Client (TimeCall TimePoint Comparison) (fun _ => TimeAnswer TimePoint) ρ)
        (p : NumericProperty Timestamp) (v : TimePoint), IsTime p.value v →
      (program.Along (Client.beside (managed_time_point.handle core K) time_point_variable)
          (Client.AgreesAt (managed_time_point.handle core K) time_point_variable
            (fun p v => IsTime p.value v)) (p, v) ↔
        program.Along (Client.beside (managed_time_point.handle core K) time_point_variable)
          (fun st c => TimeMeets st.1 st.2 c) (p, v)) ∧
      (program.Along (Client.beside (managed_time_point.handle core K) time_point_variable)
          (fun st c => TimeMeets st.1 st.2 c) (p, v) →
        (program.run (managed_time_point.handle core K) p).1 =
            (program.run time_point_variable v).1 ∧
          IsTime (program.run (managed_time_point.handle core K) p).2.value
            (program.run time_point_variable v).2)) ∧
    ∀ (program : Client (TimeCall (Option TimePoint) EqualityOperator)
        (fun _ => TimeAnswer (Option TimePoint)) ρ)
        (p : NumericProperty (Option Timestamp)) (v : Option TimePoint),
        Option.Rel IsTime p.value v →
      (program.Along (Client.beside (managed_optional_time_point.handle core K)
          optional_time_point_variable)
          (Client.AgreesAt (managed_optional_time_point.handle core K)
            optional_time_point_variable (fun p v => Option.Rel IsTime p.value v)) (p, v) ↔
        program.Along (Client.beside (managed_optional_time_point.handle core K)
            optional_time_point_variable) (fun st c => OptionalTimeMeets st.1 st.2 c) (p, v)) ∧
      (program.Along (Client.beside (managed_optional_time_point.handle core K)
            optional_time_point_variable) (fun st c => OptionalTimeMeets st.1 st.2 c) (p, v) →
        (program.run (managed_optional_time_point.handle core K) p).1 =
            (program.run optional_time_point_variable v).1 ∧
          Option.Rel IsTime (program.run (managed_optional_time_point.handle core K) p).2.value
            (program.run optional_time_point_variable v).2) := by
  constructor
  · intro program p v h
    exact Client.along_agreesAt_iff (P := fun st c => TimeMeets st.1 st.2 c)
      (fun q w c hq => time_call_iff hcore K hq c) program h
  · intro program p v h
    exact Client.along_agreesAt_iff (P := fun st c => OptionalTimeMeets st.1 st.2 c)
      (fun q w c hq => optional_time_call_iff hcore K hq c) program h

/-- A core of which only times are compared. -/
def time_semantics : Semantics := ⟨fun _ _ => none, id, fun _ _ => .eq⟩

/-- A second is added to the time before the epoch, which is then later than `-1 s`; an
optional one becomes null. -/
theorem time_program_iff_before_epoch :
    (let program : Client (TimeCall TimePoint Comparison) (fun _ => TimeAnswer TimePoint)
        (TimeAnswer TimePoint) :=
      .call (.add_assign one) fun _ => .call (.compare .greater ⟨-1000000000, by decide⟩) .ret
    (program.run (managed_time_point.handle plain_core time_semantics) ⟨before_epoch, true⟩).1 =
      (program.run time_point_variable ⟨-1500000000, by decide⟩).1) ∧
    (let program : Client (TimeCall (Option TimePoint) EqualityOperator)
        (fun _ => TimeAnswer (Option TimePoint)) (TimeAnswer (Option TimePoint)) :=
      .call (.add_assign one) fun _ => .call (.assign none) fun _ => .call .detach .ret
    (program.run (managed_optional_time_point.handle plain_core time_semantics)
        ⟨some before_epoch, true⟩).1 =
      (program.run optional_time_point_variable (some ⟨-1500000000, by decide⟩)).1) := by
  have htime : IsTime before_epoch ⟨-1500000000, by decide⟩ :=
    ⟨⟨by decide, by decide⟩, by decide⟩
  constructor
  · refine (((time_program_iff plain_core_documented time_semantics).1 _ _ _ htime).2 ?_).1
    exact ⟨fun _ => rfl, trivial, trivial⟩
  · refine (((time_program_iff plain_core_documented time_semantics).2 _ _ _ (.some htime)).2
      ?_).1
    exact ⟨fun _ _ _ => rfl, rfl, trivial, trivial⟩

end RealmCpp.Managed
