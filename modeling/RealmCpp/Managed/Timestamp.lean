/-
  RealmCpp.Managed.Timestamp
  ──────────────────────────
  **TIME POINTS, AND THE TIMESTAMPS THAT THEY ARE STORED AS.**

  A `bridge::timestamp` has seconds and nanoseconds, which the core makes of a
  `time_point`.  There are two ways back: one through the core, and `get_time_point`, which
  calculates in an `int64_t`.

    • `Timestamp` — the conversions, `CoreTimestamp.Documented` — those of the core,
    • `timestamps_convert_iff` — where nothing is lost, and nothing overflows,
    • `compare_mixed` — timestamps are in the order of their ticks.
-/
import RealmCpp.Library.TruncatedSplit
import RealmCpp.Managed.DictionaryComparison
import RealmCpp.Managed.IntegerArithmetic

namespace RealmCpp.Managed

open RealmCpp.Library
open RealmCpp.Core

/-! ## §1. Time points and the core. -/

abbrev Int32 := Integral .int32

/-- A `time_point` of `system_clock`, by its ticks: the nanoseconds since the epoch. -/
abbrev TimePoint := Int64

/-- `Timestamp` of the core: what the parts are of one that is made from a `time_point`, and
the `get_time_point` of one that is made from its parts; none where that is not defined. -/
structure CoreTimestamp where
  of_time_point : TimePoint → Int64 × Int32
  get_time_point : Int64 → Int32 → Option TimePoint

/-- **The core splits by truncated division**, and recombines what can be split so, where
there is a `time_point` of it. -/
structure CoreTimestamp.Documented (core : CoreTimestamp) : Prop where
  seconds : ∀ tp, (core.of_time_point tp).1.value = tp.value.tdiv 1000000000
  nanoseconds : ∀ tp, (core.of_time_point tp).2.value = tp.value.tmod 1000000000
  get_time_point : ∀ (s : Int64) (n : Int32) (tp : TimePoint),
    IsSplit 1000000000 s.value n.value → s.value * 1000000000 + n.value = tp.value →
    core.get_time_point s n = some tp

theorem int64_of_int32 (v : Int32) :
    IntegralType.int64.least ≤ v.value ∧ v.value ≤ IntegralType.int64.greatest := by
  have hv := v.inRange
  simp only [IntegralType.least, IntegralType.greatest] at *
  omega

/-- An `int32_t` in a calculation with an `int64_t`. -/
def widen (v : Int32) : Int64 := ⟨v.value, int64_of_int32 v⟩

/-! ## §2. Timestamps. -/

/-- `bridge::timestamp`. -/
structure Timestamp where
  m_seconds : Int64
  m_nanoseconds : Int32
  deriving DecidableEq

namespace Timestamp

def nanoseconds_per_second : Int32 := ⟨1000000000, by decide⟩

def get_seconds (t : Timestamp) : Int64 := t.m_seconds

def get_nanoseconds (t : Timestamp) : Int32 := t.m_nanoseconds

/-- `get_time_point`; none where the calculation overflows. -/
def get_time_point (t : Timestamp) : Option TimePoint :=
  (evaluate .times t.get_seconds (widen nanoseconds_per_second)).bind fun product =>
    evaluate .plus product (widen t.get_nanoseconds)

variable (core : CoreTimestamp)

/-- `timestamp(const time_point&)`. -/
def of_time_point (tp : TimePoint) : Timestamp :=
  let ts := core.of_time_point tp
  ⟨ts.1, ts.2⟩

/-- `operator time_point`. -/
def time_point (t : Timestamp) : Option TimePoint :=
  core.get_time_point t.m_seconds t.m_nanoseconds

/-- `serialize`. -/
def serialize (v : TimePoint) : Timestamp := of_time_point core v

/-- `deserialize`. -/
def deserialize (v : Timestamp) : Option TimePoint := v.time_point core

/-- `serialize` and `deserialize` of optional ones; none is `std::nullopt`. -/
def serialize_optional (v : Option TimePoint) : Option Timestamp := v.map (of_time_point core)

def deserialize_optional : Option Timestamp → Option (Option TimePoint)
  | some v => (v.time_point core).map some
  | none => some none

/-- What is stored of it. -/
def mixed (t : Timestamp) : Mixed := .timestamp t.m_seconds.value t.m_nanoseconds.value

/-- The nanoseconds since the epoch. -/
def ticks (t : Timestamp) : Int := t.m_seconds.value * 1000000000 + t.m_nanoseconds.value

/-- **What a file may hold**: the nanoseconds are less than a second, and neither of the two
is of the other's sign. -/
def Stored (t : Timestamp) : Prop := IsSplit 1000000000 t.m_seconds.value t.m_nanoseconds.value

/-! ## §3. Conversions. -/

/-- What is calculated from a number of seconds in nanoseconds, where that is an
`int64_t`. -/
theorem times_second_bind_eq_some_iff (s : Int64) (f : Int64 → Option TimePoint) (tp : TimePoint) :
    (evaluate .times s (widen nanoseconds_per_second)).bind f = some tp ↔
      ∃ h : InRange int64_max (s.value * 1000000000), f ⟨s.value * 1000000000, h⟩ = some tp := by
  rw [Option.bind_eq_some_iff]
  constructor
  · intro ⟨product, hproduct, hf⟩
    rw [evaluate_eq_some_iff] at hproduct
    have htimes : s.value * 1000000000 = product.value := Option.some.inj hproduct
    have hrange : InRange int64_max (s.value * 1000000000) := by
      rw [htimes]
      exact int64_inRange product
    have hmk : (⟨s.value * 1000000000, hrange⟩ : Int64) = product := Integral.value_inj.mp htimes
    exact ⟨hrange, hmk ▸ hf⟩
  · intro ⟨hrange, hf⟩
    exact ⟨_, (evaluate_eq_some_iff ..).mpr rfl, hf⟩

/-- **A calculation that does not overflow** gives the ticks. -/
theorem get_time_point_eq_some_iff (t : Timestamp) (tp : TimePoint) :
    t.get_time_point = some tp ↔
      InRange int64_max (t.m_seconds.value * 1000000000) ∧ t.ticks = tp.value := by
  unfold get_time_point
  rw [times_second_bind_eq_some_iff]
  constructor
  · intro ⟨hproduct, hsum⟩
    rw [evaluate_eq_some_iff] at hsum
    exact ⟨hproduct, Option.some.inj hsum⟩
  · intro ⟨hproduct, hticks⟩
    refine ⟨hproduct, ?_⟩
    rw [evaluate_eq_some_iff]
    exact congrArg some hticks

section Stored

variable {t : Timestamp} (h : t.Stored)
include h

/-- Of what a file may hold, the ticks decide. -/
theorem get_time_point_of_stored (tp : TimePoint) :
    t.get_time_point = some tp ↔ t.ticks = tp.value := by
  rw [get_time_point_eq_some_iff]
  refine ⟨fun hboth => hboth.2, fun hticks => ⟨?_, hticks⟩⟩
  -- the product is between zero and the ticks
  apply h.mul_inRange
  show InRange int64_max t.ticks
  rw [hticks]
  exact int64_inRange tp

/-- **The calculation overflows** where the ticks are no `int64_t`. -/
theorem get_time_point_ne_none_iff :
    t.get_time_point ≠ none ↔ InRange int64_max t.ticks := by
  rw [Option.ne_none_iff_exists']
  constructor
  · intro ⟨tp, htp⟩
    rw [(get_time_point_of_stored h tp).mp htp]
    exact int64_inRange tp
  · intro hrange
    exact ⟨⟨t.ticks, hrange⟩, (get_time_point_of_stored h _).mpr rfl⟩

end Stored

section Core

variable {core} (hcore : core.Documented)
include hcore

/-- A time point is split into what a file may hold. -/
theorem stored_of_time_point (tp : TimePoint) : (of_time_point core tp).Stored := by
  show IsSplit 1000000000 (core.of_time_point tp).1.value (core.of_time_point tp).2.value
  rw [hcore.seconds, hcore.nanoseconds]
  exact isSplit_tdiv (by omega) tp.value

theorem ticks_of_time_point (tp : TimePoint) : (of_time_point core tp).ticks = tp.value := by
  show (core.of_time_point tp).1.value * 1000000000 + (core.of_time_point tp).2.value = _
  rw [hcore.seconds, hcore.nanoseconds]
  exact Int.tdiv_mul_add_tmod ..

/-- The core recombines the ticks. -/
theorem time_point_of_ticks {t : Timestamp} (h : t.Stored) {tp : TimePoint}
    (htp : t.ticks = tp.value) : t.time_point core = some tp :=
  hcore.get_time_point _ _ tp h htp

/-- **Both ways back are one**, unless the calculation overflows. -/
theorem time_point_eq_get_time_point {t : Timestamp} (h : t.Stored)
    (hdefined : t.get_time_point ≠ none) : t.time_point core = t.get_time_point := by
  obtain ⟨tp, htp⟩ := Option.ne_none_iff_exists'.mp hdefined
  rw [htp]
  exact time_point_of_ticks hcore h ((get_time_point_of_stored h tp).mp htp)

/-! ## §4. Without loss or overflow. -/

/-- **A time point that is converted and back** is what it was, also as an optional one and
by `get_time_point`, and the parts on the way are what a file may hold. -/
structure KeepsTimePoint (core : CoreTimestamp) (tp : TimePoint) : Prop where
  deserialize : deserialize core (serialize core tp) = some tp
  deserialize_optional :
    deserialize_optional core (serialize_optional core (some tp)) = some (some tp)
  get_time_point : (serialize core tp).get_time_point = some tp
  parts : IsSplit 1000000000 (serialize core tp).get_seconds.value
    (serialize core tp).get_nanoseconds.value

theorem keepsTimePoint (tp : TimePoint) : KeepsTimePoint core tp := by
  have hstored := stored_of_time_point hcore tp
  have hticks := ticks_of_time_point hcore tp
  have hback := time_point_of_ticks hcore hstored hticks
  constructor
  · exact hback
  · exact congrArg (Option.map some) hback
  · exact (get_time_point_of_stored hstored tp).mpr hticks
  · exact hstored

/-- **Where timestamps convert without loss or overflow**: a time point does always.  Of
what a file may hold, the calculation does not overflow where the ticks are an `int64_t`, and
both ways back are one there. -/
theorem timestamps_convert_iff :
    (∀ tp, KeepsTimePoint core tp) ∧
    (∀ t : Timestamp, t.Stored → (t.get_time_point ≠ none ↔ InRange int64_max t.ticks)) ∧
    (∀ t : Timestamp, t.Stored → t.get_time_point ≠ none →
      t.time_point core = t.get_time_point) := by
  refine ⟨keepsTimePoint hcore, ?_, ?_⟩
  · intro t ht
    exact get_time_point_ne_none_iff ht
  · intro t ht hdefined
    exact time_point_eq_get_time_point hcore ht hdefined

end Core

/-- The parts of a time point fit their types. -/
theorem int64_of_quotient (tp : TimePoint) :
    IntegralType.int64.least ≤ tp.value.tdiv 1000000000 ∧
      tp.value.tdiv 1000000000 ≤ IntegralType.int64.greatest :=
  ArithmeticOperator.tdiv_inRange (int64_inRange tp) (by decide)

theorem int32_of_remainder (tp : TimePoint) :
    IntegralType.int32.least ≤ tp.value.tmod 1000000000 ∧
      tp.value.tmod 1000000000 ≤ IntegralType.int32.greatest := by
  have hsplit : IsSplit 1000000000 (tp.value.tdiv 1000000000) (tp.value.tmod 1000000000) :=
    isSplit_tdiv (by omega) tp.value
  have hrest := hsplit.rest_lt
  simp only [IntegralType.least, IntegralType.greatest]
  omega

/-- A core that has no time points beyond those of `system_clock`. -/
def plain_core : CoreTimestamp where
  of_time_point tp := (⟨_, int64_of_quotient tp⟩, ⟨_, int32_of_remainder tp⟩)
  get_time_point s n := get_time_point ⟨s, n⟩

theorem plain_core_documented : plain_core.Documented where
  seconds _ := rfl
  nanoseconds _ := rfl
  get_time_point s n tp h htp := (get_time_point_of_stored (t := ⟨s, n⟩) h tp).mpr htp

/-- 1.5 seconds before the epoch. -/
def before_epoch : Timestamp := ⟨⟨-1, by decide⟩, ⟨-500000000, by decide⟩⟩

theorem before_epoch_converts :
    before_epoch.time_point plain_core = before_epoch.get_time_point ∧
    KeepsTimePoint plain_core ⟨-1500000000, by decide⟩ := by
  obtain ⟨hkeeps, hoverflow, hagree⟩ := timestamps_convert_iff plain_core_documented
  have hstored : before_epoch.Stored := ⟨by decide, by decide⟩
  refine ⟨hagree before_epoch hstored ?_, hkeeps _⟩
  exact (hoverflow before_epoch hstored).mpr (by decide)

/-- The end of the year 9999. -/
def last_of_9999 : Timestamp := ⟨⟨253402300799, by decide⟩, ⟨0, by decide⟩⟩

/-- **A date that a file may hold, and that overflows.** -/
theorem last_of_9999_overflows : last_of_9999.Stored ∧ last_of_9999.get_time_point = none :=
  ⟨⟨by decide, by decide⟩, by decide⟩

/-! ## §5. The order. -/

/-- **What files may hold is in the order of the ticks.** -/
theorem compare_mixed (K : Semantics) {t t' : Timestamp} (h : t.Stored) (h' : t'.Stored) :
    K.compare t.mixed t'.mixed = some (ordering t.ticks t'.ticks) := by
  have hlt := h.lt_iff h'
  have hgt := h'.lt_iff h
  show some (if t.m_seconds.value = t'.m_seconds.value then
      ordering t.m_nanoseconds.value t'.m_nanoseconds.value
    else ordering t.m_seconds.value t'.m_seconds.value) = _
  unfold ordering ticks
  split_ifs <;> first | rfl | omega

end Timestamp

end RealmCpp.Managed
