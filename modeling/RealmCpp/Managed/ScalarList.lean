/-
  RealmCpp.Managed.ScalarList
  ───────────────────────────
  **A MANAGED LIST OF SCALARS, AND THE VECTOR THAT IT IS MEANT TO BE.**

  `managed<std::vector<T>>` makes a `bridge::list` for each call and hands the call on to
  it.  A program makes calls; it is run side by side with one on a vector that refuses
  what is out of its range.

    • `ScalarList` — the methods, `StdVector` — the meaning,
    • `Corresponds` — the list has the elements of the vector, as they are stored,
    • `managed_list_simulates` — the programs that observe the same, for any conversions,
    • `scalar_list_simulates` — for the nine types of scalars.
-/
import RealmCpp.Library.Sequence
import RealmCpp.Managed.DecimalComparison
import RealmCpp.Managed.Set

namespace RealmCpp.Managed

open RealmCpp.Library
open RealmCpp.Core

/-! ## §1. Calls. -/

/-- The calls; `subscript` is `operator[]`, and `iterate` the loop from `begin()` to
`end()` with `++it`. -/
inductive ListCall (E : Type) where
  | push_back (value : E)
  | pop_back
  | erase (idx : UInt64)
  | set (pos : UInt64) (a : E)
  | clear
  | find (a : E)
  | size
  | subscript (idx : UInt64)
  | iterate
  | detach

/-- What a program observes; none where a call raises. -/
abbrev ListCall.Answer {E : Type} : ListCall E → Type
  | push_back _ | pop_back | erase _ | set _ _ => Option Unit
  | clear => Unit
  | find _ | size => UInt64
  | subscript _ => Option E
  | iterate => List (Option E)
  | detach => Option (List E)

/-- A modification that raises leaves the sequence as it is. -/
def attempt {α : Type} (s : Sequence α) : Option (Sequence α) → Option Unit × Sequence α
  | some s' => (some (), s')
  | none => (none, s)

/-! ## §2. Managed lists. -/

namespace ScalarList

section Methods

variable {E C : Type} (K : Conversions E C) (core_equal : C → C → Bool)

/-- `push_back`. -/
def push_back (list : Sequence C) (value : E) : Option Unit × Sequence C :=
  attempt list (list.push (K.serialize value))

/-- `pop_back`, which removes at the index `size() - 1`. -/
def pop_back (list : Sequence C) : Option Unit × Sequence C :=
  attempt list (list.remove (list.size - 1))

/-- `erase`. -/
def erase (list : Sequence C) (idx : UInt64) : Option Unit × Sequence C :=
  attempt list (list.remove idx)

/-- `set`; a type of the bridge is made from `a`. -/
def set (list : Sequence C) (pos : UInt64) (a : E) : Option Unit × Sequence C :=
  attempt list (list.set pos (K.serialize a))

/-- `find`, with the equality of the core. -/
def find (list : Sequence C) (a : E) : UInt64 :=
  list.find fun c => core_equal c (K.serialize a)

/-- `operator[]`. -/
def subscript (list : Sequence C) (idx : UInt64) : Option E := (list.get idx).bind K.deserialize

/-- What the loop from `begin()` to `end()` with `++it` visits; none where it does not
end. -/
def iterate (list : Sequence C) : List (Option E) :=
  match IteratorClass.loop (fun _ => list.elements) 0 Iterator.increment list.elements.length with
  | .returned its =>
      its.map ((list_iterator K.deserialize).star fun _ => list.elements)
  | _ => []

/-- `detach`. -/
def detach (list : Sequence C) : Option (List E) := list.elements.mapM K.deserialize

/-- The calls, on a managed list. -/
def handle (list : Sequence C) : (c : ListCall E) → c.Answer × Sequence C
  | .push_back value => push_back K list value
  | .pop_back => pop_back list
  | .erase idx => erase list idx
  | .set pos a => set K list pos a
  | .clear => ((), .empty)
  | .find a => (find K core_equal list a, list)
  | .size => (list.size, list)
  | .subscript idx => (subscript K list idx, list)
  | .iterate => (iterate K list, list)
  | .detach => (detach K list, list)

end Methods

end ScalarList

/-! ## §3. Vectors. -/

/-- The calls, as they are meant: those of a vector with the `==` of its elements. -/
def StdVector.handle {E : Type} (equal : E → E → Bool) (v : Sequence E) :
    (c : ListCall E) → c.Answer × Sequence E
  | .push_back value => attempt v (v.push value)
  | .pop_back => attempt v v.pop
  | .erase idx => attempt v (v.remove idx)
  | .set pos a => attempt v (v.set pos a)
  | .clear => ((), .empty)
  | .find a => (v.find fun w => equal w a, v)
  | .size => (v.size, v)
  | .subscript idx => (v.get idx, v)
  | .iterate => (v.elements.map some, v)
  | .detach => (some v.elements, v)

/-! ## §4. Lists that correspond. -/

section Corresponds

variable {E C : Type} (K : Conversions E C)

/-- **The list has what is stored of the vector's elements**, and they are read back. -/
structure ListCorresponds (s : Sequence C) (t : Sequence E) : Prop where
  contents : s = t.map K.serialize
  comesBack : ∀ v ∈ t.elements, K.ComesBack v

variable {K} {s : Sequence C} {t : Sequence E}

/-- A modification of the vector, and the same one of the list: they correspond if what
is left of the vector is read back. -/
theorem attempt_iff (h : ListCorresponds K s t) {s' : Option (Sequence C)}
    {t' : Option (Sequence E)} (hs : s' = t'.map fun u => u.map K.serialize) :
    ((attempt s s').1 = (attempt t t').1 ∧
        ListCorresponds K (attempt s s').2 (attempt t t').2) ↔
      ∀ u, t' = some u → ∀ v ∈ u.elements, K.ComesBack v := by
  rw [hs]
  cases t' with
  | none =>
    refine iff_of_true ⟨rfl, h⟩ ?_
    intro u hu
    cases hu
  | some u =>
    constructor
    · intro hafter u' hu'
      rw [← Option.some.inj hu']
      exact hafter.2.comesBack
    · intro hback
      exact ⟨rfl, rfl, hback u rfl⟩

/-- A modification that puts a value in. -/
theorem attempt_value_iff (h : ListCorresponds K s t) {s' : Option (Sequence C)}
    {t' : Option (Sequence E)} (hs : s' = t'.map fun u => u.map K.serialize) {v : E}
    (hmem : ∀ u, t' = some u → v ∈ u.elements)
    (hof : ∀ u, t' = some u → ∀ w ∈ u.elements, w ∈ t.elements ∨ w = v) :
    ((attempt s s').1 = (attempt t t').1 ∧
        ListCorresponds K (attempt s s').2 (attempt t t').2) ↔
      (t'.isSome = true → K.ComesBack v) := by
  rw [attempt_iff h hs]
  constructor
  · intro hback hsome
    obtain ⟨u, hu⟩ := Option.isSome_iff_exists.mp hsome
    exact hback u hu v (hmem u hu)
  · intro hv u hu w hw
    rcases hof u hu w hw with hw | rfl
    · exact h.comesBack w hw
    · exact hv (hu ▸ rfl)

theorem pop_back_spec (h : ListCorresponds K s t) :
    (ScalarList.pop_back s).1 = (attempt t t.pop).1 ∧
      ListCorresponds K (ScalarList.pop_back s).2 (attempt t t.pop).2 := by
  unfold ScalarList.pop_back
  -- the index is that of the last element, also where there is none
  rw [Sequence.remove_size_sub_one]
  refine (attempt_iff h ?_).mpr ?_
  · rw [h.contents]
    exact Sequence.pop_map K.serialize t
  · intro u hu v hv
    exact h.comesBack v (Sequence.mem_of_pop hu hv)

/-- What is read of an element that is stored is the element. -/
theorem deserialize_eq (h : ListCorresponds K s t) :
    s.elements.map K.deserialize = t.elements.map some := by
  rw [h.contents]
  show (t.elements.map K.serialize).map K.deserialize = _
  rw [List.map_map]
  exact List.map_congr_left h.comesBack

theorem subscript_spec (h : ListCorresponds K s t) (idx : UInt64) :
    ScalarList.subscript K s idx = t.get idx := by
  unfold ScalarList.subscript
  rw [h.contents, Sequence.get_map]
  cases hget : t.get idx with
  | none => rfl
  | some v => exact h.comesBack v (List.mem_of_getElem? hget)

/-- **The loop with `++it` visits the elements in their order.** -/
theorem iterate_list_spec (h : ListCorresponds K s t) :
    ScalarList.iterate K s = t.elements.map some := by
  unfold ScalarList.iterate
  rw [IteratorClass.loop_increment (fun _ => s.elements) 0 (n := s.elements.length) (Nat.le_refl _)]
  rw [← deserialize_eq h]
  exact (list_iterator K.deserialize).elements_positions (fun _ => s.elements) 0

theorem detach_list_spec (h : ListCorresponds K s t) : ScalarList.detach K s = some t.elements := by
  unfold ScalarList.detach
  rw [h.contents]
  show (t.elements.map K.serialize).mapM K.deserialize = some t.elements
  rw [mapM_eq_some_iff, List.forall₂_map_left_iff, List.forall₂_same]
  exact h.comesBack

/-- **A search finds what it should just where both equalities agree** up to the first
element that is equal. -/
theorem find_list_spec (h : ListCorresponds K s t) (core_equal : C → C → Bool)
    (equal : E → E → Bool) (a : E) :
    (ScalarList.find K core_equal s a = t.find fun w => equal w a) ↔
      Sequence.AgreeFirst (fun w => core_equal (K.serialize w) (K.serialize a))
        (fun w => equal w a) t.elements := by
  unfold ScalarList.find
  rw [h.contents, Sequence.find_map]
  exact Sequence.find_eq_iff ..

/-! ## §5. Programs. -/

variable (K) in
/-- **What a call needs** to do what it is for: values that come back, if they are put in,
and elements that are equal in the core where they are. -/
def ListMeets (core_equal : C → C → Bool) (equal : E → E → Bool) (st : Sequence C × Sequence E) :
    ListCall E → Prop
  | .push_back v => (st.2.push v).isSome = true → K.ComesBack v
  | .set pos v => (st.2.set pos v).isSome = true → K.ComesBack v
  | .find a =>
      Sequence.AgreeFirst (fun w => core_equal (K.serialize w) (K.serialize a))
        (fun w => equal w a) st.2.elements
  | .pop_back | .erase _ | .clear | .size | .subscript _ | .iterate | .detach => True

/-- **A call does what it is for exactly where it has what it needs.** -/
theorem list_agreesAt_iff (core_equal : C → C → Bool) (equal : E → E → Bool)
    (h : ListCorresponds K s t) (c : ListCall E) :
    Client.AgreesAt (ScalarList.handle K core_equal) (StdVector.handle equal) (ListCorresponds K)
      (s, t) c ↔ ListMeets K core_equal equal (s, t) c := by
  cases c with
  | push_back v =>
    refine attempt_value_iff h ?_ (fun u => Sequence.mem_push) fun u hu w => Sequence.mem_of_push hu
    rw [h.contents]
    exact Sequence.push_map K.serialize t v
  | pop_back => exact iff_of_true (pop_back_spec h) trivial
  | erase idx =>
    refine iff_of_true ((attempt_iff h ?_).mpr ?_) trivial
    · rw [h.contents]
      exact Sequence.remove_map K.serialize t idx
    · intro u hu w hw
      exact h.comesBack w (Sequence.mem_of_removeAt hu hw)
  | set pos v =>
    refine attempt_value_iff h ?_ (fun u => Sequence.mem_set) fun u hu w => Sequence.mem_of_set hu
    rw [h.contents]
    exact Sequence.set_map K.serialize t pos v
  | clear => exact iff_of_true ⟨rfl, rfl, fun v hv => absurd hv List.not_mem_nil⟩ trivial
  | find a => exact (and_iff_left h).trans (find_list_spec h core_equal equal a)
  | size =>
    refine iff_of_true ⟨?_, h⟩ trivial
    show s.size = t.size
    rw [h.contents, Sequence.size_map]
  | subscript idx => exact iff_of_true ⟨subscript_spec h idx, h⟩ trivial
  | iterate => exact iff_of_true ⟨iterate_list_spec h, h⟩ trivial
  | detach => exact iff_of_true ⟨detach_list_spec h, h⟩ trivial

/-- **A managed list simulates the vector it is meant to be**, in exactly the programs whose
calls have what they need. -/
theorem managed_list_simulates {ρ : Type} (core_equal : C → C → Bool) (equal : E → E → Bool)
    (p : Client (ListCall E) ListCall.Answer ρ) (h : ListCorresponds K s t) :
    let managed := ScalarList.handle K core_equal
    let vector := StdVector.handle equal
    (p.Along (Client.beside managed vector)
          (Client.AgreesAt managed vector (ListCorresponds K)) (s, t) ↔
        p.Along (Client.beside managed vector) (ListMeets K core_equal equal) (s, t)) ∧
      (p.Along (Client.beside managed vector) (ListMeets K core_equal equal) (s, t) →
        (p.run managed s).1 = (p.run vector t).1 ∧
          ListCorresponds K (p.run managed s).2 (p.run vector t).2) :=
  Client.along_agreesAt_iff (fun _ _ c hR => list_agreesAt_iff core_equal equal hR c) p h

theorem listCorresponds_empty : ListCorresponds K .empty .empty :=
  ⟨rfl, fun _ hv => absurd hv List.not_mem_nil⟩

end Corresponds

/-! ## §6. Scalars. -/

section Scalars

variable (K : CoreConversions) (decimal_equal : Bid128 → Bid128 → Bool)

/-- `list::get` of the type of an alternative, and `deserialize`. -/
def Alternative.get : (a : Alternative) → Mixed → Option a.Value
  | int64, .int v => some (Integral.static_cast .int64 v)
  | bool, .bool v => some v
  | string, .string v => some v
  | double, .double bits => some bits
  | binary, .binary v => some v
  | time_point, .timestamp seconds nanoseconds => some (K.get_time_point (seconds, nanoseconds))
  | uuid, .uuid bytes => toBytes 16 bytes
  | object_id, .object_id bytes => toBytes 12 bytes
  | decimal128, .decimal128 low high => some (low, high)
  | _, _ => none

/-- A list of scalars: its elements are stored and read by their type. -/
def Alternative.conversions (a : Alternative) : Conversions a.Value Mixed :=
  ⟨a.serialize K, a.get K⟩

/-- `==` of the core, which has its own for decimals. -/
def core_equal : Mixed → Mixed → Bool
  | .int v, .int w => v == w
  | .bool v, .bool w => v == w
  | .string v, .string w => v == w
  | .double v, .double w => compare_double v w == some .eq
  | .binary v, .binary w => v == w
  | .timestamp s n, .timestamp s' n' => s == s' && n == n'
  | .uuid v, .uuid w => v == w
  | .object_id v, .object_id w => v == w
  | .decimal128 low high, .decimal128 low' high' => decimal_equal (low, high) (low', high')
  | _, _ => false

/-- `==` of C++. -/
def Alternative.equal : (a : Alternative) → a.Value → a.Value → Bool
  | int64, v, w => Integral.value v == Integral.value w
  | bool, v, w => @BEq.beq Bool _ v w
  | string, v, w => @BEq.beq String _ v w
  | double, v, w => compare_double v w == some .eq
  | binary, v, w => @BEq.beq (List UInt8) _ v w
  | time_point, v, w => @BEq.beq Int _ v w
  | uuid, v, w => Subtype.val v == Subtype.val w
  | object_id, v, w => Subtype.val v == Subtype.val w
  | decimal128, v, w => Decimal128.equal ⟨v⟩ ⟨w⟩

/-- **A scalar comes back just when it is kept.** -/
theorem Alternative.comesBack_iff (a : Alternative) (v : a.Value) :
    (a.conversions K).ComesBack v ↔ a.Kept K v := by
  show a.get K (a.serialize K v) = some v ↔ _
  cases a with
  | decimal128 =>
    exact Option.some_inj
  | int64 =>
    refine iff_of_true ?_ trivial
    exact congrArg some (Integral.static_cast_value
      (cast_int64_of_le (n := v.value) v.inRange.1 v.inRange.2))
  | time_point => exact iff_of_true (congrArg some (K.get_time_point_timestamp v)) trivial
  | uuid =>
    refine iff_of_true ?_ trivial
    exact (congrArg (fun bytes => toBytes 16 bytes.val) (K.uuid_of_to_string v)).trans
      (toBytes_val (n := 16) v)
  | object_id =>
    refine iff_of_true ?_ trivial
    exact (congrArg (fun bytes => toBytes 12 bytes.val) (K.object_id_of_to_string v)).trans
      (toBytes_val (n := 12) v)
  | bool | string | double | binary => exact iff_of_true rfl trivial

/-- Times are told apart by their seconds and nanoseconds. -/
theorem timestamp_beq (v w : Int) :
    ((K.timestamp v).1 == (K.timestamp w).1 && (K.timestamp v).2 == (K.timestamp w).2) =
      (v == w) := by
  rw [Bool.eq_iff_iff, Bool.and_eq_true, beq_iff_eq, beq_iff_eq, beq_iff_eq, ← Prod.ext_iff]
  constructor
  · intro h
    rw [← K.get_time_point_timestamp v, h, K.get_time_point_timestamp]
  · intro h
    rw [h]

theorem uuid_beq (v w : Bytes 16) :
    ((K.uuid_of_string (K.uuid_to_string v)).val == (K.uuid_of_string (K.uuid_to_string w)).val) =
      (v.val == w.val) := by
  rw [K.uuid_of_to_string, K.uuid_of_to_string]

theorem object_id_beq (v w : Bytes 12) :
    ((K.object_id_of_string (K.object_id_to_string v)).val ==
      (K.object_id_of_string (K.object_id_to_string w)).val) = (v.val == w.val) := by
  rw [K.object_id_of_to_string, K.object_id_of_to_string]

/-- **Both equalities are the same**, other than of decimals. -/
theorem core_equal_serialize {a : Alternative} (ha : a ≠ .decimal128) (v w : a.Value) :
    core_equal decimal_equal (a.serialize K v) (a.serialize K w) = a.equal v w := by
  cases a with
  | decimal128 => exact absurd rfl ha
  | time_point => exact timestamp_beq K v w
  | uuid => exact uuid_beq K v w
  | object_id => exact object_id_beq K v w
  | int64 | bool | string | double | binary => rfl

/-- **The decimals of a list that are found**: up to the first element that is equal, by
its number or by its words, it is so by both. -/
def Alternative.FindsSame : (a : Alternative) → List a.Value → a.Value → Prop
  | decimal128, l, v =>
      Sequence.AgreeFirst (fun w => decimal_equal (K.decimal128 w) (K.decimal128 v))
        (fun w => Decimal128.equal ⟨w⟩ ⟨v⟩) l
  | _, _, _ => True

/-- What a call on a list of scalars needs: decimals that their text keeps, if they are put
in, and in a search, decimals that are equal both ways. -/
def ScalarMeets (a : Alternative) (st : Sequence Mixed × Sequence a.Value) :
    ListCall a.Value → Prop
  | .push_back v => (st.2.push v).isSome = true → a.Kept K v
  | .set pos v => (st.2.set pos v).isSome = true → a.Kept K v
  | .find v => a.FindsSame K decimal_equal st.2.elements v
  | _ => True

theorem findsSame_iff (a : Alternative) (l : List a.Value) (v : a.Value) :
    a.FindsSame K decimal_equal l v ↔
      Sequence.AgreeFirst (fun w => core_equal decimal_equal (a.serialize K w) (a.serialize K v))
        (fun w => a.equal w v) l := by
  by_cases ha : a = .decimal128
  · subst ha
    exact Iff.rfl
  · -- other than of decimals, there is nothing to meet
    refine iff_of_true ?_ (Sequence.agreeFirst_of_eq (fun w => core_equal_serialize K _ ha w v) l)
    cases a with
    | decimal128 => exact absurd rfl ha
    | int64 | bool | string | double | binary | time_point | uuid | object_id => trivial

theorem scalarMeets_iff (a : Alternative) (st : Sequence Mixed × Sequence a.Value)
    (c : ListCall a.Value) :
    ScalarMeets K decimal_equal a st c ↔
      ListMeets (a.conversions K) (core_equal decimal_equal) a.equal st c := by
  cases c with
  | push_back v | set _ v => exact imp_congr_right fun _ => (a.comesBack_iff K v).symm
  | find v => exact findsSame_iff K decimal_equal a _ v
  | pop_back | erase _ | clear | size | subscript _ | iterate | detach => exact Iff.rfl

/-- **A managed list of scalars simulates the vector**, for each of the nine types and in
exactly the programs whose decimals are kept and found: where they are, each answer is the
same and so is what is left, and in no other does each call answer the same and leave a list
that is read as the vector. -/
theorem scalar_list_simulates {ρ : Type} (a : Alternative)
    (p : Client (ListCall a.Value) ListCall.Answer ρ) (s : Sequence Mixed) (t : Sequence a.Value)
    (h : ListCorresponds (a.conversions K) s t) :
    let managed := ScalarList.handle (a.conversions K) (core_equal decimal_equal)
    let vector := StdVector.handle a.equal
    (p.Along (Client.beside managed vector)
          (Client.AgreesAt managed vector (ListCorresponds (a.conversions K))) (s, t) ↔
        p.Along (Client.beside managed vector) (ScalarMeets K decimal_equal a) (s, t)) ∧
      (p.Along (Client.beside managed vector) (ScalarMeets K decimal_equal a) (s, t) →
        (p.run managed s).1 = (p.run vector t).1 ∧
          ListCorresponds (a.conversions K) (p.run managed s).2 (p.run vector t).2) := by
  intro managed vector
  have hmeets := Client.along_congr (h := Client.beside managed vector)
    (scalarMeets_iff K decimal_equal a) p (s, t)
  rw [hmeets]
  exact managed_list_simulates _ a.equal p h

end Scalars

/-! ## §7. Programs that are run. -/

/-- A list with one decimal is searched for one with other words, which the core takes for
equal. -/
theorem search_differs (K : CoreConversions) (decimal_equal : Bid128 → Bid128 → Bool)
    {v w : Decimal128} (hv : K.decimal128 v.m_decimal = v.m_decimal)
    (hfound : decimal_equal (K.decimal128 v.m_decimal) (K.decimal128 w.m_decimal) = true)
    (hwords : ¬ v.equal w = true) :
    let p : Client (ListCall Bid128) ListCall.Answer UInt64 :=
      .call (.push_back v.m_decimal) fun _ => .call (.find w.m_decimal) fun i => .ret i
    (p.run (ScalarList.handle (Alternative.decimal128.conversions K) (core_equal decimal_equal))
        .empty).1 ≠
      (p.run (StdVector.handle Alternative.decimal128.equal) .empty).1 := by
  intro p h
  have hafter := ((list_agreesAt_iff (core_equal decimal_equal) Alternative.decimal128.equal
    (listCorresponds_empty (K := Alternative.decimal128.conversions K))
    (.push_back v.m_decimal)).mpr fun _ =>
      (Alternative.comesBack_iff K .decimal128 v.m_decimal).mpr hv).2
  -- both searches look at the one element that is there
  have hfirst := ((find_list_spec hafter _ _ w.m_decimal).mp h).1
  exact hwords (hfirst.symm.trans hfound)

/-- The core finds a decimal by its number. -/
theorem found_of_number {v w : Decimal128} {x : Extended}
    (hv : scale_keeping.decimal128 v.m_decimal = v.m_decimal)
    (hw : scale_keeping.decimal128 w.m_decimal = w.m_decimal) (hx : v.m_decimal.number = some x)
    (hy : w.m_decimal.number = some x) :
    numeric_order.equal (scale_keeping.decimal128 v.m_decimal)
      (scale_keeping.decimal128 w.m_decimal) = true := by
  rw [hv, hw]
  exact (numeric_order_numeric.equal hx hy).mpr rfl

theorem found_one_0 : numeric_order.equal (scale_keeping.decimal128 one_0.m_decimal)
    (scale_keeping.decimal128 one_0.m_decimal) = true := by
  obtain ⟨x, hx⟩ := Option.ne_none_iff_exists'.mp one_0_not_NaN
  exact found_of_number scale_keeping_one_0 scale_keeping_one_0 hx hx

/-- A decimal is added and found, and removed; there is none to remove after that. -/
theorem scalar_list_simulates_one_0 :
    let p : Client (ListCall Bid128) ListCall.Answer (UInt64 × Option Unit) :=
      .call (.push_back one_0.m_decimal) fun _ => .call (.find one_0.m_decimal) fun i =>
        .call .pop_back fun _ => .call .pop_back fun last => .ret (i, last)
    (p.run (ScalarList.handle (Alternative.decimal128.conversions scale_keeping)
        (core_equal numeric_order.equal)) .empty).1 =
      (p.run (StdVector.handle Alternative.decimal128.equal) .empty).1 := by
  intro p
  refine ((scalar_list_simulates scale_keeping numeric_order.equal .decimal128 p .empty .empty
    listCorresponds_empty).2 ?_).1
  have hwords : Decimal128.equal one_0 one_0 = true := by decide
  have hfinds : Alternative.FindsSame scale_keeping numeric_order.equal .decimal128
      [one_0.m_decimal] one_0.m_decimal := ⟨found_one_0.trans hwords.symm, .inl found_one_0⟩
  exact ⟨fun _ => scale_keeping_one_0, hfinds, trivial, trivial, trivial⟩

/-- **A list with `1.0` is searched for `1.00`**: the core finds it. -/
theorem one_00_found :
    let p : Client (ListCall Bid128) ListCall.Answer UInt64 :=
      .call (.push_back one_0.m_decimal) fun _ => .call (.find one_00.m_decimal) fun i => .ret i
    (p.run (ScalarList.handle (Alternative.decimal128.conversions scale_keeping)
        (core_equal numeric_order.equal)) .empty).1 ≠
      (p.run (StdVector.handle Alternative.decimal128.equal) .empty).1 := by
  obtain ⟨x, hx⟩ := Option.ne_none_iff_exists'.mp one_0_not_NaN
  have hfound := found_of_number scale_keeping_one_0 scale_keeping_one_00 hx
    (number_one_0.symm.trans hx)
  exact search_differs scale_keeping numeric_order.equal scale_keeping_one_0 hfound (by decide)

end RealmCpp.Managed
