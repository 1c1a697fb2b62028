/-
  RealmCpp.Managed.ObjectCopies
  ─────────────────────────────
  **COPIES OF A MANAGED OBJECT, AND WHAT THEIR PROPERTIES POINT AT.**

  The properties of a `managed<cls>` point at its object and its realm.  When it is
  constructed or assigned, `assign` or `prepare_for_query` sets the pointers anew: the
  first for an object, the second in a query.  Each of them leaves a field as it was.

    • `ManagedMemory` — the `managed<cls>` of a program, `step` — an operation on them,
    • `Wired` — the properties point at the `managed<cls>` that they are in,
    • `step_wired_iff` — where an operation leaves all of them so,
    • `wired_along_iff` — a program.
-/
import Mathlib.Data.List.Basic
import Mathlib.Logic.Function.Basic
import RealmCpp.Core.Data

namespace RealmCpp.Managed

open RealmCpp.Core

/-! ## §1. Properties and objects. -/

/-- A stored object: its table, which is one of a realm, and its key. -/
structure StoredObject where
  table : Nat
  key : ObjKey
  deriving DecidableEq

/-- `managed_base`.  The pointers are to members of a `managed<cls>`, by its address. -/
structure ManagedBase where
  m_obj : Option Nat
  m_realm : Option Nat
  m_key : Option ColKey
  m_rbool_query : Option Nat
  deriving DecidableEq

namespace ManagedBase

/-- `managed_base()`. -/
def default : ManagedBase := ⟨none, none, none, none⟩

/-- `assign`. -/
def assign (b : ManagedBase) (obj realm : Nat) (key : ColKey) : ManagedBase :=
  { b with m_obj := some obj, m_realm := some realm, m_key := some key }

/-- `prepare_for_query`; the column is that of the name in the table. -/
def prepare_for_query (b : ManagedBase) (realm : Nat) (key : ColKey) (query_builder : Nat) :
    ManagedBase :=
  { b with m_realm := some realm, m_key := some key, m_rbool_query := some query_builder }

end ManagedBase

/-- The class of the objects: the names of its properties, its table in each realm, and
the columns of a table. -/
structure ManagedClass where
  names : List String
  names_ne_nil : names ≠ []
  get_table : Nat → Nat
  get_column_key : Nat → String → ColKey

/-- `managed<cls>`. -/
structure ManagedValue where
  m_obj : Option StoredObject
  m_realm : Option Nat
  m_rbool_query : Option Nat
  properties : List (String × ManagedBase)

namespace ManagedValue

variable (cls : ManagedClass)

/-- `managed()`. -/
def fresh : ManagedValue := ⟨none, none, none, cls.names.map fun name => (name, .default)⟩

/-- `assign` on every property of the one at `this`. -/
def assign_properties (m : ManagedValue) (this : Nat) (obj : StoredObject) : ManagedValue :=
  { m with properties := m.properties.map fun p =>
      (p.1, p.2.assign this this (cls.get_column_key obj.table p.1)) }

/-- `prepare_for_query` on every property, with the table of the class in the realm. -/
def prepare_properties (m : ManagedValue) (this realm q : Nat) : ManagedValue :=
  { m with properties := m.properties.map fun p =>
      (p.1, p.2.prepare_for_query this (cls.get_column_key (cls.get_table realm) p.1) q) }

/-- `managed(obj, realm)`. -/
def construct (this : Nat) (obj : StoredObject) (realm : Nat) : ManagedValue :=
  { fresh cls with m_obj := some obj, m_realm := some realm }.assign_properties cls this obj

/-- `prepare_for_query(r, q)`. -/
def prepare_for_query (this r q : Nat) : ManagedValue :=
  { fresh cls with m_realm := some r, m_rbool_query := some q }.prepare_properties cls this r q

/-- The members of another one, copied or moved. -/
def take (m other : ManagedValue) : ManagedValue :=
  { m with m_obj := other.m_obj, m_realm := other.m_realm, m_rbool_query := other.m_rbool_query }

/-- What the copy and the move constructors, and both assignments, do with the properties
after that; none where there is no table to ask. -/
def rewire (m : ManagedValue) (this : Nat) : Option ManagedValue :=
  match m.m_rbool_query with
  | some q => m.m_realm.map fun realm => m.prepare_properties cls this realm q
  | none => m.m_obj.map fun obj => m.assign_properties cls this obj

end ManagedValue

/-! ## §2. Programs. -/

/-- A `managed<cls>`, and whether it was moved from. -/
structure ManagedSlot where
  value : ManagedValue
  moved_from : Bool

/-- The `managed<cls>` of a program, by their addresses; none where there is none, or none
any more. -/
structure ManagedMemory where
  count : Nat
  slots : Nat → Option ManagedSlot

/-- What a move leaves of an object and a realm; of a plain pointer it leaves all. -/
structure LeftBehind where
  m_obj : Option StoredObject → Option StoredObject
  m_realm : Option Nat → Option Nat

/-- The operations; those that construct one give it the next address. -/
inductive ManagedOp where
  | construct (obj : StoredObject) (realm : Nat)
  | prepare_for_query (r q : Nat)
  | copy (j : Nat)
  | move (j : Nat)
  | assign (i j : Nat)
  | move_assign (i j : Nat)
  | destroy (i : Nat)

namespace ManagedMemory

def put (s : ManagedMemory) (i : Nat) (slot : ManagedSlot) : ManagedMemory :=
  { s with slots := Function.update s.slots i (some slot) }

/-- One more. -/
def new (s : ManagedMemory) (m : ManagedValue) : ManagedMemory :=
  { s.put s.count ⟨m, false⟩ with count := s.count + 1 }

/-- One that may be copied, or moved from. -/
def source (s : ManagedMemory) (j : Nat) : Option ManagedValue :=
  (s.slots j).bind fun slot => if slot.moved_from then none else some slot.value

/-- What is left of it after a move. -/
def leave (left : LeftBehind) (m : ManagedValue) : ManagedSlot :=
  ⟨{ m with m_obj := left.m_obj m.m_obj, m_realm := left.m_realm m.m_realm }, true⟩

variable (cls : ManagedClass) (left : LeftBehind)

/-- One operation; none where the program may not do it. -/
def step (s : ManagedMemory) : ManagedOp → Option ManagedMemory
  | .construct obj realm =>
      if obj.table = cls.get_table realm then some (s.new (.construct cls s.count obj realm))
      else none
  | .prepare_for_query r q => some (s.new (.prepare_for_query cls s.count r q))
  | .copy j => do
      let other ← s.source j
      let m ← ((ManagedValue.fresh cls).take other).rewire cls s.count
      some (s.new m)
  | .move j => do
      let other ← s.source j
      let m ← ((ManagedValue.fresh cls).take other).rewire cls s.count
      some ((s.new m).put j (leave left other))
  | .assign i j => do
      let target ← s.slots i
      let other ← s.source j
      let m ← (target.value.take other).rewire cls i
      some (s.put i ⟨m, false⟩)
  | .move_assign i j => do
      let target ← s.slots i
      let other ← s.source j
      let m ← (target.value.take other).rewire cls i
      -- what is moved to itself stays
      some (if i = j then s.put i ⟨m, false⟩ else (s.put i ⟨m, false⟩).put j (leave left other))
  | .destroy i => do
      let _ ← s.slots i
      some { s with slots := Function.update s.slots i none }

end ManagedMemory

/-! ## §3. Wired. -/

/-- **The properties are those of the `managed<cls>` at the address `this`**: its realm, the
columns of the class there, its query, and its object if it is in none. -/
structure Wired (cls : ManagedClass) (this : Nat) (m : ManagedValue) : Prop where
  m_realm : ∀ p ∈ m.properties, p.2.m_realm = some this
  m_key : ∀ p ∈ m.properties, ∃ realm, m.m_realm = some realm ∧
    p.2.m_key = some (cls.get_column_key (cls.get_table realm) p.1)
  m_rbool_query : ∀ p ∈ m.properties, p.2.m_rbool_query = m.m_rbool_query
  m_obj : m.m_rbool_query = none → ∀ p ∈ m.properties, p.2.m_obj = some this

/-- **Every one that is there, and was not moved from, is wired.** -/
def AllWired (cls : ManagedClass) (s : ManagedMemory) : Prop :=
  ∀ i slot, s.slots i = some slot → slot.moved_from = false → Wired cls i slot.value

/-- **Where an operation leaves it so**: an object is not assigned to what is in a query. -/
def RewiringMeets (s : ManagedMemory) : ManagedOp → Prop
  | .assign i j | .move_assign i j => ∀ target source, s.slots i = some target →
      s.slots j = some source →
      source.value.m_rbool_query ≠ none ∨ target.value.m_rbool_query = none
  | _ => True

/-! ## §4. What is kept. -/

/-- It has a realm, and unless it is in a query an object of it. -/
structure Sound (cls : ManagedClass) (m : ManagedValue) : Prop where
  m_realm : ∃ realm, m.m_realm = some realm
  m_obj : ∀ realm, m.m_realm = some realm → m.m_rbool_query = none →
    ∃ obj, m.m_obj = some obj ∧ obj.table = cls.get_table realm

/-- What holds of one, also when it was moved from: it has its properties, and they have its
query. -/
structure SlotInvariant (cls : ManagedClass) (i : Nat) (slot : ManagedSlot) : Prop where
  names : slot.value.properties.map Prod.fst = cls.names
  queries : ∀ p ∈ slot.value.properties, p.2.m_rbool_query = slot.value.m_rbool_query
  wired : slot.moved_from = false → Wired cls i slot.value
  sound : slot.moved_from = false → Sound cls slot.value

/-- The invariant of a program. -/
structure MemoryInvariant (cls : ManagedClass) (s : ManagedMemory) : Prop where
  lt_count : ∀ i slot, s.slots i = some slot → i < s.count
  slots : ∀ i slot, s.slots i = some slot → SlotInvariant cls i slot

section Invariants

variable {cls : ManagedClass} {left : LeftBehind} {s s' : ManagedMemory}

theorem MemoryInvariant.allWired (h : MemoryInvariant cls s) : AllWired cls s :=
  fun i slot hslot => (h.slots i slot hslot).wired

/-- `prepare_for_query` sets all that a query needs. -/
theorem wired_prepare_properties {m : ManagedValue} {realm q : Nat} (hrealm : m.m_realm = some realm)
    (hq : m.m_rbool_query = some q) (i : Nat) : Wired cls i (m.prepare_properties cls i realm q) := by
  refine ⟨?_, ?_, ?_, ?_⟩
  · intro p hp
    obtain ⟨p, -, rfl⟩ := List.mem_map.mp hp
    rfl
  · intro p hp
    obtain ⟨p, -, rfl⟩ := List.mem_map.mp hp
    exact ⟨realm, hrealm, rfl⟩
  · intro p hp
    obtain ⟨p, -, rfl⟩ := List.mem_map.mp hp
    exact hq.symm
  · intro hnone
    exact absurd (hq.symm.trans hnone) (by simp)

/-- `assign` leaves the query of a property: it is enough where there was none. -/
theorem wired_assign_properties_iff {m : ManagedValue} {obj : StoredObject} {realm : Nat}
    (hrealm : m.m_realm = some realm) (htable : obj.table = cls.get_table realm)
    (hq : m.m_rbool_query = none) (i : Nat) :
    Wired cls i (m.assign_properties cls i obj) ↔
      ∀ p ∈ m.properties, p.2.m_rbool_query = none := by
  constructor
  · intro hwired p hp
    have hquery := hwired.m_rbool_query _ (List.mem_map_of_mem hp)
    exact hquery.trans hq
  · intro hqueries
    refine ⟨?_, ?_, ?_, ?_⟩
    · intro p hp
      obtain ⟨p, -, rfl⟩ := List.mem_map.mp hp
      rfl
    · intro p hp
      obtain ⟨p, -, rfl⟩ := List.mem_map.mp hp
      refine ⟨realm, hrealm, ?_⟩
      rw [← htable]
      rfl
    · intro p hp
      obtain ⟨b, hb, rfl⟩ := List.mem_map.mp hp
      exact (hqueries b hb).trans hq.symm
    · intro _ p hp
      obtain ⟨p, -, rfl⟩ := List.mem_map.mp hp
      rfl

/-- **What the members come to after the pointers are set**: the properties have the query
if one is set, or if none was set before. -/
theorem rewire_wired_iff {m m' : ManagedValue} {i : Nat} (hm : Sound cls m)
    (h : m.rewire cls i = some m') :
    Sound cls m' ∧ m'.m_rbool_query = m.m_rbool_query ∧
      m'.properties.map Prod.fst = m.properties.map Prod.fst ∧
      (Wired cls i m' ↔
        m.m_rbool_query ≠ none ∨ ∀ p ∈ m.properties, p.2.m_rbool_query = none) := by
  obtain ⟨realm, hrealm⟩ := hm.m_realm
  unfold ManagedValue.rewire at h
  cases hq : m.m_rbool_query with
  | some q =>
    rw [hq, hrealm] at h
    obtain rfl := Option.some.inj h
    refine ⟨⟨hm.m_realm, hm.m_obj⟩, hq, by simp [ManagedValue.prepare_properties], ?_⟩
    exact iff_of_true (wired_prepare_properties hrealm hq i) (.inl (by simp))
  | none =>
    obtain ⟨obj, hobj, htable⟩ := hm.m_obj realm hrealm hq
    rw [hq, hobj] at h
    obtain rfl := Option.some.inj h
    refine ⟨⟨hm.m_realm, hm.m_obj⟩, hq, by simp [ManagedValue.assign_properties], ?_⟩
    rw [wired_assign_properties_iff hrealm htable hq]
    simp

/-- A copy of what is sound is. -/
theorem sound_take {m other : ManagedValue} (h : Sound cls other) : Sound cls (m.take other) :=
  ⟨h.m_realm, h.m_obj⟩

theorem source_eq {j : Nat} {other : ManagedValue} (h : s.source j = some other) :
    s.slots j = some ⟨other, false⟩ := by
  unfold ManagedMemory.source at h
  obtain ⟨slot, hslot, hvalue⟩ := Option.bind_eq_some_iff.mp h
  split at hvalue
  · simp at hvalue
  · next hmoved =>
    rw [hslot, ← Option.some.inj hvalue]
    have hfalse : slot.moved_from = false := by simpa using hmoved
    rw [← hfalse]

/-- **Setting the pointers of one with properties of its own query.** -/
theorem slotInvariant_rewire {target other m : ManagedValue} {i : Nat}
    (hnames : target.properties.map Prod.fst = cls.names)
    (hqueries : ∀ p ∈ target.properties, p.2.m_rbool_query = target.m_rbool_query)
    (hother : Sound cls other) (h : (target.take other).rewire cls i = some m) :
    (Wired cls i m ↔ other.m_rbool_query ≠ none ∨ target.m_rbool_query = none) ∧
      (other.m_rbool_query ≠ none ∨ target.m_rbool_query = none →
        SlotInvariant cls i ⟨m, false⟩) := by
  obtain ⟨hsound, hq, hkeys, hwired⟩ := rewire_wired_iff (sound_take hother) h
  -- there is a property, and so its query says what that of the target was
  obtain ⟨p, hp⟩ : ∃ p, p ∈ target.properties := by
    apply List.exists_mem_of_ne_nil
    intro hnil
    rw [hnil] at hnames
    exact cls.names_ne_nil hnames.symm
  have htarget : (∀ p ∈ (target.take other).properties, p.2.m_rbool_query = none) ↔
      target.m_rbool_query = none := by
    constructor
    · intro hnone
      rw [← hqueries p hp]
      exact hnone p hp
    · intro hnone p' hp'
      exact (hqueries p' hp').trans hnone
  rw [htarget] at hwired
  refine ⟨hwired, fun hmeets => ?_⟩
  have hall := hwired.mpr hmeets
  exact ⟨hkeys.trans hnames, hall.m_rbool_query, fun _ => hall, fun _ => hsound⟩

/-! ## §5. Operations. -/

theorem invariant_put (h : MemoryInvariant cls s) {i : Nat} {slot : ManagedSlot} (hi : i < s.count)
    (hslot : SlotInvariant cls i slot) : MemoryInvariant cls (s.put i slot) where
  lt_count := by
    intro k slot' hk
    by_cases hki : k = i
    · rw [hki]
      exact hi
    · exact h.lt_count k slot' ((Function.update_of_ne hki ..).symm.trans hk)
  slots := by
    intro k slot' hk
    by_cases hki : k = i
    · subst hki
      have hself : (s.put k slot).slots k = some slot := Function.update_self ..
      rw [hself] at hk
      rw [← Option.some.inj hk]
      exact hslot
    · exact h.slots k slot' ((Function.update_of_ne hki ..).symm.trans hk)

/-- One more, at an address that nothing had. -/
theorem invariant_new (h : MemoryInvariant cls s) {m : ManagedValue}
    (hslot : SlotInvariant cls s.count ⟨m, false⟩) : MemoryInvariant cls (s.new m) := by
  have hmore : MemoryInvariant cls { s with count := s.count + 1 } :=
    ⟨fun k slot hk => Nat.lt_succ_of_lt (h.lt_count k slot hk), h.slots⟩
  exact invariant_put hmore (Nat.lt_succ_self _) hslot

/-- What is left of one keeps its properties, and its query. -/
theorem slotInvariant_leave {j : Nat} {other : ManagedValue}
    (h : SlotInvariant cls j ⟨other, false⟩) :
    SlotInvariant cls j (ManagedMemory.leave left other) :=
  ⟨h.names, h.queries, fun hfalse => by simp [ManagedMemory.leave] at hfalse,
    fun hfalse => by simp [ManagedMemory.leave] at hfalse⟩

theorem fresh_names (cls : ManagedClass) :
    (ManagedValue.fresh cls).properties.map Prod.fst = cls.names := by
  simp [ManagedValue.fresh, Function.comp_def]

theorem fresh_queries (cls : ManagedClass) :
    ∀ p ∈ (ManagedValue.fresh cls).properties, p.2.m_rbool_query = none := by
  intro p hp
  obtain ⟨name, -, rfl⟩ := List.mem_map.mp hp
  rfl

/-- A new one, from the pointers of what it is made of. -/
theorem slotInvariant_fresh {other m : ManagedValue} {i : Nat} (hother : Sound cls other)
    (h : ((ManagedValue.fresh cls).take other).rewire cls i = some m) :
    SlotInvariant cls i ⟨m, false⟩ :=
  (slotInvariant_rewire (fresh_names cls) (fresh_queries cls) hother h).2 (.inr rfl)

/-- An object that is stored in the realm. -/
theorem slotInvariant_construct {obj : StoredObject} {realm : Nat}
    (h : obj.table = cls.get_table realm) (i : Nat) :
    SlotInvariant cls i ⟨.construct cls i obj realm, false⟩ := by
  have hother : Sound cls ⟨some obj, some realm, none, []⟩ :=
    ⟨⟨realm, rfl⟩, fun r hr _ => ⟨obj, rfl, by rw [h, ← Option.some.inj hr]⟩⟩
  exact slotInvariant_fresh hother rfl

theorem slotInvariant_prepare (cls : ManagedClass) (i r q : Nat) :
    SlotInvariant cls i ⟨.prepare_for_query cls i r q, false⟩ := by
  have hother : Sound cls ⟨none, some r, some q, []⟩ :=
    ⟨⟨r, rfl⟩, fun _ _ hnone => absurd hnone (by simp)⟩
  exact slotInvariant_fresh hother rfl

/-- An assignment, of either form, sets the pointers of its target. -/
theorem invariant_assign (h : MemoryInvariant cls s) {i j : Nat} {target : ManagedSlot}
    {other m : ManagedValue} (htarget : s.slots i = some target) (hother : s.source j = some other)
    (hm : (target.value.take other).rewire cls i = some m) :
    (Wired cls i m ↔ RewiringMeets s (.assign i j)) ∧
      (RewiringMeets s (.assign i j) → MemoryInvariant cls (s.put i ⟨m, false⟩)) := by
  have hslot := h.slots i target htarget
  have hsource := source_eq hother
  have hmeets : RewiringMeets s (.assign i j) ↔
      other.m_rbool_query ≠ none ∨ target.value.m_rbool_query = none := by
    constructor
    · intro hall
      exact hall target ⟨other, false⟩ htarget hsource
    · intro hor target' source' ht hs
      rw [htarget] at ht
      rw [hsource] at hs
      rw [← Option.some.inj ht, ← Option.some.inj hs]
      exact hor
  obtain ⟨hwired, hinvariant⟩ := slotInvariant_rewire hslot.names hslot.queries
    ((h.slots j _ hsource).sound rfl) hm
  rw [hmeets]
  exact ⟨hwired, fun hor => invariant_put h (h.lt_count i target htarget) (hinvariant hor)⟩

/-- After an assignment every one is wired just where its target is. -/
theorem allWired_assign_iff {i : Nat} {m : ManagedValue} {meets : Prop}
    (hm : s'.slots i = some ⟨m, false⟩) (hwired : Wired cls i m ↔ meets)
    (hinvariant : meets → MemoryInvariant cls s') :
    (AllWired cls s' ↔ meets) ∧ (meets → MemoryInvariant cls s') := by
  refine ⟨⟨fun hall => hwired.mp (hall i ⟨m, false⟩ hm rfl), fun hmeets => ?_⟩, hinvariant⟩
  exact (hinvariant hmeets).allWired

/-- **An operation leaves every one wired just where it meets what it needs**, and then the
invariant holds as well. -/
theorem step_wired_iff (h : MemoryInvariant cls s) (op : ManagedOp)
    (hs' : s.step cls left op = some s') :
    (AllWired cls s' ↔ RewiringMeets s op) ∧ (RewiringMeets s op → MemoryInvariant cls s') := by
  -- where the invariant holds after all, there is nothing to meet
  have hkept : MemoryInvariant cls s' → RewiringMeets s op →
      (AllWired cls s' ↔ RewiringMeets s op) ∧ (RewiringMeets s op → MemoryInvariant cls s') :=
    fun hinvariant hmeets => ⟨iff_of_true hinvariant.allWired hmeets, fun _ => hinvariant⟩
  cases op with
  | construct obj realm =>
    simp only [ManagedMemory.step] at hs'
    split at hs'
    · next htable =>
      obtain rfl := Option.some.inj hs'
      exact hkept (invariant_new h (slotInvariant_construct htable s.count)) trivial
    · simp at hs'
  | prepare_for_query r q =>
    obtain rfl := Option.some.inj hs'
    exact hkept (invariant_new h (slotInvariant_prepare cls s.count r q)) trivial
  | copy j =>
    obtain ⟨other, hother, hrest⟩ := Option.bind_eq_some_iff.mp hs'
    obtain ⟨m, hm, hlast⟩ := Option.bind_eq_some_iff.mp hrest
    obtain rfl := Option.some.inj hlast
    have hsound := (h.slots j _ (source_eq hother)).sound rfl
    exact hkept (invariant_new h (slotInvariant_fresh hsound hm)) trivial
  | move j =>
    obtain ⟨other, hother, hrest⟩ := Option.bind_eq_some_iff.mp hs'
    obtain ⟨m, hm, hlast⟩ := Option.bind_eq_some_iff.mp hrest
    obtain rfl := Option.some.inj hlast
    have hslot := h.slots j _ (source_eq hother)
    have hnew := invariant_new h (slotInvariant_fresh (hslot.sound rfl) hm)
    have hj : j < s.count := h.lt_count j _ (source_eq hother)
    exact hkept (invariant_put hnew (Nat.lt_succ_of_lt hj) (slotInvariant_leave hslot)) trivial
  | assign i j =>
    obtain ⟨target, htarget, hrest⟩ := Option.bind_eq_some_iff.mp hs'
    obtain ⟨other, hother, hrest⟩ := Option.bind_eq_some_iff.mp hrest
    obtain ⟨m, hm, hlast⟩ := Option.bind_eq_some_iff.mp hrest
    obtain rfl := Option.some.inj hlast
    obtain ⟨hwired, hinvariant⟩ := invariant_assign h htarget hother hm
    exact allWired_assign_iff (Function.update_self ..) hwired hinvariant
  | move_assign i j =>
    obtain ⟨target, htarget, hrest⟩ := Option.bind_eq_some_iff.mp hs'
    obtain ⟨other, hother, hrest⟩ := Option.bind_eq_some_iff.mp hrest
    obtain ⟨m, hm, hlast⟩ := Option.bind_eq_some_iff.mp hrest
    obtain ⟨hwired, hinvariant⟩ := invariant_assign h htarget hother hm
    have hlast := Option.some.inj hlast
    by_cases hij : i = j
    · rw [if_pos hij] at hlast
      subst hlast
      exact allWired_assign_iff (Function.update_self ..) hwired hinvariant
    · rw [if_neg hij] at hlast
      subst hlast
      have hsource := source_eq hother
      -- what is left of the source is at another address
      refine allWired_assign_iff ?_ hwired fun hmeets => ?_
      · exact (Function.update_of_ne hij ..).trans (Function.update_self ..)
      · exact invariant_put (hinvariant hmeets) (h.lt_count j _ hsource)
          (slotInvariant_leave (h.slots j _ hsource))
  | destroy i =>
    obtain ⟨slot, -, hlast⟩ := Option.bind_eq_some_iff.mp hs'
    obtain rfl := Option.some.inj hlast
    have hrest : ∀ k slot', Function.update s.slots i none k = some slot' →
        s.slots k = some slot' := by
      intro k slot' hk
      by_cases hki : k = i
      · simp [hki] at hk
      · exact (Function.update_of_ne hki ..).symm.trans hk
    exact hkept ⟨fun k slot' hk => h.lt_count k slot' (hrest k slot' hk),
      fun k slot' hk => h.slots k slot' (hrest k slot' hk)⟩ trivial

end Invariants

/-! ## §6. Programs. -/

section Programs

variable (cls : ManagedClass) (left : LeftBehind)

/-- All are wired in every state that is reached. -/
def WiredAlong : List ManagedOp → ManagedMemory → Prop
  | [], s => AllWired cls s
  | op :: ops, s => AllWired cls s ∧ ∀ s', s.step cls left op = some s' → WiredAlong ops s'

/-- Every operation that is done meets what it needs. -/
def MeetsAlong : List ManagedOp → ManagedMemory → Prop
  | [], _ => True
  | op :: ops, s => ∀ s', s.step cls left op = some s' → RewiringMeets s op ∧ MeetsAlong ops s'

theorem wiredAlong_head {ops : List ManagedOp} {s : ManagedMemory}
    (h : WiredAlong cls left ops s) : AllWired cls s := by
  cases ops with
  | nil => exact h
  | cons op ops => exact h.1

/-- From any state with the invariant. -/
theorem wiredAlong_iff {s : ManagedMemory} (h : MemoryInvariant cls s) (ops : List ManagedOp) :
    WiredAlong cls left ops s ↔ MeetsAlong cls left ops s := by
  induction ops generalizing s with
  | nil => exact iff_of_true h.allWired trivial
  | cons op ops ih =>
    constructor
    · intro hwired s' hs'
      obtain ⟨hiff, hinvariant⟩ := step_wired_iff h op hs'
      have hrest := hwired.2 s' hs'
      -- the first state of the rest is the one after the operation
      have hmeets := hiff.mp (wiredAlong_head cls left hrest)
      exact ⟨hmeets, (ih (hinvariant hmeets)).mp hrest⟩
    · intro hmeets
      refine ⟨h.allWired, fun s' hs' => ?_⟩
      obtain ⟨hmeet, hrest⟩ := hmeets s' hs'
      exact (ih ((step_wired_iff h op hs').2 hmeet)).mpr hrest

/-- A program before its first operation. -/
def ManagedMemory.start : ManagedMemory := ⟨0, fun _ => none⟩

theorem invariant_start : MemoryInvariant cls .start :=
  ⟨fun _ _ h => absurd h (by simp [ManagedMemory.start]),
    fun _ _ h => absurd h (by simp [ManagedMemory.start])⟩

/-- **Copies stay wired to themselves, in every state that a program reaches, just where no
object is assigned to what is in a query.** -/
theorem wired_along_iff (ops : List ManagedOp) :
    WiredAlong cls left ops .start ↔ MeetsAlong cls left ops .start :=
  wiredAlong_iff cls left (invariant_start cls) ops

end Programs

/-- A class with one property. -/
def one_property : ManagedClass := ⟨["name"], by simp, id, fun _ _ => ⟨0⟩⟩

/-- Null pointers are left. -/
def null_left : LeftBehind := ⟨fun _ => none, fun _ => none⟩

/-- **An object is assigned to a `managed<cls>` of a query**: its property stays in the
query. -/
theorem stale_query :
    ¬ WiredAlong one_property null_left
      [.construct ⟨0, ⟨1⟩⟩ 0, .prepare_for_query 0 7, .assign 1 0] .start := by
  rw [wiredAlong_iff one_property null_left (invariant_start one_property)]
  intro h
  -- the assignment is the third operation
  have hmeets := (((h _ rfl).2 _ rfl).2 _ rfl).1 _ _ rfl rfl
  rcases hmeets with hmeets | hmeets
  · exact hmeets rfl
  · simp [ManagedValue.prepare_for_query, ManagedValue.prepare_properties] at hmeets

end RealmCpp.Managed
