/-
  RealmCpp.Managed.StorableValues
  ───────────────────────────────
  **VALUES STORED AS `mixed`, AND READ BACK.**

  `serialize` turns a value of a storable type into one that a `bridge::mixed` is
  made from, `deserialize` reads a `bridge::mixed` as a value of the type.  The
  iterators of managed sets and maps read their elements with it.

    • `Alternative`, `ValueType`, `StorableType` — the types, and their values,
    • `serialize`, `deserialize` — the two directions, for each of them,
    • `deserialize_iff` — when a value comes back,
    • `values_survive_iff` — also after copies and moves, and from sets and maps.
-/
import RealmCpp.Bridge.Mixed
import RealmCpp.Library.Assoc
import RealmCpp.Library.StdSet
import RealmCpp.Library.Traversal
import RealmCpp.Managed.ScalarAgreement

namespace RealmCpp.Managed

open RealmCpp.Library
open RealmCpp.Core
open RealmCpp.Bridge

/-! ## §1. Types and values. -/

/-- Bytes of a fixed number. -/
abbrev Bytes (n : Nat) := { bytes : List UInt8 // bytes.length = n }

/-- The alternatives of `realm::mixed` that hold a value. -/
inductive Alternative where
  | int64 | bool | string | double | binary | time_point | uuid | object_id | decimal128
  deriving DecidableEq, Repr

/-- The values: of a `double` and a `decimal128` the bits, of a `time_point` the
ticks. -/
def Alternative.Value : Alternative → Type
  | int64 => Integral .int64
  | bool => Bool
  | string => String
  | double => UInt64
  | binary => List UInt8
  | time_point => Int
  | uuid => Bytes 16
  | object_id => Bytes 12
  | decimal128 => UInt64 × UInt64

/-- An alternative, or an enumeration over an integral type. -/
inductive ValueType where
  | alternative (a : Alternative)
  | enum (E : IntegralType)
  deriving DecidableEq, Repr

def ValueType.Value : ValueType → Type
  | alternative a => a.Value
  | enum E => Integral E

/-- The storable types; `mixed` is `realm::mixed`. -/
inductive StorableType where
  | value (t : ValueType)
  | optional (t : ValueType)
  | mixed
  deriving DecidableEq, Repr

/-- The values; `std::monostate` is none. -/
def StorableType.Value : StorableType → Type
  | value t => t.Value
  | optional t => Option t.Value
  | mixed => Option (Σ a : Alternative, a.Value)

/-- **What the core converts**: identifiers and decimals to text and back, times to
seconds and nanoseconds and back. -/
structure CoreConversions where
  uuid_to_string : Bytes 16 → String
  uuid_of_string : String → Bytes 16
  uuid_of_to_string : ∀ bytes, uuid_of_string (uuid_to_string bytes) = bytes
  object_id_to_string : Bytes 12 → String
  object_id_of_string : String → Bytes 12
  object_id_of_to_string : ∀ bytes, object_id_of_string (object_id_to_string bytes) = bytes
  decimal_to_string : UInt64 × UInt64 → String
  decimal_of_string : String → UInt64 × UInt64
  timestamp : Int → Int × Int
  get_time_point : Int × Int → Int
  get_time_point_timestamp : ∀ tp, get_time_point (timestamp tp) = tp

/-! ## §2. `serialize`. -/

section Serialize

variable (K : CoreConversions)

/-- `bridge::decimal128(const realm::decimal128&)`, which goes through the text. -/
def CoreConversions.decimal128 (v : UInt64 × UInt64) : UInt64 × UInt64 :=
  K.decimal_of_string (K.decimal_to_string v)

/-- `serialize` of an alternative, and the constructors of the bridge types. -/
def Alternative.serialize : (a : Alternative) → a.Value → Mixed
  | int64, v => .int v.value
  | bool, v => .bool v
  | string, v => .string v
  | double, v => .double v
  | binary, v => .binary v
  | time_point, tp => .timestamp (K.timestamp tp).1 (K.timestamp tp).2
  | uuid, v => .uuid (K.uuid_of_string (K.uuid_to_string v)).val
  | object_id, v => .object_id (K.object_id_of_string (K.object_id_to_string v)).val
  | decimal128, v => .decimal128 (K.decimal128 v).1 (K.decimal128 v).2

def ValueType.serialize : (t : ValueType) → t.Value → Mixed
  | alternative a, v => a.serialize K v
  | enum _, v => .int (cast_int64 v.value)

/-- What a `bridge::mixed` made from `serialize(v)` holds. -/
def StorableType.serialize : (T : StorableType) → T.Value → Mixed
  | value t, v => t.serialize K v
  | optional _, none => .null
  | optional t, some v => t.serialize K v
  | mixed, none => .null
  | mixed, some ⟨a, v⟩ => a.serialize K v

/-- The `bridge::mixed` is constructed as object `i`. -/
def StorableType.make (i : Nat) : (T : StorableType) → T.Value → MixedOp
  | value t, v => .construct i (t.serialize K v)
  | optional t, o => .construct_optional i (o.map (t.serialize K))
  | mixed, none => .construct i .null
  | mixed, some ⟨a, v⟩ => .construct i (a.serialize K v)

theorem StorableType.meant_make (i : Nat) (T : StorableType) (v : T.Value) (g : Nat → Meant) :
    MixedOp.meant g (T.make K i v) i = .value (T.serialize K v) := by
  cases T with
  | value t => exact Function.update_self ..
  | optional t => cases v <;> exact Function.update_self ..
  | mixed => cases v <;> exact Function.update_self ..

end Serialize

/-! ## §3. `deserialize`. -/

/-- The bytes of an identifier. -/
def toBytes (n : Nat) (bytes : List UInt8) : Option (Bytes n) :=
  if h : bytes.length = n then some ⟨bytes, h⟩ else none

section Deserialize

variable (K : CoreConversions)

/-- The conversions of `bridge::mixed`; none where the core value is of another
type.  Strings and binaries are read without a look at it. -/
def Alternative.deserialize : (a : Alternative) → BridgeMixed → Option a.Value
  | int64, b =>
      match b.m_mixed with
      | some (.int v) => some (Integral.static_cast .int64 v)
      | _ => none
  | bool, b =>
      match b.m_mixed with
      | some (.bool v) => some v
      | _ => none
  | string, b => some b.m_owned_string
  | double, b =>
      match b.m_mixed with
      | some (.double bits) => some bits
      | _ => none
  | binary, b => some (b.m_owned_data.getD [])
  | time_point, b =>
      match b.m_mixed with
      | some (.timestamp seconds nanoseconds) => some (K.get_time_point (seconds, nanoseconds))
      | _ => none
  | uuid, b =>
      match b.m_mixed with
      | some (.uuid bytes) => toBytes 16 bytes
      | _ => none
  | object_id, b =>
      match b.m_mixed with
      | some (.object_id bytes) => toBytes 12 bytes
      | _ => none
  | decimal128, b =>
      match b.m_mixed with
      | some (.decimal128 low high) => some (low, high)
      | _ => none

def ValueType.deserialize : (t : ValueType) → BridgeMixed → Option t.Value
  | alternative a, b => a.deserialize K b
  | enum E, b => (Alternative.int64.deserialize K b).map fun v => Integral.static_cast E v.value

/-- `deserialize<realm::mixed>` of what is not null, by its type; links and other
types raise. -/
def deserialize_type (b : BridgeMixed) : DataType → Option (Σ a : Alternative, a.Value)
  | .int => (Alternative.int64.deserialize K b).map (⟨.int64, ·⟩)
  | .bool => (Alternative.bool.deserialize K b).map (⟨.bool, ·⟩)
  | .string => (Alternative.string.deserialize K b).map (⟨.string, ·⟩)
  | .binary => (Alternative.binary.deserialize K b).map (⟨.binary, ·⟩)
  | .timestamp => (Alternative.time_point.deserialize K b).map (⟨.time_point, ·⟩)
  | .double => (Alternative.double.deserialize K b).map (⟨.double, ·⟩)
  | .uuid => (Alternative.uuid.deserialize K b).map (⟨.uuid, ·⟩)
  | .object_id => (Alternative.object_id.deserialize K b).map (⟨.object_id, ·⟩)
  | .decimal128 => (Alternative.decimal128.deserialize K b).map (⟨.decimal128, ·⟩)
  | .link | .mixed => none

/-- `deserialize<T>`. -/
def StorableType.deserialize : (T : StorableType) → BridgeMixed → Option T.Value
  | value t, b => t.deserialize K b
  -- the branch of `is_optional` looks at nothing
  | optional _, _ => some none
  | mixed, b => do
      if ← b.is_null then some none
      else (deserialize_type K b (← b.type)).map some

end Deserialize

/-! ## §4. What comes back. -/

section Kept

variable (K : CoreConversions)

/-- The value is not changed on its way through the core's text. -/
def Alternative.Kept : (a : Alternative) → a.Value → Prop
  | decimal128, v => K.decimal128 v = v
  | _, _ => True

def ValueType.Kept : (t : ValueType) → t.Value → Prop
  | alternative a, v => a.Kept K v
  | enum _, _ => True

/-- **The values that come back**: of an optional type the empty one only. -/
def StorableType.Kept : (T : StorableType) → T.Value → Prop
  | value t, v => t.Kept K v
  | optional _, v => v = none
  | mixed, none => True
  | mixed, some ⟨a, v⟩ => a.Kept K v

theorem Integral.static_cast_value {T : IntegralType} {n : Int} {v : Integral T}
    (h : T.static_cast n = v.value) : Integral.static_cast T n = v :=
  Integral.value_inj.mp h

theorem toBytes_val {n : Nat} (v : Bytes n) : toBytes n v.val = some v := by
  unfold toBytes
  rw [dif_pos v.property]

/-- An `int64_t` is stored as it is. -/
theorem deserialize_int64 {b : BridgeMixed} {n : Int} (hb : b.Holds (.int (cast_int64 n))) :
    Alternative.int64.deserialize K b = some (Integral.static_cast .int64 (cast_int64 n)) := by
  simp only [Alternative.deserialize]
  rw [hb.m_mixed]
  rfl

theorem Alternative.deserialize_iff (a : Alternative) (v : a.Value) {b : BridgeMixed}
    (hb : b.Holds (a.serialize K v)) : a.deserialize K b = some v ↔ a.Kept K v := by
  have hmixed := hb.m_mixed
  cases a with
  | decimal128 =>
    simp only [Alternative.deserialize, Alternative.Kept]
    rw [hmixed]
    exact Option.some_inj
  | string =>
    -- what the core value has of it is not read
    exact iff_of_true (congrArg some (hb.m_owned_string v rfl)) trivial
  | binary =>
    refine iff_of_true ?_ trivial
    simp only [Alternative.deserialize]
    rw [hb.m_owned_data v rfl]
    rfl
  | int64 =>
    refine iff_of_true ?_ trivial
    simp only [Alternative.deserialize]
    rw [hmixed]
    -- the value is in range, so that the conversion does nothing
    exact congrArg some (Integral.static_cast_value
      (cast_int64_of_le (n := v.value) v.inRange.1 v.inRange.2))
  | time_point =>
    refine iff_of_true ?_ trivial
    simp only [Alternative.deserialize]
    rw [hmixed]
    exact congrArg some (K.get_time_point_timestamp v)
  | uuid =>
    refine iff_of_true ?_ trivial
    simp only [Alternative.deserialize]
    rw [hmixed]
    exact (congrArg (fun bytes => toBytes 16 bytes.val) (K.uuid_of_to_string v)).trans
      (toBytes_val (n := 16) v)
  | object_id =>
    refine iff_of_true ?_ trivial
    simp only [Alternative.deserialize]
    rw [hmixed]
    exact (congrArg (fun bytes => toBytes 12 bytes.val) (K.object_id_of_to_string v)).trans
      (toBytes_val (n := 12) v)
  | bool | double =>
    refine iff_of_true ?_ trivial
    simp only [Alternative.deserialize]
    rw [hmixed]
    rfl

theorem ValueType.deserialize_iff (t : ValueType) (v : t.Value) {b : BridgeMixed}
    (hb : b.Holds (t.serialize K v)) : t.deserialize K b = some v ↔ t.Kept K v := by
  cases t with
  | alternative a => exact a.deserialize_iff K v hb
  | enum E =>
    refine iff_of_true ?_ trivial
    simp only [ValueType.deserialize]
    rw [deserialize_int64 K hb]
    -- the second conversion to `int64_t` does nothing
    have hrange := (Integral.static_cast .int64 v.value).inRange
    have hcast : cast_int64 (cast_int64 v.value) = cast_int64 v.value :=
      cast_int64_of_le hrange.1 hrange.2
    exact congrArg some (Integral.static_cast_value
      ((congrArg E.static_cast hcast).trans (IntegralType.static_cast_cast_int64 v)))

/-- The type switch finds the alternative that was stored. -/
theorem deserialize_type_eq (a : Alternative) (v : a.Value) {b : BridgeMixed}
    (hb : b.Holds (a.serialize K v)) :
    b.is_null = some false ∧
      b.type.bind (deserialize_type K b) = (a.deserialize K b).map (⟨a, ·⟩) := by
  have hmixed := hb.m_mixed
  unfold BridgeMixed.is_null BridgeMixed.type
  rw [hmixed]
  cases a <;> exact ⟨rfl, rfl⟩

/-- **When a value comes back** from an object that holds what was stored of it. -/
theorem StorableType.deserialize_iff (T : StorableType) (v : T.Value) {b : BridgeMixed}
    (hb : b.Holds (T.serialize K v)) : T.deserialize K b = some v ↔ T.Kept K v := by
  cases T with
  | value t => exact t.deserialize_iff K v hb
  | optional t =>
    -- whatever is stored, what is read is empty
    exact Option.some_inj.trans eq_comm
  | mixed =>
    cases v with
    | none =>
      refine iff_of_true ?_ trivial
      simp only [StorableType.deserialize, BridgeMixed.is_null, hb.m_mixed]
      rfl
    | some w =>
      obtain ⟨a, v⟩ := w
      obtain ⟨hnull, htype⟩ := deserialize_type_eq K a v hb
      have hread : StorableType.deserialize K .mixed b
          = ((a.deserialize K b).map (⟨a, ·⟩)).map some := by
        rw [← htype]
        simp only [StorableType.deserialize, hnull]
        cases b.type <;> rfl
      rw [hread]
      show _ ↔ a.Kept K v
      rw [← a.deserialize_iff K v hb]
      constructor
      · intro h
        cases ho : a.deserialize K b with
        | none =>
          rw [ho] at h
          cases h
        | some w =>
          rw [ho] at h
          cases h
          rfl
      · intro h
        rw [h]
        rfl

end Kept

/-! ## §5. Copies, moves and assignments. -/

section ReadBack

variable (m : Storage) (moved : String → String) (K : CoreConversions) (T : StorableType)

/-- **`v` is read back from every object that holds what `serialize` makes of it**,
after any legal program: of constructors, copies, moves and assignments. -/
def ReadBack (v : T.Value) : Prop :=
  ∀ ops i, MixedOp.LegalProgram (fun _ => .absent) ops →
    MixedOp.meantAfter (fun _ => .absent) ops i = .value (T.serialize K v) →
    ∃ s b, MixedOp.run m moved (fun _ => none) ops = some s ∧ s i = some b ∧
      T.deserialize K b = some v

theorem legal_make (i : Nat) (v : T.Value) (g : Nat → Meant) : (T.make K i v).Legal g := by
  cases T with
  | value t => trivial
  | optional t => trivial
  | mixed => cases v <;> trivial

/-- The object that a legal program leaves holds what it is meant to. -/
theorem exists_holds {ops : List MixedOp} (hops : MixedOp.LegalProgram (fun _ => .absent) ops)
    {i : Nat} {v : Mixed} (hi : MixedOp.meantAfter (fun _ => .absent) ops i = .value v) :
    ∃ s b, MixedOp.run m moved (fun _ => none) ops = some s ∧ s i = some b ∧ b.Holds v := by
  have hrun : ∃ s, MixedOp.run m moved (fun _ => none) ops = some s :=
    exists_mixed_run ops agree_start hops
  obtain ⟨s, hs⟩ := hrun
  have hagree := run_agree ops agree_start hs
  obtain ⟨b, hb⟩ := hagree.present i (by rw [hi]; exact Meant.noConfusion)
  exact ⟨s, b, hs, hb, hagree.holds i v b hi hb⟩

theorem readBack_iff (v : T.Value) : ReadBack m moved K T v ↔ T.Kept K v := by
  constructor
  · intro h
    -- the object is only constructed
    have hops : MixedOp.LegalProgram (fun _ => .absent) [T.make K 0 v] :=
      ⟨legal_make K T 0 v _, trivial⟩
    have hmeant := T.meant_make K 0 v fun _ => .absent
    obtain ⟨s, b, hs, hb, hread⟩ := h _ 0 hops hmeant
    obtain ⟨s', b', hs', hb', hholds⟩ := exists_holds m moved hops hmeant
    rw [hs'] at hs
    cases hs
    rw [hb'] at hb
    cases hb
    exact (T.deserialize_iff K v hholds).mp hread
  · intro h ops i hops hi
    obtain ⟨s, b, hs, hb, hholds⟩ := exists_holds m moved hops hi
    exact ⟨s, b, hs, hb, (T.deserialize_iff K v hholds).mpr h⟩

end ReadBack

/-! ## §6. Managed sets and maps. -/

section Collections

variable (m : Storage) (K : CoreConversions) (T : StorableType)

/-- `deserialize<T>` of the `bridge::mixed` made from a core value. -/
def StorableType.read (v : Mixed) : Option T.Value := T.deserialize K (.of_core m v)

theorem StorableType.read_iff (v : T.Value) :
    T.read m K (T.serialize K v) = some v ↔ T.Kept K v :=
  T.deserialize_iff K v (BridgeMixed.holds_of_core m _)

/-- The elements `*it` of a managed set, from `begin()` to `end()`. -/
def set_elements (stored : List Mixed) : Option (List T.Value) := stored.mapM (T.read m K)

/-- `managed<std::set<T>>::detach`; `less` is `std::less<T>`. -/
def set_detach (less : T.Value → T.Value → Bool) (stored : List Mixed) :
    Option (List T.Value) :=
  (set_elements m K T stored).map (std_set less)

/-- The pairs `*it` of a managed map, from `begin()` to `end()`. -/
def map_elements (stored : List (String × Mixed)) : Option (List (String × T.Value)) :=
  stored.mapM fun e => (T.read m K e.2).map (e.1, ·)

/-- `managed<std::map<std::string, T>>::detach`. -/
def map_detach (stored : List (String × Mixed)) : Option (List (String × T.Value)) :=
  (map_elements m K T stored).map fun es => es.foldl (fun ret e => put ret e.1 e.2) []

/-- What a managed set of the values stores. -/
def stored_set (vs : List T.Value) : List Mixed := vs.map (T.serialize K)

/-- What a managed map of the values stores. -/
def stored_map (es : List (String × T.Value)) : List (String × Mixed) :=
  es.map fun e => (e.1, T.serialize K e.2)

theorem set_elements_iff (vs : List T.Value) :
    set_elements m K T (stored_set K T vs) = some vs ↔ ∀ v ∈ vs, T.Kept K v := by
  unfold set_elements stored_set
  rw [mapM_map_eq_some_iff]
  exact forall₂_congr fun v _ => T.read_iff m K v

theorem set_detach_iff (less : T.Value → T.Value → Bool) (vs : List T.Value) :
    set_detach m K T less (stored_set K T vs) = some vs ↔
      (∀ v ∈ vs, T.Kept K v) ∧ vs.Pairwise (ToldApart less) := by
  rw [← set_elements_iff m K T vs, ← std_set_eq_iff]
  unfold set_detach
  rw [Option.map_eq_some_iff]
  constructor
  · intro ⟨ws, hws, hset⟩
    -- as many elements as values, so that none was left out
    have hlength : ws.length = vs.length := by
      rw [length_of_mapM hws, stored_set, List.length_map]
    have hwhole : std_set less ws = ws :=
      (std_set_sublist less ws).eq_of_length (by rw [hset, hlength])
    have heq : ws = vs := hwhole.symm.trans hset
    rw [heq] at hws hset
    exact ⟨hws, hset⟩
  · intro ⟨hvs, hset⟩
    exact ⟨vs, hvs, hset⟩

theorem map_elements_iff (es : List (String × T.Value)) :
    map_elements m K T (stored_map K T es) = some es ↔ ∀ e ∈ es, T.Kept K e.2 := by
  unfold map_elements stored_map
  rw [mapM_map_eq_some_iff]
  refine forall₂_congr fun e _ => ?_
  rw [← T.read_iff m K e.2]
  show (T.read m K (T.serialize K e.2)).map (e.1, ·) = some e ↔ _
  rw [Option.map_eq_some_iff]
  exact ⟨fun ⟨v, hv, he⟩ => by rw [hv, ← he], fun h => ⟨e.2, h, rfl⟩⟩

/-- Pairs with keys that do not repeat are all written. -/
theorem foldl_put {β : Type} {l es : List (String × β)}
    (h : ((l ++ es).map Prod.fst).Nodup) :
    es.foldl (fun ret e => put ret e.1 e.2) l = l ++ es := by
  induction es generalizing l with
  | nil => simp
  | cons e es ih =>
    -- the key is not among those before
    have hput : put l e.1 e.2 = l ++ [e] := by
      apply put_of_not_mem
      intro hmem
      rw [List.map_append, List.map_cons, List.nodup_append] at h
      exact h.2.2 e.1 hmem e.1 List.mem_cons_self rfl
    rw [List.foldl_cons, hput, ih (by simpa using h)]
    simp

/-- Entries of a dictionary; no key is there twice. -/
structure DictionaryEntries (α : Type) where
  entries : List (String × α)
  nodup : (entries.map Prod.fst).Nodup

theorem map_detach_iff (es : DictionaryEntries T.Value) :
    map_detach m K T (stored_map K T es.entries) = some es.entries ↔
      ∀ e ∈ es.entries, T.Kept K e.2 := by
  have hwhole : ∀ {ds : List (String × T.Value)}, (ds.map Prod.fst).Nodup →
      ds.foldl (fun ret e => put ret e.1 e.2) [] = ds := fun h => foldl_put (l := []) h
  rw [← map_elements_iff m K T es.entries]
  unfold map_detach
  rw [Option.map_eq_some_iff]
  constructor
  · intro ⟨ds, hds, hdetach⟩
    -- the keys come as they are, and so each pair is written
    have hkeys : ds.map Prod.fst = es.entries.map Prod.fst := by
      have hpairs := mapM_eq_some_iff.mp hds
      rw [stored_map, List.forall₂_map_left_iff] at hpairs
      refine names_eq_of_forall₂ (Q := fun _ _ => True) (hpairs.imp fun e d hd => ?_)
      obtain ⟨v, -, rfl⟩ := Option.map_eq_some_iff.mp hd
      exact ⟨rfl, trivial⟩
    rw [hwhole (hkeys ▸ es.nodup)] at hdetach
    rw [hds, hdetach]
  · intro h
    exact ⟨es.entries, h, hwhole es.nodup⟩

/-- **Values survive** just when they are kept: one that is stored as a
`bridge::mixed` that is copied, moved and assigned, and those of a managed set or
map that is iterated over and detached.  A detached set has also to tell them
apart. -/
theorem values_survive_iff (moved : String → String) (less : T.Value → T.Value → Bool) :
    (∀ v, ReadBack m moved K T v ↔ T.Kept K v) ∧
    (∀ vs, (set_elements m K T (stored_set K T vs) = some vs ∧
        set_detach m K T less (stored_set K T vs) = some vs) ↔
      (∀ v ∈ vs, T.Kept K v) ∧ vs.Pairwise (ToldApart less)) ∧
    (∀ es : DictionaryEntries T.Value,
      (map_elements m K T (stored_map K T es.entries) = some es.entries ∧
        map_detach m K T (stored_map K T es.entries) = some es.entries) ↔
      ∀ e ∈ es.entries, T.Kept K e.2) := by
  refine ⟨readBack_iff m moved K T, fun vs => ?_, fun es => ?_⟩
  · rw [set_elements_iff, set_detach_iff]
    exact ⟨fun h => h.2, fun h => ⟨h.1, h⟩⟩
  · rw [map_elements_iff, map_detach_iff, and_self]

end Collections

/-! ## §7. A stored optional. -/

/-- Bytes as characters. -/
def text_of_bytes (bytes : List UInt8) : String :=
  .ofList (bytes.map fun b => Char.ofNat b.toNat)

def bytes_of_text (n : Nat) (text : String) : Bytes n :=
  (toBytes n (text.toList.map fun c => UInt8.ofNat c.toNat)).getD
    ⟨List.replicate n 0, List.length_replicate⟩

theorem bytes_of_text_of_bytes {n : Nat} (bytes : Bytes n) :
    bytes_of_text n (text_of_bytes bytes.val) = bytes := by
  have hbyte : ∀ b : UInt8, UInt8.ofNat (Char.ofNat b.toNat).toNat = b := by
    intro b
    have hlt := b.toNat_lt
    have hvalid : b.toNat.isValidChar := Or.inl (by omega)
    rw [Char.ofNat, dif_pos hvalid]
    exact UInt8.ofNat_toNat
  unfold bytes_of_text text_of_bytes
  rw [String.toList_ofList, List.map_map]
  have hmap : bytes.val.map ((fun c => UInt8.ofNat c.toNat) ∘ fun b => Char.ofNat b.toNat)
      = bytes.val := by
    simp [Function.comp_def, hbyte]
  rw [hmap, toBytes_val]
  rfl

/-- Conversions through the characters of the bytes; a decimal is an integer. -/
def plain_conversions : CoreConversions where
  uuid_to_string bytes := text_of_bytes bytes.val
  uuid_of_string := bytes_of_text 16
  uuid_of_to_string := bytes_of_text_of_bytes
  object_id_to_string bytes := text_of_bytes bytes.val
  object_id_of_string := bytes_of_text 12
  object_id_of_to_string := bytes_of_text_of_bytes
  decimal_to_string v := toString v.1.toNat
  decimal_of_string text := (UInt64.ofNat (text.toNat?.getD 0), 0x3040000000000000)
  timestamp tp := (tp.tdiv 1000000000, tp.tmod 1000000000)
  get_time_point v := 1000000000 * v.1 + v.2
  get_time_point_timestamp tp := Int.mul_tdiv_add_tmod tp 1000000000

/-- A `std::optional<int64_t>` of 3 is not read back. -/
theorem stored_optional :
    ¬ ReadBack .byValue id plain_conversions (.optional (.alternative .int64))
      (some ⟨3, by decide⟩) := by
  intro h
  have hkept := (readBack_iff _ _ _ _ _).mp h
  cases hkept

end RealmCpp.Managed
