/-
  RealmCpp.Bson.Values
  ────────────────────
  **`bsoncxx`: VALUES THAT GO TO THE CORE AND COME BACK.**

  `bson.cpp` makes a core value from each value of a program: arrays and documents are
  made element by element, a document as the map that it is in the core.  A program that
  is given one asks for its type and converts it to that.

    • `Scalar.toCore`, `construct` — the constructors of `bsoncxx`,
    • `get_type`, `convert`, `readValue` — the way back,
    • `bson_round_trip_iff` — the values that come back,
    • `bson_rebuild_iff` — the core values that a program can rebuild.
-/
import RealmCpp.Bridge.Document
import RealmCpp.Library.KeyedTree
import RealmCpp.Managed.StorableValues

namespace RealmCpp.Bson

open RealmCpp.Library
open RealmCpp.Bridge (CoreDocument)
open RealmCpp.Managed (Bytes CoreConversions)

/-! ## §1. Values. -/

/-- `bsoncxx::regular_expression`; the options are flags of a byte. -/
structure RegularExpression where
  m_pattern : String
  m_options : UInt8
  deriving DecidableEq

/-- What a `bsoncxx` is made from, other than an array or a document.  A `date` counts
ticks, and of a `double` and a `decimal128` there are the bits. -/
inductive Scalar where
  | null
  | int32 (v : Int32)
  | int64 (v : Int64)
  | bool (v : Bool)
  | double (bits : UInt64)
  | min_key
  | max_key
  | timestamp (m_seconds m_increment : UInt32)
  | date (m_date : Int)
  | decimal128 (v : UInt64 × UInt64)
  | object_id (v : Bytes 12)
  | uuid (v : Bytes 16)
  | regular_expression (v : RegularExpression)
  | binary (v : List UInt8)
  | string (v : String)

/-- `realm::bson::Bson`, other than an array or a document. -/
inductive CoreScalar where
  | null
  | int32 (v : Int32)
  | int64 (v : Int64)
  | bool (v : Bool)
  | double (bits : UInt64)
  | string (v : String)
  | binary (v : List Int8)
  | timestamp (seconds increment : UInt32)
  | datetime (seconds nanoseconds : Int)
  | object_id (v : Bytes 12)
  | decimal128 (v : UInt64 × UInt64)
  | regular_expression (pattern : String) (options : Int)
  | max_key
  | min_key
  | uuid (v : Bytes 16)

abbrev Value := KeyedTree String Scalar

abbrev CoreBson := KeyedTree String CoreScalar

/-- `realm::bson::Bson::Type`. -/
inductive CoreType where
  | Null | Int32 | Int64 | Bool | Double | String | Binary | Timestamp | Datetime | ObjectId
  | Decimal128 | RegularExpression | MaxKey | MinKey | Document | Array | Uuid
  deriving DecidableEq

/-- `bsoncxx::type`. -/
inductive BsonType where
  | b_null | b_int32 | b_int64 | b_bool | b_double | b_string | b_binary | b_timestamp
  | b_datetime | b_objectId | b_decimal128 | b_regular_expression | b_max_key | b_min_key
  | b_document | b_array | b_uuid
  deriving DecidableEq

/-! ## §2. To the core. -/

section Conversions

variable (K : CoreConversions)

/-- The constructors of `bsoncxx`.  Identifiers and decimals go through their text. -/
def Scalar.toCore : Scalar → CoreScalar
  | .null => .null
  | .int32 v => .int32 v
  | .int64 v => .int64 v
  | .bool v => .bool v
  | .double bits => .double bits
  | .min_key => .min_key
  | .max_key => .max_key
  | .timestamp m_seconds m_increment => .timestamp m_seconds m_increment
  | .date m_date => .datetime (K.timestamp m_date).1 (K.timestamp m_date).2
  | .decimal128 v => .decimal128 (K.decimal128 v)
  | .object_id v => .object_id (K.object_id_of_string (K.object_id_to_string v))
  | .uuid v => .uuid (K.uuid_of_string (K.uuid_to_string v))
  | .regular_expression v => .regular_expression v.m_pattern v.m_options.toNat
  | .binary v => .binary (v.map UInt8.toInt8)
  | .string v => .string v

/-- The constructors with an array or a document: the core document is written entry by
entry. -/
def construct : Value → CoreBson :=
  KeyedTree.fold (fun s => .leaf (s.toCore K)) .array
    fun es => .document (CoreDocument.ofList es).entries

/-! ## §3. And back. -/

def CoreScalar.type : CoreScalar → CoreType
  | .null => .Null
  | .int32 _ => .Int32
  | .int64 _ => .Int64
  | .bool _ => .Bool
  | .double _ => .Double
  | .string _ => .String
  | .binary _ => .Binary
  | .timestamp _ _ => .Timestamp
  | .datetime _ _ => .Datetime
  | .object_id _ => .ObjectId
  | .decimal128 _ => .Decimal128
  | .regular_expression _ _ => .RegularExpression
  | .max_key => .MaxKey
  | .min_key => .MinKey
  | .uuid _ => .Uuid

/-- `bsoncxx::get_type`, for the type of the core value. -/
def get_type : CoreType → BsonType
  | .Null => .b_null
  | .Int32 => .b_int32
  | .Int64 => .b_int64
  | .Bool => .b_bool
  | .Double => .b_double
  | .String => .b_string
  | .Binary => .b_binary
  | .Timestamp => .b_timestamp
  | .Datetime => .b_datetime
  | .ObjectId => .b_objectId
  | .Decimal128 => .b_decimal128
  | .MaxKey => .b_max_key
  | .MinKey => .b_min_key
  | .Document => .b_document
  | .Array => .b_array
  | .Uuid => .b_uuid
  | .RegularExpression => .b_regular_expression

/-- `bsoncxx::operator T`, by the type that is asked for; the core refuses a value of
another one. -/
def convert : BsonType → CoreScalar → Option Scalar
  | .b_null, .null => some .null
  | .b_int32, .int32 v => some (.int32 v)
  | .b_int64, .int64 v => some (.int64 v)
  | .b_bool, .bool v => some (.bool v)
  | .b_double, .double bits => some (.double bits)
  | .b_min_key, .min_key => some .min_key
  | .b_max_key, .max_key => some .max_key
  | .b_timestamp, .timestamp seconds increment => some (.timestamp seconds increment)
  | .b_datetime, .datetime seconds nanoseconds =>
      some (.date (K.get_time_point (seconds, nanoseconds)))
  | .b_decimal128, .decimal128 v => some (.decimal128 v)
  | .b_objectId, .object_id v => some (.object_id v)
  | .b_uuid, .uuid v => some (.uuid v)
  | .b_regular_expression, .regular_expression pattern options =>
      some (.regular_expression ⟨pattern, UInt8.ofInt options⟩)
  | .b_binary, .binary v => some (.binary (v.map Int8.toUInt8))
  | .b_string, .string v => some (.string v)
  | _, _ => none

/-- What a program makes of a core value: it converts each value to the type that it is
told, and the elements of arrays and the entries of documents in turn. -/
def readValue : CoreBson → Option Value :=
  KeyedTree.traverse fun s => convert K (get_type s.type) s

/-- What `convert` comes to. -/
def CoreScalar.read : CoreScalar → Scalar
  | .null => .null
  | .int32 v => .int32 v
  | .int64 v => .int64 v
  | .bool v => .bool v
  | .double bits => .double bits
  | .string v => .string v
  | .binary v => .binary (v.map Int8.toUInt8)
  | .timestamp seconds increment => .timestamp seconds increment
  | .datetime seconds nanoseconds => .date (K.get_time_point (seconds, nanoseconds))
  | .object_id v => .object_id v
  | .decimal128 v => .decimal128 v
  | .regular_expression pattern options => .regular_expression ⟨pattern, UInt8.ofInt options⟩
  | .max_key => .max_key
  | .min_key => .min_key
  | .uuid v => .uuid v

/-- **No conversion to the type that `get_type` returns is refused.** -/
theorem convert_get_type (s : CoreScalar) : convert K (get_type s.type) s = some (s.read K) := by
  cases s <;> rfl

theorem readValue_eq (b : CoreBson) : readValue K b = some (b.map (CoreScalar.read K)) :=
  KeyedTree.traverse_eq_map (convert_get_type K) b

/-! ## §4. There and back. -/

theorem entries_ofList {B : Type} (es : List (String × B)) :
    (CoreDocument.ofList es).entries = merge es := by
  have h : ∀ document : CoreDocument B,
      (es.foldl (fun core_document e => core_document.set e.1 e.2) document).entries =
        es.foldl (fun l e => put l e.1 e.2) document.entries := by
    induction es with
    | nil => exact fun document => rfl
    | cons e es ih => exact fun document => ih (document.set e.1 e.2)
  exact h .empty

theorem construct_eq (v : Value) : construct K v = (v.map (Scalar.toCore K)).merged := by
  unfold construct KeyedTree.merged
  rw [KeyedTree.fold_map]
  simp only [entries_ofList]

/-- What is left of a value: a decimal is what its text says. -/
def Scalar.kept : Scalar → Scalar
  | .decimal128 v => .decimal128 (K.decimal128 v)
  | s => s

theorem toNat_ofInt (n : Int) : ((UInt8.ofInt n).toNat : Int) = n % 256 := by
  unfold UInt8.ofInt
  rw [UInt8.toNat_ofNat']
  omega

theorem read_toCore (s : Scalar) : (s.toCore K).read K = s.kept K := by
  cases s with
  | date tp => exact congrArg Scalar.date (K.get_time_point_timestamp tp)
  | object_id v => exact congrArg Scalar.object_id (K.object_id_of_to_string v)
  | uuid v => exact congrArg Scalar.uuid (K.uuid_of_to_string v)
  | regular_expression v =>
    -- the flags are a number in the core, and a byte again
    have hbyte : UInt8.ofInt v.m_options.toNat = v.m_options := by
      apply UInt8.toNat_inj.mp
      have := toNat_ofInt v.m_options.toNat
      have := v.m_options.toNat_lt
      omega
    exact congrArg (fun options => Scalar.regular_expression ⟨v.m_pattern, options⟩) hbyte
  | binary v =>
    -- a byte is a `char` in the core, which is signed
    have hchars : (v.map UInt8.toInt8).map Int8.toUInt8 = v := by
      rw [List.map_map]
      exact List.map_id'' UInt8.toUInt8_toInt8 v
    exact congrArg Scalar.binary hchars
  | _ => rfl

/-- The decimals of a value are what their texts say. -/
def DecimalsKept (v : Value) : Prop := ∀ d, .decimal128 d ∈ v.leaves → K.decimal128 d = d

theorem kept_leaves_iff (v : Value) : (∀ s ∈ v.leaves, s.kept K = s) ↔ DecimalsKept K v := by
  constructor
  · intro h d hd
    exact Scalar.decimal128.inj (h _ hd)
  · intro h s hs
    cases s with
    | decimal128 d => exact congrArg Scalar.decimal128 (h d hs)
    | _ => rfl

/-- **What comes back.**  Every value is read without a refusal; at each key of a document
there is what was written last, where the key was written first.  It is the same value
exactly where no document has a key twice and the decimals are what their texts say. -/
theorem bson_round_trip_iff (v : Value) :
    readValue K (construct K v) = some (v.merged.map (Scalar.kept K)) ∧
      (readValue K (construct K v) = some v ↔ v.WellKeyed ∧ DecimalsKept K v) := by
  have hread : readValue K (construct K v) = some (v.merged.map (Scalar.kept K)) := by
    rw [readValue_eq, construct_eq, KeyedTree.merged_map, KeyedTree.map_map]
    exact congrArg (fun f => some (v.merged.map f)) (funext (read_toCore K))
  refine ⟨hread, ?_⟩
  rw [hread, Option.some.injEq, KeyedTree.map_merged_eq_self_iff, kept_leaves_iff]

/-! ## §5. Core values rebuilt. -/

/-- A core value that is the same after a program read it: the time is that of a
`time_point`, the decimal is what its text says, and the options fit a byte. -/
def CoreScalar.Survives : CoreScalar → Prop
  | .datetime seconds nanoseconds =>
      K.timestamp (K.get_time_point (seconds, nanoseconds)) = (seconds, nanoseconds)
  | .decimal128 v => K.decimal128 v = v
  | .regular_expression _ options => 0 ≤ options ∧ options < 256
  | _ => True

theorem toCore_read_iff (s : CoreScalar) : (s.read K).toCore K = s ↔ s.Survives K := by
  cases s with
  | datetime seconds nanoseconds =>
    show CoreScalar.datetime _ _ = _ ↔ _ = _
    rw [CoreScalar.datetime.injEq, Prod.ext_iff]
  | decimal128 v => exact CoreScalar.decimal128.injEq .. ▸ Iff.rfl
  | object_id v => exact iff_of_true (congrArg _ (K.object_id_of_to_string v)) trivial
  | uuid v => exact iff_of_true (congrArg _ (K.uuid_of_to_string v)) trivial
  | binary v =>
    refine iff_of_true (congrArg CoreScalar.binary ?_) trivial
    rw [List.map_map]
    exact List.map_id'' Int8.toInt8_toUInt8 v
  | regular_expression pattern options =>
    show CoreScalar.regular_expression _ _ = _ ↔ _ ∧ _
    rw [CoreScalar.regular_expression.injEq, toNat_ofInt]
    simp only [true_and]
    omega
  | _ => exact iff_of_true rfl trivial

/-- **What a program rebuilds.**  It reads every core value (a datetime in the range of the
system's clock, where `get_time_point` is defined); what it makes of that is the same value
exactly where its documents have each key once and its scalars survive. -/
theorem bson_rebuild_iff (b : CoreBson) :
    ∃ v, readValue K b = some v ∧
      (construct K v = b ↔ b.WellKeyed ∧ ∀ s ∈ b.leaves, s.Survives K) := by
  refine ⟨_, readValue_eq K b, ?_⟩
  -- the scalars are read and made again, and the documents merged
  rw [construct_eq, KeyedTree.map_map, KeyedTree.merged_map, KeyedTree.map_merged_eq_self_iff]
  exact and_congr_right fun _ => forall₂_congr fun s _ => toCore_read_iff K s

end Conversions

end RealmCpp.Bson
