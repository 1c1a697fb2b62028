/-
  RealmCpp.Core.Data
  ──────────────────
  **KEYS AND VALUES OF THE DATABASE CORE.**

  The core is not part of the repository; what the C++ layer handles of it is
  here: the three kinds of keys, the values a column can hold (`Mixed`), and
  the column types that a typed column expression is checked against.
-/
import Mathlib.Data.List.Basic

namespace RealmCpp.Core

/-- The key of a table: one table per persisted class. -/
structure TableKey where
  value : Nat
  deriving DecidableEq, Repr

/-- The key of a column of some table. -/
structure ColKey where
  value : Nat
  deriving DecidableEq, Repr

/-- The key of an object, unique within its table only. -/
structure ObjKey where
  value : Nat
  deriving DecidableEq, Repr

/-- The column types a typed column expression is requested at. -/
inductive DataType where
  | int | bool | double | string | binary | timestamp
  | uuid | object_id | decimal128 | mixed | link
  deriving DecidableEq, Repr

/-- A value of any persisted type, `null` included.  Doubles and decimals are
their bit patterns. -/
inductive Mixed where
  | null
  | int (v : Int)
  | bool (v : Bool)
  | double (bits : UInt64)
  | string (v : String)
  | binary (v : List UInt8)
  | timestamp (seconds nanoseconds : Int)
  | uuid (bytes : List UInt8)
  | object_id (bytes : List UInt8)
  | decimal128 (low high : UInt64)
  | link (table : TableKey) (key : ObjKey)
  deriving DecidableEq, Repr

/-- What building a query takes from the core: the type of a column, the table
that a dictionary column links to, looked up in a table that may have no such
column, and what `Mixed::get_bool` gives for a mixed that holds no bool (nothing
where its assertion fails). -/
structure Schema where
  get_column_type : TableKey → ColKey → DataType
  get_target_table : TableKey → ColKey → Option TableKey
  get_bool : Mixed → Option Bool

namespace Schema

/-- `mixed::operator bool`: the bool that is stored. -/
def to_bool (schema : Schema) : Mixed → Option Bool
  | .bool b => some b
  | v => schema.get_bool v

/-- The schema whose columns all have one type and all link to one table. -/
def uniform (type : DataType) (target : TableKey) : Schema :=
  ⟨fun _ _ => type, fun _ _ => some target, fun _ => none⟩

end Schema

end RealmCpp.Core
