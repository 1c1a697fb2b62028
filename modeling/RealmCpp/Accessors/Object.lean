/-
  RealmCpp.Accessors.Object
  ─────────────────────────
  **UNMANAGED OBJECTS, AND STORING THEM WITH `db::add`.**

  An unmanaged object owns or points to further ones; followed from a root they
  form a finite tree, in which an object is repeated as often as it is pointed
  to.  `db::add` stores the root and `accessor<T>::set` each of its properties,
  creating and storing the objects behind its pointers on the way.

    • `Kind`, `ClassSchema` — the types of properties, and the classes,
    • `Accessor` — what `accessor<T>::set` writes, one record a property type,
    • `setObject` — the properties of an object, and `add`, the whole of it.
-/
import RealmCpp.Core.Store
import RealmCpp.Library.ObjectGraph

namespace RealmCpp.Accessors

open RealmCpp.Library
open RealmCpp.Core

/-! ## §1. Classes. -/

/-- A value type: its column type, and whether it is optional. -/
structure Element where
  type : DataType
  optional : Bool
  deriving DecidableEq, Repr

/-- The property types.  Scalars, enums, mixed values, primary keys and optionals
are all single values of a column. -/
inductive Kind where
  | scalar (e : Element)
  | list (e : Element)
  | set (e : Element)
  | dictionary (e : Element)
  | link (T : TableKey)
  | list_link (T : TableKey)
  | set_link (T : TableKey)
  | dictionary_link (T : TableKey)
  deriving DecidableEq, Repr

/-- How the values of a property compare. -/
def Kind.shape : Kind → Shape
  | scalar _ | list _ | link _ | list_link _ => .sequence
  | set _ | set_link _ => .bag
  | dictionary _ | dictionary_link _ => .keyed

/-- The class that the property points to. -/
def Kind.target : Kind → Option TableKey
  | link T | list_link T | set_link T | dictionary_link T => some T
  | _ => none

/-- What `managed<T>::schema` has of a class. -/
structure ClassSchema where
  primary_key : Option String
  is_embedded : Bool
  properties : List (String × Kind)
  deriving DecidableEq, Repr

/-- The classes, one for each table. -/
abbrev Schemas := TableKey → ClassSchema

/-- The type of a property of a class. -/
def Schemas.kind (σ : Schemas) (t : TableKey) (name : String) : Kind :=
  ((σ t).properties.lookup name).getD (.scalar ⟨.mixed, true⟩)

/-- The properties of a class, as the fields of an object graph. -/
def Schemas.fields (σ : Schemas) (t : TableKey) : List (String × Shape) :=
  (σ t).properties.map fun p => (p.1, p.2.shape)

/-! ## §2. Unmanaged objects. -/

/-- **An unmanaged object**: the class it is of, and what its properties hold. -/
inductive Unmanaged where
  | node (cls : TableKey) (props : List (String × List (String × Slot Mixed Unmanaged)))

namespace Unmanaged

def cls : Unmanaged → TableKey
  | node t _ => t

def props : Unmanaged → List (String × Content Mixed Unmanaged)
  | node _ ps => ps

/-- What a property holds. -/
def content (u : Unmanaged) (name : String) : Content Mixed Unmanaged :=
  (u.props.lookup name).getD []

/-- The value of a property that holds one. -/
def value (u : Unmanaged) (name : String) : Mixed :=
  match u.content name with
  | (_, .scalar m) :: _ => m
  | _ => .null

/-- The class and the primary key, for an object that has one. -/
def key (σ : Schemas) (u : Unmanaged) : Option (TableKey × Mixed) :=
  (σ u.cls).primary_key.map fun name => (u.cls, u.value name)

/-- Unmanaged objects as an object graph. -/
def graph : Graph TableKey String Mixed Unmanaged := ⟨cls, content⟩

mutual

/-- **The objects that are reached**: the object itself and all behind its
pointers, each as often as it is reached. -/
def reached : Unmanaged → List Unmanaged
  | .node t ps => .node t ps :: reachedProperties ps
termination_by structural u => u

def reachedProperties : List (String × List (String × Slot Mixed Unmanaged)) → List Unmanaged
  | [] => []
  | (_, es) :: ps => reachedEntries es ++ reachedProperties ps
termination_by structural ps => ps

def reachedEntries : List (String × Slot Mixed Unmanaged) → List Unmanaged
  | [] => []
  | (_, .null) :: es => reachedEntries es
  | (_, .scalar _) :: es => reachedEntries es
  | (_, .object u) :: es => reached u ++ reachedEntries es
termination_by structural es => es

end

end Unmanaged

/-- The values among the entries of a property. -/
def scalars {ν : Type} : Content Mixed ν → List (String × Mixed)
  | [] => []
  | (key, .scalar m) :: es => (key, m) :: scalars es
  | _ :: es => scalars es

/-! ## §3. Accessors. -/

/-- What the core prints of a decimal, and what it reads from a text. -/
structure DecimalText where
  to_string : UInt64 × UInt64 → String
  of_string : String → UInt64 × UInt64

/-- `bridge::decimal128(const realm::decimal128&)`, which goes through the text. -/
def DecimalText.decimal128 (K : DecimalText) (v : UInt64 × UInt64) : UInt64 × UInt64 :=
  K.of_string (K.to_string v)

/-- `serialize`, and the bridge type that it makes: only decimals get other words. -/
def DecimalText.serialize (K : DecimalText) : Mixed → Mixed
  | .decimal128 low high =>
      .decimal128 (K.decimal128 (low, high)).1 (K.decimal128 (low, high)).2
  | m => m

theorem DecimalText.serialize_of_not_decimal (K : DecimalText) {m : Mixed}
    (h : ∀ low high, m ≠ .decimal128 low high) : K.serialize m = m := by
  cases m with
  | decimal128 low high => exact absurd rfl (h low high)
  | _ => rfl

/-- `obj::set_list_values`, one branch for each group of overloads.  The early
return on an empty list of booleans is the same as adding nothing. -/
def set_list_values (e : Element) (values : List Mixed) : List Write :=
  match e.type, e.optional with
  | .bool, false => values.map .add
  | .mixed, _ | .string, true | .uuid, true | .object_id, true | .binary, true
  | .timestamp, true => values.zipIdx.map fun v => .insert v.2 v.1
  -- the core's own `set_list_values`
  | _, _ => [.set (values.map fun m => ("", m))]

/-- **What an `accessor<T>::set` writes**: for the values it is given, and for
each pointer, before and after the object behind it is stored.  A pointer is
given by its index, its key and the link to the object. -/
structure Accessor where
  values : List (String × Mixed) → List Write
  before : Nat → String → Mixed → List Write
  after : String → Mixed → List Write
  null : String → List Write

/-- Accessors of single values: `obj::set`, or `obj::set_null` for an empty optional. -/
def accessor_scalar (K : DecimalText) : Accessor where
  values es := es.map fun e => .set (Cell.one (K.serialize e.2))
  before _ _ _ := []
  after _ _ := []
  null _ := []

/-- `accessor<std::vector<T>>`. -/
def accessor_vector (K : DecimalText) (e : Element) : Accessor where
  values es := set_list_values e (es.map fun d => K.serialize d.2)
  before _ _ _ := []
  after _ _ := []
  null _ := []

/-- `accessor<std::set<T>>`. -/
def accessor_set (K : DecimalText) : Accessor where
  values es := es.map fun e => .set_insert (K.serialize e.2)
  before _ _ _ := []
  after _ _ := []
  null _ := []

/-- `accessor<std::map<std::string, T>>`. -/
def accessor_map (K : DecimalText) : Accessor where
  values es := es.map fun e => .dictionary_insert e.1 (K.serialize e.2)
  before _ _ _ := []
  after _ _ := []
  null _ := []

/-- `accessor<T*>`: it returns on a null pointer. -/
def accessor_link : Accessor where
  values _ := []
  before _ _ link := [.set (Cell.one link)]
  after _ _ := []
  null _ := []

/-- `accessor<std::vector<T*>>`: embedded objects are inserted at their index in
the vector, others added once they are stored; null pointers are skipped. -/
def accessor_vector_link (is_embedded : Bool) : Accessor where
  values _ := []
  before i _ link := if is_embedded then [.insert i link] else []
  after _ link := if is_embedded then [] else [.add link]
  null _ := []

/-- `accessor<std::set<T*>>`. -/
def accessor_set_link (is_embedded : Bool) : Accessor where
  values _ := []
  before _ _ _ := []
  after _ link := if is_embedded then [] else [.set_insert link]
  null _ := []

/-- `accessor<std::map<std::string, T*>>`: the link is inserted twice. -/
def accessor_map_link : Accessor where
  values _ := []
  before _ key link := [.dictionary_insert key link]
  after key link := [.dictionary_insert key link]
  null key := [.dictionary_insert key .null]

/-- The accessor of a property type. -/
def Kind.accessor (K : DecimalText) (σ : Schemas) : Kind → Accessor
  | scalar _ => accessor_scalar K
  | list e => accessor_vector K e
  | set _ => accessor_set K
  | dictionary _ => accessor_map K
  | link _ => accessor_link
  | list_link T => accessor_vector_link (σ T).is_embedded
  | set_link T => accessor_set_link (σ T).is_embedded
  | dictionary_link _ => accessor_map_link

/-! ## §4. Storing. -/

/-- The stored object for an unmanaged one: by its primary key if it has one, which is
no decimal. -/
def create (σ : Schemas) (A : Objects) (u : Unmanaged) : Objects × Ref :=
  match u.key σ with
  | some (t, pk) => A.create_object_with_primary_key t pk
  | none => A.create_object u.cls

/-- The same writes to one column. -/
def journal (x : Ref) (col : String) (ws : List Write) : List ((Ref × String) × Write) :=
  ws.map ((x, col), ·)

mutual

/-- The properties of the object `x`, from those of an unmanaged object. -/
def setObject (K : DecimalText) (σ : Schemas) (x : Ref) : Unmanaged → Store → Option Store
  | .node _ props, S => setProperties K σ x props S
termination_by structural u => u

/-- `std::apply` of the accessors over the properties. -/
def setProperties (K : DecimalText) (σ : Schemas) (x : Ref) :
    List (String × List (String × Slot Mixed Unmanaged)) → Store → Option Store
  | [], S => some S
  | (name, es) :: ps, S => do
      let a := (σ.kind x.table name).accessor K σ
      let S₁ ← S.writes (journal x name (a.values (scalars es)))
      let S₂ ← setEntries K σ a x name 0 es S₁
      setProperties K σ x ps S₂
termination_by structural ps => ps

/-- The loop of an accessor over its pointers. -/
def setEntries (K : DecimalText) (σ : Schemas) (a : Accessor) (x : Ref) (name : String)
    (i : Nat) : List (String × Slot Mixed Unmanaged) → Store → Option Store
  | [], S => some S
  | (key, .null) :: es, S => do
      let S₁ ← S.writes (journal x name (a.null key))
      setEntries K σ a x name (i + 1) es S₁
  | (_, .scalar _) :: es, S => setEntries K σ a x name (i + 1) es S
  | (key, .object u) :: es, S => do
      let (A, y) := create σ S.toObjects u
      let S₁ ← (S.withObjects A).writes (journal x name (a.before i key y.link))
      let S₂ ← setObject K σ y u S₁
      let S₃ ← S₂.writes (journal x name (a.after key y.link))
      setEntries K σ a x name (i + 1) es S₃
termination_by structural es => es

end

/-- `db::add`: the store after it and the object that it returns, or none where
it raises. -/
def add (K : DecimalText) (σ : Schemas) (S : Store) (v : Unmanaged) : Option (Store × Ref) := do
  let (A, x) := create σ S.toObjects v
  let S' ← setObject K σ x v (S.withObjects A)
  some (S', x)

end RealmCpp.Accessors
