/-
  RealmCpp.Schemagen.PropertyTypes
  ────────────────────────────────
  **THE TYPE OF A MEMBER, AS THE DATABASE SEES IT.**

  `type_info` computes a number from the type of a member: a base type, with a flag
  for each of the templates around it.  The conversion to a bridge property adds
  what a link needs, and drops a property of linking objects.

    • `Persisted` — the types of members, `type` — their numbers,
    • `Property.toBridge` — the conversion,
    • `Persisted.column` — what a type stands for, and `type_toBridge` — its number,
    • `toBridge_eq_iff` — what two bridge properties have in common,
    • `link_rule_iff` — which of them keep the rule of the enumeration about links.
-/
import RealmCpp.Observation.PropertyValue

namespace RealmCpp.Schemagen

open RealmCpp.Core
open RealmCpp.Observation

/-! ## §1. The types of members. -/

/-- The types that `type_info` knows.  An enumeration, a variant and a class are
given by their names. -/
inductive Persisted where
  | int64_t
  | double
  | bool
  | string
  | uuid
  | object_id
  | decimal128
  | binary
  | time_point
  | enumeration (name : String)
  | mixed (variant : String)
  | pointer (cls : String)
  | linking_objects (cls property : String)
  | optional (t : Persisted)
  | vector (t : Persisted)
  | set (t : Persisted)
  | map (t : Persisted)
  | primary_key (t : Persisted)
  deriving DecidableEq, Repr

namespace Persisted

/-- `type_info<T>::type`. -/
def type : Persisted → PropertyType
  | int64_t | enumeration _ => .base .int
  | double => .base .double
  | bool => .base .bool
  | string => .base .string
  | uuid => .base .uuid
  | object_id => .base .object_id
  | decimal128 => .base .decimal128
  | binary => .base .binary
  | time_point => .base .timestamp
  | mixed _ => .base .mixed ||| .Nullable
  | pointer _ => .Object
  | linking_objects _ _ => .LinkingObjects ||| .Array
  | optional t => t.type ||| .Nullable
  | vector t => t.type ||| .Array
  | set t => .Set ||| t.type
  | map t => .Dictionary ||| t.type
  | primary_key t => t.type

/-- A scalar that there is a `managed` of. -/
def isScalar : Persisted → Bool
  | int64_t | double | bool | string | uuid | object_id | decimal128 | binary | time_point
  | enumeration _ | mixed _ => true
  | _ => false

def isMixed : Persisted → Bool
  | mixed _ => true
  | _ => false

/-- A scalar, or an optional one; a mixed value is never optional. -/
def isValue : Persisted → Bool
  | optional t => t.isScalar && !t.isMixed
  | t => t.isScalar

def isPlainKey : Persisted → Bool
  | int64_t | string | uuid | object_id | enumeration _ => true
  | _ => false

/-- What there is a `managed` of as a primary key. -/
def isKey : Persisted → Bool
  | optional t => t.isPlainKey
  | t => t.isPlainKey

/-- **The types of properties**: those that `managed` is specialised for. -/
def isProperty : Persisted → Bool
  | pointer _ | linking_objects _ _ => true
  | vector (pointer _) | set (pointer _) | map (pointer _) => true
  | vector t | set t | map t => t.isValue
  | primary_key t => t.isKey
  | t => t.isValue

def isBacklink : Persisted → Bool
  | linking_objects _ _ => true
  | _ => false

def isPrimaryKey : Persisted → Bool
  | primary_key _ => true
  | _ => false

end Persisted

/-! ## §2. Properties. -/

/-- `bridge::property`, as far as it is set. -/
structure BridgeProperty where
  name : String := ""
  type : PropertyType := .base .int
  object_type : String := ""
  is_primary : Bool := false
  deriving DecidableEq, Repr

namespace BridgeProperty

def set_object_link (p : BridgeProperty) (v : String) : BridgeProperty := { p with object_type := v }

def set_type (p : BridgeProperty) (t : PropertyType) : BridgeProperty := { p with type := t }

end BridgeProperty

/-- `schemagen::property<Ptr, IsPrimaryKey>`, of a member of type `result`. -/
structure Property where
  name : String
  result : Persisted
  isPrimaryKey : Bool := false
  deriving DecidableEq, Repr

namespace Property

def is_primary_key (p : Property) : Bool := p.isPrimaryKey || p.result.isPrimaryKey

/-- `property::operator bridge::property`. -/
def toBridge (p : Property) : BridgeProperty :=
  let type := p.result.type
  let property : BridgeProperty :=
    { name := p.name, type := type, is_primary := p.is_primary_key }
  match p.result with
  | .vector (.pointer cls) => property.set_object_link cls
  | .set (.pointer cls) => property.set_object_link cls
  | .map (.pointer cls) => (property.set_object_link cls).set_type (type ||| .Nullable)
  | .pointer cls => (property.set_object_link cls).set_type (type ||| .Nullable)
  -- what is returned has no name, so that `to_core_schema` leaves it out
  | .linking_objects _ _ => {}
  | _ => property

end Property

/-! ## §3. Columns. -/

/-- How many values there are in a column of an object. -/
inductive Container where
  | single
  | list
  | set
  | dictionary
  deriving DecidableEq, Repr

/-- A column: the type of its values, whether they can be null, how many there are,
and the class that they link to. -/
structure Column where
  element : DataType
  nullable : Bool
  container : Container
  target : String
  deriving DecidableEq, Repr

namespace Persisted

/-- The type of a scalar. -/
def scalarType : Persisted → DataType
  | double => .double
  | bool => .bool
  | string => .string
  | uuid => .uuid
  | object_id => .object_id
  | decimal128 => .decimal128
  | binary => .binary
  | time_point => .timestamp
  | mixed _ => .mixed
  | _ => .int

/-- A column of scalars, optional ones or links.  A set or a list of links has no
null among them. -/
def columnOf (container : Container) : Persisted → Column
  | pointer cls => ⟨.link, container matches .single | .dictionary, container, cls⟩
  | optional t => ⟨t.scalarType, true, container, ""⟩
  -- a mixed value can be null without being optional
  | t => ⟨t.scalarType, t.isMixed, container, ""⟩

/-- **The column that a type stands for.** -/
def column : Persisted → Column
  | vector t => columnOf .list t
  | set t => columnOf .set t
  | map t => columnOf .dictionary t
  | primary_key t => columnOf .single t
  | t => columnOf .single t

end Persisted

/-- The flag of a container. -/
def Container.flag : Container → PropertyType
  | single => 0#16
  | list => .Array
  | set => .Set
  | dictionary => .Dictionary

/-- The number of a base type, a flag for null, and a container. -/
def code (element : DataType) (nullable : Bool) (container : Container) : PropertyType :=
  .base element ||| (if nullable then PropertyType.Nullable else 0#16) ||| container.flag

/-- The number of a column. -/
def Column.type (c : Column) : PropertyType := code c.element c.nullable c.container

/-- `type & ~Flags`. -/
def baseOf (type : PropertyType) : PropertyType := type &&& 63

/-- The container by the flags. -/
def containerOf (type : PropertyType) : Container :=
  if property_has_flag type .Array then .list
  else if property_has_flag type .Set then .set
  else if property_has_flag type .Dictionary then .dictionary
  else .single

theorem base_inj {a b : DataType} : PropertyType.base a = .base b ↔ a = b := by
  constructor
  · cases a <;> cases b <;> decide
  · rintro rfl
    rfl

theorem baseOf_code (e : DataType) (n : Bool) (k : Container) :
    baseOf (code e n k) = .base e := by
  cases e <;> cases n <;> cases k <;> decide

theorem nullable_code (e : DataType) (n : Bool) (k : Container) :
    property_has_flag (code e n k) .Nullable = n := by
  cases e <;> cases n <;> cases k <;> decide

theorem containerOf_code (e : DataType) (n : Bool) (k : Container) :
    containerOf (code e n k) = k := by
  cases e <;> cases n <;> cases k <;> decide

/-- **The number of a column says what it is**, but for the class. -/
theorem code_eq_iff {e e' : DataType} {n n' : Bool} {k k' : Container} :
    code e n k = code e' n' k' ↔ e = e' ∧ n = n' ∧ k = k' := by
  constructor
  · intro h
    -- each part can be read off the number
    refine ⟨base_inj.mp ?_, ?_, ?_⟩
    · rw [← baseOf_code e n k, ← baseOf_code e' n' k', h]
    · rw [← nullable_code e n k, ← nullable_code e' n' k', h]
    · rw [← containerOf_code e n k, ← containerOf_code e' n' k', h]
  · rintro ⟨rfl, rfl, rfl⟩
    rfl

theorem code_container (e : DataType) (n : Bool) (k : Container) :
    code e n .single ||| k.flag = code e n k := by
  unfold code
  rw [show Container.single.flag = 0#16 from rfl, BitVec.or_zero]

/-! ## §4. What the conversion makes of a type. -/

namespace Persisted

theorem type_of_isScalar {t : Persisted} (h : t.isScalar = true) :
    t.type = code t.scalarType t.isMixed .single := by
  have hint : PropertyType.base .int = code .int false .single := by decide
  have hmixed : PropertyType.base .mixed ||| .Nullable = code .mixed true .single := by decide
  cases t with
  | enumeration name => exact hint
  | mixed variant => exact hmixed
  | pointer | linking_objects | optional | vector | set | map | primary_key =>
    simp [isScalar] at h
  | _ => decide

theorem columnOf_of_isScalar {t : Persisted} (h : t.isScalar = true) (k : Container) :
    columnOf k t = ⟨t.scalarType, t.isMixed, k, ""⟩ := by
  cases t <;> first | rfl | simp [isScalar] at h

theorem isScalar_of_isPlainKey {t : Persisted} (h : t.isPlainKey = true) :
    t.isScalar = true ∧ t.isMixed = false := by
  cases t <;> simp_all [isPlainKey, isScalar, isMixed]

/-- A value is a scalar or an optional one. -/
theorem isValue_cases {t : Persisted} (h : t.isValue = true) :
    t.isScalar = true ∨ ∃ u, t = optional u ∧ u.isScalar = true ∧ u.isMixed = false := by
  cases t with
  | optional u => exact .inr ⟨u, rfl, by simpa [isValue] using h⟩
  | _ => exact .inl h

/-- The number of a value is that of its column, before the flag of a container. -/
theorem type_of_isValue {t : Persisted} (h : t.isValue = true) (k : Container) :
    t.type = code (columnOf k t).element (columnOf k t).nullable .single ∧
      (columnOf k t).target = "" ∧ (columnOf k t).container = k := by
  rcases isValue_cases h with hscalar | ⟨u, rfl, hscalar, hmixed⟩
  · rw [columnOf_of_isScalar hscalar k, type_of_isScalar hscalar]
    exact ⟨rfl, rfl, rfl⟩
  · refine ⟨?_, rfl, rfl⟩
    show u.type ||| .Nullable = code u.scalarType true .single
    rw [type_of_isScalar hscalar, hmixed]
    cases u.scalarType <;> decide

theorem isValue_of_isKey {t : Persisted} (h : t.isKey = true) : t.isValue = true := by
  cases t with
  | optional t =>
    obtain ⟨hscalar, hmixed⟩ := isScalar_of_isPlainKey (t := t) h
    simp [isValue, hscalar, hmixed]
  | pointer | linking_objects | vector | set | map | primary_key => simp [isKey, isPlainKey] at h
  | _ => rfl

/-- A property that is stored holds links or values. -/
theorem isProperty_cases {t : Persisted} (h : t.isProperty = true) (hlink : t.isBacklink = false) :
    (∃ cls, t = pointer cls ∨ t = vector (pointer cls) ∨ t = set (pointer cls) ∨
        t = map (pointer cls)) ∨
      ∃ u, u.isValue = true ∧
        (t = vector u ∨ t = set u ∨ t = map u ∨ t = primary_key u ∨ t = u) := by
  have hcontainer : ∀ u : Persisted, (∃ cls, u = pointer cls) ∨ ∀ cls, u ≠ pointer cls := by
    intro u
    cases u <;> simp
  cases t with
  | linking_objects cls property => simp [isBacklink] at hlink
  | pointer cls => exact .inl ⟨cls, .inl rfl⟩
  | vector u =>
    rcases hcontainer u with ⟨cls, rfl⟩ | hu
    · exact .inl ⟨cls, .inr (.inl rfl)⟩
    · refine .inr ⟨u, ?_, .inl rfl⟩
      cases u <;> simp_all [isProperty]
  | set u =>
    rcases hcontainer u with ⟨cls, rfl⟩ | hu
    · exact .inl ⟨cls, .inr (.inr (.inl rfl))⟩
    · refine .inr ⟨u, ?_, .inr (.inl rfl)⟩
      cases u <;> simp_all [isProperty]
  | map u =>
    rcases hcontainer u with ⟨cls, rfl⟩ | hu
    · exact .inl ⟨cls, .inr (.inr (.inr rfl))⟩
    · refine .inr ⟨u, ?_, .inr (.inr (.inl rfl))⟩
      cases u <;> simp_all [isProperty]
  | primary_key u => exact .inr ⟨u, isValue_of_isKey h, .inr (.inr (.inr (.inl rfl)))⟩
  | _ =>
    refine .inr ⟨_, ?_, .inr (.inr (.inr (.inr rfl)))⟩
    exact h

/-- A column of values. -/
theorem column_of_isValue {t : Persisted} (h : t.isValue = true) :
    column t = columnOf .single t := by
  cases t <;> first | rfl | simp [isValue, isScalar] at h

end Persisted

namespace Property

open Persisted

/-- The conversion of values leaves the number as it is. -/
theorem toBridge_values {t u : Persisted} (hu : u.isValue = true)
    (ht : t = vector u ∨ t = set u ∨ t = map u ∨ t = primary_key u ∨ t = u) (name : String)
    (key : Bool) :
    toBridge ⟨name, t, key⟩ = ⟨name, t.type, "", is_primary_key ⟨name, t, key⟩⟩ := by
  rcases ht with rfl | rfl | rfl | rfl | rfl
  iterate 3
    cases u <;> first | rfl | simp [isValue, isScalar] at hu
  · rfl
  · cases t <;> first | rfl | simp [isValue, isScalar] at hu

/-- The number of values in a container. -/
theorem type_of_values {t u : Persisted} (hu : u.isValue = true)
    (ht : t = vector u ∨ t = set u ∨ t = map u ∨ t = primary_key u ∨ t = u) :
    t.type = t.column.type ∧ t.column.target = "" := by
  have hcolumn : ∀ k, code (columnOf k u).element (columnOf k u).nullable .single ||| k.flag =
      (columnOf k u).type := by
    intro k
    rw [code_container]
    unfold Column.type
    rw [(type_of_isValue hu k).2.2]
  -- `type_info` of a container puts its flag before or behind the number of its values
  rcases ht with rfl | rfl | rfl | rfl | rfl
  · refine ⟨?_, (type_of_isValue hu .list).2.1⟩
    show u.type ||| .Array = _
    rw [(type_of_isValue hu .list).1]
    exact hcolumn .list
  · refine ⟨?_, (type_of_isValue hu .set).2.1⟩
    show PropertyType.Set ||| u.type = _
    rw [(type_of_isValue hu .set).1, BitVec.or_comm]
    exact hcolumn .set
  · refine ⟨?_, (type_of_isValue hu .dictionary).2.1⟩
    show PropertyType.Dictionary ||| u.type = _
    rw [(type_of_isValue hu .dictionary).1, BitVec.or_comm]
    exact hcolumn .dictionary
  · refine ⟨?_, (type_of_isValue hu .single).2.1⟩
    show u.type = (columnOf .single u).type
    rw [(type_of_isValue hu .single).1, ← hcolumn .single]
    exact BitVec.or_zero.symm
  · rw [column_of_isValue hu]
    refine ⟨?_, (type_of_isValue hu .single).2.1⟩
    rw [(type_of_isValue hu .single).1, ← hcolumn .single]
    exact BitVec.or_zero.symm

/-- **The conversion gives a property the number and the class of its column.** -/
theorem toBridge_eq (p : Property) (hp : p.result.isProperty = true)
    (hlink : p.result.isBacklink = false) :
    p.toBridge = ⟨p.name, p.result.column.type, p.result.column.target, p.is_primary_key⟩ := by
  obtain ⟨name, result, key⟩ := p
  have hsingle : PropertyType.Object ||| .Nullable = code .link true .single := by decide
  have hlist : PropertyType.Object ||| .Array = code .link false .list := by decide
  have hset : PropertyType.Set ||| .Object = code .link false .set := by decide
  have hdictionary : (PropertyType.Dictionary ||| .Object) ||| .Nullable =
      code .link true .dictionary := by decide
  rcases isProperty_cases hp hlink with ⟨cls, rfl | rfl | rfl | rfl⟩ | ⟨u, hu, ht⟩
  · exact congrArg (BridgeProperty.mk name · cls _) hsingle
  · exact congrArg (BridgeProperty.mk name · cls _) hlist
  · exact congrArg (BridgeProperty.mk name · cls _) hset
  · exact congrArg (BridgeProperty.mk name · cls _) hdictionary
  · obtain ⟨htype, htarget⟩ := type_of_values hu ht
    rw [toBridge_values hu ht, htype, htarget]

/-- **What two bridge properties have in common**: they are the same exactly where
both members are linking objects, or neither is and name, key and column agree. -/
theorem toBridge_eq_iff (p q : Property) (hp : p.result.isProperty = true)
    (hq : q.result.isProperty = true) (hpname : p.name ≠ "") (hqname : q.name ≠ "") :
    p.toBridge = q.toBridge ↔
      (p.result.isBacklink = true ∧ q.result.isBacklink = true) ∨
        (p.result.isBacklink = false ∧ q.result.isBacklink = false ∧ p.name = q.name ∧
          p.is_primary_key = q.is_primary_key ∧ p.result.column = q.result.column) := by
  -- linking objects give the property without a name
  have hback : ∀ r : Property, r.result.isBacklink = true → r.toBridge = {} := by
    rintro ⟨name, result, key⟩ h
    cases result <;> first | rfl | simp [isBacklink] at h
  cases hpl : p.result.isBacklink <;> cases hql : q.result.isBacklink
  · rw [toBridge_eq p hp hpl, toBridge_eq q hq hql]
    constructor
    · intro h
      obtain ⟨hname, htype, htarget, hkey⟩ := BridgeProperty.mk.inj h
      obtain ⟨he, hn, hk⟩ := code_eq_iff.mp htype
      have hcolumn : p.result.column = q.result.column := by
        cases hc : p.result.column
        cases hd : q.result.column
        simp_all
      exact .inr ⟨rfl, rfl, hname, hkey, hcolumn⟩
    · rintro (⟨h, -⟩ | ⟨-, -, hname, hkey, hcolumn⟩)
      · cases h
      · rw [hname, hkey, hcolumn]
  · rw [toBridge_eq p hp hpl, hback q hql]
    exact iff_of_false (fun h => hpname (BridgeProperty.mk.inj h).1) (by simp)
  · rw [toBridge_eq q hq hql, hback p hpl]
    exact iff_of_false (fun h => hqname (BridgeProperty.mk.inj h).1.symm) (by simp)
  · rw [hback p hpl, hback q hql]
    exact iff_of_true rfl (.inl ⟨rfl, rfl⟩)

theorem toBridge_eq_iff_enumeration :
    Property.toBridge ⟨"state", .enumeration "State", false⟩ =
        Property.toBridge ⟨"state", .int64_t, false⟩ ↔
      (isBacklink (.enumeration "State") = true ∧ isBacklink .int64_t = true) ∨
        (isBacklink (.enumeration "State") = false ∧ isBacklink .int64_t = false ∧
          "state" = "state" ∧
          Property.is_primary_key ⟨"state", .enumeration "State", false⟩ =
            Property.is_primary_key ⟨"state", .int64_t, false⟩ ∧
          column (.enumeration "State") = column .int64_t) :=
  toBridge_eq_iff ⟨"state", .enumeration "State", false⟩ ⟨"state", .int64_t, false⟩ rfl rfl
    (by decide) (by decide)

/-- The rule of the enumeration: a link is either an array or can be null. -/
def LinkRule (type : PropertyType) : Prop :=
  baseOf type = .Object → property_has_flag type .Array ≠ property_has_flag type .Nullable

theorem array_code (e : DataType) (n : Bool) (k : Container) :
    property_has_flag (code e n k) .Array = decide (k = .list) := by
  cases e <;> cases n <;> cases k <;> decide

/-- Links keep the rule, but for those of a set. -/
theorem link_rule_iff (p : Property) (hp : p.result.isProperty = true)
    (hlink : p.result.isBacklink = false) :
    LinkRule p.toBridge.type ↔ ∀ cls, p.result ≠ .set (.pointer cls) := by
  rw [toBridge_eq p hp hlink]
  show (baseOf (code _ _ _) = .base .link → property_has_flag (code _ _ _) .Array ≠
    property_has_flag (code _ _ _) .Nullable) ↔ _
  rw [baseOf_code, array_code, nullable_code, base_inj]
  obtain ⟨name, result, key⟩ := p
  have hscalar : ∀ t : Persisted, t.scalarType ≠ .link := by
    intro t
    cases t <;> simp [scalarType]
  -- values are no links, so that the rule says nothing of them
  have hvalue : ∀ u : Persisted, u.isValue = true → ∀ k, (columnOf k u).element ≠ .link := by
    intro u hu k
    rcases isValue_cases hu with h | ⟨u, rfl, -, -⟩
    · rw [columnOf_of_isScalar h]
      exact hscalar u
    · exact hscalar u
  rcases isProperty_cases hp hlink with ⟨cls, rfl | rfl | rfl | rfl⟩ | ⟨u, hu, ht⟩
  · simp [column, columnOf]
  · simp [column, columnOf]
  · simp [column, columnOf]
  · simp [column, columnOf]
  · have helement : result.column.element ≠ .link := by
      rcases ht with rfl | rfl | rfl | rfl | rfl
      · exact hvalue u hu .list
      · exact hvalue u hu .set
      · exact hvalue u hu .dictionary
      · exact hvalue u hu .single
      · rw [column_of_isValue hu]
        exact hvalue _ hu .single
    refine iff_of_true (fun h => absurd h helement) ?_
    rintro cls rfl
    rcases ht with h | h | h | h | rfl
    · cases h
    · obtain rfl := Persisted.set.inj h
      simp [isValue, isScalar] at hu
    · cases h
    · cases h
    · simp [isValue, isScalar] at hu

end Property

end RealmCpp.Schemagen
