/-
  RealmCpp.Observation.PropertyValue
  ──────────────────────────────────
  **PROPERTIES BY NAME.**

  A schema walks its tuple of properties for the one with a name.  Collections are
  left out, and the walk asks whether a property is one before it looks at the name.
  Which member is read for a property is the matter of the class.

    • `type_info` — the type flags of a property, `is_collection_type_info`,
    • `property_value_for_name` — the walk,
    • `valueIn` — what it is for, where each property is read as it stands,
    • `walk_iff` — when it answers that.
-/
import RealmCpp.Accessors.Object

namespace RealmCpp.Observation

open RealmCpp.Core
open RealmCpp.Accessors (Element Kind)

/-! ## §1. Type flags. -/

/-- `bridge::property::type`: one of the base types, and flags. -/
abbrev PropertyType := BitVec 16

namespace PropertyType

def Object : PropertyType := 7

def LinkingObjects : PropertyType := 8

def Nullable : PropertyType := 64

def Array : PropertyType := 128

def Set : PropertyType := 256

def Dictionary : PropertyType := 512

/-- The base type of a value. -/
def base : DataType → PropertyType
  | .int => 0
  | .bool => 1
  | .string => 2
  | .binary => 3
  | .timestamp => 4
  | .double => 6
  | .link => Object
  | .mixed => 9
  | .object_id => 10
  | .decimal128 => 11
  | .uuid => 12

end PropertyType

/-- `property_has_flag`. -/
def property_has_flag (property flag : PropertyType) : Bool :=
  property &&& flag != 0#16

/-- What a property is declared as: a stored type, or the objects that link to
the object. -/
inductive PropertyResult where
  | stored (k : Kind)
  | linking_objects
  deriving DecidableEq, Repr

/-- `type_info<T>::type` of the values.  A mixed value can always be null. -/
def type_info_element (e : Element) : PropertyType :=
  if e.optional || e.type = .mixed then .base e.type ||| .Nullable else .base e.type

/-- `type_info<T>::type`. -/
def type_info : PropertyResult → PropertyType
  | .stored (.scalar e) => type_info_element e
  | .stored (.list e) => type_info_element e ||| .Array
  | .stored (.set e) => .Set ||| type_info_element e
  | .stored (.dictionary e) => .Dictionary ||| type_info_element e
  | .stored (.link _) => .Object
  | .stored (.list_link _) => .Object ||| .Array
  | .stored (.set_link _) => .Set ||| .Object
  | .stored (.dictionary_link _) => .Dictionary ||| .Object
  | .linking_objects => .LinkingObjects ||| .Array

/-- The test of the walk: an array, a dictionary or a set, by the flags. -/
def is_collection (type : PropertyType) : Bool :=
  let is_array := property_has_flag type .Array
  let is_dictionary := property_has_flag type .Dictionary
  let is_set := property_has_flag type .Set
  is_array || is_dictionary || is_set

/-- An array, a dictionary or a set, by the declaration. -/
def PropertyResult.isCollection : PropertyResult → Bool
  | stored (.scalar _) | stored (.link _) => false
  | _ => true

/-- A flag of one of two types is a flag of both together. -/
theorem property_has_flag_or (a b flag : PropertyType) :
    property_has_flag (a ||| b) flag = (property_has_flag a flag || property_has_flag b flag) := by
  have hand : (a ||| b) &&& flag = (a &&& flag) ||| (b &&& flag) := BitVec.and_or_distrib_right
  unfold property_has_flag
  rw [hand, Bool.eq_iff_iff]
  simp only [bne_iff_ne, Bool.or_eq_true, ne_eq, BitVec.or_eq_zero_iff]
  tauto

theorem is_collection_or (a b : PropertyType) :
    is_collection (a ||| b) = (is_collection a || is_collection b) := by
  unfold is_collection
  simp only [property_has_flag_or]
  grind

/-- A value is no collection. -/
theorem is_collection_type_info_element (e : Element) :
    is_collection (type_info_element e) = false := by
  have hbase : is_collection (.base e.type) = false := by
    cases e.type <;> decide
  have hnull : is_collection .Nullable = false := by decide
  unfold type_info_element
  split
  · rw [is_collection_or, hbase, hnull]
    rfl
  · exact hbase

/-- **The flags are those of the declaration.** -/
theorem is_collection_type_info (r : PropertyResult) :
    is_collection (type_info r) = r.isCollection := by
  have harray : is_collection .Array = true := by decide
  have hset : is_collection .Set = true := by decide
  have hdictionary : is_collection .Dictionary = true := by decide
  have hobject : is_collection .Object = false := by decide
  cases r with
  | linking_objects => decide
  | stored k =>
    cases k <;> unfold type_info PropertyResult.isCollection <;>
      simp only [is_collection_or, is_collection_type_info_element, harray, hset, hdictionary,
        hobject, Bool.or_true, Bool.true_or]

/-! ## §2. The walk. -/

/-- `variant_t`: nothing, a managed link, or a detached value. -/
inductive Variant (L D : Type) where
  | monostate
  | link (l : L)
  | value (d : D)
  deriving DecidableEq, Repr

/-- A property as the walk goes past it: its name and type, and what is made of the
member of a managed object that is read for it. -/
structure Property (M L D : Type) where
  name : String
  result : PropertyResult
  managed_link : M → L
  detach : M → D

namespace Property

variable {M L D : Type}

def type (p : Property M L D) : PropertyType := type_info p.result

/-- The managed link where the type is a pointer, else the detached value. -/
def value (p : Property M L D) (cls : M) : Variant L D :=
  match p.result with
  | .stored (.link _) => .link (p.managed_link cls)
  | _ => .value (p.detach cls)

theorem value_ne_monostate (p : Property M L D) (cls : M) : p.value cls ≠ .monostate := by
  unfold value
  split <;> simp

end Property

section Walk

variable {M L D : Type} (property_name : String) (cls : M) (excluding_collections : Bool)

/-- `property_value_for_name<N>`, at a property and those declared after it. -/
def property_value_for_name : Property M L D → List (Property M L D) → Variant L D
  | property, [] =>
      if excluding_collections && is_collection property.type then .monostate
      else if property_name = property.name then property.value cls
      else .monostate
  | property, next :: rest =>
      if excluding_collections && is_collection property.type then .monostate
      else if property_name = property.name then property.value cls
      else property_value_for_name next rest

end Walk

/-! ## §3. When it finds the property. -/

section Walk

variable {M L D : Type}

/-- **What the walk is for**: the value of the property with the name, unless it
is a collection or there is none. -/
def valueIn (ps : List (Property M L D)) (name : String) (cls : M) : Variant L D :=
  match ps.find? fun p => p.name = name with
  | some p => if p.result.isCollection then .monostate else p.value cls
  | none => .monostate

/-- A property with the name that is no collection, declared after one that is. -/
def Behind (name : String) (ps : List (Property M L D)) : Prop :=
  ∃ before p after, ps = before ++ p :: after ∧ p.name = name ∧
    p.result.isCollection = false ∧ ∃ q ∈ before, q.result.isCollection = true

/-- The first property is what the others are behind, or not. -/
theorem behind_cons (name : String) (p : Property M L D) (ps : List (Property M L D)) :
    Behind name (p :: ps) ↔
      Behind name ps ∨ p.result.isCollection = true ∧
        ∃ q ∈ ps, q.name = name ∧ q.result.isCollection = false := by
  constructor
  · rintro ⟨before, q, after, heq, hname, hq, c, hc, hcoll⟩
    cases before with
    | nil => simp at hc
    | cons p' before =>
      obtain ⟨rfl, rfl⟩ := List.cons_eq_cons.mp heq
      rcases List.mem_cons.mp hc with rfl | hc
      · exact .inr ⟨hcoll, q, by simp, hname, hq⟩
      · exact .inl ⟨before, q, after, rfl, hname, hq, c, hc, hcoll⟩
  · rintro (⟨before, q, after, rfl, hname, hq, c, hc, hcoll⟩ | ⟨hp, q, hq, hname, hcoll⟩)
    · exact ⟨p :: before, q, after, rfl, hname, hq, c, List.mem_cons_of_mem _ hc, hcoll⟩
    · obtain ⟨before, after, rfl⟩ := List.append_of_mem hq
      exact ⟨p :: before, q, after, rfl, hname, hcoll, p, List.mem_cons_self, hp⟩

/-- A name that no property has is behind none. -/
theorem not_behind_of_ne {name : String} {ps : List (Property M L D)}
    (h : ∀ p ∈ ps, p.name ≠ name) : ¬ Behind name ps := by
  rintro ⟨before, p, after, rfl, hname, -⟩
  exact h p (by simp) hname

/-- The value of a name is the empty one where no property has it, but for
collections. -/
theorem valueIn_eq_monostate_iff {ps : List (Property M L D)}
    (hps : (ps.map Property.name).Nodup) (name : String) (cls : M) :
    valueIn ps name cls = .monostate ↔
      ¬ ∃ p ∈ ps, p.name = name ∧ p.result.isCollection = false := by
  unfold valueIn
  induction ps with
  | nil => simp
  | cons p ps ih =>
    obtain ⟨hp, hps⟩ := List.nodup_cons.mp hps
    by_cases hname : p.name = name
    · -- the others have other names
      have hne : ∀ q ∈ ps, q.name ≠ name := fun q hq h =>
        hp (List.mem_map.mpr ⟨q, hq, h.trans hname.symm⟩)
      cases hcoll : p.result.isCollection with
      | true => simp_all
      | false => simp [hname, hcoll, p.value_ne_monostate]
    · simpa [hname] using ih hps

/-- One step of the walk, where `rest` is what comes of the properties after it. -/
theorem step_iff {name : String} {cls : M} {p : Property M L D} {ps : List (Property M L D)}
    {rest : Variant L D} (hps : ((p :: ps).map Property.name).Nodup)
    (hrest : rest = valueIn ps name cls ↔ ¬ Behind name ps) :
    (if true && is_collection p.type then .monostate
      else if name = p.name then p.value cls else rest) = valueIn (p :: ps) name cls
      ↔ ¬ Behind name (p :: ps) := by
  have htype : is_collection p.type = p.result.isCollection := is_collection_type_info p.result
  rw [behind_cons, htype, Bool.true_and]
  cases hcoll : p.result.isCollection with
  | true =>
    -- the walk ends here, whatever the name is
    have hempty := valueIn_eq_monostate_iff hps name cls
    have hbehind : Behind name ps → ∃ q ∈ ps, q.name = name ∧ q.result.isCollection = false := by
      rintro ⟨before, q, after, rfl, hname, hq, -⟩
      exact ⟨q, by simp, hname, hq⟩
    rw [if_pos rfl, eq_comm, hempty]
    simp only [List.mem_cons, exists_eq_or_imp, hcoll, Bool.true_eq_false, and_false, false_or,
      true_and]
    exact not_congr (or_iff_right_of_imp hbehind).symm
  | false =>
    rw [if_neg Bool.false_ne_true]
    by_cases hname : p.name = name
    · -- it is found here, and no other property has the name
      have hne : ∀ q ∈ ps, q.name ≠ name := fun q hq h =>
        (List.nodup_cons.mp hps).1 (List.mem_map.mpr ⟨q, hq, h.trans hname.symm⟩)
      simp [valueIn, hname, hcoll, not_behind_of_ne hne]
    · have hvalue : valueIn (p :: ps) name cls = valueIn ps name cls := by
        simp [valueIn, hname]
      rw [if_neg (Ne.symm hname), hvalue, hrest]
      simp

/-- **When the walk finds the property**: unless it is declared behind a collection. -/
theorem walk_iff (name : String) (cls : M) (p : Property M L D) (ps : List (Property M L D))
    (hps : ((p :: ps).map Property.name).Nodup) :
    property_value_for_name name cls true p ps = valueIn (p :: ps) name cls
      ↔ ¬ Behind name (p :: ps) := by
  induction ps generalizing p with
  | nil =>
    have hnil : (Variant.monostate : Variant L D) = valueIn [] name cls ↔
        ¬ Behind name ([] : List (Property M L D)) :=
      ⟨fun _ => not_behind_of_ne (by simp), fun _ => rfl⟩
    exact step_iff hps hnil
  | cons q ps ih => exact step_iff hps (ih q (List.nodup_cons.mp hps).2)

end Walk

end RealmCpp.Observation
