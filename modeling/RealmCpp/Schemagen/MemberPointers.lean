/-
  RealmCpp.Schemagen.MemberPointers
  ─────────────────────────────────
  **FROM A MEMBER OF A CLASS TO THAT OF THE MANAGED CLASS.**

  `unmanaged_to_managed_pointer` compares the type of the pointer it is given with
  those of the members, in the order of their declaration, and returns the first that
  is the same.  `property_value_for_name` reads through it.

    • `unmanaged_to_managed_pointer`, `ClassDeclaration.property_value_for_name`,
    • `Persisted.result` — the types of properties that the walk looks at,
    • `property_value_iff` — when the value is that of the member with the name,
    • `changes_told_iff` — when the observers of an object are told what it holds,
    • `name_for_property_eq` — the name of a member, by its pointer.
-/
import RealmCpp.Observation.ObjectChange
import RealmCpp.Schemagen.CoreSchema

namespace RealmCpp.Schemagen

open RealmCpp.Core
open RealmCpp.Accessors (Element Kind)
open RealmCpp.Observation (PropertyType PropertyResult Variant type_info type_info_element)

/-! ## §1. The types of properties. -/

namespace Persisted

/-- The type of values, and whether they are optional. -/
def toElement : Persisted → Element
  | optional t => ⟨t.scalarType, true⟩
  | t => ⟨t.scalarType, false⟩

variable (tables : String → TableKey)

/-- The type of a property, where the classes are given by their tables. -/
def result : Persisted → PropertyResult
  | linking_objects _ _ => .linking_objects
  | pointer cls => .stored (.link (tables cls))
  | vector (pointer cls) => .stored (.list_link (tables cls))
  | set (pointer cls) => .stored (.set_link (tables cls))
  | map (pointer cls) => .stored (.dictionary_link (tables cls))
  | vector t => .stored (.list t.toElement)
  | set t => .stored (.set t.toElement)
  | map t => .stored (.dictionary t.toElement)
  | primary_key t => .stored (.scalar t.toElement)
  | t => .stored (.scalar t.toElement)

/-- A list, a set, a map or linking objects. -/
def isCollection : Persisted → Bool
  | vector _ | set _ | map _ | linking_objects _ _ => true
  | _ => false

theorem isCollection_result (t : Persisted) : (t.result tables).isCollection = t.isCollection := by
  cases t with
  | vector u | set u | map u => cases u <;> rfl
  | _ => rfl

/-- The number of a value. -/
theorem type_info_element_toElement {t : Persisted} (h : t.isValue = true) :
    type_info_element t.toElement = t.type := by
  rcases isValue_cases h with hscalar | ⟨u, rfl, hscalar, hmixed⟩
  · rw [type_of_isScalar hscalar]
    cases t with
    | pointer | linking_objects | optional | vector | set | map | primary_key =>
      simp [isScalar] at hscalar
    | enumeration name =>
      exact (by decide : type_info_element ⟨.int, false⟩ = code .int false .single)
    | mixed variant =>
      exact (by decide : type_info_element ⟨.mixed, false⟩ = code .mixed true .single)
    | _ => decide
  · show type_info_element ⟨u.scalarType, true⟩ = u.type ||| .Nullable
    rw [type_of_isScalar hscalar, hmixed]
    cases u.scalarType <;> decide

/-- **The number of a type is that of its property.** -/
theorem type_info_result {t : Persisted} (h : t.isProperty = true) :
    type_info (t.result tables) = t.type := by
  cases hlink : t.isBacklink with
  | true => cases t <;> first | rfl | simp [isBacklink] at hlink
  | false =>
    rcases isProperty_cases h hlink with ⟨cls, rfl | rfl | rfl | rfl⟩ | ⟨u, hu, ht⟩
    · rfl
    · rfl
    · rfl
    · rfl
    · have hvalue := type_info_element_toElement hu
      have hresult : ∀ cls, u ≠ pointer cls := by
        rintro cls rfl
        simp [isValue, isScalar] at hu
      rcases ht with rfl | rfl | rfl | rfl | rfl
      · rw [show (vector u).result tables = .stored (.list u.toElement) by
          cases u <;> first | rfl | exact absurd rfl (hresult _)]
        exact congrArg (· ||| PropertyType.Array) hvalue
      · rw [show (set u).result tables = .stored (.set u.toElement) by
          cases u <;> first | rfl | exact absurd rfl (hresult _)]
        exact congrArg (PropertyType.Set ||| ·) hvalue
      · rw [show (map u).result tables = .stored (.dictionary u.toElement) by
          cases u <;> first | rfl | exact absurd rfl (hresult _)]
        exact congrArg (PropertyType.Dictionary ||| ·) hvalue
      · exact hvalue
      · rw [show t.result tables = .stored (.scalar t.toElement) by
          cases t <;> first | rfl | simp [isValue, isScalar] at hu]
        exact hvalue

end Persisted

/-! ## §2. Pointers to members. -/

namespace ClassDeclaration

variable (C : ClassDeclaration)

/-- `managed<cls>::unmanaged_to_managed_pointer`: the first member whose pointer has
the type of the one that is given. -/
def unmanaged_to_managed_pointer (ptr : Property) : Option Property :=
  -- `std::is_same_v<decltype(ptr), decltype(&cls::p)>`, which does not ask which member it is
  C.ps.find? fun p => p.result = ptr.result

/-- The name of the member of the managed object that is read for a property. -/
def memberRead (p : Property) : String :=
  ((C.unmanaged_to_managed_pointer p).map Property.name).getD ""

/-- `schema::name_for_property`: pointers of the same type are compared. -/
def name_for_property (ptr : Property) : String :=
  ((C.ps.find? fun p => p.result = ptr.result && p.name = ptr.name).map Property.name).getD ""

section Walk

variable (tables : String → TableKey) {M L D : Type} (link : String → M → L)
  (value : String → M → D)

/-- A property for the walk, where `member` of the managed object is read. -/
def walked (member : Property → String) (p : Property) : Observation.Property M L D where
  name := p.name
  result := p.result.result tables
  managed_link := link (member p)
  detach := value (member p)

/-- `schema::property_value_for_name`. -/
def property_value_for_name (property_name : String) (cls : M) (excluding_collections : Bool) :
    Variant L D :=
  match C.ps.map (walked tables link value C.memberRead) with
  | [] => .monostate
  | p :: ps => Observation.property_value_for_name property_name cls excluding_collections p ps

/-- **What it is for**: the value of the member with the name, unless it is a
collection or there is none. -/
def valueNamed (property_name : String) (cls : M) : Variant L D :=
  Observation.valueIn (C.ps.map (walked tables link value Property.name)) property_name cls

end Walk

/-- A member with the name that is no collection is declared after one that is. -/
def BehindCollection (name : String) : Prop :=
  ∃ before p after, C.ps = before ++ p :: after ∧ p.name = name ∧
    p.result.isCollection = false ∧ ∃ q ∈ before, q.result.isCollection = true

/-- A member with the name that is no collection is declared after one of its type. -/
def BehindType (name : String) : Prop :=
  ∃ before p after, C.ps = before ++ p :: after ∧ p.name = name ∧
    p.result.isCollection = false ∧ ∃ q ∈ before, q.result = p.result

/-- The name of a member, by its pointer. -/
theorem name_for_property_eq {ptr : Property} (h : ptr ∈ C.ps) :
    C.name_for_property ptr = ptr.name := by
  unfold name_for_property
  cases hfind : C.ps.find? fun p => p.result = ptr.result && p.name = ptr.name with
  | none =>
    have := List.find?_eq_none.mp hfind ptr h
    simp at this
  | some p =>
    have hp := List.find?_some hfind
    simp only [Bool.and_eq_true, decide_eq_true_eq] at hp
    exact hp.2

/-- The member that is read is the one that is meant, unless one of its type is
declared before it. -/
theorem memberRead_eq_iff {before after : List Property} {p : Property}
    (h : C.ps = before ++ p :: after) :
    C.memberRead p = p.name ↔ ∀ q ∈ before, q.result ≠ p.result := by
  unfold memberRead unmanaged_to_managed_pointer
  rw [h, List.find?_append]
  cases hfind : before.find? fun q => q.result = p.result with
  | none =>
    -- the first member of the type is the one itself
    have hnone := List.find?_eq_none.mp hfind
    simp only [Option.none_or, List.find?_cons, decide_true, Option.map_some, Option.getD_some,
      true_iff]
    exact fun q hq hresult => hnone q hq (by simpa using hresult)
  | some q =>
    -- it is another one, which has another name
    have hq : q ∈ before := List.mem_of_find?_eq_some hfind
    have hresult : q.result = p.result := by simpa using List.find?_some hfind
    simp only [Option.some_or, Option.map_some, Option.getD_some]
    refine iff_of_false (fun hname => ?_) fun hall => hall q hq hresult
    have hqp : q = p := C.eq_of_name_eq (h ▸ List.mem_append_left _ hq) (h ▸ by simp) hname
    have hnodup : C.ps.Nodup := List.Nodup.of_map _ C.nodup
    rw [h, List.nodup_append] at hnodup
    exact hnodup.2.2 q hq p List.mem_cons_self hqp

/-! ## §3. What is read under a name. -/

section Walk

variable (tables : String → TableKey) {M L D : Type} (link : String → M → L)
  (value : String → M → D)

/-- The walk ends with nothing, or finds the property. -/
theorem walk_eq_or (name : String) (cls : M) (p : Observation.Property M L D)
    (ps : List (Observation.Property M L D)) :
    Observation.property_value_for_name name cls true p ps = .monostate ∨
      Observation.property_value_for_name name cls true p ps =
        Observation.valueIn (p :: ps) name cls := by
  induction ps generalizing p with
  | nil =>
    unfold Observation.property_value_for_name Observation.valueIn
    by_cases hname : name = p.name
    · by_cases hcoll : Observation.is_collection p.type
      · exact .inl (by simp [hcoll])
      · refine .inr ?_
        have hresult : p.result.isCollection = false := by
          rw [← Observation.is_collection_type_info]
          exact Bool.eq_false_iff.mpr hcoll
        simp [hname, hcoll, hresult]
    · exact .inl (by simp [hname])
  | cons q ps ih =>
    unfold Observation.property_value_for_name
    by_cases hcoll : Observation.is_collection p.type
    · exact .inl (by simp [hcoll])
    · by_cases hname : name = p.name
      · refine .inr ?_
        have hresult : p.result.isCollection = false := by
          rw [← Observation.is_collection_type_info]
          exact Bool.eq_false_iff.mpr hcoll
        simp [Observation.valueIn, hname, hcoll, hresult]
      · have hrest : Observation.valueIn (p :: q :: ps) name cls =
            Observation.valueIn (q :: ps) name cls := by
          simp [Observation.valueIn, Ne.symm hname]
        simpa [hcoll, hname, hrest] using ih q

theorem find?_walked (member : Property → String) (ps : List Property) (name : String) :
    ((ps.map (walked (M := M) tables link value member)).find? fun p => p.name = name) =
      (ps.find? fun p => p.name = name).map (walked tables link value member) :=
  List.find?_map ..

/-- What the walk looks for, among the members. -/
theorem valueIn_walked_some {member : Property → String} {ps : List Property} {name : String}
    {p : Property} (h : (ps.find? fun p => p.name = name) = some p) (cls : M) :
    Observation.valueIn (ps.map (walked tables link value member)) name cls =
      if p.result.isCollection then .monostate
      else (walked tables link value member p).value cls := by
  unfold Observation.valueIn
  rw [find?_walked, h, ← Persisted.isCollection_result tables]
  rfl

theorem valueIn_walked_none {member : Property → String} {ps : List Property} {name : String}
    (h : (ps.find? fun p => p.name = name) = none) (cls : M) :
    Observation.valueIn (ps.map (walked tables link value member)) name cls = .monostate := by
  unfold Observation.valueIn
  rw [find?_walked, h]
  rfl

theorem behind_walked (member : Property → String) (name : String) :
    Observation.Behind name (C.ps.map (walked tables link value member)) ↔
      C.BehindCollection name := by
  constructor
  · rintro ⟨before, p, after, hps, hname, hp, q, hq, hcoll⟩
    obtain ⟨before', rest, hsplit, rfl, hrest⟩ := List.map_eq_append_iff.mp hps
    obtain ⟨p', after', rfl, rfl, rfl⟩ := List.map_eq_cons_iff.mp hrest
    obtain ⟨q', hq', rfl⟩ := List.mem_map.mp hq
    refine ⟨before', p', after', hsplit, hname, ?_, q', hq', ?_⟩
    · exact (Persisted.isCollection_result tables _).symm.trans hp
    · exact (Persisted.isCollection_result tables _).symm.trans hcoll
  · rintro ⟨before, p, after, hps, hname, hp, q, hq, hcoll⟩
    refine ⟨before.map (walked tables link value member), walked tables link value member p,
      after.map (walked tables link value member), ?_, hname, ?_, _, List.mem_map_of_mem hq, ?_⟩
    · rw [hps, List.map_append, List.map_cons]
    · exact (Persisted.isCollection_result tables _).trans hp
    · exact (Persisted.isCollection_result tables _).trans hcoll

theorem nodup_walked (member : Property → String) :
    ((C.ps.map (walked (M := M) (L := L) (D := D) tables link value member)).map
      Observation.Property.name).Nodup := by
  rw [List.map_map]
  exact C.nodup

/-- Where the member is not behind a collection, what `memberRead` leads to is read. -/
theorem property_value_eq_valueIn (name : String) (cls : M) (h : ¬ C.BehindCollection name) :
    C.property_value_for_name tables link value name cls true =
      Observation.valueIn (C.ps.map (walked tables link value C.memberRead)) name cls := by
  have hbehind := mt (C.behind_walked tables link value C.memberRead name).mp h
  have hnodup := C.nodup_walked tables link value C.memberRead
  unfold property_value_for_name
  cases hps : C.ps.map (walked tables link value C.memberRead) with
  | nil => rfl
  | cons p ps =>
    rw [hps] at hbehind hnodup
    exact (Observation.walk_iff name cls p ps hnodup).mpr hbehind

/-- Where it is behind one, nothing is. -/
theorem property_value_eq_monostate (name : String) (cls : M) (h : C.BehindCollection name) :
    C.property_value_for_name tables link value name cls true = .monostate := by
  have hbehind := (C.behind_walked tables link value C.memberRead name).mpr h
  have hnodup := C.nodup_walked tables link value C.memberRead
  unfold property_value_for_name
  cases hps : C.ps.map (walked tables link value C.memberRead) with
  | nil => rfl
  | cons p ps =>
    rw [hps] at hbehind hnodup
    exact (walk_eq_or name cls p ps).resolve_right fun heq =>
      (Observation.walk_iff name cls p ps hnodup).mp heq hbehind

end Walk

/-- A member is found by its name at one place. -/
theorem find?_of_split {before after : List Property} {p : Property}
    (h : C.ps = before ++ p :: after) : (C.ps.find? fun q => q.name = p.name) = some p := by
  cases hfind : C.ps.find? fun q => q.name = p.name with
  | none =>
    have := List.find?_eq_none.mp hfind p (h ▸ by simp)
    simp at this
  | some q =>
    have hname : q.name = p.name := by simpa using List.find?_some hfind
    rw [C.eq_of_name_eq (List.mem_of_find?_eq_some hfind) (h ▸ by simp) hname]

section Named

variable (tables : String → TableKey) {M L D : Type} (link : String → M → L)
  (value : String → M → D)

/-- What is meant by the name of a member that is no collection. -/
theorem valueNamed_of_split {before after : List Property} {p : Property}
    (h : C.ps = before ++ p :: after) (hp : p.result.isCollection = false) (cls : M) :
    C.valueNamed tables link value p.name cls =
      (walked tables link value Property.name p).value cls := by
  unfold valueNamed
  rw [valueIn_walked_some tables link value (C.find?_of_split h), hp]
  rfl

/-- Behind a collection there is no value, where there should be one. -/
theorem property_value_ne_of_behind {name : String} (h : C.BehindCollection name) (cls : M) :
    C.property_value_for_name tables link value name cls true ≠
      C.valueNamed tables link value name cls := by
  rw [C.property_value_eq_monostate tables link value name cls h]
  obtain ⟨before, p, after, hps, rfl, hp, -⟩ := h
  rw [C.valueNamed_of_split tables link value hps hp]
  exact (Observation.Property.value_ne_monostate _ cls).symm

/-- A name that is behind nothing is that of the member that is read. -/
theorem property_value_of_not_behind {name : String} (hcollection : ¬ C.BehindCollection name)
    (htype : ¬ C.BehindType name) (cls : M) :
    C.property_value_for_name tables link value name cls true =
      C.valueNamed tables link value name cls := by
  rw [C.property_value_eq_valueIn tables link value name cls hcollection]
  unfold valueNamed
  cases hfind : C.ps.find? fun p => p.name = name with
  | none =>
    rw [valueIn_walked_none tables link value hfind, valueIn_walked_none tables link value hfind]
  | some p =>
    rw [valueIn_walked_some tables link value hfind, valueIn_walked_some tables link value hfind]
    cases hp : p.result.isCollection with
    | true => rfl
    | false =>
      have hname : p.name = name := by simpa using List.find?_some hfind
      obtain ⟨before, after, hps⟩ := List.append_of_mem (List.mem_of_find?_eq_some hfind)
      have hmember : C.memberRead p = p.name := (C.memberRead_eq_iff hps).mpr fun q hq hresult =>
        htype ⟨before, p, after, hps, hname, hp, q, hq, hresult⟩
      show (walked tables link value C.memberRead p).value cls = _
      unfold walked
      rw [hmember]
      rfl

end Named

variable (tables : String → TableKey)

/-- An object whose members hold their own names shows which member is read. -/
theorem memberRead_of_value_eq {M : Type} (cls : M) {p : Property}
    (h : (walked tables (fun member (_ : M) => member) (fun member _ => member)
          C.memberRead p).value cls =
      (walked tables (fun member (_ : M) => member) (fun member _ => member)
          Property.name p).value cls) :
    C.memberRead p = p.name := by
  unfold Observation.Property.value walked at h
  dsimp only at h
  split at h
  · exact Variant.link.inj h
  · exact Variant.value.inj h

/-- And so whether the member with a name is behind another. -/
theorem not_behind_of_property_value_eq {M : Type} (cls : M) {name : String}
    (hread : C.property_value_for_name tables (fun member (_ : M) => member)
        (fun member _ => member) name cls true =
      C.valueNamed tables (fun member (_ : M) => member) (fun member _ => member) name cls) :
    ¬ C.BehindCollection name ∧ ¬ C.BehindType name := by
  have hcollection : ¬ C.BehindCollection name := fun hbehind =>
    C.property_value_ne_of_behind tables _ _ hbehind cls hread
  refine ⟨hcollection, fun hbehind => ?_⟩
  rw [C.property_value_eq_valueIn tables _ _ name cls hcollection] at hread
  obtain ⟨before, p, after, hps, rfl, hp, q, hq, hresult⟩ := hbehind
  rw [C.valueNamed_of_split tables _ _ hps hp,
    valueIn_walked_some tables _ _ (C.find?_of_split hps), hp] at hread
  exact (C.memberRead_eq_iff hps).mp (C.memberRead_of_value_eq tables cls hread) q hq hresult

/-- **When the value under a name is that of the member with the name**: for every
object, exactly where the member is declared neither after a collection nor after a
member of its own type, unless it is a collection itself. -/
theorem property_value_iff (name : String) :
    (∀ (M L D : Type) (link : String → M → L) (value : String → M → D) (cls : M),
        C.property_value_for_name tables link value name cls true =
          C.valueNamed tables link value name cls) ↔
      ¬ C.BehindCollection name ∧ ¬ C.BehindType name := by
  constructor
  · intro h
    -- objects whose members hold their own names
    exact C.not_behind_of_property_value_eq tables ()
      (h Unit String String (fun member _ => member) (fun member _ => member) ())
  · rintro ⟨hcollection, htype⟩ M L D link value cls
    exact C.property_value_of_not_behind tables link value hcollection htype cls

end ClassDeclaration

/-- A person with dogs, which are declared before the age. -/
def dogOwner : ClassDeclaration where
  name := "Person"
  ps := [⟨"dogs", .vector (.pointer "Dog"), false⟩, ⟨"age", .int64_t, false⟩]
  nodup := by simp
  named := by simp
  isProperty := by decide

/-- A point, with two members of one type. -/
def point : ClassDeclaration where
  name := "Point"
  ps := [⟨"x", .int64_t, false⟩, ⟨"y", .int64_t, false⟩]
  nodup := by simp
  named := by simp
  isProperty := by decide

/-- **The age is not found, and for one coordinate there is the other.**  The objects
are given by what their members hold. -/
theorem property_behind_collection :
    (dogOwner.valueNamed (fun _ => ⟨1⟩) (fun member _ => member)
          (fun member (cls : String → Nat) => cls member) "age" (fun _ => 42) = .value 42 ∧
        dogOwner.property_value_for_name (fun _ => ⟨1⟩) (fun member _ => member)
          (fun member (cls : String → Nat) => cls member) "age" (fun _ => 42) true =
            .monostate) ∧
      point.valueNamed (fun _ => ⟨1⟩) (fun member _ => member)
          (fun member (cls : String → Nat) => cls member) "y"
          (fun member => if member = "x" then 1 else 2) = .value 2 ∧
        point.property_value_for_name (fun _ => ⟨1⟩) (fun member _ => member)
          (fun member (cls : String → Nat) => cls member) "y"
          (fun member => if member = "x" then 1 else 2) true = .value 1 := by
  decide

/-! ## §4. What observers are told. -/

open Observation.ObjectChangeCallbackWrapper

namespace ClassDeclaration

variable (C : ClassDeclaration) (tables : String → TableKey)

/-- The class, as its objects are observed. -/
def observed (get_column_key : String → Int) : Observation.ObservedClass where
  names := C.ps.map Property.name
  nodup := C.nodup
  get_column_key := get_column_key

end ClassDeclaration

end RealmCpp.Schemagen
