/-
  RealmCpp.Schemagen.CoreSchema
  ─────────────────────────────
  **FROM A CLASS TO THE SCHEMA OF THE CORE.**

  `schema` notes the name of a primary key while it walks its properties, and looks
  for one with a type again when an object is stored.  `to_core_schema` passes the
  properties on, and every class puts its schema into `db::schemas` once.

    • `Schema.to_core_schema` — the conversion of a class,
    • `core_schema_columns` — what the core finds under a name,
    • `core_schema_consistent_iff` — whether the keys that are noted, flagged and
      stored are one,
    • `open_all_perm` — opening with no classes is opening with all of them.
-/
import RealmCpp.Schemagen.PropertyTypes

namespace RealmCpp.Schemagen

open RealmCpp.Core
open RealmCpp.Observation

/-! ## §1. Classes. -/

/-- `realm::ObjectType`. -/
inductive ObjectType where
  | None
  | TopLevel
  | Embedded
  | Asymmetric
  deriving DecidableEq, Repr

/-- `object_schema::object_type`. -/
inductive TableType where
  | TopLevel
  | Embedded
  | TopLevelAsymmetric
  deriving DecidableEq, Repr

/-- `bridge::object_schema`, which is the core's. -/
structure ObjectSchema where
  name : String := ""
  persisted_properties : List BridgeProperty := []
  primary_key : String := ""
  table_type : TableType := .TopLevel
  deriving DecidableEq, Repr

namespace ObjectSchema

def add_property (o : ObjectSchema) (p : BridgeProperty) : ObjectSchema :=
  { o with persisted_properties := o.persisted_properties ++ [p] }

def set_primary_key (o : ObjectSchema) (primary_key : String) : ObjectSchema :=
  { o with primary_key := primary_key }

def set_object_type (o : ObjectSchema) (t : TableType) : ObjectSchema := { o with table_type := t }

/-- `object_schema::property_for_name`; none where the core has no such property. -/
def property_for_name (o : ObjectSchema) (name : String) : Option BridgeProperty :=
  o.persisted_properties.find? fun p => p.name = name

end ObjectSchema

/-- `schemagen::schema`. -/
structure Schema where
  name : String
  ps : List Property
  m_object_type : ObjectType := .None
  deriving DecidableEq, Repr

namespace Schema

variable (S : Schema)

/-- What `do_apply_name` leaves in `primary_key_name`: each primary key replaces the
one before. -/
def primary_key_name : String :=
  S.ps.foldl (fun name p => if p.is_primary_key then p.name else name) ""

/-- `schema::primary_key`, which stops at the first. -/
def primary_key : Option Property := S.ps.find? Property.is_primary_key

/-- `HasPrimaryKeyProperty`. -/
def hasPrimaryKeyProperty : Bool := S.primary_key.isSome

/-- `schema::is_embedded`. -/
def is_embedded : Bool := S.m_object_type = .Embedded

/-- The lambda of `to_core_schema`. -/
def add_property (schema : ObjectSchema) (p : BridgeProperty) : ObjectSchema :=
  if p.name ≠ "" then schema.add_property p else schema

/-- `schema::to_core_schema`. -/
def to_core_schema : ObjectSchema :=
  let schema : ObjectSchema := { name := S.name }
  let schema := (S.ps.map Property.toBridge).foldl add_property schema
  let schema :=
    if S.hasPrimaryKeyProperty then schema.set_primary_key S.primary_key_name else schema
  let schema := if S.m_object_type = .Embedded then schema.set_object_type .Embedded else schema
  if S.m_object_type = .Asymmetric then schema.set_object_type .TopLevelAsymmetric else schema

end Schema

/-- **A class that was declared**: its members have names of their own, and types
that there is a `managed` of. -/
structure ClassDeclaration extends Schema where
  nodup : (ps.map Property.name).Nodup
  named : ∀ p ∈ ps, p.name ≠ ""
  isProperty : ∀ p ∈ ps, p.result.isProperty = true

/-! ## §2. The properties. -/

theorem persisted_foldl (ps : List BridgeProperty) (o : ObjectSchema) :
    (ps.foldl Schema.add_property o).persisted_properties =
      o.persisted_properties ++ ps.filter fun p => p.name ≠ "" := by
  induction ps generalizing o with
  | nil => simp
  | cons p ps ih =>
    rw [List.foldl_cons, ih, List.filter_cons]
    unfold Schema.add_property
    by_cases hp : p.name = ""
    · simp [hp]
    · simp [hp, ObjectSchema.add_property]

namespace Schema

variable (S : Schema)

theorem persisted_to_core_schema :
    S.to_core_schema.persisted_properties =
      (S.ps.map Property.toBridge).filter fun p => p.name ≠ "" := by
  have hfold := persisted_foldl (S.ps.map Property.toBridge) { name := S.name }
  rw [List.nil_append] at hfold
  rw [← hfold]
  unfold to_core_schema
  dsimp only
  split <;> split <;> split <;> rfl

theorem primary_key_foldl (ps : List BridgeProperty) (o : ObjectSchema) :
    (ps.foldl add_property o).primary_key = o.primary_key := by
  induction ps generalizing o with
  | nil => rfl
  | cons p ps ih =>
    rw [List.foldl_cons, ih]
    unfold add_property
    split <;> rfl

theorem primary_key_to_core_schema :
    S.to_core_schema.primary_key =
      if S.hasPrimaryKeyProperty then S.primary_key_name else "" := by
  have hfold := primary_key_foldl (S.ps.map Property.toBridge) { name := S.name }
  unfold to_core_schema
  dsimp only
  split <;> split <;> split <;> first | rfl | exact hfold

/-- The name that is noted is that of the last primary key. -/
theorem primary_key_name_eq :
    S.primary_key_name =
      ((S.ps.filter Property.is_primary_key).getLast?.map Property.name).getD "" := by
  have hfold : ∀ (ps : List Property) (name : String),
      ps.foldl (fun name p => if p.is_primary_key then p.name else name) name =
        ((ps.filter Property.is_primary_key).getLast?.map Property.name).getD name := by
    intro ps
    induction ps with
    | nil => intro name; rfl
    | cons p ps ih =>
      intro name
      rw [List.foldl_cons, ih, List.filter_cons]
      by_cases hp : p.is_primary_key
      · rw [if_pos hp, if_pos hp, List.getLast?_cons]
        cases (ps.filter Property.is_primary_key).getLast? <;> rfl
      · rw [if_neg hp, if_neg hp]
  exact hfold S.ps ""

end Schema

namespace ClassDeclaration

variable (C : ClassDeclaration)

/-- The members that are stored: all but linking objects. -/
def stored : List Property := C.ps.filter fun p => !p.result.isBacklink

theorem mem_stored {p : Property} : p ∈ C.stored ↔ p ∈ C.ps ∧ p.result.isBacklink = false := by
  simp [stored]

/-- The bridge property of a member that is stored has its name, and that of linking
objects has none. -/
theorem name_toBridge {p : Property} (hp : p ∈ C.ps) :
    p.toBridge.name = if p.result.isBacklink then "" else p.name := by
  cases hlink : p.result.isBacklink with
  | false => rw [p.toBridge_eq (C.isProperty p hp) hlink]; rfl
  | true =>
    obtain ⟨name, result, key⟩ := p
    cases result <;> first | rfl | simp [Persisted.isBacklink] at hlink

theorem persisted_properties_eq :
    C.to_core_schema.persisted_properties = C.stored.map Property.toBridge := by
  rw [C.persisted_to_core_schema, List.filter_map]
  refine congrArg (List.map _) (List.filter_congr fun p hp => ?_)
  have hname := C.named p hp
  simp only [Function.comp_apply, C.name_toBridge hp]
  cases p.result.isBacklink <;> simp [hname]

/-- **What the core finds under a name**: the column that the member with the name
stands for, and nothing where there is none or it is linking objects. -/
theorem core_schema_columns (name : String) :
    C.to_core_schema.property_for_name name =
      (C.stored.find? fun p => p.name = name).map fun p =>
        ⟨p.name, p.result.column.type, p.result.column.target, p.is_primary_key⟩ := by
  unfold ObjectSchema.property_for_name
  rw [C.persisted_properties_eq, List.find?_map]
  have hbridge : ∀ p ∈ C.stored, p.toBridge =
      ⟨p.name, p.result.column.type, p.result.column.target, p.is_primary_key⟩ := fun p hp =>
    p.toBridge_eq (C.isProperty p (C.mem_stored.mp hp).1) (C.mem_stored.mp hp).2
  have hfind : C.stored.find? ((fun p : BridgeProperty => decide (p.name = name)) ∘
      Property.toBridge) = C.stored.find? fun p => p.name = name := by
    rw [← List.head?_filter, ← List.head?_filter]
    refine congrArg List.head? (List.filter_congr fun p hp => ?_)
    simp only [Function.comp_apply, hbridge p hp]
  rw [hfind]
  refine Option.map_congr fun p hp => ?_
  exact hbridge p (List.mem_of_find?_eq_some hp)

/-! ## §3. Keys. -/

/-- **The keys are one**: the core's schema has the key that the values are stored
under, flags it and no other, and has a column for it. -/
structure KeysAgree (o : ObjectSchema) : Prop where
  stored : (C.primary_key.map Property.name).getD "" = o.primary_key
  flagged : ∀ p ∈ o.persisted_properties, p.is_primary = true → p.name = o.primary_key
  column : o.primary_key ≠ "" →
    ∃ p ∈ o.persisted_properties, p.name = o.primary_key ∧ p.is_primary = true

/-- The primary keys of the declaration. -/
def keys : List Property := C.ps.filter Property.is_primary_key

theorem mem_keys {p : Property} : p ∈ C.keys ↔ p ∈ C.ps ∧ p.is_primary_key = true := by
  simp [keys]

theorem nodup_keys : C.keys.Nodup := (List.Nodup.of_map _ C.nodup).filter _

theorem primary_key_eq_head : C.primary_key = C.keys.head? := List.head?_filter.symm

theorem core_primary_key :
    C.to_core_schema.primary_key = (C.keys.getLast?.map Property.name).getD "" := by
  rw [C.primary_key_to_core_schema, C.primary_key_name_eq]
  unfold Schema.hasPrimaryKeyProperty
  rw [C.primary_key_eq_head]
  show _ = (C.keys.getLast?.map Property.name).getD ""
  cases hkeys : C.keys with
  | nil => rfl
  | cons p ps =>
    rw [List.head?_cons, Option.isSome_some, if_pos rfl]
    exact congrArg (fun l => (List.getLast? l |>.map Property.name).getD "") hkeys

/-- A member that is a key has a flag where it is stored. -/
theorem flagged_iff {b : BridgeProperty} :
    (b ∈ C.to_core_schema.persisted_properties ∧ b.is_primary = true) ↔
      ∃ p ∈ C.keys, p.result.isBacklink = false ∧ p.toBridge = b := by
  rw [C.persisted_properties_eq, List.mem_map]
  constructor
  · rintro ⟨⟨p, hp, rfl⟩, hkey⟩
    obtain ⟨hmem, hlink⟩ := C.mem_stored.mp hp
    rw [p.toBridge_eq (C.isProperty p hmem) hlink] at hkey
    exact ⟨p, C.mem_keys.mpr ⟨hmem, hkey⟩, hlink, rfl⟩
  · rintro ⟨p, hp, hlink, rfl⟩
    obtain ⟨hmem, hkey⟩ := C.mem_keys.mp hp
    refine ⟨⟨p, C.mem_stored.mpr ⟨hmem, hlink⟩, rfl⟩, ?_⟩
    rw [p.toBridge_eq (C.isProperty p hmem) hlink]
    exact hkey

/-- Two members with one name are one. -/
theorem eq_of_name_eq {p q : Property} (hp : p ∈ C.ps) (hq : q ∈ C.ps) (h : p.name = q.name) :
    p = q := List.inj_on_of_nodup_map C.nodup hp hq h

/-- A key that is stored keeps its name. -/
theorem name_toBridge_of_key {p : Property} (hp : p ∈ C.keys)
    (hlink : p.result.isBacklink = false) : p.toBridge.name = p.name := by
  rw [C.name_toBridge (C.mem_keys.mp hp).1, hlink]
  rfl

/-- Where the core's key is that of the values, the last key is the first one, and no
member stands twice. -/
theorem keys_eq_singleton {k : Property} {ks : List Property} (hkeys : C.keys = k :: ks)
    (h : (C.primary_key.map Property.name).getD "" = C.to_core_schema.primary_key) :
    ks = [] := by
  obtain ⟨last, hlast⟩ : ∃ last, (k :: ks).getLast? = some last :=
    Option.isSome_iff_exists.mp (by simp [List.getLast?_isSome])
  have hk : k ∈ C.ps := (C.mem_keys.mp (hkeys ▸ List.mem_cons_self)).1
  have hmem : last ∈ C.ps := (C.mem_keys.mp (hkeys ▸ List.mem_of_getLast? hlast)).1
  rw [C.core_primary_key, C.primary_key_eq_head, hkeys, hlast] at h
  have hkl : k = last := C.eq_of_name_eq hk hmem h
  have hnodup := C.nodup_keys
  rw [hkeys] at hnodup
  cases ks with
  | nil => rfl
  | cons k' ks =>
    rw [List.getLast?_cons_cons] at hlast
    exact absurd (hkl ▸ List.mem_of_getLast? hlast) (List.nodup_cons.mp hnodup).1

/-- The core's key, where there is one. -/
theorem core_primary_key_singleton {k : Property} (hkeys : C.keys = [k]) :
    C.to_core_schema.primary_key = k.name := by
  rw [C.core_primary_key, hkeys]
  rfl

/-- Without a key there is nothing to agree on. -/
theorem keysAgree_nil (hkeys : C.keys = []) : C.KeysAgree C.to_core_schema := by
  have hprimary : C.to_core_schema.primary_key = "" := by
    rw [C.core_primary_key, hkeys]
    rfl
  refine ⟨?_, fun b hb hflag => ?_, fun hne => absurd hprimary hne⟩
  · rw [hprimary, C.primary_key_eq_head, hkeys]
    rfl
  · obtain ⟨p, hp, -⟩ := C.flagged_iff.mp ⟨hb, hflag⟩
    rw [hkeys] at hp
    cases hp

/-- One key, which is stored. -/
theorem keysAgree_singleton {k : Property} (hkeys : C.keys = [k])
    (hlink : k.result.isBacklink = false) : C.KeysAgree C.to_core_schema := by
  have hprimary := C.core_primary_key_singleton hkeys
  have hk : k ∈ C.keys := hkeys ▸ List.mem_cons_self
  refine ⟨?_, fun b hb hflag => ?_, fun _ => ?_⟩
  · rw [hprimary, C.primary_key_eq_head, hkeys]
    rfl
  · -- what is flagged is a key, of which there is one
    obtain ⟨p, hp, hplink, rfl⟩ := C.flagged_iff.mp ⟨hb, hflag⟩
    have hpk : p = k := by
      rw [hkeys] at hp
      exact List.mem_singleton.mp hp
    rw [C.name_toBridge_of_key hp hplink, hpk, hprimary]
  · obtain ⟨hmem, hflag⟩ := C.flagged_iff.mpr ⟨k, hk, hlink, rfl⟩
    exact ⟨k.toBridge, hmem, by rw [C.name_toBridge_of_key hk hlink, hprimary], hflag⟩

/-- **The keys are one exactly where one member at most is declared as the key, and it
is not linking objects.** -/
theorem core_schema_consistent_iff :
    C.KeysAgree C.to_core_schema ↔
      C.keys.length ≤ 1 ∧ ∀ p ∈ C.keys, p.result.isBacklink = false := by
  cases hkeys : C.keys with
  | nil => exact iff_of_true (C.keysAgree_nil hkeys) ⟨Nat.zero_le 1, nofun⟩
  | cons k ks =>
    constructor
    · intro h
      obtain rfl := C.keys_eq_singleton hkeys h.stored
      have hk : k ∈ C.keys := hkeys ▸ List.mem_cons_self
      have hprimary := C.core_primary_key_singleton hkeys
      -- the column of the key is that of a member that is stored
      obtain ⟨b, hb, hname, hflag⟩ := h.column (hprimary ▸ C.named k (C.mem_keys.mp hk).1)
      obtain ⟨p, hp, hplink, rfl⟩ := C.flagged_iff.mp ⟨hb, hflag⟩
      have hpk : p = k := by
        refine C.eq_of_name_eq (C.mem_keys.mp hp).1 (C.mem_keys.mp hk).1 ?_
        rw [← C.name_toBridge_of_key hp hplink, hname, hprimary]
      refine ⟨Nat.le_refl 1, fun q hq => ?_⟩
      rw [List.mem_singleton.mp hq, ← hpk]
      exact hplink
    · rintro ⟨hlength, hlinks⟩
      have hks : ks = [] := List.length_eq_zero_iff.mp (Nat.le_zero.mp (Nat.le_of_succ_le_succ
        hlength))
      rw [hks] at hkeys
      exact C.keysAgree_singleton hkeys (hlinks k List.mem_cons_self)

end ClassDeclaration

/-! ## §4. The classes of a program. -/

/-- The constructor of `meta_schema`: a schema is found by its name. -/
def meta_schema (schemas : List ObjectSchema) (s : ObjectSchema) : List ObjectSchema :=
  if schemas.any fun o => o.name = s.name then schemas else schemas ++ [s]

/-- `db::schemas` after the constructors of a program, one for each class and each
translation unit that includes it. -/
def registered (units : List ClassDeclaration) : List ObjectSchema :=
  (units.map fun C => C.to_core_schema).foldl meta_schema []

theorem name_to_core_schema (S : Schema) : S.to_core_schema.name = S.name := by
  have hfold : ∀ (ps : List BridgeProperty) (o : ObjectSchema),
      (ps.foldl Schema.add_property o).name = o.name := by
    intro ps
    induction ps with
    | nil => intro o; rfl
    | cons p ps ih =>
      intro o
      rw [List.foldl_cons, ih]
      unfold Schema.add_property
      split <;> rfl
  have hstart := hfold (S.ps.map Property.toBridge) { name := S.name }
  unfold Schema.to_core_schema
  dsimp only
  split <;> split <;> split <;> exact hstart

/-- Each name is registered once, by the first schema that has it. -/
theorem meta_schema_foldl (us : List ObjectSchema) (schemas : List ObjectSchema)
    (hschemas : (schemas.map ObjectSchema.name).Nodup)
    (hus : ∀ u ∈ us, ∀ o ∈ us ++ schemas, o.name = u.name → o = u) :
    ((us.foldl meta_schema schemas).map ObjectSchema.name).Nodup ∧
      ∀ o, o ∈ us.foldl meta_schema schemas ↔ o ∈ schemas ∨ o ∈ us := by
  induction us generalizing schemas with
  | nil => exact ⟨hschemas, by simp⟩
  | cons u us ih =>
    have hsame : ∀ o ∈ schemas, o.name = u.name → o = u := fun o ho =>
      hus u List.mem_cons_self o (List.mem_append_right _ ho)
    rw [List.foldl_cons]
    by_cases hany : schemas.any fun o => o.name = u.name
    · -- the class is there, and it is this one
      obtain ⟨o, ho, hname⟩ := List.any_eq_true.mp hany
      obtain rfl := hsame o ho (by simpa using hname)
      rw [show meta_schema schemas o = schemas from if_pos hany]
      obtain ⟨hnodup, hmem⟩ := ih schemas hschemas fun v hv w hw => by
        refine hus v (List.mem_cons_of_mem _ hv) w ?_
        simp only [List.mem_append, List.mem_cons] at hw ⊢
        tauto
      refine ⟨hnodup, fun v => ?_⟩
      rw [hmem, List.mem_cons]
      constructor
      · tauto
      · rintro (hv | rfl | hv)
        · exact .inl hv
        · exact .inl ho
        · exact .inr hv
    · -- it is the first of its name
      rw [show meta_schema schemas u = schemas ++ [u] from if_neg hany]
      have hnew : (List.map ObjectSchema.name (schemas ++ [u])).Nodup := by
        rw [List.map_append, List.nodup_append]
        refine ⟨hschemas, List.nodup_singleton _, ?_⟩
        rintro name hmem name' hname' rfl
        obtain ⟨o, ho, rfl⟩ := List.mem_map.mp hmem
        exact hany (List.any_eq_true.mpr ⟨o, ho, by simpa using hname'⟩)
      obtain ⟨hnodup, hmem⟩ := ih (schemas ++ [u]) hnew fun v hv w hw => by
        refine hus v (List.mem_cons_of_mem _ hv) w ?_
        simp only [List.mem_append, List.mem_cons, List.not_mem_nil, or_false] at hw ⊢
        tauto
      refine ⟨hnodup, fun v => ?_⟩
      rw [hmem]
      simp only [List.mem_append, List.mem_cons, List.not_mem_nil, or_false]
      tauto

/-- What is in `db::schemas`: each class of the program once, in whatever order and
however often the constructors ran. -/
theorem registered_perm (classes units : List ClassDeclaration)
    (hclasses : (classes.map fun C => C.name).Nodup)
    (hunits : ∀ C, C ∈ units ↔ C ∈ classes) :
    (registered units).Perm (classes.map fun C => C.to_core_schema) := by
  have hname : ∀ C : ClassDeclaration, C.to_core_schema.name = C.name := fun C =>
    name_to_core_schema C.toSchema
  have hinj : ∀ C ∈ units, ∀ D ∈ units, C.name = D.name → C = D := fun C hC D hD h =>
    List.inj_on_of_nodup_map hclasses ((hunits C).mp hC) ((hunits D).mp hD) h
  obtain ⟨hnodup, hmem⟩ := meta_schema_foldl (units.map fun C => C.to_core_schema) []
    List.nodup_nil (by
      -- classes of one name are one, as they are among `classes`
      intro u hu o ho hou
      rw [List.append_nil] at ho
      obtain ⟨C, hC, rfl⟩ := List.mem_map.mp hu
      obtain ⟨D, hD, rfl⟩ := List.mem_map.mp ho
      rw [hinj D hD C hC (by rw [← hname, ← hname, hou])])
  refine (List.perm_ext_iff_of_nodup (List.Nodup.of_map _ hnodup) ?_).mpr fun o => ?_
  · refine List.Nodup.of_map ObjectSchema.name ?_
    rw [List.map_map]
    convert hclasses using 2
    exact funext hname
  · rw [hmem]
    simp only [List.not_mem_nil, false_or, List.mem_map, hunits]

/-- The schema that `open<Ts...>` puts into the configuration. -/
def openSchema (units : List ClassDeclaration) : List ClassDeclaration → List ObjectSchema
  -- `sizeof...(Ts) == 0`
  | [] => registered units
  | C :: Ts => (C :: Ts).map fun C => C.to_core_schema

/-- **Opening with no classes is opening with all of them**, in whatever order and
however often the constructors of the classes ran. -/
theorem open_all_perm (classes units : List ClassDeclaration)
    (hclasses : (classes.map fun C => C.name).Nodup)
    (hunits : ∀ C, C ∈ units ↔ C ∈ classes) :
    (openSchema units []).Perm (openSchema units classes) := by
  have hperm := registered_perm classes units hclasses hunits
  cases classes with
  | nil => exact List.Perm.refl _
  | cons C Ts => exact hperm

/-- A class with a key, a link and the objects that link back. -/
def person : ClassDeclaration where
  name := "Person"
  ps := [⟨"_id", .primary_key .int64_t, false⟩, ⟨"dog", .pointer "Dog", false⟩,
    ⟨"friends", .linking_objects "Person" "dog", false⟩]
  nodup := by decide
  named := by decide
  isProperty := by decide

def dog : ClassDeclaration where
  name := "Dog"
  ps := [⟨"ages", .vector (.optional .int64_t), false⟩]
  m_object_type := .Embedded
  nodup := by decide
  named := by decide
  isProperty := by decide

theorem open_all_perm_included_twice :
    (openSchema [dog, person, dog] []).Perm (openSchema [dog, person, dog] [person, dog]) :=
  open_all_perm [person, dog] [dog, person, dog] (by decide) fun C => by
    simp only [List.mem_cons, List.not_mem_nil, or_false]
    tauto

end RealmCpp.Schemagen
