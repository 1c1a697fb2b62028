/-
  RealmCpp.Accessors.Columns
  ──────────────────────────
  **WELL-FORMED CLASSES, OBJECTS AND STORES.**

  The type of a property says what an unmanaged object may hold in it, what the
  column may hold in the store, and which writes its accessor makes.  Adding an
  object keeps a store well formed.

    • `Schemas.WellFormed`, `Unmanaged.Conforms`, `Store.WellFormed`,
    • `Kind.Allows` — the writes of a property type, `stored_apply` — they keep
      its column as it should be,
    • `ownWrites_allowed` — an accessor makes no others,
    • `Added.wellFormed` — the store after `db::add`.
-/
import RealmCpp.Accessors.Rows

namespace RealmCpp.Accessors

open RealmCpp.Library
open RealmCpp.Core

variable {K : DecimalText}

/-! ## §1. Classes and unmanaged objects. -/

/-- Classes as the core accepts them. -/
structure Schemas.WellFormed (σ : Schemas) : Prop where
  nodup : ∀ t, ((σ t).properties.map Prod.fst).Nodup
  primary_key : ∀ t name, (σ t).primary_key = some name →
    ∃ e, (name, Kind.scalar e) ∈ (σ t).properties
  embedded : ∀ t, (σ t).is_embedded = true → (σ t).primary_key = none
  set_link : ∀ t name T, (name, Kind.set_link T) ∈ (σ t).properties → (σ T).is_embedded = false

theorem Schemas.WellFormed.kind {σ : Schemas} (hσ : σ.WellFormed) {t : TableKey} {name : String}
    {k : Kind} (h : (name, k) ∈ (σ t).properties) : σ.kind t name = k := by
  unfold Schemas.kind
  rw [lookup_of_mem (hσ.nodup t) h]
  rfl

/-- A slot of a property that points to the class `T`. -/
def PointsTo {ν : Type} (cls : ν → TableKey) (T : TableKey) : Slot Mixed ν → Prop
  | .null => True
  | .scalar _ => False
  | .object y => cls y = T

/-- What an object may hold in a property. -/
def Kind.Typed {ν : Type} (cls : ν → TableKey) : Kind → Content Mixed ν → Prop
  | scalar _, c => ∃ m, c = [("", .scalar m)]
  | list _, c => ∀ e ∈ c, ∃ m, e = ("", .scalar m)
  | set _, c => (∀ e ∈ c, ∃ m, e = ("", .scalar m)) ∧ c.Nodup
  | dictionary _, c => (∀ e ∈ c, ∃ key m, e = (key, .scalar m)) ∧ (c.map Prod.fst).Nodup
  | link T, c => ∃ s, c = [("", s)] ∧ PointsTo cls T s
  | list_link T, c => ∀ e ∈ c, e.1 = "" ∧ PointsTo cls T e.2
  | set_link T, c => ∀ e ∈ c, e.1 = "" ∧ PointsTo cls T e.2
  | dictionary_link T, c => (∀ e ∈ c, PointsTo cls T e.2) ∧ (c.map Prod.fst).Nodup

/-- One object, without what it points to. -/
structure Unmanaged.Shaped (σ : Schemas) (u : Unmanaged) : Prop where
  names : u.props.map Prod.fst = (σ u.cls).properties.map Prod.fst
  typed : ∀ p ∈ (σ u.cls).properties, p.2.Typed Unmanaged.cls (u.content p.1)

/-- **An unmanaged object of its class**, with all that it reaches; `primary_key<T>` is of
integers, enums, strings, uuids and object ids, and of no decimals. -/
structure Unmanaged.Conforms (σ : Schemas) (v : Unmanaged) : Prop where
  shaped : ∀ u ∈ v.reached, u.Shaped σ
  primary_key : ∀ u ∈ v.reached, ∀ t low high, u.key σ ≠ some (t, .decimal128 low high)

/-! ## §2. Stores. -/

/-- A link to a live object of the class. -/
def LinkTo (A : Objects) (T : TableKey) (m : Mixed) : Prop :=
  ∃ y : Ref, y.table = T ∧ A.live y = true ∧ m = y.link

/-- What the column of a property may hold. -/
def Kind.Stored (A : Objects) : Kind → Cell → Prop
  | scalar _, c => ∃ m, c = Cell.one m
  | list _, c => ∀ e ∈ c, e.1 = ""
  | set _, c => (∀ e ∈ c, e.1 = "") ∧ c.Nodup
  | dictionary _, c => (c.map Prod.fst).Nodup
  | link T, c => ∃ m, c = Cell.one m ∧ (m = .null ∨ LinkTo A T m)
  | list_link T, c => ∀ e ∈ c, e.1 = "" ∧ LinkTo A T e.2
  | set_link T, c => (∀ e ∈ c, e.1 = "" ∧ LinkTo A T e.2) ∧ c.Nodup
  | dictionary_link T, c =>
      (∀ e ∈ c, e.2 = .null ∨ LinkTo A T e.2) ∧ (c.map Prod.fst).Nodup

/-- What the column of a new object holds. -/
def Kind.default : Kind → Cell
  | scalar _ | link _ => Cell.one .null
  | _ => []

/-- The writes of a property type. -/
def Kind.Allows (A : Objects) : Kind → Write → Prop
  | scalar _, .set c => ∃ m, c = Cell.one m
  | list _, .set c => ∀ e ∈ c, e.1 = ""
  | list _, .add _ => True
  | list _, .insert _ _ => True
  | set _, .set_insert _ => True
  | dictionary _, .dictionary_insert _ _ => True
  | link T, .set c => ∃ m, c = Cell.one m ∧ LinkTo A T m
  | list_link T, .add m => LinkTo A T m
  | list_link T, .insert _ m => LinkTo A T m
  | set_link T, .set_insert m => LinkTo A T m
  | dictionary_link T, .dictionary_insert _ m => m = .null ∨ LinkTo A T m
  | _, _ => False

/-- Only set insertions are made in a set. -/
theorem Kind.Allows.set_insert {A : Objects} {k : Kind} {w : Write} (h : k.Allows A w)
    (hshape : k.shape = .bag) : ∃ m, w = .set_insert m := by
  cases k with
  | set _ | set_link _ =>
    cases w with
    | set_insert m => exact ⟨m, rfl⟩
    | _ => cases h
  | _ => cases hshape

/-- Only dictionary insertions are made in a dictionary. -/
theorem Kind.Allows.dictionary_insert {A : Objects} {k : Kind} {w : Write} (h : k.Allows A w)
    (hshape : k.shape = .keyed) : ∃ key m, w = .dictionary_insert key m := by
  cases k with
  | dictionary _ | dictionary_link _ =>
    cases w with
    | dictionary_insert key m => exact ⟨key, m, rfl⟩
    | _ => cases h
  | _ => cases hshape

/-- **A store of the core**: each column as its type wants it, new rows empty,
and the object at a primary key with that key in its column. -/
structure Store.WellFormed (σ : Schemas) (S : Store) : Prop where
  objects : Objects.WellFormed S.toObjects
  stored : ∀ x : Ref, ∀ p ∈ (σ x.table).properties, p.2.Stored S.toObjects (S.cell x p.1)
  fresh : ∀ x : Ref, S.live x = false → ∀ p ∈ (σ x.table).properties, S.cell x p.1 = p.2.default
  keyed : ∀ x : Ref, ∀ name, S.live x = true → (σ x.table).primary_key = some name →
    ∃ m, S.cell x name = Cell.one m ∧ S.index x.table m = some x.key

/-- A store without objects. -/
def Store.empty (σ : Schemas) : Store where
  live _ := false
  next _ := 0
  index _ _ := none
  cells c := (σ.kind c.1.table c.2).default

theorem Kind.stored_default (A : Objects) (k : Kind) : k.Stored A k.default := by
  cases k with
  | scalar _ => exact ⟨.null, rfl⟩
  | list _ => exact fun _ he => absurd he List.not_mem_nil
  | set _ => exact ⟨fun _ he => absurd he List.not_mem_nil, List.nodup_nil⟩
  | dictionary _ => exact List.nodup_nil
  | link T => exact ⟨.null, rfl, .inl rfl⟩
  | list_link T => exact fun _ he => absurd he List.not_mem_nil
  | set_link T => exact ⟨fun _ he => absurd he List.not_mem_nil, List.nodup_nil⟩
  | dictionary_link T => exact ⟨fun _ he => absurd he List.not_mem_nil, List.nodup_nil⟩

theorem Store.empty_wellFormed {σ : Schemas} (hσ : σ.WellFormed) :
    Store.WellFormed σ (Store.empty σ) where
  objects := by
    refine ⟨?_, ?_, ?_⟩
    · intro x hx
      cases hx
    · intro t m k hk
      cases hk
    · intro t m m' k hk
      cases hk
  stored x p hp := by
    show p.2.Stored _ (σ.kind x.table p.1).default
    rw [hσ.kind hp]
    exact p.2.stored_default _
  fresh x _ p hp := by
    show (σ.kind x.table p.1).default = _
    rw [hσ.kind hp]
  keyed x name hx := by cases hx

theorem LinkTo.mono {A A' : Objects} (h : ∀ x, A.live x = true → A'.live x = true) {T : TableKey}
    {m : Mixed} (hm : LinkTo A T m) : LinkTo A' T m := by
  obtain ⟨y, htable, hlive, hlink⟩ := hm
  exact ⟨y, htable, h y hlive, hlink⟩

theorem Kind.Stored.mono {A A' : Objects} (h : ∀ x, A.live x = true → A'.live x = true) {k : Kind}
    {c : Cell} (hc : k.Stored A c) : k.Stored A' c := by
  cases k with
  | scalar => exact hc
  | list e => exact hc
  | set o => exact hc
  | dictionary o => exact hc
  | link T =>
    obtain ⟨m, hm, hlink⟩ := hc
    exact ⟨m, hm, hlink.imp_right (LinkTo.mono h)⟩
  | list_link T => exact fun e he => ⟨(hc e he).1, (hc e he).2.mono h⟩
  | set_link T => exact ⟨fun e he => ⟨(hc.1 e he).1, (hc.1 e he).2.mono h⟩, hc.2⟩
  | dictionary_link T => exact ⟨fun e he => (hc.1 e he).imp_right (LinkTo.mono h), hc.2⟩

/-- **The writes of a property type keep its column as it should be.** -/
theorem stored_apply {A : Objects} {k : Kind} {w : Write} (hw : k.Allows A w) {c c' : Cell}
    (hc : k.Stored A c) (h : w.apply c = some c') : k.Stored A c' := by
  -- an entry is an old one or the one that is put there
  have hmem : ∀ e ∈ c', e ∈ c ∨ e ∈ w.puts := fun e he => mem_of_apply h he
  cases k with
  | scalar =>
    cases w with
    | set d => cases h; exact hw
    | _ => cases hw
  | list _ =>
    intro e he
    rcases hmem e he with he | he
    · exact hc e he
    · cases w with
      | set d => exact hw e he
      | add m => rw [List.mem_singleton.mp he]
      | insert i m => rw [List.mem_singleton.mp he]
      | _ => cases hw
  | set _ =>
    obtain ⟨m, rfl⟩ := hw.set_insert rfl
    refine ⟨fun e he => ?_, nodup_of_set_insert h hc.2⟩
    rcases hmem e he with he | he
    · exact hc.1 e he
    · rw [List.mem_singleton.mp he]
  | dictionary _ =>
    obtain ⟨key, m, rfl⟩ := hw.dictionary_insert rfl
    cases h
    exact nodup_keys_dictionaryInsert hc
  | link T =>
    cases w with
    | set d =>
      cases h
      obtain ⟨m, hm, hlink⟩ := hw
      exact ⟨m, hm, .inr hlink⟩
    | _ => cases hw
  | list_link T =>
    intro e he
    rcases hmem e he with he | he
    · exact hc e he
    · cases w with
      | add m =>
        rw [List.mem_singleton.mp he]
        exact ⟨rfl, hw⟩
      | insert i m =>
        rw [List.mem_singleton.mp he]
        exact ⟨rfl, hw⟩
      | _ => cases hw
  | set_link T =>
    obtain ⟨m, rfl⟩ := hw.set_insert rfl
    refine ⟨fun e he => ?_, nodup_of_set_insert h hc.2⟩
    rcases hmem e he with he | he
    · exact hc.1 e he
    · rw [List.mem_singleton.mp he]
      exact ⟨rfl, hw⟩
  | dictionary_link T =>
    obtain ⟨key, m, rfl⟩ := hw.dictionary_insert rfl
    cases h
    refine ⟨fun e he => ?_, nodup_keys_dictionaryInsert hc.2⟩
    rcases hmem e he with he | he
    · exact hc.1 e he
    · rw [List.mem_singleton.mp he]
      exact hw

/-! ## §3. What an accessor writes. -/

theorem mem_scalars {ν : Type} {c : Content Mixed ν} {key : String} {m : Mixed} :
    (key, m) ∈ scalars c ↔ (key, .scalar m) ∈ c := by
  induction c with
  | nil => simp [scalars]
  | cons e c ih =>
    obtain ⟨j, s⟩ := e
    cases s <;> simp [scalars, ih]

theorem mem_ownEntries {a : Accessor} {i : Nat} {c : Content Mixed Placed} {w : Write}
    (h : w ∈ ownEntries a i c) :
    (∃ key, (key, .null) ∈ c ∧ w ∈ a.null key) ∨
      ∃ j key C, (key, .object C) ∈ c ∧
        (w ∈ a.before j key C.row.link ∨ w ∈ a.after key C.row.link) := by
  induction c generalizing i with
  | nil => cases h
  | cons e c ih =>
    have hrest (h : w ∈ ownEntries a (i + 1) c) :
        (∃ key, (key, .null) ∈ e :: c ∧ w ∈ a.null key) ∨
          ∃ j key C, (key, .object C) ∈ e :: c ∧
            (w ∈ a.before j key C.row.link ∨ w ∈ a.after key C.row.link) := by
      rcases ih h with ⟨key, hmem, hw⟩ | ⟨j, key, C, hmem, hw⟩
      · exact .inl ⟨key, List.mem_cons_of_mem e hmem, hw⟩
      · exact .inr ⟨j, key, C, List.mem_cons_of_mem e hmem, hw⟩
    obtain ⟨key, s⟩ := e
    cases s with
    | null =>
      rcases List.mem_append.mp h with h | h
      · exact .inl ⟨key, List.mem_cons_self, h⟩
      · exact hrest h
    | scalar m => exact hrest h
    | object C =>
      rcases List.mem_append.mp h with h | h
      · exact .inr ⟨i, key, C, List.mem_cons_self, List.mem_append.mp h⟩
      · exact hrest h

theorem mem_set_list_values {e : Element} {ms : List Mixed} {w : Write}
    (h : w ∈ set_list_values e ms) :
    (∃ m ∈ ms, w = .add m) ∨ (∃ i, ∃ m ∈ ms, w = .insert i m) ∨
      w = .set (ms.map fun m => ("", m)) := by
  have hadd : w ∈ ms.map .add → ∃ m ∈ ms, w = .add m := fun h => by
    obtain ⟨m, hm, rfl⟩ := List.mem_map.mp h
    exact ⟨m, hm, rfl⟩
  have hinsert : w ∈ ms.zipIdx.map (fun v => .insert v.2 v.1) →
      ∃ i, ∃ m ∈ ms, w = .insert i m := fun h => by
    obtain ⟨v, hv, rfl⟩ := List.mem_map.mp h
    exact ⟨v.2, v.1, List.fst_mem_of_mem_zipIdx hv, rfl⟩
  unfold set_list_values at h
  split at h
  · exact .inl (hadd h)
  · exact .inr (.inl (hinsert h))
  · exact .inr (.inl (hinsert h))
  · exact .inr (.inl (hinsert h))
  · exact .inr (.inl (hinsert h))
  · exact .inr (.inl (hinsert h))
  · exact .inr (.inl (hinsert h))
  · exact .inr (.inr (List.mem_singleton.mp h))

/-- The values, which kinds with pointers do not have. -/
theorem values_allowed {σ : Schemas} {A : Objects} {k : Kind} {es : List (String × Mixed)}
    {w : Write} (hw : w ∈ (k.accessor K σ).values es) : k.Allows A w := by
  cases k with
  | scalar =>
    obtain ⟨e, -, rfl⟩ := List.mem_map.mp hw
    exact ⟨_, rfl⟩
  | list e =>
    rcases mem_set_list_values hw with ⟨m, -, rfl⟩ | ⟨i, m, -, rfl⟩ | rfl
    · trivial
    · trivial
    · intro e he
      obtain ⟨m, -, rfl⟩ := List.mem_map.mp he
      rfl
  | set o =>
    obtain ⟨e, -, rfl⟩ := List.mem_map.mp hw
    trivial
  | dictionary o =>
    obtain ⟨e, -, rfl⟩ := List.mem_map.mp hw
    trivial
  | link T => cases hw
  | list_link T => cases hw
  | set_link T => cases hw
  | dictionary_link T => cases hw

/-- Null is only written to dictionaries of pointers. -/
theorem null_allowed {σ : Schemas} {A : Objects} {k : Kind} {key : String} {w : Write}
    (hw : w ∈ (k.accessor K σ).null key) : k.Allows A w := by
  cases k with
  | dictionary_link T =>
    rw [List.mem_singleton.mp hw]
    exact .inl rfl
  | _ => cases hw

/-- An object is written as a link to it. -/
theorem object_allowed {σ : Schemas} {A : Objects} {k : Kind} {m : Mixed} {i : Nat} {key : String}
    {w : Write} (hm : ∀ T, k.target = some T → LinkTo A T m)
    (hw : w ∈ (k.accessor K σ).before i key m ∨ w ∈ (k.accessor K σ).after key m) :
    k.Allows A w := by
  cases k with
  | scalar => rcases hw with hw | hw <;> cases hw
  | list e => rcases hw with hw | hw <;> cases hw
  | set o => rcases hw with hw | hw <;> cases hw
  | dictionary o => rcases hw with hw | hw <;> cases hw
  | link T =>
    rcases hw with hw | hw
    · rw [List.mem_singleton.mp hw]
      exact ⟨m, rfl, hm T rfl⟩
    · cases hw
  | list_link T =>
    rcases hw with hw | hw <;> simp only [Kind.accessor, accessor_vector_link] at hw <;>
      split at hw
    · rw [List.mem_singleton.mp hw]
      exact hm T rfl
    · cases hw
    · cases hw
    · rw [List.mem_singleton.mp hw]
      exact hm T rfl
  | set_link T =>
    rcases hw with hw | hw
    · cases hw
    · simp only [Kind.accessor, accessor_set_link] at hw
      split at hw
      · cases hw
      · rw [List.mem_singleton.mp hw]
        exact hm T rfl
  | dictionary_link T =>
    rcases hw with hw | hw <;> rw [List.mem_singleton.mp hw] <;> exact .inr (hm T rfl)

/-- The objects of a kind with pointers are of its class. -/
theorem Kind.Typed.pointsTo {k : Kind} {c : Content Mixed Placed} (hc : k.Typed Placed.cls c)
    {key : String} {C : Placed} (hmem : (key, Slot.object C) ∈ c) {T : TableKey}
    (hT : k.target = some T) : C.cls = T := by
  cases k with
  | link T' =>
    obtain ⟨s, rfl, hs⟩ := hc
    cases List.mem_singleton.mp hmem
    exact hs.trans (Option.some.inj hT)
  | list_link T' | set_link T' => exact (hc _ hmem).2.trans (Option.some.inj hT)
  | dictionary_link T' => exact (hc.1 _ hmem).trans (Option.some.inj hT)
  | _ => cases hT

/-- **An accessor makes only the writes of its property type.** -/
theorem ownWrites_allowed {σ : Schemas} {A : Objects} {k : Kind} {c : Content Mixed Placed}
    (hc : k.Typed Placed.cls c)
    (hrows : ∀ C ∈ objects c, C.row.table = C.cls ∧ A.live C.row = true) :
    ∀ w ∈ ownWrites K σ k c, k.Allows A w := by
  intro w hown
  rcases List.mem_append.mp hown with hvalue | hentry
  · exact values_allowed hvalue
  · rcases mem_ownEntries hentry with ⟨key, -, hw⟩ | ⟨j, key, C, hmem, hw⟩
    · exact null_allowed hw
    · refine object_allowed (fun T hT => ?_) hw
      obtain ⟨htable, hlive⟩ := hrows C (mem_objects.mpr ⟨key, hmem⟩)
      exact ⟨C.row, htable.trans (hc.pointsTo hmem hT), hlive, rfl⟩

/-! ## §4. After `db::add`. -/

theorem Slot.map_eq_scalar {μ ν ν' : Type} {f : ν → ν'} {s : Slot μ ν} {m : μ} :
    s.map f = .scalar m ↔ s = .scalar m := by
  cases s <;> simp [Slot.map]

theorem pointsTo_map {ν ν' : Type} {f : ν → ν'} {cls : ν' → TableKey} {T : TableKey}
    {s : Slot Mixed ν} : PointsTo cls T (s.map f) ↔ PointsTo (fun y => cls (f y)) T s := by
  cases s <;> exact Iff.rfl

/-- What holds of the tree holds of the placed tree. -/
theorem Kind.Typed.of_mapObjects {ν ν' : Type} {f : ν → ν'} {cls : ν' → TableKey} {k : Kind}
    {c : Content Mixed ν} (h : k.Typed cls (c.mapObjects f)) :
    k.Typed (fun y => cls (f y)) c := by
  have hscalar {e : String × Slot Mixed ν} {key : String} {m : Mixed}
      (he : (e.1, e.2.map f) = (key, .scalar m)) : e = (key, .scalar m) := by
    obtain ⟨hkey, hs⟩ := Prod.mk.inj he
    exact Prod.ext hkey (Slot.map_eq_scalar.mp hs)
  have hkeys : (c.mapObjects f).map Prod.fst = c.map Prod.fst := by
    unfold Content.mapObjects
    rw [List.map_map]
    rfl
  have hmem {e : String × Slot Mixed ν} (he : e ∈ c) : (e.1, e.2.map f) ∈ c.mapObjects f :=
    List.mem_map_of_mem (f := fun e => (e.1, e.2.map f)) he
  cases k with
  | scalar =>
    obtain ⟨m, hm⟩ := h
    obtain ⟨e, rfl, he⟩ := List.map_eq_singleton_iff.mp hm
    exact ⟨m, by rw [hscalar he]⟩
  | list _ =>
    intro e he
    obtain ⟨m, hm⟩ := h _ (hmem he)
    exact ⟨m, hscalar hm⟩
  | set _ =>
    refine ⟨fun e he => ?_, h.2.of_map⟩
    obtain ⟨m, hm⟩ := h.1 _ (hmem he)
    exact ⟨m, hscalar hm⟩
  | dictionary _ =>
    refine ⟨fun e he => ?_, hkeys ▸ h.2⟩
    obtain ⟨key, m, hm⟩ := h.1 _ (hmem he)
    exact ⟨key, m, hscalar hm⟩
  | link T =>
    obtain ⟨s, hs, hT⟩ := h
    obtain ⟨e, rfl, he⟩ := List.map_eq_singleton_iff.mp hs
    obtain ⟨hkey, rfl⟩ := Prod.mk.inj he
    exact ⟨e.2, by rw [← hkey], pointsTo_map.mp hT⟩
  | list_link T =>
    exact fun e he => ⟨(h _ (hmem he)).1, pointsTo_map.mp (h _ (hmem he)).2⟩
  | set_link T =>
    exact fun e he => ⟨(h _ (hmem he)).1, pointsTo_map.mp (h _ (hmem he)).2⟩
  | dictionary_link T =>
    exact ⟨fun e he => pointsTo_map.mp (h.1 _ (hmem he)), hkeys ▸ h.2⟩

/-- The primary key is in its property. -/
theorem forget_key {σ : Schemas} {n : Placed} {name : String} {m : Mixed}
    (hpk : (σ n.cls).primary_key = some name) (hm : n.content name = [("", .scalar m)]) :
    (forget n).key σ = some (n.cls, m) := by
  have hvalue : (forget n).value name = m := by
    unfold Unmanaged.value
    rw [forget_content, hm]
    rfl
  unfold Unmanaged.key
  rw [forget_cls, hpk]
  show some (n.cls, (forget n).value name) = _
  rw [hvalue]

namespace Planned

variable {σ : Schemas} {A A' : Objects} {v : Unmanaged} {P n n' : Placed}

theorem reached (h : Planned σ A A' v P) (hn : n ∈ nodes P) : Accessors.forget n ∈ v.reached := by
  rw [← h.forget, ← nodes_map_forget]
  exact List.mem_map_of_mem (f := Accessors.forget) hn

theorem typed (h : Planned σ A A' v P) (hv : v.Conforms σ) (hn : n ∈ nodes P) {p : String × Kind}
    (hp : p ∈ (σ n.cls).properties) : p.2.Typed Placed.cls (n.content p.1) := by
  have hshaped := hv.shaped _ (h.reached hn)
  rw [← forget_cls] at hp
  have htyped := hshaped.typed p hp
  rw [forget_content] at htyped
  have hplaced := htyped.of_mapObjects
  simp only [forget_cls] at hplaced
  exact hplaced

/-- The properties of a node are columns of the table it is stored in. -/
theorem property_stored (h : Planned σ A A' v P) (hn : n ∈ nodes P) {p : String × Kind}
    (hp : p ∈ (σ n.cls).properties) : p ∈ (σ n.row.table).properties := by
  rw [h.placing.table n hn]
  exact hp

/-- Nodes of one row have one class, and so the same properties. -/
theorem property_of_same_row (h : Planned σ A A' v P) (hn : n ∈ nodes P) (hn' : n' ∈ nodes P)
    (hrow : n'.row = n.row) {p : String × Kind} (hp : p ∈ (σ n.cls).properties) :
    p ∈ (σ n'.cls).properties := by
  rw [← h.placing.table n' hn', hrow]
  exact h.property_stored hn hp

theorem typed_of_same_row (h : Planned σ A A' v P) (hv : v.Conforms σ) (hn : n ∈ nodes P)
    (hn' : n' ∈ nodes P) (hrow : n'.row = n.row) {p : String × Kind}
    (hp : p ∈ (σ n.cls).properties) : p.2.Typed Placed.cls (n'.content p.1) :=
  h.typed hv hn' (h.property_of_same_row hn hn' hrow hp)

/-- A node with a primary key is stored in the table of the key. -/
theorem table_of_key (h : Planned σ A A' v P) (hn : n ∈ nodes P) {t : TableKey} {m : Mixed}
    (hkey : (Accessors.forget n).key σ = some (t, m)) : n.row.table = t := by
  rw [h.placing.table n hn, ← forget_cls]
  exact Unmanaged.key_cls hkey

/-- It is stored where the index says. -/
theorem row_of_index (h : Planned σ A A' v P) (hn : n ∈ nodes P) {t : TableKey} {m : Mixed}
    {key : ObjKey} (hkey : (Accessors.forget n).key σ = some (t, m))
    (hindex : A'.index t m = some key) : n.row = ⟨t, key⟩ := by
  have hrow := h.placing.row_index n hn t m hkey
  rw [hindex] at hrow
  rw [← h.table_of_key hn hkey, Option.some.inj hrow]

theorem fitting (h : Planned σ A A' v P) (hσ : σ.WellFormed) (hv : v.Conforms σ) :
    Fitting σ (nodes P) where
  fits n hn := by
    refine ⟨h.placing.table n hn, ?_⟩
    have hnames := (hv.shaped _ (h.reached hn)).names
    rw [forget_props, List.map_map, forget_cls] at hnames
    exact hnames
  nodup n _ := hσ.nodup n.cls

theorem child_row (h : Planned σ A A' v P) (hn : n ∈ nodes P) {name : String} :
    ∀ C ∈ objects (n.content name), C.row.table = C.cls ∧ A'.live C.row = true := by
  intro C hC
  obtain ⟨key, hkey⟩ := mem_objects.mp hC
  have hnode := child_mem_nodes hn hkey
  exact ⟨h.placing.table C hnode, h.placing.row_live C hnode⟩

/-- **A write to a column** is one of those of a node that is stored in its row. -/
theorem exists_node_of_write (h : Planned σ A A' v P) (hσ : σ.WellFormed) (hv : v.Conforms σ)
    {x : Ref} {p : String × Kind} (hp : p ∈ (σ x.table).properties) {w : Write}
    (hw : w ∈ writesAt (x, p.1) (events K σ P)) :
    ∃ n ∈ nodes P, n.row = x ∧ w ∈ ownWrites K σ p.2 (n.content p.1) := by
  have hperm := writesAt_perm_nodes (K := K) (h.fitting hσ hv) (y := x)
    (List.mem_map_of_mem (f := Prod.fst) hp)
  obtain ⟨n, hn, hw⟩ := List.mem_flatMap.mp (hperm.mem_iff.mp hw)
  obtain ⟨hn, hrow⟩ := mem_nodesAt.mp hn
  rw [hσ.kind hp] at hw
  exact ⟨n, hn, hrow, hw⟩

theorem writes_allowed (h : Planned σ A A' v P) (hσ : σ.WellFormed) (hv : v.Conforms σ)
    {x : Ref} {p : String × Kind} (hp : p ∈ (σ x.table).properties) :
    ∀ w ∈ writesAt (x, p.1) (events K σ P), p.2.Allows A' w := by
  intro w hw
  obtain ⟨n, hn, hrow, hw⟩ := h.exists_node_of_write hσ hv hp hw
  have htable : n.cls = x.table := by rw [← h.placing.table n hn, hrow]
  exact ownWrites_allowed (h.typed hv hn (htable ▸ hp)) (h.child_row hn) w hw

/-- A node writes to its columns. -/
theorem own_mem (h : Planned σ A A' v P) (hσ : σ.WellFormed) (hv : v.Conforms σ) (hn : n ∈ nodes P)
    {p : String × Kind} (hp : p ∈ (σ n.cls).properties) :
    (ownWrites K σ p.2 (n.content p.1)).Sublist (writesAt (n.row, p.1) (events K σ P)) := by
  have hsub := ownWrites_sublist (K := K) (h.fitting hσ hv) hn (List.mem_map_of_mem (f := Prod.fst) hp)
  rw [hσ.kind hp] at hsub
  exact hsub

end Planned

namespace Added

variable {σ : Schemas} {S S' : Store} {v : Unmanaged} {P : Placed}

/-- **A column that is only ever set** is left as one of the nodes sets it. -/
theorem exists_set (h : Added K σ S S' v P) (hσ : σ.WellFormed) (hv : v.Conforms σ)
    {x : Ref} {p : String × Kind} (hp : p ∈ (σ x.table).properties)
    (hset : ∀ n ∈ nodes P, n.row = x → ∀ w ∈ ownWrites K σ p.2 (n.content p.1), ∃ c, w = .set c)
    (hne : ∃ n ∈ nodes P, n.row = x ∧ ownWrites K σ p.2 (n.content p.1) ≠ []) :
    ∃ n ∈ nodes P, n.row = x ∧ .set (S'.cell x p.1) ∈ ownWrites K σ p.2 (n.content p.1) := by
  have hws : ∀ w ∈ writesAt (x, p.1) (events K σ P), ∃ c, w = .set c := by
    intro w hw
    obtain ⟨n, hn, hrow, hw⟩ := h.exists_node_of_write hσ hv hp hw
    exact hset n hn hrow w hw
  have hnonempty : writesAt (x, p.1) (events K σ P) ≠ [] := by
    obtain ⟨n, hn, hrow, hown⟩ := hne
    intro hnil
    have htable : n.cls = x.table := by rw [← h.placing.table n hn, hrow]
    have hsub := h.own_mem (K := K) hσ hv hn (htable ▸ hp)
    rw [hrow, hnil, List.sublist_nil] at hsub
    exact hown hsub
  -- what was there does not matter, so that the last write decides
  have hforget : ∀ w ∈ writesAt (x, p.1) (events K σ P), ∃ d, ∀ c, Write.apply w c = some d := by
    intro w hw
    obtain ⟨d, rfl⟩ := hws w hw
    exact ⟨d, fun _ => rfl⟩
  obtain ⟨w, hw, happly⟩ := runWrites_last hforget hnonempty (h.cells x p.1)
  obtain ⟨n, hn, hrow, hown⟩ := h.exists_node_of_write hσ hv hp hw
  obtain ⟨c, rfl⟩ := hws w hw
  cases happly []
  exact ⟨n, hn, hrow, hown⟩

/-- What is not placed is not changed. -/
theorem cell_of_unvisited (h : Added K σ S S' v P) {x : Ref} (hx : ∀ n ∈ nodes P, n.row ≠ x)
    (col : String) : S'.cell x col = S.cell x col := by
  have hcell := h.cells x col
  rw [writesAt_eq_nil hx] at hcell
  exact (Option.some.inj hcell).symm

/-- The column of the primary key is written with the key of each object stored in the row, and
the row is found by it. -/
theorem keyed_of_visited (h : Added K σ S S' v P) (hσ : σ.WellFormed) (hv : v.Conforms σ)
    {n₀ : Placed} (hn₀ : n₀ ∈ nodes P) {name : String}
    (hpk : (σ n₀.row.table).primary_key = some name) :
    ∃ m, S'.cell n₀.row name = Cell.one m ∧ S'.index n₀.row.table m = some n₀.row.key := by
  obtain ⟨e, hp⟩ := hσ.primary_key n₀.row.table name hpk
  have hscalar : ∀ n ∈ nodes P, n.row = n₀.row → ∃ m, n.content name = [("", .scalar m)] ∧
      ownWrites K σ (.scalar e) (n.content name) = [.set (Cell.one m)] := by
    intro n hn hrow
    have htable : n.cls = n₀.row.table := by rw [← h.placing.table n hn, hrow]
    obtain ⟨m, hm⟩ := h.typed hv hn (p := (name, .scalar e)) (htable ▸ hp)
    have hkey := forget_key (htable ▸ hpk) hm
    refine ⟨m, hm, ?_⟩
    rw [hm]
    show [Write.set (Cell.one (K.serialize m))] = _
    rw [K.serialize_of_not_decimal fun low high heq => ?_]
    rw [heq] at hkey
    exact hv.primary_key _ (h.reached hn) _ low high hkey
  obtain ⟨n, hn, hrow, hset⟩ := h.exists_set hσ hv hp
    (fun n hn hrow w hw => by
      obtain ⟨m, -, hown⟩ := hscalar n hn hrow
      rw [hown] at hw
      exact ⟨_, List.mem_singleton.mp hw⟩)
    (by
      obtain ⟨m, -, hown⟩ := hscalar n₀ hn₀ rfl
      exact ⟨n₀, hn₀, rfl, by rw [hown]; exact List.cons_ne_nil _ _⟩)
  obtain ⟨m, hm, hown⟩ := hscalar n hn hrow
  rw [hown] at hset
  have hcell : S'.cell n₀.row name = Cell.one m := by
    injection List.mem_singleton.mp hset
  refine ⟨m, hcell, ?_⟩
  have htable : n.cls = n₀.row.table := by rw [← h.placing.table n hn, hrow]
  rw [← htable] at hpk ⊢
  rw [h.placing.row_index n hn _ _ (forget_key hpk hm), hrow]

/-- **`db::add` keeps a store well formed.** -/
theorem wellFormed (h : Added K σ S S' v P) (hσ : σ.WellFormed) (hv : v.Conforms σ)
    (hS : Store.WellFormed σ S) : Store.WellFormed σ S' where
  objects := h.placing.wellFormed
  stored x p hp := by
    have hold := (hS.stored x p hp).mono h.placing.live
    refine runWrites_invariant (P := p.2.Stored S'.toObjects) ?_ (h.cells x p.1) hold
    intro w hw c c' hc happly
    exact stored_apply (h.writes_allowed hσ hv hp w hw) hc happly
  fresh x hx p hp := by
    rw [h.cell_of_unvisited]
    · refine hS.fresh x ?_ p hp
      cases hl : S.live x with
      | false => rfl
      | true => rw [h.placing.live x hl] at hx; cases hx
    · intro n hn hrow
      rw [← hrow, h.placing.row_live n hn] at hx
      cases hx
  keyed x name hx hpk := by
    by_cases hvisited : ∃ n ∈ nodes P, n.row = x
    · obtain ⟨n₀, hn₀, rfl⟩ := hvisited
      exact h.keyed_of_visited hσ hv hn₀ hpk
    · -- nothing is written to the other rows, and they are old ones
      have hunvisited : ∀ n ∈ nodes P, n.row ≠ x := fun n hn hrow => hvisited ⟨n, hn, hrow⟩
      rcases h.placing.new_live x hx with hold | ⟨n, hn, hrow⟩
      · obtain ⟨m, hm, hindex⟩ := hS.keyed x name hold hpk
        exact ⟨m, (h.cell_of_unvisited hunvisited name).trans hm, h.placing.index _ _ _ hindex⟩
      · exact absurd hrow (hunvisited n hn)

end Added

end RealmCpp.Accessors
