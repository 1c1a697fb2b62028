/-
  RealmCpp.Accessors.Exact
  ────────────────────────
  **THE CONDITIONS FOR OVERWRITING ARE NECESSARY.**

  A stored object that holds an unmanaged one has, for every object reached, a
  stored object that holds it; for an object with a primary key that is the one
  in the row of the key.  What the columns of these rows hold then tells what
  was in them before.

    • `Holds.reached` — every object reached is held,
    • `Holds.index` — a primary key is held in its row,
    • `Added.storable`, `Added.absorbable` — the conditions.
-/
import RealmCpp.Accessors.Overwrite

namespace RealmCpp.Accessors

open RealmCpp.Library
open RealmCpp.Core

variable {K : DecimalText}

/-! ## §1. The objects reached. -/

namespace Unmanaged

theorem reached_subset_entries {key : String} {u : Unmanaged} {es : Content Mixed Unmanaged}
    (h : (key, .object u) ∈ es) : u.reached ⊆ reachedEntries es := by
  induction es with
  | nil => cases h
  | cons e es ih =>
    obtain ⟨j, s⟩ := e
    rcases List.mem_cons.mp h with hhead | htail
    · cases hhead
      exact List.subset_append_left _ _
    · cases s with
      | null => exact ih htail
      | scalar m => exact ih htail
      | object w => exact List.Subset.trans (ih htail) (List.subset_append_right _ _)

theorem reachedEntries_subset {name : String} {es : Content Mixed Unmanaged}
    {ps : List (String × Content Mixed Unmanaged)} (h : (name, es) ∈ ps) :
    reachedEntries es ⊆ reachedProperties ps := by
  induction ps with
  | nil => cases h
  | cons p ps ih =>
    obtain ⟨name', es'⟩ := p
    rcases List.mem_cons.mp h with hhead | htail
    · cases hhead
      exact List.subset_append_left _ _
    · exact List.Subset.trans (ih htail) (List.subset_append_right _ _)

/-- What is reached from an object behind a pointer is reached. -/
theorem reached_subset {u w : Unmanaged} {name key : String} {es : Content Mixed Unmanaged}
    (hes : (name, es) ∈ u.props) (hw : (key, .object w) ∈ es) : w.reached ⊆ u.reached := by
  obtain ⟨t, ps⟩ := u
  have hsub := List.Subset.trans (reached_subset_entries hw) (reachedEntries_subset hes)
  exact List.Subset.trans hsub (List.subset_cons_self _ _)

/-- What holds something is one of the properties. -/
theorem content_mem_props {u : Unmanaged} {name : String} {e : String × Slot Mixed Unmanaged}
    (he : e ∈ u.content name) : (name, u.content name) ∈ u.props := by
  unfold content at he ⊢
  cases hl : u.props.lookup name with
  | none =>
    rw [hl] at he
    cases he
  | some es => exact mem_of_lookup hl

theorem self_mem_reached (u : Unmanaged) : u ∈ u.reached := by
  cases u
  exact List.mem_cons_self

mutual

/-- **Induction over the objects reached**, from the root down. -/
theorem reached_induction {M : Unmanaged → Prop}
    (step : ∀ u, M u → ∀ name es, (name, es) ∈ u.props → ∀ key w, (key, .object w) ∈ es → M w) :
    ∀ u : Unmanaged, M u → ∀ w ∈ u.reached, M w
  | .node t ps, hu, w, hw => by
      rcases List.mem_cons.mp hw with rfl | hw
      · exact hu
      · exact reachedProperties_induction step ps (fun name es hes => step _ hu name es hes) w hw
termination_by structural u => u

theorem reachedProperties_induction {M : Unmanaged → Prop}
    (step : ∀ u, M u → ∀ name es, (name, es) ∈ u.props → ∀ key w, (key, .object w) ∈ es → M w) :
    ∀ ps : List (String × List (String × Slot Mixed Unmanaged)),
      (∀ name es, (name, es) ∈ ps → ∀ key w, (key, .object w) ∈ es → M w) →
      ∀ w ∈ reachedProperties ps, M w
  | [], _, _, hw => by cases hw
  | (name, es) :: ps, hps, w, hw => by
      rcases List.mem_append.mp hw with hw | hw
      · exact reachedEntries_induction step es (hps name es List.mem_cons_self) w hw
      · exact reachedProperties_induction step ps
          (fun name' es' hes' => hps name' es' (List.mem_cons_of_mem _ hes')) w hw
termination_by structural ps => ps

theorem reachedEntries_induction {M : Unmanaged → Prop}
    (step : ∀ u, M u → ∀ name es, (name, es) ∈ u.props → ∀ key w, (key, .object w) ∈ es → M w) :
    ∀ es : List (String × Slot Mixed Unmanaged), (∀ key w, (key, .object w) ∈ es → M w) →
      ∀ w ∈ reachedEntries es, M w
  | [], _, _, hw => by cases hw
  | (_, .null) :: es, hes, w, hw =>
      reachedEntries_induction step es (fun key' w' h => hes key' w' (List.mem_cons_of_mem _ h)) w hw
  | (_, .scalar _) :: es, hes, w, hw =>
      reachedEntries_induction step es (fun key' w' h => hes key' w' (List.mem_cons_of_mem _ h)) w hw
  | (key, .object u) :: es, hes, w, hw => by
      rcases List.mem_append.mp hw with hw | hw
      · exact reached_induction step u (hes key u List.mem_cons_self) w hw
      · exact reachedEntries_induction step es
          (fun key' w' h => hes key' w' (List.mem_cons_of_mem _ h)) w hw
termination_by structural es => es

end

theorem reached_trans {u v w : Unmanaged} (hu : u ∈ v.reached) (hw : w ∈ u.reached) :
    w ∈ v.reached := by
  have hsub := reached_induction (M := fun u => u.reached ⊆ v.reached) ?_ v (List.Subset.refl _)
  · exact hsub u hu hw
  · intro u hu name es hes key w hw
    exact List.Subset.trans (reached_subset hes hw) hu

/-- What is reached from an object of its class is of its class. -/
theorem Conforms.of_reached {σ : Schemas} {u v : Unmanaged} (hv : v.Conforms σ)
    (hu : u ∈ v.reached) : u.Conforms σ where
  shaped w hw := hv.shaped w (reached_trans hu hw)
  primary_key w hw := hv.primary_key w (reached_trans hu hw)

/-- The property of an object that conforms to its class. -/
theorem Shaped.exists_property {σ : Schemas} (hσ : σ.WellFormed) {u : Unmanaged} (hu : u.Shaped σ)
    {name : String} {es : Content Mixed Unmanaged} (hes : (name, es) ∈ u.props) :
    ∃ k, (name, k) ∈ (σ u.cls).properties ∧ u.content name = es := by
  have hname : name ∈ (σ u.cls).properties.map Prod.fst := by
    rw [← hu.names]
    exact List.mem_map_of_mem (f := Prod.fst) hes
  obtain ⟨p, hp, rfl⟩ := List.mem_map.mp hname
  refine ⟨p.2, hp, ?_⟩
  have hnodup : (u.props.map Prod.fst).Nodup := by
    rw [hu.names]
    exact hσ.nodup u.cls
  unfold content
  rw [lookup_of_mem hnodup hes]
  rfl

end Unmanaged

/-! ## §2. Every object reached is held. -/

/-- The objects that a column holds are live. -/
theorem Kind.Stored.live {A : Objects} {k : Kind} {c : Cell} (hc : k.Stored A c)
    {e : String × Mixed} (he : e ∈ c) {z : Ref} (hz : k.slot e.2 = .object z) :
    A.live z = true := by
  have hlink : ∀ T, k.target = some T → (e.2 = .null ∨ LinkTo A T e.2) → A.live z = true := by
    intro T hT hlink
    rcases hlink with hnull | ⟨y, -, hlive, hy⟩
    · rw [hnull, slot_null hT] at hz
      cases hz
    · rw [hy, slot_link hT] at hz
      cases hz
      exact hlive
  cases k with
  | link T =>
    obtain ⟨m, rfl, hm⟩ := hc
    rw [List.mem_singleton.mp he] at hlink
    exact hlink T rfl hm
  | list_link T => exact hlink T rfl (.inr (hc e he).2)
  | set_link T => exact hlink T rfl (.inr (hc.1 e he).2)
  | dictionary_link T => exact hlink T rfl (hc.1 e he)
  | _ => cases hz

/-- Lists and sets hold no null links. -/
theorem Kind.Stored.not_null {A : Objects} {k : Kind} {c : Cell} (hc : k.Stored A c)
    (hk : k.SkipsNull) {e : String × Mixed} (he : e ∈ c) : k.slot e.2 ≠ .null := by
  intro hnull
  cases k with
  | list_link T =>
    obtain ⟨y, -, -, hy⟩ := (hc e he).2
    rw [hy, slot_link rfl] at hnull
    cases hnull
  | set_link T =>
    obtain ⟨y, -, -, hy⟩ := (hc.1 e he).2
    rw [hy, slot_link rfl] at hnull
    cases hnull
  | _ => cases hk

theorem exists_of_mem_view {k : Kind} {c : Cell} {b : String × Slot Mixed Ref}
    (hb : b ∈ k.view c) : ∃ e ∈ c, b = (e.1, k.slot e.2) := by
  obtain ⟨e, he, rfl⟩ := List.mem_map.mp hb
  exact ⟨e, he, rfl⟩

section Reached

variable {σ : Schemas} {S : Store} {x : Ref} {u v : Unmanaged} {p : String × Kind}

theorem Holds.mem (h : Holds σ S x u) (hp : p ∈ (σ u.cls).properties) :
    p ∈ (σ x.table).properties := by
  rw [h.table]
  exact hp

/-- Each slot of an object that is held is in the column. -/
theorem Holds.exists_entry (hσ : σ.WellFormed) (h : Holds σ S x u) (hu : u.Shaped σ)
    (hp : p ∈ (σ u.cls).properties) {a : String × Slot Mixed Unmanaged} (ha : a ∈ u.content p.1) :
    ∃ e ∈ S.cell x p.1, Slot.Rel (Holds σ S) (p.2.slot e.2) a.2 := by
  have hkeys : p.2.shape = .keyed → ((u.content p.1).map Prod.fst).Nodup :=
    (hu.typed p hp).keys_nodup
  obtain ⟨b, hb, hrel⟩ := (h.content hσ hp).flip.exists_of_mem hkeys ha
  obtain ⟨e, he, rfl⟩ := exists_of_mem_view hb
  exact ⟨e, he, hrel.flip⟩

/-- **Every object reached is held** by a live one. -/
theorem Holds.reached (hσ : σ.WellFormed) (hS : Store.WellFormed σ S) (hc : v.Conforms σ)
    (hx : S.live x = true) (h : Holds σ S x v) :
    ∀ u ∈ v.reached, ∃ z, S.live z = true ∧ Holds σ S z u := by
  have hall := Unmanaged.reached_induction
    (M := fun u => u.Conforms σ ∧ ∃ z, S.live z = true ∧ Holds σ S z u) ?_ v ⟨hc, x, hx, h⟩
  · exact fun u hu => (hall u hu).2
  · -- from an object to one behind its pointers
    rintro u ⟨hconforms, z, -, hholds⟩ name es hes key w hw
    have hu := hconforms.shaped u (Unmanaged.self_mem_reached u)
    obtain ⟨k, hp, hcontent⟩ := hu.exists_property hσ hes
    rw [← hcontent] at hw
    obtain ⟨e, he, hrel⟩ := hholds.exists_entry hσ hu hp hw
    refine ⟨?_, ?_⟩
    · rw [hcontent] at hw
      exact hconforms.of_reached (Unmanaged.reached_subset hes hw (Unmanaged.self_mem_reached w))
    · have hstored := hS.stored z (name, k) (hholds.mem hp)
      change Slot.Rel (Holds σ S) (k.slot e.2) (.object w) at hrel
      cases hslot : k.slot e.2 with
      | null =>
        rw [hslot] at hrel
        cases hrel
      | scalar m =>
        rw [hslot] at hrel
        cases hrel
      | object y =>
        rw [hslot] at hrel
        cases hrel with
        | object hy => exact ⟨y, hstored.live he hslot, hy⟩

/-- **A primary key is held in its row.** -/
theorem Holds.index (hσ : σ.WellFormed) (hS : Store.WellFormed σ S) (hu : u.Shaped σ)
    (hx : S.live x = true) (h : Holds σ S x u) {t : TableKey} {m : Mixed}
    (hkey : u.key σ = some (t, m)) : x.table = t ∧ S.index t m = some x.key := by
  have ht := Unmanaged.key_cls hkey
  subst ht
  refine ⟨h.table, ?_⟩
  obtain ⟨name, hpk, hvalue⟩ := Option.map_eq_some_iff.mp hkey
  obtain ⟨e, hp⟩ := hσ.primary_key _ _ hpk
  obtain ⟨m', hm'⟩ := hu.typed _ hp
  obtain ⟨m'', hcell, hindex⟩ := hS.keyed x name hx (by rw [h.table]; exact hpk)
  have hmatch : Ordered (Holds σ S) _ _ := h.content hσ hp
  change Ordered (Holds σ S) ((Kind.scalar e).view (S.cell x name)) (u.content name) at hmatch
  change u.content name = _ at hm'
  rw [hcell, hm'] at hmatch
  have hm : u.value name = m'' := by
    cases hmatch with
    | cons hslot _ =>
      unfold Unmanaged.value
      rw [hm']
      cases hslot
      rfl
  rw [← (Prod.mk.inj hvalue).2, hm, ← h.table]
  exact hindex

/-- Lists and sets that are held have no null pointers. -/
theorem Holds.no_null (hσ : σ.WellFormed) (hS : Store.WellFormed σ S) (hu : u.Shaped σ)
    (h : Holds σ S x u) (hp : p ∈ (σ u.cls).properties) (hk : p.2.SkipsNull) (key : String) :
    (key, .null) ∉ u.content p.1 := by
  intro hnull
  obtain ⟨e, he, hrel⟩ := h.exists_entry hσ hu hp hnull
  have hne := (hS.stored x p (h.mem hp)).not_null hk he
  apply hne
  change Slot.Rel (Holds σ S) (p.2.slot e.2) .null at hrel
  cases hslot : p.2.slot e.2 with
  | null => rfl
  | scalar m =>
    rw [hslot] at hrel
    cases hrel
  | object y =>
    rw [hslot] at hrel
    cases hrel

/-- The links of a set, as the objects they link to. -/
theorem objects_view {A : Objects} {T : TableKey} {c : Cell}
    (hc : ∀ e ∈ c, e.1 = "" ∧ LinkTo A T e.2) :
    ((objects ((Kind.set_link T).view c)).map fun y => ("", y.link)) = c := by
  induction c with
  | nil => rfl
  | cons e c ih =>
    obtain ⟨key, m⟩ := e
    obtain ⟨hkey, y, -, -, hm⟩ := hc _ List.mem_cons_self
    change key = "" at hkey
    change m = y.link at hm
    subst hkey hm
    exact congrArg (("", y.link) :: ·) (ih fun e he => hc e (List.mem_cons_of_mem _ he))

/-- The elements of a set that is held have different primary keys. -/
theorem Holds.distinct (hσ : σ.WellFormed) (hS : Store.WellFormed σ S) (hu : u.Conforms σ)
    (h : Holds σ S x u) {name : String} {T : TableKey}
    (hp : (name, Kind.set_link T) ∈ (σ u.cls).properties) (hpk : (σ T).primary_key ≠ none) :
    ((objects (u.content name)).map (·.key σ)).Nodup := by
  have hshaped := hu.shaped u (Unmanaged.self_mem_reached u)
  have hstored : (Kind.set_link T).Stored S.toObjects (S.cell x name) := hS.stored x _ (h.mem hp)
  obtain ⟨d, hperm, hordered⟩ : Shape.bag.Match (Holds σ S)
      ((Kind.set_link T).view (S.cell x name)) (u.content name) := h.content hσ hp
  have hview := objects_view hstored.1
  have hobjects := objects_perm hperm
  have hnodup : (objects d).Nodup := by
    apply hobjects.nodup_iff.mp
    apply List.Nodup.of_map fun y : Ref => ("", y.link)
    rw [hview]
    exact hstored.2
  have hlive : ∀ y ∈ objects d, S.live y = true := by
    intro y hy
    obtain ⟨key, hkey⟩ := mem_objects.mp (hobjects.mem_iff.mpr hy)
    obtain ⟨e, he, heq⟩ := exists_of_mem_view hkey
    exact hstored.live he (Prod.mk.inj heq).2.symm
  have hchild : ∀ w ∈ objects (u.content name), w.Shaped σ ∧ w.cls = T := by
    intro w hw
    obtain ⟨key, hkey⟩ := mem_objects.mp hw
    refine ⟨?_, ((hshaped.typed _ hp) _ hkey).2⟩
    have hes := Unmanaged.content_mem_props hkey
    exact hu.shaped w (Unmanaged.reached_subset hes hkey (Unmanaged.self_mem_reached w))
  apply nodup_map_of_forall₂ hordered.objects hnodup
  intro y hy y' hy' w hw w' hw' hyw hyw' heq
  -- an element is stored in the row of its key
  have hsome : w.key σ ≠ none := by
    unfold Unmanaged.key
    rw [(hchild w hw).2]
    intro hnone
    exact hpk (Option.map_eq_none_iff.mp hnone)
  obtain ⟨⟨t, m⟩, hkey⟩ := Option.ne_none_iff_exists'.mp hsome
  obtain ⟨htable, hindex⟩ := hyw.index hσ hS (hchild w hw).1 (hlive y hy) hkey
  obtain ⟨htable', hindex'⟩ := hyw'.index hσ hS (hchild w' hw').1 (hlive y' hy') (heq ▸ hkey)
  rw [hindex] at hindex'
  cases y
  cases y'
  simp_all

end Reached

/-! ## §3. What was there before. -/

theorem length_flatMap_of_const {α β : Type} {l : List α} {f : α → List β} {k : Nat}
    (h : ∀ a ∈ l, (f a).length = k) : (l.flatMap f).length = l.length * k := by
  induction l with
  | nil => simp
  | cons a l ih =>
    rw [List.flatMap_cons, List.length_append, h a List.mem_cons_self,
      ih fun a' ha' => h a' (List.mem_cons_of_mem _ ha'), List.length_cons, Nat.succ_mul,
      Nat.add_comm]

/-- The elements of a set, of all the objects stored in one row. -/
def elementsAt (P : Placed) (y : Ref) (name : String) : List Placed :=
  (nodesAt P y).flatMap fun n => objects (n.content name)

namespace Added

variable {σ : Schemas} {S S' : Store} {v : Unmanaged} {P n n' : Placed} {p : String × Kind}

/-- **An object with a primary key is held in its own row.** -/
theorem held (h : Added K σ S S' v P) (hσ : σ.WellFormed) (hc : v.Conforms σ)
    (hS : Store.WellFormed σ S) (hx : Holds σ S' P.row v) (hn : n ∈ nodes P)
    (hkey : (Accessors.forget n).key σ ≠ none) : Holds σ S' n.row (Accessors.forget n) := by
  have hS' := h.wellFormed hσ hc hS
  have hlive := h.placing.row_live P (self_mem_nodes P)
  obtain ⟨z, hz, hholds⟩ := hx.reached hσ hS' hc hlive _ (h.reached hn)
  obtain ⟨⟨t, m⟩, htm⟩ := Option.ne_none_iff_exists'.mp hkey
  obtain ⟨htable, hindex⟩ := hholds.index hσ hS' (h.shaped hc hn) hz htm
  rw [h.row_of_index hn htm hindex, ← htable]
  exact hholds

/-- Each of the objects stored in a row asks for as much as the column holds. -/
theorem length_asked (h : Added K σ S S' v P) (hσ : σ.WellFormed) (hc : v.Conforms σ)
    (hS : Store.WellFormed σ S) (hx : Holds σ S' P.row v) (hn : n ∈ nodes P)
    (hkey : (Accessors.forget n).key σ ≠ none) (hp : p ∈ (σ n.cls).properties)
    (hk : p.2.Appends σ) : (written K (n.content p.1)).length = (S'.cell n.row p.1).length := by
  have hmatch := (h.held hσ hc hS hx hn hkey).content hσ (p := p) (by rw [forget_cls]; exact hp)
  have hlength := hmatch.length_eq hk.not_keyed
  rw [forget_content] at hlength
  unfold Kind.view Content.mapObjects at hlength
  rw [List.length_map, List.length_map] at hlength
  rw [hlength, length_written]

/-- What holds of each object that is stored in the row. -/
theorem of_same_row (h : Added K σ S S' v P) (hσ : σ.WellFormed) (hc : v.Conforms σ)
    (hS : Store.WellFormed σ S) (hx : Holds σ S' P.row v) (hn : n ∈ nodes P)
    (hkey : (Accessors.forget n).key σ ≠ none) (hp : p ∈ (σ n.cls).properties)
    (hk : p.2.Appends σ) (hn' : n' ∈ nodesAt P n.row) :
    n' ∈ nodes P ∧ p ∈ (σ n'.cls).properties ∧
      (written K (n'.content p.1)).length = (S'.cell n.row p.1).length ∧
      (p.2.SkipsNull → ∀ key, (key, .null) ∉ n'.content p.1) := by
  obtain ⟨hnode, hrow⟩ := mem_nodesAt.mp hn'
  have hp' := h.property_of_same_row hn hnode hrow hp
  have hkey' : (Accessors.forget n').key σ ≠ none := by
    rw [h.key_of_row hnode hn hrow]
    exact hkey
  refine ⟨hnode, hp', ?_, fun hskips key hnull => ?_⟩
  · rw [← hrow]
    exact h.length_asked hσ hc hS hx hnode hkey' hp' hk
  · refine (h.held hσ hc hS hx hnode hkey').no_null hσ (h.wellFormed hσ hc hS) (h.shaped hc hnode)
      (p := p) ?_ hskips key (mem_forget_content hnull)
    rw [forget_cls]
    exact hp'

/-- **Nothing that is added to is left out**: a list has what was there, and what
each of the objects stored here asks for. -/
theorem length_list (h : Added K σ S S' v P) (hσ : σ.WellFormed) (hc : v.Conforms σ)
    (hS : Store.WellFormed σ S) (hx : Holds σ S' P.row v) (hn : n ∈ nodes P)
    (hkey : (Accessors.forget n).key σ ≠ none) (hp : p ∈ (σ n.cls).properties)
    (hk : p.2.Appends σ) (hshape : p.2.shape = .sequence) :
    (S.cell n.row p.1).length + (nodesAt P n.row).length * (S'.cell n.row p.1).length
      = (S'.cell n.row p.1).length := by
  have hp' := h.property_stored hn hp
  have hwrites : ∀ n' ∈ nodesAt P n.row,
      (∀ w ∈ ownWrites K σ p.2 (n'.content p.1), w.Appends) ∧
      (ownWrites K σ p.2 (n'.content p.1)).length = (S'.cell n.row p.1).length := by
    intro n' hn'
    obtain ⟨hnode, hp'', hlength, hnull⟩ := h.of_same_row hσ hc hS hx hn hkey hp hk hn'
    rcases ownWrites_list_eq (h.typed hc hnode hp'') hshape hk hnull with hws | hws
    · rw [hws, List.length_map, List.length_map]
      refine ⟨fun w hw => ?_, hlength⟩
      obtain ⟨m, -, rfl⟩ := List.mem_map.mp hw
      trivial
    · rw [hws, List.length_map, List.length_zipIdx, List.length_map]
      refine ⟨fun w hw => ?_, hlength⟩
      obtain ⟨m, -, rfl⟩ := List.mem_map.mp hw
      trivial
  -- all that is written to the column is written for the objects of its row
  have hperm := writesAt_perm_nodes (K := K) (h.fitting hσ hc) (y := n.row)
    (List.mem_map_of_mem (f := Prod.fst) hp')
  rw [hσ.kind hp'] at hperm
  have happends : ∀ w ∈ writesAt (n.row, p.1) (events K σ P), w.Appends := by
    intro w hw
    obtain ⟨n', hn', hown⟩ := List.mem_flatMap.mp (hperm.mem_iff.mp hw)
    exact (hwrites n' hn').1 w hown
  have hlength := length_of_appends happends (h.cells n.row p.1)
  rw [hperm.length_eq, length_flatMap_of_const fun n' hn' => (hwrites n' hn').2] at hlength
  exact hlength.symm

/-- The elements of a set of objects without primary keys have none. -/
theorem key_of_elementsAt (h : Added K σ S S' v P) (hc : v.Conforms σ) (hn : n ∈ nodes P)
    {name : String} {T : TableKey} (hp : (name, Kind.set_link T) ∈ (σ n.cls).properties)
    (hpk : (σ T).primary_key = none) :
    ∀ C ∈ elementsAt P n.row name, C ∈ nodes P ∧ (Accessors.forget C).key σ = none := by
  intro C hC
  obtain ⟨n', hn', hobject⟩ := List.mem_flatMap.mp hC
  obtain ⟨hnode, hrow⟩ := mem_nodesAt.mp hn'
  obtain ⟨key, hentry⟩ := mem_objects.mp hobject
  have hcls : C.cls = T := ((h.typed_of_same_row hc hn hnode hrow hp) _ hentry).2
  refine ⟨child_mem_nodes hnode hentry, ?_⟩
  rw [Planned.key_eq_none_iff, hcls]
  exact hpk

/-- They are in rows of their own, which are new. -/
theorem nodup_elementsAt (h : Added K σ S S' v P) (hc : v.Conforms σ) (hS : Store.WellFormed σ S)
    (hn : n ∈ nodes P) {name : String} {T : TableKey}
    (hp : (name, Kind.set_link T) ∈ (σ n.cls).properties) (hpk : (σ T).primary_key = none) :
    (S.cell n.row name ++ (elementsAt P n.row name).map fun C => ("", C.row.link)).Nodup := by
  have hstored : (Kind.set_link T).Stored S.toObjects (S.cell n.row name) :=
    hS.stored n.row _ (h.property_stored hn hp)
  have hnew := h.key_of_elementsAt hc hn hp hpk
  have hrows : ((elementsAt P n.row name).map Placed.row).Nodup :=
    h.rows_nodup_of_key_none (countP_children_at P n.row name) hnew
  rw [List.nodup_append]
  refine ⟨hstored.2, ?_, ?_⟩
  · have hlinks := hrows.map (f := fun y : Ref => ("", y.link))
      fun y y' heq => Ref.link_inj.mp (Prod.mk.inj heq).2
    rw [List.map_map] at hlinks
    exact hlinks
  · -- what was there links to rows that were there
    intro e he e' he' heq
    obtain ⟨C, hC, rfl⟩ := List.mem_map.mp he'
    obtain ⟨y, -, hlive, hy⟩ := (hstored.1 e he).2
    rw [heq] at hy
    obtain ⟨hnode, hnone⟩ := hnew C hC
    have hdead := (h.nodesAt_of_key_none hnode hnone).2
    rw [Ref.link_inj.mp hy, hlive] at hdead
    cases hdead

/-- What was there and all of them are in the set. -/
theorem elementsAt_subset (h : Added K σ S S' v P) (hσ : σ.WellFormed) (hc : v.Conforms σ)
    (hn : n ∈ nodes P) {name : String} {T : TableKey}
    (hp : (name, Kind.set_link T) ∈ (σ n.cls).properties)
    (hnull : ∀ n' ∈ nodesAt P n.row, ∀ key, (key, .null) ∉ n'.content name) :
    (S.cell n.row name ++ (elementsAt P n.row name).map fun C => ("", C.row.link))
      ⊆ S'.cell n.row name := by
  have hown : ∀ n' ∈ nodesAt P n.row, ownWrites K σ (.set_link T) (n'.content name) =
      ((objects (n'.content name)).map fun C => C.row.link).map .set_insert := by
    intro n' hn'
    obtain ⟨hnode, hrow⟩ := mem_nodesAt.mp hn'
    have htyped := h.typed_of_same_row hc hn hnode hrow hp
    have hlinks := asked_links (fun e he => (htyped e he).2) (hnull n' hn')
    rw [List.map_map] at hlinks
    rw [ownWrites_bag_eq htyped rfl _ fun _ => hnull n' hn', written_of_target htyped rfl, hlinks]
    · rfl
    · intro T' hT'
      cases hT'
      exact hσ.set_link _ _ _ (h.property_of_same_row hn hnode hrow hp)
  have hws : ∀ w ∈ writesAt (n.row, name) (events K σ P), ∃ m, w = .set_insert m := by
    intro w hw
    obtain ⟨n', hnode, hrow, hw⟩ := h.exists_node_of_write hσ hc (h.property_stored hn hp) hw
    change w ∈ ownWrites K σ (.set_link T) (n'.content name) at hw
    rw [hown n' (mem_nodesAt.mpr ⟨hnode, hrow⟩)] at hw
    obtain ⟨m, -, rfl⟩ := List.mem_map.mp hw
    exact ⟨m, rfl⟩
  intro e he
  rw [mem_of_set_inserts hws (h.cells n.row name)]
  rcases List.mem_append.mp he with he | he
  · exact .inl he
  · obtain ⟨C, hC, rfl⟩ := List.mem_map.mp he
    obtain ⟨n', hn', hobject⟩ := List.mem_flatMap.mp hC
    obtain ⟨hnode, hrow⟩ := mem_nodesAt.mp hn'
    refine .inr ⟨C.row.link, ?_, rfl⟩
    have hw : .set_insert C.row.link ∈ ownWrites K σ (.set_link T) (n'.content name) := by
      rw [hown n' hn']
      exact List.mem_map_of_mem (f := Write.set_insert)
        (List.mem_map_of_mem (f := fun C => C.row.link) hobject)
    rw [← hrow]
    exact (h.own_mem (K := K) hσ hc hnode (h.property_of_same_row hn hnode hrow hp)).subset hw

/-- A set of objects without primary keys as well: all of them are new. -/
theorem length_set (h : Added K σ S S' v P) (hσ : σ.WellFormed) (hc : v.Conforms σ)
    (hS : Store.WellFormed σ S) (hx : Holds σ S' P.row v) (hn : n ∈ nodes P)
    (hkey : (Accessors.forget n).key σ ≠ none) {name : String} {T : TableKey}
    (hp : (name, Kind.set_link T) ∈ (σ n.cls).properties) (hpk : (σ T).primary_key = none) :
    (S.cell n.row name).length + (nodesAt P n.row).length * (S'.cell n.row name).length
      ≤ (S'.cell n.row name).length := by
  have hat := fun n' (hn' : n' ∈ nodesAt P n.row) =>
    h.of_same_row hσ hc hS hx hn hkey hp (show (Kind.set_link T).Appends σ from hpk) hn'
  have hnull : ∀ n' ∈ nodesAt P n.row, ∀ key, (key, .null) ∉ n'.content name :=
    fun n' hn' => (hat n' hn').2.2.2 trivial
  have hlength := (List.subperm_of_subset (h.nodup_elementsAt hc hS hn hp hpk)
    (h.elementsAt_subset hσ hc hn hp hnull)).length_le
  have helements : (elementsAt P n.row name).length =
      (nodesAt P n.row).length * (S'.cell n.row name).length := by
    apply length_flatMap_of_const
    intro n' hn'
    obtain ⟨hnode, hp', hasked, -⟩ := hat n' hn'
    have hlinks := congrArg List.length
      (asked_links (fun e he => ((h.typed hc hnode hp') e he).2) (hnull n' hn'))
    rw [List.length_map, List.length_map, List.length_map] at hlinks
    rw [← hlinks, ← hasked, written_of_target (h.typed hc hnode hp') rfl]
  rw [List.length_append, List.length_map, helements] at hlength
  exact hlength

/-- **What is added to was empty**, and is written once if it is written. -/
theorem appended_once (h : Added K σ S S' v P) (hσ : σ.WellFormed) (hc : v.Conforms σ)
    (hS : Store.WellFormed σ S) (hx : Holds σ S' P.row v) (hn : n ∈ nodes P)
    (hkey : (Accessors.forget n).key σ ≠ none) (hp : p ∈ (σ n.cls).properties)
    (hk : p.2.Appends σ) :
    S.cell n.row p.1 = [] ∧ (n.content p.1 = [] ∨ (nodesAt P n.row).length = 1) := by
  have hlength : (S.cell n.row p.1).length + (nodesAt P n.row).length * (S'.cell n.row p.1).length
      ≤ (S'.cell n.row p.1).length := by
    cases hshape : p.2.shape with
    | sequence => exact Nat.le_of_eq (h.length_list hσ hc hS hx hn hkey hp hk hshape)
    | bag =>
      obtain ⟨name, k⟩ := p
      cases k with
      | set_link T => exact h.length_set hσ hc hS hx hn hkey hp hk
      | set o => cases hk
      | _ => cases hshape
    | keyed => exact absurd hshape hk.not_keyed
  have hasked := h.length_asked hσ hc hS hx hn hkey hp hk
  have hpos : 0 < (nodesAt P n.row).length :=
    List.length_pos_of_mem (mem_nodesAt.mpr ⟨hn, rfl⟩)
  -- each object of the row adds as many elements as there are in the end
  have hlower : (S'.cell n.row p.1).length ≤
      (nodesAt P n.row).length * (S'.cell n.row p.1).length :=
    Nat.le_mul_of_pos_left _ hpos
  refine ⟨List.length_eq_zero_iff.mp (by omega), ?_⟩
  by_cases hzero : (S'.cell n.row p.1).length = 0
  · left
    rw [hzero] at hasked
    exact written_eq_nil_iff.mp (List.length_eq_zero_iff.mp hasked)
  · right
    have hle : (nodesAt P n.row).length * (S'.cell n.row p.1).length
        ≤ 1 * (S'.cell n.row p.1).length := by omega
    have hone := Nat.le_of_mul_le_mul_right hle (Nat.pos_of_ne_zero hzero)
    omega

/-- Only set insertions are made in a set. -/
theorem writes_of_bag (h : Added K σ S S' v P) (hσ : σ.WellFormed) (hc : v.Conforms σ)
    (hn : n ∈ nodes P) (hp : p ∈ (σ n.cls).properties) (hshape : p.2.shape = .bag) :
    ∀ w ∈ writesAt (n.row, p.1) (events K σ P), ∃ m, w = .set_insert m := by
  intro w hw
  have hallowed := h.writes_allowed hσ hc (h.property_stored hn hp) w hw
  exact hallowed.set_insert hshape

/-- Only dictionary insertions are made in a dictionary. -/
theorem writes_of_keyed (h : Added K σ S S' v P) (hσ : σ.WellFormed) (hc : v.Conforms σ)
    (hn : n ∈ nodes P) (hp : p ∈ (σ n.cls).properties) (hshape : p.2.shape = .keyed) :
    ∀ w ∈ writesAt (n.row, p.1) (events K σ P), ∃ key m, w = .dictionary_insert key m := by
  intro w hw
  have hallowed := h.writes_allowed hσ hc (h.property_stored hn hp) w hw
  exact hallowed.dictionary_insert hshape

/-- What was in a set is asked for. -/
theorem asked_of_old_bag (h : Added K σ S S' v P) (hσ : σ.WellFormed) (hc : v.Conforms σ)
    (hS : Store.WellFormed σ S) (hx : Holds σ S' P.row v) (hn : n ∈ nodes P)
    (hkey : (Accessors.forget n).key σ ≠ none) (hp : p ∈ (σ n.cls).properties)
    (hshape : p.2.shape = .bag) {e : String × Mixed} (he : e ∈ S.cell n.row p.1) :
    ∃ b ∈ (Accessors.forget n).content p.1, Slot.Rel (Holds σ S') (p.2.slot e.2) b.2 := by
  have hnew : e ∈ S'.cell n.row p.1 :=
    (mem_of_set_inserts (h.writes_of_bag hσ hc hn hp hshape) (h.cells n.row p.1) e).mpr (.inl he)
  have hmatch := (h.held hσ hc hS hx hn hkey).content hσ (p := p) (by rw [forget_cls]; exact hp)
  refine hmatch.exists_of_mem (a := (e.1, p.2.slot e.2)) (fun heq => ?_) ?_
  · rw [hshape] at heq
    cases heq
  · exact List.mem_map_of_mem (f := fun e => (e.1, p.2.slot e.2)) hnew

/-- The keys that were in a dictionary are asked for. -/
theorem asked_of_old_keyed (h : Added K σ S S' v P) (hσ : σ.WellFormed) (hc : v.Conforms σ)
    (hS : Store.WellFormed σ S) (hx : Holds σ S' P.row v) (hn : n ∈ nodes P)
    (hkey : (Accessors.forget n).key σ ≠ none) (hp : p ∈ (σ n.cls).properties)
    (hshape : p.2.shape = .keyed) {e : String × Mixed} (he : e ∈ S.cell n.row p.1) :
    e.1 ∈ ((Accessors.forget n).content p.1).map Prod.fst := by
  obtain ⟨m, hm⟩ := exists_lookup_iff.mpr (List.mem_map_of_mem (f := Prod.fst) he)
  -- keys are not removed
  have hnew : ∃ m', (S'.cell n.row p.1).lookup e.1 = some m' := by
    rcases lookup_of_dictionary_inserts (h.writes_of_keyed hσ hc hn hp hshape)
      (h.cells n.row p.1) e.1 with ⟨m', -, hlookup⟩ | ⟨-, hlookup⟩
    · exact ⟨m', hlookup⟩
    · exact ⟨m, hlookup.trans hm⟩
  obtain ⟨m', hm'⟩ := hnew
  have hmatch := (h.held hσ hc hS hx hn hkey).content hσ (p := p) (by rw [forget_cls]; exact hp)
  rw [hshape] at hmatch
  have hat := hmatch e.1
  have hview : (p.2.view (S'.cell n.row p.1)).lookup e.1 = some (p.2.slot m') := by
    unfold Kind.view
    rw [lookup_map_snd, hm']
    rfl
  rw [hview] at hat
  cases hl : ((Accessors.forget n).content p.1).lookup e.1 with
  | none =>
    rw [hl] at hat
    cases hat
  | some b => exact List.mem_map_of_mem (f := Prod.fst) (mem_of_lookup hl)

/-- A stored link, and what an object that is stored there has for it. -/
theorem held_link (h : Added K σ S S' v P) (hσ : σ.WellFormed) (hc : v.Conforms σ)
    (hS : Store.WellFormed σ S) (hx : Holds σ S' P.row v) (hn : n ∈ nodes P)
    (hkey : (Accessors.forget n).key σ ≠ none) {name : String} {T : TableKey}
    (hp : (name, Kind.link T) ∈ (σ n.cls).properties) :
    ∃ m s, S'.cell n.row name = Cell.one m ∧ n.content name = [("", s)] ∧
      Slot.Rel (Holds σ S') ((Kind.link T).slot m) (s.map Accessors.forget) := by
  obtain ⟨m, hm, -⟩ : (Kind.link T).Stored S'.toObjects (S'.cell n.row name) :=
    (h.wellFormed hσ hc hS).stored n.row _ (h.property_stored hn hp)
  obtain ⟨s, hs, -⟩ : (Kind.link T).Typed Placed.cls (n.content name) := h.typed hc hn hp
  refine ⟨m, s, hm, hs, ?_⟩
  have hmatch : Ordered (Holds σ S') ((Kind.link T).view (S'.cell n.row name))
      ((Accessors.forget n).content name) :=
    (h.held hσ hc hS hx hn hkey).content hσ (p := (name, .link T)) (by rw [forget_cls]; exact hp)
  rw [hm, forget_content, hs] at hmatch
  cases hmatch with
  | cons hrel _ => exact hrel

/-- A link that is to be null was null. -/
theorem old_link_null (h : Added K σ S S' v P) (hσ : σ.WellFormed) (hc : v.Conforms σ)
    (hS : Store.WellFormed σ S) (hx : Holds σ S' P.row v) (hn : n ∈ nodes P)
    (hkey : (Accessors.forget n).key σ ≠ none) {name : String} {T : TableKey}
    (hp : (name, Kind.link T) ∈ (σ n.cls).properties)
    (hnull : (Accessors.forget n).content name = [("", .null)]) :
    S.cell n.row name = Cell.one .null := by
  obtain ⟨m, s, hm, hs, hrel⟩ := h.held_link hσ hc hS hx hn hkey hp
  have hsnull : s.map Accessors.forget = .null := by
    rw [forget_content, hs] at hnull
    injection hnull with hhead
    exact (Prod.mk.inj hhead).2
  rw [hsnull] at hrel
  have hslot := hrel.eq_null_of_right
  -- the stored link is null, and so is that of every object stored here
  have hnone : ∀ n' ∈ nodes P, n'.row = n.row →
      ownWrites K σ (.link T) (n'.content name) = [] := by
    intro n' hn' hrow
    have hkey' : (Accessors.forget n').key σ ≠ none := by
      rw [h.key_of_row hn' hn hrow]
      exact hkey
    obtain ⟨m', s', hm', hs', hrel'⟩ := h.held_link hσ hc hS hx hn' hkey'
      (h.property_of_same_row hn hn' hrow hp)
    rw [hrow, hm] at hm'
    rw [← Cell.one_inj.mp hm', hslot] at hrel'
    have hnull' := hrel'.eq_null_of_left
    rw [hs']
    cases s' with
    | null => rfl
    | scalar _ => cases hnull'
    | object _ => cases hnull'
  have hold : S'.cell n.row name = S.cell n.row name := h.cell_of_no_writes hσ hc hn hp hnone
  obtain ⟨m', hm', hlink⟩ : (Kind.link T).Stored S.toObjects (S.cell n.row name) :=
    hS.stored n.row _ (h.property_stored hn hp)
  rw [hold, hm'] at hm
  rcases hlink with rfl | ⟨y, -, -, rfl⟩
  · exact hm'
  · rw [← Cell.one_inj.mp hm, slot_link rfl] at hslot
    cases hslot

/-- A link that was in a set is that of an element with its primary key. -/
theorem key_of_old_set_link (h : Added K σ S S' v P) (hσ : σ.WellFormed) (hc : v.Conforms σ)
    (hS : Store.WellFormed σ S) (hx : Holds σ S' P.row v) (hn : n ∈ nodes P)
    (hkey : (Accessors.forget n).key σ ≠ none) {name : String} {T : TableKey}
    (hp : (name, Kind.set_link T) ∈ (σ n.cls).properties) (hpk : (σ T).primary_key ≠ none)
    {e : String × Mixed} (he : e ∈ S.cell n.row name) :
    ∃ u ∈ objects ((Accessors.forget n).content name), ∃ m key,
      u.key σ = some (T, m) ∧ S.index T m = some key ∧ e.2 = .link T key := by
  have hS' := h.wellFormed hσ hc hS
  have hp' := h.property_stored hn hp
  obtain ⟨⟨j, s⟩, hb, hrel⟩ := h.asked_of_old_bag hσ hc hS hx hn hkey hp rfl he
  obtain ⟨y, htable, hlive, hy⟩ :=
    ((hS.stored n.row _ hp' : (Kind.set_link T).Stored S.toObjects (S.cell n.row name)).1 e he).2
  change Slot.Rel (Holds σ S') ((Kind.set_link T).slot e.2) s at hrel
  rw [hy, slot_link rfl] at hrel
  cases hrel with
  | @object _ u hholds =>
    obtain ⟨s', hs', heq⟩ := exists_of_mem_forget_content hb
    have hobject : ∃ C, s' = .object C ∧ u = Accessors.forget C := by
      cases s' with
      | null => cases heq
      | scalar m => cases heq
      | object C =>
        injection heq with heq
        exact ⟨C, rfl, heq⟩
    obtain ⟨C, rfl, rfl⟩ := hobject
    have hC : C ∈ nodes P := child_mem_nodes hn hs'
    have hcls : C.cls = T := ((h.typed hc hn hp) _ hs').2
    have hsome : (Accessors.forget C).key σ ≠ none := by
      intro hnone
      rw [Planned.key_eq_none_iff, hcls] at hnone
      exact hpk hnone
    obtain ⟨⟨t, m⟩, htm⟩ := Option.ne_none_iff_exists'.mp hsome
    have ht : t = T := by
      rw [← Unmanaged.key_cls htm, forget_cls, hcls]
    subst ht
    refine ⟨Accessors.forget C, mem_objects.mpr ⟨j, hb⟩, m, y.key, htm, ?_, ?_⟩
    · -- it had a primary key before, and has the same one now
      obtain ⟨pkname, hpkname⟩ := Option.ne_none_iff_exists'.mp hpk
      obtain ⟨m', -, hindex⟩ := hS.keyed y pkname hlive (by rw [htable]; exact hpkname)
      obtain ⟨-, hindex'⟩ :=
        hholds.index hσ hS' (h.shaped hc hC) (h.placing.live y hlive) htm
      rw [htable] at hindex
      have hmm := hS'.objects.index_inj _ _ _ _ (h.placing.index _ _ _ hindex) hindex'
      rw [← hmm]
      exact hindex
    · rw [hy, ← htable]
      rfl

/-- **What was in the columns of an object that is held.** -/
theorem absorbs_of_held (h : Added K σ S S' v P) (hσ : σ.WellFormed) (hc : v.Conforms σ)
    (hS : Store.WellFormed σ S) (hx : Holds σ S' P.row v) (hn : n ∈ nodes P)
    (hkey : (Accessors.forget n).key σ ≠ none) (hp : p ∈ (σ n.cls).properties) :
    p.2.Absorbs σ S.toObjects (S.cell n.row p.1) ((Accessors.forget n).content p.1) := by
  refine ⟨fun hk => (h.appended_once hσ hc hS hx hn hkey hp hk).1, ?_⟩
  have hp' := h.property_stored hn hp
  obtain ⟨name, k⟩ := p
  cases k with
  | scalar => trivial
  | list _ => trivial
  | list_link _ => trivial
  | set o =>
    intro e he
    have htyped := (h.shaped hc hn).typed (name, .set o) (by rw [forget_cls]; exact hp)
    obtain ⟨⟨j, s⟩, hb, hrel⟩ := h.asked_of_old_bag hσ hc hS hx hn hkey hp rfl he
    have he1 : e.1 = "" := (hS.stored n.row _ hp' :
      (Kind.set o).Stored S.toObjects (S.cell n.row name)).1 e he
    obtain ⟨m, heq⟩ := htyped.1 _ hb
    cases heq
    cases hrel
    rw [he1]
    exact hb
  | dictionary o => exact fun e he => h.asked_of_old_keyed hσ hc hS hx hn hkey hp rfl he
  | dictionary_link T => exact fun e he => h.asked_of_old_keyed hσ hc hS hx hn hkey hp rfl he
  | link T => exact h.old_link_null hσ hc hS hx hn hkey hp
  | set_link T =>
    intro e he
    by_cases hpk : (σ T).primary_key = none
    · rw [(h.appended_once hσ hc hS hx hn hkey hp hpk).1] at he
      cases he
    · exact h.key_of_old_set_link hσ hc hS hx hn hkey hp hpk he

/-! ## §4. The conditions are exact. -/

theorem exists_node (h : Added K σ S S' v P) {u : Unmanaged} (hu : u ∈ v.reached) :
    ∃ n ∈ nodes P, Accessors.forget n = u := by
  rw [← h.forget, ← nodes_map_forget] at hu
  exact List.mem_map.mp hu

theorem storable (h : Added K σ S S' v P) (hσ : σ.WellFormed) (hc : v.Conforms σ)
    (hS : Store.WellFormed σ S) (hx : Holds σ S' P.row v) : v.Storable σ := by
  have hS' := h.wellFormed hσ hc hS
  have hreached := hx.reached hσ hS' hc (h.placing.row_live P (self_mem_nodes P))
  refine ⟨?_, ?_, ?_, ?_⟩
  · -- one row holds both
    intro u hu u' hu' hsome hkey
    obtain ⟨n, hn, rfl⟩ := h.exists_node hu
    obtain ⟨n', hn', rfl⟩ := h.exists_node hu'
    have hholds := h.held hσ hc hS hx hn hsome
    have hholds' := h.held hσ hc hS hx hn' (hkey ▸ hsome)
    rw [← h.row_of_key hn hn' hsome hkey] at hholds'
    exact Bisimilar.trans (Bisimilar.symm hholds) hholds'
  · -- what is stored has no null where they get lost
    intro u hu p hp hk key
    obtain ⟨z, -, hholds⟩ := hreached u hu
    exact hholds.no_null hσ hS' (hc.shaped u hu) hp hk key
  · intro u hu p hp T hT hpk
    obtain ⟨z, -, hholds⟩ := hreached u hu
    obtain ⟨name, k⟩ := p
    subst hT
    exact hholds.distinct hσ hS' (hc.of_reached hu) hp hpk
  · -- the objects of a row are those reached with its key
    intro u hu hsome p hp hk
    obtain ⟨n, hn, rfl⟩ := h.exists_node hu
    rw [forget_cls] at hp
    rw [← h.length_nodesAt hn hsome, forget_content]
    rcases (h.appended_once hσ hc hS hx hn hsome hp hk).2 with hnil | hone
    · rw [hnil]
      exact .inl rfl
    · exact .inr hone

theorem absorbable (h : Added K σ S S' v P) (hσ : σ.WellFormed) (hc : v.Conforms σ)
    (hS : Store.WellFormed σ S) (hx : Holds σ S' P.row v) : v.Absorbable σ S := by
  intro u hu t m key hkey hindex p hp
  obtain ⟨n, hn, rfl⟩ := h.exists_node hu
  have hsome : (Accessors.forget n).key σ ≠ none := by
    rw [hkey]
    exact Option.some_ne_none _
  have hrow : n.row = ⟨t, key⟩ := h.row_of_index hn hkey (h.placing.index t m key hindex)
  rw [forget_cls] at hp
  rw [← hrow]
  exact h.absorbs_of_held hσ hc hS hx hn hsome hp

end Added

end RealmCpp.Accessors
