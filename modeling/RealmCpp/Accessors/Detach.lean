/-
  RealmCpp.Accessors.Detach
  ─────────────────────────
  **READING STORED OBJECTS BACK.**

  `managed<T>::detach` makes a new unmanaged object and assigns to each of its
  properties what the managed property detaches to.  Behind a pointer there is
  always a new object: where a link is null, its properties are read from the
  object that owns the link.

    • `detachKind` — one property, `detachAs` — an object, `detach`,
    • `Unmanaged.Readable` — what can come back from `detach`,
    • `readable_of_detach` — nothing else does,
    • `exists_detach` — an object that is held comes back, if it can.
-/
import RealmCpp.Accessors.Kept
import RealmCpp.Library.Traversal

namespace RealmCpp.Accessors

open RealmCpp.Library
open RealmCpp.Core

/-! ## §1. `detach`. -/

/-- Properties that are read from the same kind of column; the class that a link
points to is not looked at. -/
def Kind.sameColumn : Kind → Kind → Bool
  | link _, link _ | list_link _, list_link _ | set_link _, set_link _
  | dictionary_link _, dictionary_link _ => true
  | k, k' => k = k'

/-- The object behind an entry of a column, as one of the class `T`. -/
def detachEntry (detach : TableKey → Ref → Option Unmanaged) (T : TableKey)
    (e : String × Mixed) : Option (String × Slot Mixed Unmanaged) :=
  match e.2 with
  | .link t key => (detach T ⟨t, key⟩).map fun u => (e.1, .object u)
  | _ => none

/-- `detach` of a property of the object `x`, from its column. -/
def detachKind (detach : TableKey → Ref → Option Unmanaged) (x : Ref) (k : Kind) (c : Cell) :
    Option (Content Mixed Unmanaged) :=
  match k with
  | .scalar _ | .list _ => some (c.map fun e => (e.1, .scalar e.2))
  | .set e =>
      -- `deserialize` of an optional is always the empty one
      if e.optional then some (if c = [] then [] else [("", .scalar .null)])
      else some (c.map fun e => (e.1, .scalar e.2))
  | .dictionary e => some (c.map fun d => (d.1, .scalar (if e.optional then .null else d.2)))
  | .link T =>
      match c with
      | [(_, .link t key)] => (detach T ⟨t, key⟩).map fun u => [("", .object u)]
      -- `m_obj->is_null(m_key) ? *m_obj : m_obj->get_linked_object(m_key)`
      | _ => (detach T x).map fun u => [("", .object u)]
  | .list_link T | .set_link T | .dictionary_link T => c.mapM (detachEntry detach T)

/-- The object `x` as one of the class `t`, each property read from the column of
its name; none where there is no such column, or where an object keeps being
read for itself. -/
def detachAs (σ : Schemas) (S : Store) : Nat → TableKey → Ref → Option Unmanaged
  | 0, _, _ => none
  | n + 1, t, x => do
      let ps ← (σ t).properties.mapM fun p =>
        if ((σ x.table).properties.lookup p.1).any p.2.sameColumn then
          (detachKind (detachAs σ S n) x p.2 (S.cell x p.1)).map fun c => (p.1, c)
        else none
      some (.node t ps)

/-- `managed<T>::detach`, to a depth of `n` calls. -/
def detach (σ : Schemas) (S : Store) (n : Nat) (x : Ref) : Option Unmanaged :=
  detachAs σ S n x.table x

theorem Kind.sameColumn_self (k : Kind) : k.sameColumn k = true := by
  cases k <;> simp [Kind.sameColumn]

section Detached

variable {σ : Schemas} {S : Store} {n : Nat} {t : TableKey} {x : Ref} {d : Unmanaged}

/-- An object that comes back, property by property. -/
theorem detachAs_eq_some (hσ : σ.WellFormed) (h : detachAs σ S (n + 1) t x = some d) :
    d.cls = t ∧ d.props.map Prod.fst = (σ t).properties.map Prod.fst ∧
      ∀ p ∈ (σ t).properties,
        detachKind (detachAs σ S n) x p.2 (S.cell x p.1) = some (d.content p.1) := by
  unfold detachAs at h
  obtain ⟨ps, hps, hd⟩ := Option.bind_eq_some_iff.mp h
  cases hd
  rw [mapM_eq_some_iff] at hps
  have hentry : List.Forall₂ (fun p q => q.1 = p.1 ∧
      detachKind (detachAs σ S n) x p.2 (S.cell x p.1) = some q.2) (σ t).properties ps := by
    refine List.Forall₂.imp ?_ hps
    intro p q hpq
    obtain ⟨-, hpq⟩ := Option.ite_none_right_eq_some.mp hpq
    obtain ⟨c, hc, rfl⟩ := Option.map_eq_some_iff.mp hpq
    exact ⟨rfl, hc⟩
  have hnames := names_eq_of_forall₂ hentry
  refine ⟨rfl, hnames, fun p hp => ?_⟩
  obtain ⟨q, hq, hname, hcontent⟩ := exists_of_mem_forall₂ hentry hp
  -- no other property has the name
  have hlookup : ps.lookup p.1 = some q.2 := by
    apply lookup_of_mem
    · rw [hnames]
      exact hσ.nodup t
    · rw [← hname]
      exact hq
  rw [hcontent]
  show _ = some ((ps.lookup p.1).getD [])
  rw [hlookup]
  rfl

end Detached

/-! ## §2. What comes back. -/

/-- What can come back in a property: no null behind a link or a key, and no
optional but the empty one from a set or a dictionary. -/
def Kind.Reads {ν : Type} : Kind → Slot Mixed ν → Prop
  | link _, s | dictionary_link _, s => s ≠ .null
  | set e, s | dictionary e, s => e.optional = true → s = .scalar .null
  | _, _ => True

/-- **What can come back from `detach`.** -/
def Unmanaged.Readable (σ : Schemas) (v : Unmanaged) : Prop :=
  ∀ u ∈ v.reached, ∀ p ∈ (σ u.cls).properties, ∀ e ∈ u.content p.1, p.2.Reads e.2

/-- What can come back depends on nulls and values only. -/
theorem Kind.Reads.of_rel {ν ν' : Type} {R : ν → ν' → Prop} {k : Kind} {a : Slot Mixed ν}
    {b : Slot Mixed ν'} (hb : k.Reads b) (h : Slot.Rel R a b) : k.Reads a := by
  cases k with
  | link T =>
    intro hnull
    subst hnull
    cases h
    exact hb rfl
  | dictionary_link T =>
    intro hnull
    subst hnull
    cases h
    exact hb rfl
  | set e =>
    intro hoptional
    rw [hb hoptional] at h
    cases h
    rfl
  | dictionary e =>
    intro hoptional
    rw [hb hoptional] at h
    cases h
    rfl
  | _ => trivial

section Columns

variable {A : Objects} {k : Kind} {T : TableKey} {c : Cell} {x : Ref}
  {detach : TableKey → Ref → Option Unmanaged}

/-- Values come back as they are in the column. -/
theorem detachKind_of_target_none (hk : k.target = none) (hc : k.Stored A c)
    (hreads : ∀ e ∈ c, k.Reads (k.slot e.2)) :
    detachKind detach x k c = some (c.map fun e => (e.1, .scalar e.2)) := by
  have hnull : ∀ {e : String × Mixed}, k.slot e.2 = .scalar .null → e.2 = .null := by
    intro e he
    rw [slot_asked_of_target_none hk] at he
    injection he
  cases k with
  | scalar e => rfl
  | list e => rfl
  | set e =>
    show (if e.optional = true then _ else _) = _
    by_cases hoptional : e.optional = true
    · rw [if_pos hoptional]
      have hall : ∀ b ∈ c, b = ("", .null) := by
        intro b hb
        exact Prod.ext (hc.1 b hb) (hnull (hreads b hb hoptional))
      -- a set has the empty one at most once
      have hlength : c.length ≤ 1 := by
        have hrep := List.eq_replicate_of_mem hall
        have hnodup := hc.2
        rw [hrep] at hnodup
        exact List.nodup_replicate.mp hnodup
      rcases c with _ | ⟨b, c⟩
      · rfl
      · rw [List.length_cons] at hlength
        have hnil : c = [] := List.length_eq_zero_iff.mp (by omega)
        subst hnil
        rw [hall b List.mem_cons_self]
        rfl
    · rw [if_neg hoptional]
  | dictionary e =>
    refine congrArg some (List.map_congr_left fun b hb => ?_)
    by_cases hoptional : e.optional = true
    · simp only [hoptional, if_true, hnull (hreads b hb hoptional)]
    · simp only [hoptional, Bool.false_eq_true, if_false]
  | _ => cases hk

theorem detachEntry_eq_some {e : String × Mixed} {b : String × Slot Mixed Unmanaged} :
    detachEntry detach T e = some b ↔
      ∃ y d, e.2 = y.link ∧ detach T y = some d ∧ b = (e.1, .object d) := by
  obtain ⟨key, m⟩ := e
  constructor
  · intro h
    cases m with
    | link t j =>
      obtain ⟨d, hd, hb⟩ := Option.map_eq_some_iff.mp h
      exact ⟨⟨t, j⟩, d, rfl, hd, hb.symm⟩
    | _ => cases h
  · rintro ⟨y, d, hm, hd, rfl⟩
    change m = y.link at hm
    subst hm
    show (detach T y).map _ = _
    rw [hd]
    rfl

/-- Links come back one by one. -/
theorem detachKind_of_target (hk : k.target = some T) (hc : k.Stored A c)
    (hlinks : ∀ e ∈ c, k.slot e.2 ≠ .null) :
    detachKind detach x k c = c.mapM (detachEntry detach T) := by
  cases k with
  | link T' =>
    cases hk
    obtain ⟨m, rfl, hm⟩ := hc
    rcases hm with rfl | ⟨y, -, -, rfl⟩
    -- the object behind a null link would be read
    · exact absurd (slot_null rfl) (hlinks _ (List.mem_singleton_self _))
    · show (detach T y).map _ = (Cell.one y.link).mapM _
      unfold Cell.one
      rw [List.mapM_cons, List.mapM_nil]
      show _ = ((detach T y).map fun u => ("", Slot.object u)).bind fun b => some [b]
      cases detach T y <;> rfl
  | list_link T' =>
    cases hk
    rfl
  | set_link T' =>
    cases hk
    rfl
  | dictionary_link T' =>
    cases hk
    rfl
  | _ => cases hk

/-- What is the same as an object is a link. -/
theorem exists_link_of_rel {H : Ref → Unmanaged → Prop} {w : Unmanaged} {m : Mixed}
    (hk : k.target = some T) (hrel : Slot.Rel H (k.slot m) (.object w)) :
    ∃ y : Ref, m = y.link ∧ H y w := by
  unfold Kind.slot at hrel
  rw [hk] at hrel
  cases m with
  | link t key =>
    cases hrel with
    | object h => exact ⟨⟨t, key⟩, rfl, h⟩
  | _ => cases hrel

/-- Each entry of a column has a counterpart in what the column holds. -/
theorem exists_counterpart {H : Ref → Unmanaged → Prop} {content : Content Mixed Unmanaged}
    (hc : k.Stored A c) (hmatch : k.shape.Match H (k.view c) content) :
    ∀ e ∈ c, ∃ b ∈ content, Slot.Rel H (k.slot e.2) b.2 := by
  have hkeys : k.shape = .keyed → ((k.view c).map Prod.fst).Nodup := by
    intro hshape
    unfold Kind.view
    rw [List.map_map]
    cases k with
    | dictionary _ => exact hc
    | dictionary_link _ => exact hc.2
    | _ => cases hshape
  intro e he
  exact hmatch.exists_of_mem hkeys (List.mem_map_of_mem (f := fun e => (e.1, k.slot e.2)) he)

/-- Where no null comes back, each link leads to an object. -/
theorem exists_object_of_link {H : Ref → Unmanaged → Prop} {content : Content Mixed Unmanaged}
    {T : TableKey} (hk : k.target = some T) (hc : k.Stored A c)
    (htyped : k.Typed Unmanaged.cls content) (hreads : ∀ e ∈ content, k.Reads e.2)
    (hmatch : k.shape.Match H (k.view c) content) :
    ∀ e ∈ c, ∃ y w, e.2 = y.link ∧ w.cls = T ∧ H y w := by
  intro e he
  obtain ⟨b, hb, hrel⟩ := exists_counterpart hc hmatch e he
  have hpoints := htyped.slots b hb
  rw [hk] at hpoints
  -- lists and sets hold no null, and of the rest none can be read
  have hne : b.2 ≠ .null := by
    intro hnull
    rw [hnull] at hrel
    have hslot : k.slot e.2 = .null := by
      generalize k.slot e.2 = s at hrel
      cases hrel
      rfl
    by_cases hskips : k.SkipsNull
    · exact hc.not_null hskips he hslot
    · have hreads := hreads b hb
      cases k with
      | link T' => exact hreads hnull
      | dictionary_link T' => exact hreads hnull
      | list_link T' => exact hskips trivial
      | set_link T' => exact hskips trivial
      | _ => cases hk
  cases hs : b.2 with
  | null => exact absurd hs hne
  | scalar m =>
    rw [hs] at hpoints
    exact hpoints.elim
  | object w =>
    rw [hs] at hrel hpoints
    obtain ⟨y, hy, hH⟩ := exists_link_of_rel hk hrel
    exact ⟨y, w, hy, hpoints, hH⟩

/-- **A property of values comes back** as it is held. -/
theorem exists_detachKind_of_target_none {σ : Schemas} {H : Ref → Unmanaged → Prop}
    {content : Content Mixed Unmanaged} (hk : k.target = none) (hc : k.Stored A c)
    (hreads : ∀ e ∈ content, k.Reads e.2) (hmatch : k.shape.Match H (k.view c) content) :
    ∃ content', detachKind detach x k c = some content' ∧
      k.shape.Match (SameTree σ) content' content := by
  refine ⟨_, detachKind_of_target_none hk hc ?_, ?_⟩
  · intro e he
    obtain ⟨b, hb, hrel⟩ := exists_counterpart hc hmatch e he
    exact (hreads b hb).of_rel hrel
  · -- there are no objects to compare
    have hsame : k.shape.Match (fun (_ : Unmanaged) (_ : Ref) => False)
        (c.map fun e => (e.1, .scalar e.2)) (k.view c) := by
      apply Shape.Match.of_forall₂
      unfold Kind.view
      rw [List.forall₂_map_left_iff, List.forall₂_map_right_iff, List.forall₂_same]
      intro e _
      refine ⟨rfl, ?_⟩
      rw [slot_asked_of_target_none hk]
      exact .scalar _
    exact (hsame.comp hmatch).mono fun d w ⟨y, hfalse, _⟩ => hfalse.elim

/-- **A property of objects comes back** where each of them does. -/
theorem exists_detachKind_of_target {σ : Schemas} {H : Ref → Unmanaged → Prop}
    {content : Content Mixed Unmanaged} {T : TableKey} (hk : k.target = some T)
    (hc : k.Stored A c) (htyped : k.Typed Unmanaged.cls content)
    (hreads : ∀ e ∈ content, k.Reads e.2) (hmatch : k.shape.Match H (k.view c) content)
    (hback : ∀ y w, H y w → ∃ d, detach w.cls y = some d ∧ SameTree σ d w) :
    ∃ content', detachKind detach x k c = some content' ∧
      k.shape.Match (SameTree σ) content' content := by
  have hobject := exists_object_of_link hk hc htyped hreads hmatch
  have hcls : ∀ b ∈ content, ∀ w, b.2 = .object w → w.cls = T := by
    intro b hb w hw
    have hslot := htyped.slots b hb
    rw [hk, hw] at hslot
    exact hslot
  obtain ⟨content', hcontent'⟩ := exists_mapM (f := detachEntry detach T) (l := c) fun e he => by
    obtain ⟨y, w, hy, hw, hH⟩ := hobject e he
    obtain ⟨d, hd, -⟩ := hback y w hH
    rw [hw] at hd
    exact ⟨_, detachEntry_eq_some.mpr ⟨y, d, hy, hd, rfl⟩⟩
  refine ⟨content', ?_, ?_⟩
  · rw [detachKind_of_target hk hc fun e he hnull => ?_]
    · exact hcontent'
    · obtain ⟨y, w, hy, -, -⟩ := hobject e he
      rw [hy, slot_link hk] at hnull
      cases hnull
  · -- from the objects that came back, over the rows, to those that are held
    have hread : k.shape.Match (fun d y => detach T y = some d) content' (k.view c) := by
      apply Shape.Match.of_forall₂
      unfold Kind.view
      rw [List.forall₂_map_right_iff]
      refine List.Forall₂.imp ?_ (mapM_eq_some_iff.mp hcontent').flip
      intro b e hb
      obtain ⟨y, d, hy, hd, rfl⟩ := detachEntry_eq_some.mp hb
      refine ⟨rfl, ?_⟩
      rw [hy, slot_link hk]
      exact .object hd
    refine (hread.comp hmatch.of_mem).mono fun d w ⟨y, hd, hH, hw⟩ => ?_
    obtain ⟨key, hkey⟩ := mem_objects.mp hw
    obtain ⟨d', hd', hsame⟩ := hback y w hH
    rw [hcls _ hkey w rfl, hd] at hd'
    cases hd'
    exact hsame

/-- **A property that is held comes back**, where the objects behind it do. -/
theorem exists_detachKind {σ : Schemas} {H : Ref → Unmanaged → Prop}
    {content : Content Mixed Unmanaged} (hc : k.Stored A c)
    (htyped : k.Typed Unmanaged.cls content) (hreads : ∀ e ∈ content, k.Reads e.2)
    (hmatch : k.shape.Match H (k.view c) content)
    (hback : ∀ y w, H y w → ∃ d, detach w.cls y = some d ∧ SameTree σ d w) :
    ∃ content', detachKind detach x k c = some content' ∧
      k.shape.Match (SameTree σ) content' content := by
  cases hk : k.target with
  | none => exact exists_detachKind_of_target_none hk hc hreads hmatch
  | some T => exact exists_detachKind_of_target hk hc htyped hreads hmatch hback

end Columns

/-- An object behind a pointer is smaller. -/
theorem sizeOf_lt_of_mem {u w : Unmanaged} {name key : String} {es : Content Mixed Unmanaged}
    (hes : (name, es) ∈ u.props) (hw : (key, .object w) ∈ es) : sizeOf w < sizeOf u := by
  obtain ⟨t, ps⟩ := u
  have hprops : sizeOf (name, es) < sizeOf ps := List.sizeOf_lt_of_mem hes
  have hentry : sizeOf (key, Slot.object w) < sizeOf es := List.sizeOf_lt_of_mem hw
  rw [Prod.mk.sizeOf_spec] at hprops hentry
  rw [Slot.object.sizeOf_spec] at hentry
  rw [Unmanaged.node.sizeOf_spec]
  omega

/-- **An object that is held comes back** from `detach`. -/
theorem exists_detach {σ : Schemas} {S : Store} (hσ : σ.WellFormed) (hS : Store.WellFormed σ S)
    (n : Nat) : ∀ u x, sizeOf u ≤ n → u.Conforms σ → u.Readable σ → Holds σ S x u →
      ∃ d, detachAs σ S n u.cls x = some d ∧ SameTree σ d u := by
  induction n with
  | zero =>
    intro u x hsize
    obtain ⟨t, ps⟩ := u
    rw [Unmanaged.node.sizeOf_spec] at hsize
    omega
  | succ n ih =>
    intro u x hsize hconforms hreadable hx
    have hu := hconforms.shaped u u.self_mem_reached
    -- each property comes back by itself
    have hproperty : ∀ p ∈ (σ u.cls).properties, ∃ c,
        detachKind (detachAs σ S n) x p.2 (S.cell x p.1) = some c ∧
          p.2.shape.Match (SameTree σ) c (u.content p.1) := by
      intro p hp
      refine exists_detachKind (hS.stored x p (hx.mem hp)) (hu.typed p hp)
        (hreadable u u.self_mem_reached p hp) (hx.content hσ hp).of_mem fun y w hyw => ?_
      obtain ⟨hH, hw⟩ := hyw
      obtain ⟨key, hkey⟩ := mem_objects.mp hw
      have hes := Unmanaged.content_mem_props hkey
      refine ih w y ?_ ?_ (fun w' hw' => ?_) hH
      · have hlt := sizeOf_lt_of_mem hes hkey
        omega
      · exact hconforms.of_reached (Unmanaged.reached_subset hes hkey w.self_mem_reached)
      · exact hreadable w' (Unmanaged.reached_subset hes hkey hw')
    obtain ⟨ps, hps⟩ := exists_mapM (l := (σ u.cls).properties) (f := fun p =>
        if ((σ x.table).properties.lookup p.1).any p.2.sameColumn then
          (detachKind (detachAs σ S n) x p.2 (S.cell x p.1)).map fun c => (p.1, c)
        else none) fun p hp => by
      obtain ⟨c, hc, -⟩ := hproperty p hp
      refine ⟨(p.1, c), ?_⟩
      -- the class is the right one
      rw [hx.table, lookup_of_mem (hσ.nodup u.cls) hp, Option.any_some, p.2.sameColumn_self,
        if_pos rfl, hc]
      rfl
    have hd : detachAs σ S (n + 1) u.cls x = some (.node u.cls ps) := by
      unfold detachAs
      rw [hps]
      rfl
    obtain ⟨hcls, -, hcontent⟩ := detachAs_eq_some hσ hd
    refine ⟨_, hd, Bisimilar.intro hcls fun f hf => ?_⟩
    obtain ⟨p, hp, rfl⟩ := List.mem_map.mp hf
    obtain ⟨c, hc, hmatch⟩ := hproperty p hp
    rw [hcontent p hp] at hc
    cases hc
    exact hmatch

/-! ## §4. Nothing else comes back. -/

section Readable

variable {σ : Schemas} {S : Store} {A : Objects} {detach : TableKey → Ref → Option Unmanaged}

/-- A link always comes back as an object. -/
theorem detachKind_link {x : Ref} {T : TableKey} {c : Cell} {content : Content Mixed Unmanaged}
    (h : detachKind detach x (.link T) c = some content) :
    ∃ y u, detach T y = some u ∧ content = [("", .object u)] := by
  simp only [detachKind] at h
  split at h
  · obtain ⟨u, hu, rfl⟩ := Option.map_eq_some_iff.mp h
    exact ⟨_, u, hu, rfl⟩
  · -- where it is null, the owner is read
    obtain ⟨u, hu, rfl⟩ := Option.map_eq_some_iff.mp h
    exact ⟨x, u, hu, rfl⟩

/-- What comes back in a property can come back. -/
theorem reads_of_detachKind {x : Ref} {k : Kind} {c : Cell} {content : Content Mixed Unmanaged}
    (h : detachKind detach x k c = some content) : ∀ e ∈ content, k.Reads e.2 := by
  intro e he
  cases k with
  | set b =>
    intro hoptional
    change (if b.optional = true then _ else _) = _ at h
    rw [if_pos hoptional] at h
    cases h
    split at he
    · cases he
    · rw [List.mem_singleton.mp he]
  | dictionary b =>
    intro hoptional
    cases h
    obtain ⟨d, -, rfl⟩ := List.mem_map.mp he
    simp only [hoptional, if_true]
  | link T =>
    intro hnull
    obtain ⟨y, u, -, rfl⟩ := detachKind_link h
    rw [List.mem_singleton.mp he] at hnull
    cases hnull
  | dictionary_link T =>
    intro hnull
    obtain ⟨d, -, hd⟩ := exists_of_mem_forall₂ (mapM_eq_some_iff.mp h).flip he
    obtain ⟨y, u, -, -, rfl⟩ := detachEntry_eq_some.mp hd
    cases hnull
  | _ => trivial

/-- The objects that come back in a property are detached themselves. -/
theorem detached_of_detachKind {x : Ref} {k : Kind} {c : Cell} {content : Content Mixed Unmanaged}
    (h : detachKind detach x k c = some content) {key : String} {w : Unmanaged}
    (hw : (key, .object w) ∈ content) : ∃ T y, detach T y = some w := by
  have hentries : ∀ T, c.mapM (detachEntry detach T) = some content →
      ∃ T y, detach T y = some w := by
    intro T hmap
    obtain ⟨d, -, hd⟩ := exists_of_mem_forall₂ (mapM_eq_some_iff.mp hmap).flip hw
    obtain ⟨y, u, -, hu, heq⟩ := detachEntry_eq_some.mp hd
    cases heq
    exact ⟨T, y, hu⟩
  have hvalues : ∀ f : String × Mixed → Mixed,
      (key, .object w) ∉ c.map fun e => (e.1, (Slot.scalar (f e) : Slot Mixed Unmanaged)) := by
    intro f hmem
    obtain ⟨e, -, he⟩ := List.mem_map.mp hmem
    cases he
  cases k with
  | scalar b =>
    cases h
    exact absurd hw (hvalues Prod.snd)
  | list b =>
    cases h
    exact absurd hw (hvalues Prod.snd)
  | set b =>
    change (if b.optional = true then _ else _) = _ at h
    split at h
    · cases h
      split at hw
      · cases hw
      · cases List.mem_singleton.mp hw
    · cases h
      exact absurd hw (hvalues Prod.snd)
  | dictionary b =>
    cases h
    exact absurd hw (hvalues fun e => if b.optional = true then .null else e.2)
  | link T =>
    obtain ⟨y, u, hu, rfl⟩ := detachKind_link h
    cases List.mem_singleton.mp hw
    exact ⟨T, y, hu⟩
  | list_link T => exact hentries T h
  | set_link T => exact hentries T h
  | dictionary_link T => exact hentries T h

/-- **What comes back from `detach` can come back.** -/
theorem readable_of_detach (hσ : σ.WellFormed) {n : Nat} {t : TableKey} {x : Ref} {d : Unmanaged}
    (h : detachAs σ S n t x = some d) : d.Readable σ := by
  have hall := Unmanaged.reached_induction (M := fun u => ∃ n t x, detachAs σ S n t x = some u)
    ?_ d ⟨n, t, x, h⟩
  · intro u hu p hp e he
    obtain ⟨n, t, x, hdetach⟩ := hall u hu
    cases n with
    | zero => cases hdetach
    | succ n =>
      obtain ⟨rfl, -, hcontent⟩ := detachAs_eq_some hσ hdetach
      exact reads_of_detachKind (hcontent p hp) e he
  · -- behind a pointer there is an object that is detached itself
    intro u ⟨n, t, x, hdetach⟩ name es hes key w hw
    cases n with
    | zero => cases hdetach
    | succ n =>
      obtain ⟨rfl, hnames, hcontent⟩ := detachAs_eq_some hσ hdetach
      have hname : name ∈ (σ u.cls).properties.map Prod.fst := by
        rw [← hnames]
        exact List.mem_map_of_mem (f := Prod.fst) hes
      obtain ⟨p, hp, rfl⟩ := List.mem_map.mp hname
      have hes' : u.content p.1 = es := by
        unfold Unmanaged.content
        rw [lookup_of_mem (hnames ▸ hσ.nodup u.cls) hes]
        rfl
      rw [← hes'] at hw
      obtain ⟨T, y, hy⟩ := detached_of_detachKind (hcontent p hp) hw
      exact ⟨n, T, y, hy⟩

/-- Structurally equal objects can come back alike. -/
theorem Unmanaged.Readable.of_sameTree (hσ : σ.WellFormed) {d v : Unmanaged} (hd : d.Readable σ)
    (hv : v.Conforms σ) (h : SameTree σ d v) : v.Readable σ := by
  -- each slot has its counterpart in the other tree
  have hcounterpart : ∀ {d u : Unmanaged}, u.Shaped σ → SameTree σ d u →
      ∀ p ∈ (σ u.cls).properties, ∀ e ∈ u.content p.1,
        p ∈ (σ d.cls).properties ∧ ∃ a ∈ d.content p.1, Slot.Rel (SameTree σ) a.2 e.2 := by
    intro d u hu hdu p hp e he
    have hcls : d.cls = u.cls := Bisimilar.cls_eq hdu
    have hp' : p ∈ (σ d.cls).properties := by
      rw [hcls]
      exact hp
    obtain ⟨a, ha, hrel⟩ :=
      (hdu.content hp').flip.exists_of_mem (hu.typed p hp).keys_nodup he
    exact ⟨hp', a, ha, hrel.flip⟩
  have hall := Unmanaged.reached_induction
    (M := fun u => u.Conforms σ ∧ ∃ d : Unmanaged, d.Readable σ ∧ SameTree σ d u) ?_ v ⟨hv, d, hd, h⟩
  · intro u hu p hp e he
    obtain ⟨hconforms, d, hd, hdu⟩ := hall u hu
    obtain ⟨hp', a, ha, hrel⟩ := hcounterpart (hconforms.shaped u u.self_mem_reached) hdu p hp e he
    exact (hd d d.self_mem_reached p hp' a ha).of_rel hrel.flip
  · intro u ⟨hconforms, d, hd, hdu⟩ name es hes key w hw
    have hu := hconforms.shaped u u.self_mem_reached
    obtain ⟨k, hp, hcontent⟩ := hu.exists_property hσ hes
    rw [← hcontent] at hw
    obtain ⟨-, ⟨j, s⟩, ha, hrel⟩ := hcounterpart hu hdu (name, k) hp _ hw
    refine ⟨?_, ?_⟩
    · exact hconforms.of_reached
        (Unmanaged.reached_subset (Unmanaged.content_mem_props hw) hw w.self_mem_reached)
    · cases hrel with
      | @object d' _ hsame =>
        refine ⟨d', fun w' hw' => ?_, hsame⟩
        exact hd w' (Unmanaged.reached_subset (Unmanaged.content_mem_props ha) ha hw')

end Readable

end RealmCpp.Accessors
