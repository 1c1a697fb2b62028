/-
  RealmCpp.Accessors.PointedObjects
  ─────────────────────────────────
  **THE OBJECTS BEHIND A MANAGED COLLECTION OF POINTERS.**

  A vector or a map of pointers is a column of links, of an object that owns it.  Where an
  object is assigned to it, that is made in the store with all that is behind its pointers,
  as `db::add` does, and the link to it is written.

    • `PointerProperty.make` — what the collections share,
    • `exists_make` — it is a `db::add` and a write to the column,
    • `Region` — the rows that are made so, which lead nowhere else,
    • `Populated` — the objects that were made are in their rows, as they were,
    • `Populated.added`, `Populated.setCell` — and stay there.
-/
import Mathlib.Algebra.Order.BigOperators.Group.List
import Mathlib.Algebra.Order.Group.Nat
import RealmCpp.Accessors.RoundTrip
import RealmCpp.Library.GraphRegion

namespace RealmCpp.Accessors

open RealmCpp.Library
open RealmCpp.Core

variable {K : DecimalText}

/-! ## §1. An object that is made. -/

/-- A property with pointers to objects of the class `T`. -/
structure PointerProperty where
  m_obj : Ref
  m_key : String
  T : TableKey

/-- The column of the property. -/
def PointerProperty.cell (l : PointerProperty) (S : Store) : Cell := S.cell l.m_obj l.m_key

/-- What a link leads to. -/
def target : Mixed → Option Ref
  | .link t key => some ⟨t, key⟩
  | _ => none

/-- An object is made, and its properties are set; what is written to the column before and
after that has the link to it. -/
def PointerProperty.make (K : DecimalText) (σ : Schemas) (l : PointerProperty)
    (before after : Ref → List Write) (S : Store) (value : Unmanaged) : Option Store := do
  let (A, m_obj) := create σ S.toObjects value
  let S₁ ← (S.withObjects A).writes (journal l.m_obj l.m_key (before m_obj))
  let S₂ ← setObject K σ m_obj value S₁
  S₂.writes (journal l.m_obj l.m_key (after m_obj))

/-- **What an object must be like to be made**: of the class, such that `db::add` can store it
and `detach` read it, with new primary keys and decimals that keep their words. -/
structure Unmanaged.Makes (K : DecimalText) (σ : Schemas) (T : TableKey) (S : Store)
    (v : Unmanaged) : Prop where
  cls : v.cls = T
  conforms : v.Conforms σ
  readable : v.Readable σ
  storable : v.Storable σ
  fresh : v.Fresh σ S
  decimals : v.KeepsDecimals K σ

/-- The store, and the objects that a program has read from it. -/
structure PointerStore where
  store : Store
  kept : List Ref

/-- A call that changes the store, or raises. -/
def PointerStore.modify (s : PointerStore) : Option Store → Option Unit × PointerStore
  | some store => (some (), { s with store := store })
  | none => (none, s)

section Make

variable {σ : Schemas} {l : PointerProperty} {S S' : Store} {v : Unmanaged}
variable {before after : Ref → List Write}

/-- Its journal: that of the object, between the writes to the column. -/
theorem make_eq {A : Objects} {x : Ref} (h : create σ S.toObjects v = (A, x)) :
    l.make K σ before after S v = (S.withObjects (place σ x v A).1).writes
      (journal l.m_obj l.m_key (before x) ++
        (events K σ (place σ x v A).2 ++ journal l.m_obj l.m_key (after x))) := by
  unfold PointerProperty.make
  rw [h]
  refine writes_bind (S := S.withObjects A) fun S₁ hS₁ => ?_
  have hobjects : S₁.toObjects = A := hS₁
  show (setObject K σ x v S₁).bind _ = _
  rw [setObject_eq, hobjects, Store.writes_append]

theorem added_of_writes {A : Objects} {x : Ref} (hS : Objects.WellFormed S.toObjects)
    (h : create σ S.toObjects v = (A, x))
    (hwrites : (S.withObjects (place σ x v A).1).writes (events K σ (place σ x v A).2) = some S') :
    Added K σ S S' v (place σ x v A).2 := by
  obtain ⟨hobjects, hcells⟩ := Store.writes_eq_some_iff.mp hwrites
  refine ⟨⟨forget_place σ x v A, ?_⟩, hcells⟩
  rw [hobjects]
  exact placing_create hS h

/-- The rows of an object with new keys are new. -/
theorem Added.row_ne_of_live {P : Placed} (h : Added K σ S S' v P) (hfresh : v.Fresh σ S) {y : Ref}
    (hy : S.live y = true) : ∀ n ∈ nodes P, n.row ≠ y := by
  intro n hn hrow
  have hnew := h.row_new hfresh hn
  rw [hrow, hy] at hnew
  cases hnew

/-- **What is made is added as by `db::add`**, and then the column is written. -/
theorem exists_make (hσ : σ.WellFormed) (hS : Store.WellFormed σ S) (hv : v.Makes K σ l.T S)
    (howner : S.live l.m_obj = true) {c : Ref → Cell}
    (hwrites : ∀ y, runWrites Write.apply (before y ++ after y) (l.cell S) = some (c y)) :
    ∃ S' P, Added K σ S S' v P ∧ Holds σ S' P.row v ∧
      l.make K σ before after S v = some (S'.setCell l.m_obj l.m_key (c P.row)) := by
  obtain ⟨S', x, hadd, hholds⟩ := exists_holds hσ hS hv.conforms hv.storable hv.fresh.absorbable
    (hv.fresh.kept_iff.mpr hv.decimals)
  rw [add_eq] at hadd
  cases hcreate : create σ S.toObjects v with
  | mk A y =>
    rw [hcreate] at hadd
    obtain ⟨S₁, hS₁, heq⟩ := Option.map_eq_some_iff.mp hadd
    obtain ⟨rfl, rfl⟩ := Prod.mk.inj heq
    have hobjects := Store.writes_toObjects hS₁
    have hadded := added_of_writes hS.objects hcreate hS₁
    rw [← place_row σ y v A] at hholds
    refine ⟨S₁, _, hadded, hholds, ?_⟩
    rw [make_eq hcreate, Store.writes_eq_some_iff, place_row]
    refine ⟨hobjects, fun z col => ?_⟩
    rw [writesAt_append, writesAt_append]
    by_cases hcell : (l.m_obj, l.m_key) = (z, col)
    · obtain ⟨rfl, rfl⟩ := Prod.mk.inj hcell
      -- the owner is no new row, so that the object writes nothing there
      rw [writesAt_eq_nil (hadded.row_ne_of_live hv.fresh howner), writesAt_journal_self,
        writesAt_journal_self, Store.setCell_cell_self]
      exact hwrites y
    · rw [writesAt_journal_of_ne hcell, writesAt_journal_of_ne hcell, List.append_nil,
        List.nil_append]
      refine (hadded.cells z col).trans (congrArg some ?_)
      exact (Function.update_of_ne (Ne.symm hcell) ..).symm

end Make

/-! ## §2. Regions of rows. -/

/-- **Live rows, without the owner**, that lead nowhere else. -/
structure Region (σ : Schemas) (S : Store) (owner : Ref) (G : Ref → Prop) : Prop where
  live : ∀ y, G y → S.live y = true
  not_owner : ¬ G owner
  closed : Closed σ.fields (managed σ S) G

section Regions

variable {σ : Schemas} {S S' : Store} {owner : Ref} {G : Ref → Prop} {v : Unmanaged} {P : Placed}

/-- Where one row leads. -/
theorem exists_entry_of_leads (hσ : σ.WellFormed) {y z : Ref}
    (h : Leads σ.fields (managed σ S) y z) :
    ∃ p ∈ (σ y.table).properties, ∃ e ∈ S.cell y p.1, p.2.slot e.2 = .object z := by
  obtain ⟨f, hf, key, hmem⟩ := h
  obtain ⟨p, hp, rfl⟩ := List.mem_map.mp hf
  change p ∈ (σ y.table).properties at hp
  have hview : (key, Slot.object z) ∈ (σ.kind y.table p.1).view (S.cell y p.1) := hmem
  rw [hσ.kind hp] at hview
  obtain ⟨e, he, heq⟩ := exists_of_mem_view hview
  exact ⟨p, hp, e, he, (congrArg Prod.snd heq).symm⟩

theorem agreeOn_of_cells (h : ∀ y, G y → ∀ col, S'.cell y col = S.cell y col) :
    AgreeOn σ.fields (managed σ S) (managed σ S') G := by
  intro y hy
  refine ⟨rfl, fun f _ => ?_⟩
  show (σ.kind y.table f.1).view (S'.cell y f.1) = (σ.kind y.table f.1).view (S.cell y f.1)
  rw [h y hy]

theorem Region.cell_setCell (hG : Region σ S owner G) (col : String) (c : Cell) :
    ∀ y, G y → ∀ col', (S.setCell owner col c).cell y col' = S.cell y col' := by
  intro y hy col'
  refine Function.update_of_ne (fun h => ?_) ..
  obtain ⟨rfl, -⟩ := Prod.mk.inj h
  exact hG.not_owner hy

/-- What is written to the owner is not seen in the region. -/
theorem Region.setCell (hG : Region σ S owner G) (col : String) (c : Cell) :
    Region σ (S.setCell owner col c) owner G where
  live := hG.live
  not_owner := hG.not_owner
  closed := hG.closed.of_agreeOn (agreeOn_of_cells (hG.cell_setCell col c))

/-- **The rows of an object that is added** are a region with those that were one. -/
theorem Region.added (hσ : σ.WellFormed) (hS : Store.WellFormed σ S) (hc : v.Conforms σ)
    (hr : v.Readable σ) (hfresh : v.Fresh σ S) (howner : S.live owner = true)
    (hG : Region σ S owner G) (h : Added K σ S S' v P) :
    Region σ S' owner (fun y => G y ∨ ∃ n ∈ nodes P, n.row = y) where
  live y hy := by
    rcases hy with hy | ⟨n, hn, rfl⟩
    · exact h.placing.live y (hG.live y hy)
    · exact h.placing.row_live n hn
  not_owner := by
    rintro (hy | ⟨n, hn, hrow⟩)
    · exact hG.not_owner hy
    · exact h.row_ne_of_live hfresh howner n hn hrow
  closed y z hy hlead := by
    rcases hy with hy | ⟨n, hn, rfl⟩
    · -- an old row is as it was
      have hcell : ∀ y, G y → ∀ col, S'.cell y col = S.cell y col :=
        fun y hy => h.cell_of_unvisited (h.row_ne_of_live hfresh (hG.live y hy))
      exact .inl (hG.closed y z hy (((agreeOn_of_cells hcell).leads_iff hy).mp hlead))
    · -- and a new one has links to new ones only
      obtain ⟨p, hp, e, he, hz⟩ := exists_entry_of_leads hσ hlead
      rw [h.placing.table n hn] at hp
      cases hk : p.2.target with
      | none =>
        unfold Kind.slot at hz
        rw [hk] at hz
        cases hz
      | some T =>
        obtain ⟨C, hC, hlink, -⟩ := h.entry_link hσ hc hS hfresh hr hn hp hk e he
        rw [hlink, slot_link hk] at hz
        cases hz
        exact .inr ⟨C, hC, rfl⟩

end Regions

/-! ## §3. Objects in their rows. -/

/-- One object more has a number of its own. -/
theorem lt_length_concat {α : Type} (as : List α) (a : α) {p : Nat} (hp : p ≤ as.length) :
    p < (as ++ [a]).length := by
  rw [List.length_append, List.length_singleton]
  exact Nat.lt_succ_of_le hp

section Populated

variable {σ : Schemas} {l : PointerProperty} {S : Store} {objects : List Unmanaged}
variable {row : Nat → Ref} {G : Ref → Prop}

/-- An object that was made, in its row. -/
structure PointsAt (σ : Schemas) (l : PointerProperty) (S : Store) (G : Ref → Prop) (y : Ref)
    (v : Unmanaged) : Prop where
  cls : v.cls = l.T
  conforms : v.Conforms σ
  readable : v.Readable σ
  region : G y
  holds : Holds σ S y v

/-- An object stays as it was made where its region is not written. -/
theorem PointsAt.frame {S S' : Store} {G' : Ref → Prop} {y : Ref} {v : Unmanaged}
    (h : PointsAt σ l S G y v) (hclosed : Closed σ.fields (managed σ S) G)
    (hcells : ∀ y, G y → ∀ col, S'.cell y col = S.cell y col) (hG : ∀ y, G y → G' y) :
    PointsAt σ l S' G' y v where
  cls := h.cls
  conforms := h.conforms
  readable := h.readable
  region := hG y h.region
  holds := h.holds.frame hclosed (agreeOn_of_cells hcells) h.region

/-- Writing to a column that is no primary key keeps a store well formed. -/
theorem Store.WellFormed.setCell {S : Store} (hσ : σ.WellFormed) (hS : Store.WellFormed σ S)
    {x : Ref} {p : String × Kind} (hp : p ∈ (σ x.table).properties) (hk : ∀ e, p.2 ≠ .scalar e)
    (hlive : S.live x = true) {c : Cell} (hc : p.2.Stored S.toObjects c) :
    Store.WellFormed σ (S.setCell x p.1 c) where
  objects := hS.objects
  stored y q hq := by
    by_cases hcell : (y, q.1) = (x, p.1)
    · obtain ⟨rfl, hname⟩ := Prod.mk.inj hcell
      have hkind : q.2 = p.2 := by
        rw [← hσ.kind hq, ← hσ.kind hp, hname]
      rw [hname, Store.setCell_cell_self, hkind]
      exact hc
    · rw [show (S.setCell x p.1 c).cell y q.1 = S.cell y q.1 from Function.update_of_ne hcell ..]
      exact hS.stored y q hq
  fresh y hy q hq := by
    have hne : (y, q.1) ≠ (x, p.1) := by
      intro hcell
      obtain ⟨rfl, -⟩ := Prod.mk.inj hcell
      change S.live y = false at hy
      rw [hlive] at hy
      cases hy
    exact (Function.update_of_ne hne ..).trans (hS.fresh y hy q hq)
  keyed y name hy hpk := by
    obtain ⟨m, hm, hindex⟩ := hS.keyed y name hy hpk
    refine ⟨m, ?_, hindex⟩
    refine (Function.update_of_ne (fun hcell => ?_) ..).trans hm
    -- the column of the primary key has a scalar in it
    obtain ⟨rfl, rfl⟩ := Prod.mk.inj hcell
    obtain ⟨e, he⟩ := hσ.primary_key _ p.1 hpk
    exact hk e ((hσ.kind hp).symm.trans (hσ.kind he))

/-- **The objects that were made are in their rows**, one in each, and nothing leads from
there to the owner. -/
structure Populated (σ : Schemas) (l : PointerProperty) (S : Store) (objects : List Unmanaged)
    (row : Nat → Ref) (G : Ref → Prop) : Prop where
  wellFormed : Store.WellFormed σ S
  owner : S.live l.m_obj = true
  region : Region σ S l.m_obj G
  inj : ∀ p q, p < objects.length → q < objects.length → row p = row q → p = q
  object : ∀ p v, objects[p]? = some v → PointsAt σ l S G (row p) v

namespace Populated

theorem nil (hS : Store.WellFormed σ S) (howner : S.live l.m_obj = true) :
    Populated σ l S [] row fun _ => False where
  wellFormed := hS
  owner := howner
  region := ⟨fun _ hy => hy.elim, id, fun _ _ hy => hy.elim⟩
  inj p q hp := absurd hp (Nat.not_lt_zero p)
  object p v hv := by cases hv

/-- A link to one of the objects. -/
theorem linkTo (h : Populated σ l S objects row G) {p : Nat} (hp : p < objects.length) :
    LinkTo S.toObjects l.T (row p).link := by
  have hobject := h.object p _ (List.getElem?_eq_getElem hp)
  refine ⟨row p, ?_, h.region.live _ hobject.region, rfl⟩
  rw [hobject.holds.table, hobject.cls]

theorem link_inj (h : Populated σ l S objects row G) {p q : Nat} (hp : p < objects.length)
    (hq : q < objects.length) : (row p).link = (row q).link ↔ p = q := by
  rw [Ref.link_inj]
  exact ⟨h.inj p q hp hq, congrArg row⟩

/-- **What is written to the column of the pointers** does not change the objects. -/
theorem setCell (hσ : σ.WellFormed) {k : Kind} (hl : (l.m_key, k) ∈ (σ l.m_obj.table).properties)
    (hk : ∀ e, k ≠ .scalar e) (h : Populated σ l S objects row G) {c : Cell}
    (hc : k.Stored S.toObjects c) :
    Populated σ l (S.setCell l.m_obj l.m_key c) objects row G where
  wellFormed := h.wellFormed.setCell hσ hl hk h.owner hc
  owner := h.owner
  region := h.region.setCell l.m_key c
  inj := h.inj
  object p v hv :=
    (h.object p v hv).frame h.region.closed (h.region.cell_setCell l.m_key c) fun _ => id

/-- **One object more**, in a new row. -/
theorem added (hσ : σ.WellFormed) (h : Populated σ l S objects row G) {S' : Store}
    {v : Unmanaged} {P : Placed} (hv : v.Makes K σ l.T S) (hadded : Added K σ S S' v P)
    (hholds : Holds σ S' P.row v) :
    Populated σ l S' (objects ++ [v]) (Function.update row objects.length P.row)
      (fun y => G y ∨ ∃ n ∈ nodes P, n.row = y) where
  wellFormed := hadded.wellFormed hσ hv.conforms h.wellFormed
  owner := hadded.placing.live _ h.owner
  region := h.region.added hσ h.wellFormed hv.conforms hv.readable hv.fresh h.owner hadded
  inj p q hp hq heq := by
    rw [List.length_append, List.length_singleton] at hp hq
    -- no object that was made before is in the new row
    have hold : ∀ q, q < objects.length → row q ≠ P.row := by
      intro q hq hrow
      have hobject := h.object q _ (List.getElem?_eq_getElem hq)
      exact hadded.row_ne_of_live hv.fresh (h.region.live _ hobject.region) P (self_mem_nodes P)
        hrow.symm
    rw [Function.update_apply, Function.update_apply] at heq
    split at heq
    · next hp' =>
      split at heq
      · next hq' => exact hp'.trans hq'.symm
      · next hq' => exact absurd heq.symm (hold q (by omega))
    · next hp' =>
      split at heq
      · exact absurd heq (hold p (by omega))
      · next hq' => exact h.inj p q (by omega) (by omega) heq
  object p w hw := by
    have hcells : ∀ y, G y → ∀ col, S'.cell y col = S.cell y col :=
      fun y hy => hadded.cell_of_unvisited (hadded.row_ne_of_live hv.fresh (h.region.live y hy))
    rcases Nat.lt_trichotomy p objects.length with hlt | rfl | hgt
    · rw [List.getElem?_append_left hlt] at hw
      rw [Function.update_of_ne (Nat.ne_of_lt hlt)]
      exact (h.object p w hw).frame h.region.closed hcells fun _ => .inl
    · rw [List.getElem?_concat_length] at hw
      obtain rfl := Option.some.inj hw
      rw [Function.update_self]
      exact ⟨hv.cls, hv.conforms, hv.readable, .inr ⟨P, self_mem_nodes P, rfl⟩, hholds⟩
    · rw [List.getElem?_eq_none (by rw [List.length_append, List.length_singleton]; omega)] at hw
      cases hw

/-- **An object is made, and the column written**: it is one more, in a row of its own. -/
theorem make (hσ : σ.WellFormed) {k : Kind} (hl : (l.m_key, k) ∈ (σ l.m_obj.table).properties)
    (hk : ∀ e, k ≠ .scalar e) (h : Populated σ l S objects row G) {v : Unmanaged}
    (hv : v.Makes K σ l.T S) {before after : Ref → List Write} {c : Ref → Cell}
    (hwrites : ∀ y, runWrites Write.apply (before y ++ after y) (l.cell S) = some (c y))
    (hstored : ∀ A y, (∀ p, p < objects.length → LinkTo A l.T (row p).link) →
      LinkTo A l.T y.link → k.Stored A (c y)) :
    ∃ S' row' G', l.make K σ before after S v = some S' ∧
      Populated σ l S' (objects ++ [v]) row' G' ∧
      (∀ p, p < objects.length → row' p = row p) ∧ l.cell S' = c (row' objects.length) := by
  obtain ⟨S', P, hadded, hholds, hmake⟩ := exists_make hσ h.wellFormed hv h.owner hwrites
  have hmade := h.added hσ hv hadded hholds
  have hold : ∀ p, p < objects.length →
      Function.update row objects.length P.row p = row p :=
    fun p hp => Function.update_of_ne (Nat.ne_of_lt hp) ..
  have hlength : (objects ++ [v]).length = objects.length + 1 := by
    rw [List.length_append, List.length_singleton]
  have hc : k.Stored S'.toObjects (c P.row) := by
    refine hstored S'.toObjects P.row (fun p hp => ?_) ?_
    · rw [← hold p hp]
      exact hmade.linkTo (by omega)
    · have hlink := hmade.linkTo (p := objects.length) (by omega)
      rw [Function.update_self] at hlink
      exact hlink
  refine ⟨_, _, _, hmake, hmade.setCell hσ hl hk hc, hold, ?_⟩
  rw [Function.update_self]
  exact Store.setCell_cell_self ..

/-- **The objects come back** from `detach`, given calls enough. -/
theorem detach (hσ : σ.WellFormed) (h : Populated σ l S objects row G) :
    ∃ depth, ∀ n, depth ≤ n → ∀ p v, objects[p]? = some v →
      ∃ d, detachAs σ S n l.T (row p) = some d ∧ SameTree σ d v := by
  refine ⟨(objects.map sizeOf).sum, fun n hn p v hv => ?_⟩
  have hobject := h.object p v hv
  have hsize : sizeOf v ≤ (objects.map sizeOf).sum :=
    List.le_sum_of_mem (List.mem_map_of_mem (List.mem_of_getElem? hv))
  have hback := exists_detach hσ h.wellFormed n v (row p) (le_trans hsize hn)
    hobject.conforms hobject.readable hobject.holds
  rw [hobject.cls] at hback
  exact hback

end Populated

end Populated

end RealmCpp.Accessors
