/-
  RealmCpp.Accessors.RoundTrip
  ────────────────────────────
  **STORING AN OBJECT AND READING IT BACK.**

  In rows that are new every entry of a column has been written there.  Then an
  object that comes back is what is stored, and what is stored is what was given
  to `db::add`, unless nulls, optionals or decimals are lost on the way in or out:

    • `Added.entry` — every entry of a new row has been written there,
    • `Added.holds_detach` — what comes back is what is stored,
    • `round_trip_iff` — when nothing is lost.
-/
import RealmCpp.Accessors.Detach

namespace RealmCpp.Accessors

open RealmCpp.Library
open RealmCpp.Core

variable {K : DecimalText}

/-- **The primary keys of the objects reached are not in the store.** -/
def Unmanaged.Fresh (σ : Schemas) (S : Store) (v : Unmanaged) : Prop :=
  ∀ u ∈ v.reached, ∀ t m, u.key σ = some (t, m) → S.index t m = none

/-- Then there is nothing to overwrite. -/
theorem Unmanaged.Fresh.absorbable {σ : Schemas} {S : Store} {v : Unmanaged} (h : v.Fresh σ S) :
    v.Absorbable σ S := by
  intro u hu t m key hkey hindex
  rw [h u hu t m hkey] at hindex
  cases hindex

/-- **Every decimal that is reached is read back** from its text. -/
def Unmanaged.KeepsDecimals (K : DecimalText) (σ : Schemas) (v : Unmanaged) : Prop :=
  ∀ u ∈ v.reached, ∀ p ∈ (σ u.cls).properties, ∀ key m, (key, .scalar m) ∈ u.content p.1 →
    K.serialize m = m

/-- No set of a new row has a decimal already. -/
theorem Unmanaged.Fresh.kept_iff {σ : Schemas} {S : Store} {v : Unmanaged} (h : v.Fresh σ S) :
    v.Kept K σ S ↔ v.KeepsDecimals K σ := by
  constructor
  · intro hkept u hu p hp key m hm
    rcases hkept u hu p hp key m hm with hread | ⟨-, -, t, k, x, hkey, hindex, -⟩
    · exact hread
    · rw [h u hu t k hkey] at hindex
      cases hindex
  · exact fun hkept u hu p hp key m hm => .inl (hkept u hu p hp key m hm)

/-! ## §1. New rows. -/

/-- A value that can come back can do so once it is written. -/
theorem Kind.Reads.serialize {ν ν' : Type} {k : Kind} {m : Mixed}
    (h : k.Reads (.scalar m : Slot Mixed ν)) : k.Reads (.scalar (K.serialize m) : Slot Mixed ν') := by
  have hnull : (.scalar m : Slot Mixed ν) = .scalar .null →
      (.scalar (K.serialize m) : Slot Mixed ν') = .scalar .null := by
    intro heq
    injection heq with hm
    rw [hm]
    rfl
  cases k with
  | set e => exact fun hoptional => hnull (h hoptional)
  | dictionary e => exact fun hoptional => hnull (h hoptional)
  | link T =>
    intro heq
    cases heq
  | dictionary_link T =>
    intro heq
    cases heq
  | _ => trivial

namespace Added

variable {σ : Schemas} {S S' : Store} {v : Unmanaged} {P n : Placed} {p : String × Kind}

/-- Every object is placed in a new row. -/
theorem row_new (h : Added K σ S S' v P) (hfresh : v.Fresh σ S) (hn : n ∈ nodes P) :
    S.live n.row = false := by
  rcases h.new_or_indexed hn with hnew | ⟨m, hkey, hindex⟩
  · exact hnew
  · rw [hfresh _ (h.reached hn) _ _ hkey] at hindex
    cases hindex

/-- **Every entry of a new row has been written** for an object placed there. -/
theorem entry (h : Added K σ S S' v P) (hσ : σ.WellFormed) (hc : v.Conforms σ)
    (hS : Store.WellFormed σ S) (hfresh : v.Fresh σ S) (hn : n ∈ nodes P)
    (hp : p ∈ (σ n.cls).properties) {e : String × Mixed} (he : e ∈ S'.cell n.row p.1) :
    ∃ n' ∈ nodes P, n'.row = n.row ∧ e ∈ written K (n'.content p.1) := by
  rcases h.written_or_old hσ hc hS hfresh.absorbable hn hp he with hwritten | ⟨hold, hbag, -⟩
  · exact hwritten
  · -- the set was empty
    rw [hS.fresh n.row (h.row_new hfresh hn) p (h.property_stored hn hp)] at hold
    obtain ⟨name, k⟩ := p
    cases k with
    | set _ => cases hold
    | set_link T => cases hold
    | _ => cases hbag

/-- The values of a new row can come back if those they are written for can. -/
theorem entry_reads (h : Added K σ S S' v P) (hσ : σ.WellFormed) (hc : v.Conforms σ)
    (hS : Store.WellFormed σ S) (hfresh : v.Fresh σ S) (hr : v.Readable σ) (hn : n ∈ nodes P)
    (hp : p ∈ (σ n.cls).properties) (hk : p.2.target = none) :
    ∀ e ∈ S'.cell n.row p.1, p.2.Reads (p.2.slot e.2) := by
  intro e he
  obtain ⟨n', hn', hrow, hwritten⟩ := h.entry hσ hc hS hfresh hn hp he
  have hp' := h.property_of_same_row hn hn' hrow hp
  obtain ⟨m', hasked, hread⟩ := mem_written.mp hwritten
  obtain ⟨s, hs, hm⟩ := mem_asked.mp hasked
  have hreads := hr _ (h.reached hn') p (by rw [forget_cls]; exact hp') _ (mem_forget_content hs)
  have hslot := (h.typed hc hn' hp').slots _ hs
  rw [hk] at hslot
  obtain ⟨m, hscalar⟩ := hslot
  change s = .scalar m at hscalar
  subst hscalar
  change m = m' at hm
  rw [slot_asked_of_target_none hk, ← hread, ← hm]
  exact hreads.serialize

/-- The links of a new row lead to rows of objects that are placed. -/
theorem entry_link (h : Added K σ S S' v P) (hσ : σ.WellFormed) (hc : v.Conforms σ)
    (hS : Store.WellFormed σ S) (hfresh : v.Fresh σ S) (hr : v.Readable σ) (hn : n ∈ nodes P)
    (hp : p ∈ (σ n.cls).properties) {T : TableKey} (hk : p.2.target = some T) :
    ∀ e ∈ S'.cell n.row p.1, ∃ C ∈ nodes P, e.2 = C.row.link ∧ C.row.table = T := by
  intro e he
  obtain ⟨n', hn', hrow, hwritten⟩ := h.entry hσ hc hS hfresh hn hp he
  have hp' := h.property_of_same_row hn hn' hrow hp
  have hstored := (h.wellFormed hσ hc hS).stored n.row p (h.property_stored hn hp)
  rw [written_of_target (h.typed hc hn' hp') hk] at hwritten
  obtain ⟨s, hs, hm⟩ := mem_asked.mp hwritten
  have hslot := (h.typed hc hn' hp').slots _ hs
  rw [hk] at hslot
  cases s with
  | null =>
    -- neither lists and sets nor what comes back hold nulls
    change Mixed.null = e.2 at hm
    have hreads := hr _ (h.reached hn') p (by rw [forget_cls]; exact hp') _ (mem_forget_content hs)
    have hskips : ¬ p.2.SkipsNull := by
      intro hskips
      apply hstored.not_null hskips he
      rw [← hm, slot_null hk]
    obtain ⟨name, k⟩ := p
    cases k with
    | link _ => exact absurd rfl hreads
    | dictionary_link _ => exact absurd rfl hreads
    | list_link _ => exact absurd trivial hskips
    | set_link _ => exact absurd trivial hskips
    | _ => cases hk
  | scalar m => cases hslot
  | object C =>
    have hC : C ∈ nodes P := child_mem_nodes hn' hs
    have hcls : C.cls = T := hslot
    exact ⟨C, hC, hm.symm, (h.placing.table C hC).trans hcls⟩

/-! ## §2. What comes back is what is stored. -/

/-- The row of a placed object, and what comes back from it. -/
def Comes (σ : Schemas) (S' : Store) (P : Placed) (y : Ref) (d : Unmanaged) : Prop :=
  (∃ n ∈ nodes P, n.row = y) ∧ ∃ k, detachAs σ S' k y.table y = some d

/-- A property that comes back is what the column holds. -/
theorem match_detachKind (h : Added K σ S S' v P) (hσ : σ.WellFormed) (hc : v.Conforms σ)
    (hS : Store.WellFormed σ S) (hfresh : v.Fresh σ S) (hr : v.Readable σ) (hn : n ∈ nodes P)
    (hp : p ∈ (σ n.cls).properties) {k : Nat} {content : Content Mixed Unmanaged}
    (hback : detachKind (detachAs σ S' k) n.row p.2 (S'.cell n.row p.1) = some content) :
    p.2.shape.Match (Comes σ S' P) (p.2.view (S'.cell n.row p.1)) content := by
  have hstored := (h.wellFormed hσ hc hS).stored n.row p (h.property_stored hn hp)
  apply Shape.Match.of_forall₂
  unfold Kind.view
  rw [List.forall₂_map_left_iff]
  cases hk : p.2.target with
  | none =>
    rw [detachKind_of_target_none hk hstored (h.entry_reads hσ hc hS hfresh hr hn hp hk)] at hback
    cases hback
    rw [List.forall₂_map_right_iff, List.forall₂_same]
    intro e _
    refine ⟨rfl, ?_⟩
    rw [slot_asked_of_target_none hk]
    exact .scalar _
  | some T =>
    -- each link leads to an object that was placed, and is read there
    have hlinks := h.entry_link hσ hc hS hfresh hr hn hp hk
    rw [detachKind_of_target hk hstored fun e he hnull => ?_] at hback
    · have hentries := (List.forall₂_and_left _ _).mpr ⟨hlinks, mapM_eq_some_iff.mp hback⟩
      refine List.Forall₂.imp ?_ hentries
      rintro e b ⟨⟨C, hC, hlink, htable⟩, hb⟩
      obtain ⟨y, d, hy, hd, rfl⟩ := detachEntry_eq_some.mp hb
      have hrow : C.row = y := Ref.link_inj.mp (hlink.symm.trans hy)
      subst hrow
      refine ⟨rfl, ?_⟩
      rw [hlink, slot_link hk]
      exact .object ⟨⟨C, hC, rfl⟩, k, by rw [htable]; exact hd⟩
    · obtain ⟨C, -, hC, -⟩ := hlinks e he
      rw [hC, slot_link hk] at hnull
      cases hnull

/-- **What comes back is what is stored.** -/
theorem holds_detach (h : Added K σ S S' v P) (hσ : σ.WellFormed) (hc : v.Conforms σ)
    (hS : Store.WellFormed σ S) (hfresh : v.Fresh σ S) (hr : v.Readable σ) {k : Nat}
    {d : Unmanaged} (hback : detachAs σ S' k P.row.table P.row = some d) :
    Holds σ S' P.row d := by
  refine ⟨Comes σ S' P, ?_, ⟨P, self_mem_nodes P, rfl⟩, k, hback⟩
  rintro y d ⟨⟨n, hn, rfl⟩, k, hback⟩
  cases k with
  | zero => cases hback
  | succ k =>
    obtain ⟨hcls, -, hcontent⟩ := detachAs_eq_some hσ hback
    refine ⟨hcls.symm, fun f hf => ?_⟩
    obtain ⟨p, hp, rfl⟩ := List.mem_map.mp hf
    change p ∈ (σ n.row.table).properties at hp
    have hp' : p ∈ (σ n.cls).properties := by
      rw [← h.placing.table n hn]
      exact hp
    show p.2.shape.Match _ ((σ.kind n.row.table p.1).view (S'.cell n.row p.1)) (d.content p.1)
    rw [hσ.kind hp]
    exact h.match_detachKind hσ hc hS hfresh hr hn hp' (hcontent p hp)

end Added

/-! ## §3. Storing and reading back. -/

/-- **When nothing is lost**: exactly if no null or optional gets lost on the way
out, and the stored object is the one that was given. -/
theorem round_trip_iff {σ : Schemas} {S : Store} {v : Unmanaged} (hK : K.Settles)
    (hσ : σ.WellFormed) (hS : Store.WellFormed σ S) (hc : v.Conforms σ) (hfresh : v.Fresh σ S) :
    (∃ S' x n d, add K σ S v = some (S', x) ∧ detach σ S' n x = some d ∧ SameTree σ d v) ↔
      v.Readable σ ∧ v.Storable σ ∧ v.KeepsDecimals K σ := by
  rw [← hfresh.kept_iff]
  constructor
  · rintro ⟨S', x, n, d, hadd, hback, hsame⟩
    have hr : v.Readable σ := (readable_of_detach hσ hback).of_sameTree hσ hc hsame
    obtain ⟨P, hP, rfl⟩ := added_of_add hS.objects hadd
    have hholds : Holds σ S' P.row v := (hP.holds_detach hσ hc hS hfresh hr hback).trans hsame
    obtain ⟨hv, -, hkept⟩ := (add_holds_iff hK hσ hS hc).mp ⟨S', P.row, hadd, hholds⟩
    exact ⟨hr, hv, hkept⟩
  · rintro ⟨hr, hv, hkept⟩
    obtain ⟨S', x, hadd, hholds⟩ := exists_holds hσ hS hc hv hfresh.absorbable hkept
    obtain ⟨P, hP, rfl⟩ := added_of_add hS.objects hadd
    have hS' := hP.wellFormed hσ hc hS
    obtain ⟨d, hback, hsame⟩ := exists_detach hσ hS' (sizeOf v) v P.row (Nat.le_refl _) hc hr hholds
    refine ⟨S', P.row, sizeOf v, d, hadd, ?_, hsame⟩
    unfold detach
    rw [hholds.table]
    exact hback

/-- Objects with a string, and objects with a link to one. -/
def linkSchemas : Schemas := fun t =>
  { primary_key := some "_id"
    is_embedded := false
    properties := [("_id", .scalar ⟨.int, false⟩), ("str_col", .scalar ⟨.string, false⟩)] ++
      if t = ⟨0⟩ then [("str_link_col", .link ⟨1⟩)] else [] }

def stringObject (id : Int) (str : String) : Unmanaged :=
  .node ⟨1⟩ [("_id", [("", .scalar (.int id))]), ("str_col", [("", .scalar (.string str))])]

def linkObject (id : Int) (str : String) (link : Slot Mixed Unmanaged) : Unmanaged :=
  .node ⟨0⟩ [("_id", [("", .scalar (.int id))]), ("str_col", [("", .scalar (.string str))]),
    ("str_link_col", [("", link)])]

theorem linkSchemas_wellFormed : linkSchemas.WellFormed := by
  refine ⟨?_, ?_, ?_, ?_⟩
  · intro t
    unfold linkSchemas
    split
    · decide
    · decide
  · intro t name h
    cases h
    exact ⟨_, List.mem_cons_self⟩
  · intro t h
    cases h
  · intro t name T h
    unfold linkSchemas at h
    split at h <;> simp at h

theorem linkObject_conforms {id : Int} {str : String} {link : Slot Mixed Unmanaged}
    (hlink : link = .null ∨ ∃ i t, link = .object (stringObject i t)) :
    (linkObject id str link).Conforms linkSchemas := by
  have hscalar : ∀ {e : Element} {m : Mixed},
      (Kind.scalar e).Typed Unmanaged.cls [("", .scalar m)] := ⟨_, rfl⟩
  have hroot : (linkObject id str link).Shaped linkSchemas := by
    refine ⟨rfl, fun p hp => ?_⟩
    rcases List.mem_cons.mp hp with rfl | hp
    · exact hscalar
    · rcases List.mem_cons.mp hp with rfl | hp
      · exact hscalar
      · rw [List.mem_singleton.mp hp]
        refine ⟨link, rfl, ?_⟩
        rcases hlink with rfl | ⟨i, t, rfl⟩
        · trivial
        · rfl
  have hreached : ∀ u ∈ (linkObject id str link).reached,
      u = linkObject id str link ∨ ∃ i t, u = stringObject i t := by
    intro u hu
    rcases hlink with rfl | ⟨i, t, rfl⟩
    · exact .inl (List.mem_singleton.mp hu)
    · rcases List.mem_cons.mp hu with rfl | hu
      · exact .inl rfl
      · exact .inr ⟨i, t, List.mem_singleton.mp hu⟩
  refine ⟨fun u hu => ?_, fun u hu t low high hkey => ?_⟩
  · rcases hreached u hu with rfl | ⟨i, t, rfl⟩
    · exact hroot
    · refine ⟨rfl, fun p hp => ?_⟩
      rcases List.mem_cons.mp hp with rfl | hp
      · exact hscalar
      · rw [List.mem_singleton.mp hp]
        exact hscalar
  · rcases hreached u hu with rfl | ⟨i, t, rfl⟩ <;> cases hkey

theorem round_trip_link :
    (∃ S' x n d, add integer_text linkSchemas (Store.empty linkSchemas)
        (linkObject 1 "link object" (.object (stringObject 1 "string col link"))) = some (S', x) ∧
      detach linkSchemas S' n x = some d ∧
      SameTree linkSchemas d
        (linkObject 1 "link object" (.object (stringObject 1 "string col link")))) ↔
    (linkObject 1 "link object" (.object (stringObject 1 "string col link"))).Readable
        linkSchemas ∧
      (linkObject 1 "link object" (.object (stringObject 1 "string col link"))).Storable
        linkSchemas ∧
      (linkObject 1 "link object" (.object (stringObject 1 "string col link"))).KeepsDecimals
        integer_text linkSchemas :=
  round_trip_iff integer_text_settles linkSchemas_wellFormed
    (Store.empty_wellFormed linkSchemas_wellFormed) (linkObject_conforms (.inr ⟨_, _, rfl⟩))
    fun _ _ _ _ _ => rfl

/-- **A null link comes back as an object** with the properties of its owner. -/
theorem detach_null_link : (linkObject 2 "link object 2" .null).Conforms linkSchemas ∧ ∃ S' x,
    add integer_text linkSchemas (Store.empty linkSchemas) (linkObject 2 "link object 2" .null) =
      some (S', x) ∧
    (∀ n, detach linkSchemas S' (n + 2) x =
      some (linkObject 2 "link object 2" (.object (stringObject 2 "link object 2")))) ∧
    ∀ n d, detach linkSchemas S' n x = some d →
      ¬ SameTree linkSchemas d (linkObject 2 "link object 2" .null) := by
  refine ⟨linkObject_conforms (.inl rfl), _, _, rfl, fun n => rfl, ?_⟩
  intro n d hd hsame
  match n, hd with
  | n + 2, hd =>
    have hd' : linkObject 2 "link object 2" (.object (stringObject 2 "link object 2")) = d :=
      Option.some.inj hd
    subst hd'
    have hmatch : Ordered (SameTree linkSchemas) [("", .object _)] [("", .null)] :=
      hsame.content (p := ("str_link_col", .link ⟨1⟩)) (by decide)
    cases hmatch with
    | cons hslot _ => cases hslot

end RealmCpp.Accessors
