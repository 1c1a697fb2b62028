/-
  RealmCpp.Accessors.Kept
  ───────────────────────
  **THE CONDITION ON DECIMALS IS NECESSARY TOO.**

  An entry that a column holds in the end was written there for an object of the
  tree, or was in a set before.  What was written was read from a text, and is
  read back from its own; so what an object that is held asks for either is such
  a value, or was in the set.

    • `DecimalText.Settles` — what was read from a text is read back,
    • `Added.written_or_old` — where the entries of a column are from,
    • `Added.reached_placed` — what is held is held in rows of the tree,
    • `Added.kept`, `add_holds_iff` — the conditions, all of them.
-/
import RealmCpp.Accessors.Exact

namespace RealmCpp.Accessors

open RealmCpp.Library
open RealmCpp.Core

variable {K : DecimalText}

/-! ## §1. Reading back. -/

/-- **What was read from the text of a decimal is read back from its own.** -/
def DecimalText.Settles (K : DecimalText) : Prop :=
  ∀ v, K.decimal128 (K.decimal128 v) = K.decimal128 v

theorem DecimalText.Settles.serialize (hK : K.Settles) (m : Mixed) :
    K.serialize (K.serialize m) = K.serialize m := by
  cases m with
  | decimal128 low high =>
    have h := hK (low, high)
    show Mixed.decimal128 (K.decimal128 (K.decimal128 (low, high))).1
      (K.decimal128 (K.decimal128 (low, high))).2 = _
    rw [h]
    rfl
  | _ => rfl

/-- Values are compared as they are. -/
theorem Slot.Rel.eq_of_scalar {ν ν' : Type} {R : ν → ν' → Prop} {a : Slot Mixed ν} {m : Mixed}
    (h : Slot.Rel R a (.scalar m)) : a = .scalar m := by
  cases h
  rfl

theorem Kind.slot_eq_scalar {k : Kind} {m m' : Mixed} (h : k.slot m = .scalar m') :
    k.target = none ∧ m = m' := by
  unfold Kind.slot at h
  cases htarget : k.target with
  | none =>
    rw [htarget] at h
    exact ⟨rfl, by injection h⟩
  | some T =>
    rw [htarget] at h
    cases m <;> cases h

/-- What a slot that links to an object holds. -/
theorem Kind.slot_eq_object {k : Kind} {m : Mixed} {y : Ref} (h : k.slot m = .object y) :
    (∃ T, k.target = some T) ∧ m = y.link := by
  unfold Kind.slot at h
  cases htarget : k.target with
  | none =>
    rw [htarget] at h
    cases h
  | some T =>
    rw [htarget] at h
    cases m <;> cases h
    exact ⟨⟨T, rfl⟩, rfl⟩

namespace Added

variable {σ : Schemas} {S S' : Store} {v u : Unmanaged} {P n : Placed} {p : String × Kind}

/-! ## §2. Where the entries of a column are from. -/

/-- **What a column holds was written** for an object of its row, or was in a set. -/
theorem written_or_old (h : Added K σ S S' v P) (hσ : σ.WellFormed) (hc : v.Conforms σ)
    (hS : Store.WellFormed σ S) (ha : v.Absorbable σ S) (hn : n ∈ nodes P)
    (hp : p ∈ (σ n.cls).properties) {e : String × Mixed} (he : e ∈ S'.cell n.row p.1) :
    (∃ n' ∈ nodes P, n'.row = n.row ∧ e ∈ written K (n'.content p.1)) ∨
      (e ∈ S.cell n.row p.1 ∧ p.2.shape = .bag ∧ ¬ p.2.Appends σ) := by
  have hput : e ∈ S.cell n.row p.1 ∨
      ∃ n' ∈ nodes P, n'.row = n.row ∧ e ∈ written K (n'.content p.1) := by
    rcases mem_of_run (h.cells n.row p.1) he with hold | ⟨w, hw, hputs⟩
    · exact .inl hold
    · obtain ⟨n', hn', hrow, hown⟩ :=
        h.exists_node_of_write hσ hc (h.property_stored hn hp) hw
      exact .inr ⟨n', hn', hrow, written_of_puts (h.typed_of_same_row hc hn hn' hrow hp) hown hputs⟩
  by_cases hk : p.2.Appends σ
  · -- nothing was there
    have hold : S.cell n.row p.1 = [] := (h.absorbs hS ha hn hp).1 hk
    rw [hold] at hput
    rcases hput with hnil | hwritten
    · cases hnil
    · exact .inl hwritten
  · cases hshape : p.2.shape with
    | sequence =>
      obtain ⟨n', hn', hrow, hcell⟩ := h.column_of_set hσ hc hS ha hn hp hshape hk
      rw [hcell] at he
      exact .inl ⟨n', hn', hrow, he⟩
    | bag => exact hput.symm.imp_right fun hold => ⟨hold, rfl, hk⟩
    | keyed =>
      obtain ⟨n', hn', hrow, hlookup⟩ := h.column_of_keyed hσ hc hS ha hn hp hshape e.1
      have hstored := (h.wellFormed hσ hc hS).stored n.row p (h.property_stored hn hp)
      have hkeys : ((S'.cell n.row p.1).map Prod.fst).Nodup := by
        obtain ⟨name, k⟩ := p
        cases k with
        | dictionary _ => exact hstored
        | dictionary_link T => exact hstored.2
        | _ => cases hshape
      rw [lookup_of_mem hkeys he] at hlookup
      exact .inl ⟨n', hn', hrow, mem_of_lookup hlookup.symm⟩

/-- **What a column links to is in a row of the tree.** -/
theorem link_placed (h : Added K σ S S' v P) (hσ : σ.WellFormed) (hc : v.Conforms σ)
    (hS : Store.WellFormed σ S) (ha : v.Absorbable σ S) (hn : n ∈ nodes P)
    (hp : p ∈ (σ n.cls).properties) {e : String × Mixed} (he : e ∈ S'.cell n.row p.1) {y : Ref}
    (hy : p.2.slot e.2 = .object y) : ∃ C ∈ nodes P, C.row = y := by
  obtain ⟨⟨T, hT⟩, hlink⟩ := Kind.slot_eq_object hy
  rcases h.written_or_old hσ hc hS ha hn hp he with ⟨n', hn', hrow, hwritten⟩ | ⟨hold, hbag, hk⟩
  · have htyped := h.typed_of_same_row hc hn hn' hrow hp
    rw [written_of_target htyped hT] at hwritten
    obtain ⟨s, hs, hasked⟩ := mem_asked.mp hwritten
    rw [← hasked] at hy
    cases s with
    | null =>
      rw [show askedSlot .null = .null from rfl, slot_null hT] at hy
      cases hy
    | scalar m =>
      have hslot := htyped.slots _ hs
      rw [hT] at hslot
      cases hslot
    | object C =>
      rw [show askedSlot (.object C) = C.row.link from rfl, slot_link hT] at hy
      cases hy
      exact ⟨C, child_mem_nodes hn' hs, rfl⟩
  · -- a link that was in a set is that of an element with its primary key
    have habsorbs := h.absorbs hS ha hn hp
    obtain ⟨name, k⟩ := p
    cases k with
    | set_link T =>
      obtain ⟨w, hw, m, key, hkey, hindex, hm⟩ := habsorbs.2 e hold
      rw [forget_content, objects_mapObjects] at hw
      obtain ⟨C, hC, rfl⟩ := List.mem_map.mp hw
      obtain ⟨j, hmem⟩ := mem_objects.mp hC
      have hCn := child_mem_nodes hn hmem
      refine ⟨C, hCn, ?_⟩
      rw [h.row_of_index hCn hkey (h.placing.index _ _ _ hindex)]
      exact Ref.link_inj.mp (hm.symm.trans hlink)
    | set _ => cases hT
    | _ => cases hbag

/-- **Every object reached is held in a row of the tree.** -/
theorem reached_placed (h : Added K σ S S' v P) (hσ : σ.WellFormed) (hc : v.Conforms σ)
    (hS : Store.WellFormed σ S) (hx : Holds σ S' P.row v) :
    ∀ u ∈ v.reached, ∃ n ∈ nodes P, Holds σ S' n.row u := by
  have ha := h.absorbable hσ hc hS hx
  have hall := Unmanaged.reached_induction
    (M := fun u => u.Conforms σ ∧ ∃ n ∈ nodes P, Holds σ S' n.row u) ?_ v
    ⟨hc, P, self_mem_nodes P, hx⟩
  · exact fun u hu => (hall u hu).2
  · -- from an object to one behind its pointers
    rintro u ⟨hconforms, n, hn, hholds⟩ name es hes key w hw
    have hu := hconforms.shaped u (Unmanaged.self_mem_reached u)
    obtain ⟨k, hp, hcontent⟩ := hu.exists_property hσ hes
    refine ⟨hconforms.of_reached
      (Unmanaged.reached_subset hes hw (Unmanaged.self_mem_reached w)), ?_⟩
    rw [← hcontent] at hw
    obtain ⟨e, he, hrel⟩ := hholds.exists_entry hσ hu hp hw
    have hpn : (name, k) ∈ (σ n.cls).properties := by
      rw [← h.placing.table n hn]
      exact hholds.mem hp
    change Slot.Rel (Holds σ S') (k.slot e.2) (.object w) at hrel
    cases hslot : k.slot e.2 with
    | null =>
      rw [hslot] at hrel
      cases hrel
    | scalar m =>
      rw [hslot] at hrel
      cases hrel
    | object y =>
      rw [hslot] at hrel
      obtain ⟨C, hC, rfl⟩ := h.link_placed hσ hc hS ha hn hpn he hslot
      cases hrel with
      | object hy => exact ⟨C, hC, hy⟩

/-! ## §3. The conditions are exact. -/

/-- What an object asks for is in the column that holds it. -/
theorem entry_of_scalar (hσ : σ.WellFormed) {x : Ref} (hholds : Holds σ S x u)
    (hu : u.Shaped σ) (hp : p ∈ (σ u.cls).properties) {key : String} {m : Mixed}
    (hm : (key, .scalar m) ∈ u.content p.1) :
    p.2.target = none ∧ ∃ e ∈ S.cell x p.1, e.2 = m := by
  obtain ⟨e, he, hrel⟩ := hholds.exists_entry hσ hu hp hm
  obtain ⟨htarget, heq⟩ := Kind.slot_eq_scalar (Slot.Rel.eq_of_scalar hrel)
  exact ⟨htarget, e, he, heq⟩

/-- What a set holds, an object that it holds asks for. -/
theorem scalar_of_entry (hσ : σ.WellFormed) {x : Ref} (hholds : Holds σ S x u)
    (hu : u.Shaped σ) (hp : p ∈ (σ u.cls).properties) (hshape : p.2.shape = .bag)
    (htarget : p.2.target = none) {key : String} {m : Mixed} (he : (key, m) ∈ S.cell x p.1) :
    ("", .scalar m) ∈ u.content p.1 := by
  have hkeyed : p.2.shape ≠ .keyed := by
    rw [hshape]
    exact fun heq => Shape.noConfusion heq
  have hmem : (key, p.2.slot m) ∈ p.2.view (S.cell x p.1) :=
    List.mem_map_of_mem (f := fun e : String × Mixed => (e.1, p.2.slot e.2)) he
  obtain ⟨⟨j, s⟩, hb, hrel⟩ :=
    (hholds.content hσ hp).exists_of_mem (fun heq => absurd heq hkeyed) hmem
  have hj : j = "" := (hu.typed p hp).no_key hkeyed _ hb
  rw [slot_asked_of_target_none htarget] at hrel
  cases hrel
  rw [← hj]
  exact hb

/-- **An element that was in a set**: it is stored there, and so is what its text is read as. -/
theorem kept_of_old (h : Added K σ S S' v P) (hσ : σ.WellFormed) (hc : v.Conforms σ)
    (hS : Store.WellFormed σ S) (hx : Holds σ S' P.row v) (hn : n ∈ nodes P)
    (hholds : Holds σ S' n.row u) (hu : u.Shaped σ) (hp : p ∈ (σ u.cls).properties)
    (hshape : p.2.shape = .bag) (htarget : p.2.target = none) {e : String × Mixed}
    (he : e ∈ S.cell n.row p.1) (hm : ("", .scalar e.2) ∈ u.content p.1) :
    ("", .scalar (K.serialize e.2)) ∈ u.content p.1 ∧ u.Stores σ S p.1 e.2 := by
  have hS' := h.wellFormed hσ hc hS
  have hpn : p ∈ (σ n.cls).properties := by
    rw [← h.placing.table n hn]
    exact hholds.mem hp
  have hpf : p ∈ (σ (Accessors.forget n).cls).properties := by
    rw [forget_cls]
    exact hpn
  rcases h.new_or_indexed hn with hnew | ⟨k, hkey, hindex⟩
  · -- the row is not a new one
    rw [hS.fresh n.row hnew p (h.property_stored hn hpn)] at he
    obtain ⟨name, kind⟩ := p
    cases kind with
    | set _ => cases he
    | set_link T => cases he
    | _ => cases hshape
  · have hsome : (Accessors.forget n).key σ ≠ none := by
      rw [hkey]
      exact Option.some_ne_none _
    have hown := h.held hσ hc hS hx hn hsome
    have hsame : SameTree σ (Accessors.forget n) u := Bisimilar.trans (Bisimilar.symm hown) hholds
    constructor
    · -- the object that is stored in the row has it as well, and inserts what is read
      have hcell := (mem_of_set_inserts (h.writes_of_bag hσ hc hn hpn hshape)
        (h.cells n.row p.1) e).mpr (.inl he)
      obtain ⟨s, hs, hscalar⟩ := exists_of_mem_forget_content
        (scalar_of_entry hσ hown (h.shaped hc hn) hpf hshape htarget hcell)
      have hasked : ("", e.2) ∈ asked (n.content p.1) :=
        mem_asked.mpr ⟨s, hs, by rw [Slot.map_eq_scalar.mp hscalar.symm]; rfl⟩
      have hwrites : ownWrites K σ p.2 (n.content p.1) =
          ((written K (n.content p.1)).map Prod.snd).map .set_insert :=
        ownWrites_bag_eq (h.typed hc hn hpn) hshape
          (fun T hT => by
            rw [hT] at htarget
            cases htarget)
          (fun hskips => by
            obtain ⟨name, kind⟩ := p
            cases kind with
            | set _ => cases hskips
            | set_link T => cases htarget
            | _ => cases hshape)
      have hinsert : .set_insert (K.serialize e.2) ∈ writesAt (n.row, p.1) (events K σ P) := by
        apply (h.own_mem (K := K) hσ hc hn hpn).subset
        rw [hwrites]
        exact List.mem_map_of_mem (f := Write.set_insert)
          (List.mem_map_of_mem (f := Prod.snd) (written_of_asked hasked))
      have hread := (mem_of_set_inserts (h.writes_of_bag hσ hc hn hpn hshape)
        (h.cells n.row p.1) ("", K.serialize e.2)).mpr (.inr ⟨_, hinsert, rfl⟩)
      exact scalar_of_entry hσ hholds hu hp hshape htarget hread
    · refine ⟨n.row.table, k, n.row.key, ?_, hindex, ?_⟩
      · rw [← hsame.key_eq hσ (h.shaped hc hn) hu]
        exact hkey
      · have hkeyed : p.2.shape ≠ .keyed := by
          rw [hshape]
          exact fun heq => Shape.noConfusion heq
        have he1 : e.1 = "" := by
          have hstored := hS.stored n.row p (h.property_stored hn hpn)
          obtain ⟨name, kind⟩ := p
          cases kind with
          | set _ => exact hstored.1 e he
          | set_link T => cases htarget
          | _ => cases hshape
        rw [← he1]
        exact he

/-- **Decimals that are held are as they were.** -/
theorem kept (h : Added K σ S S' v P) (hK : K.Settles) (hσ : σ.WellFormed) (hc : v.Conforms σ)
    (hS : Store.WellFormed σ S) (hx : Holds σ S' P.row v) : v.Kept K σ S := by
  have ha := h.absorbable hσ hc hS hx
  intro u hu p hp key m hm
  have hshaped := hc.shaped u hu
  obtain ⟨n, hn, hholds⟩ := h.reached_placed hσ hc hS hx u hu
  obtain ⟨htarget, e, he, rfl⟩ := entry_of_scalar hσ hholds hshaped hp hm
  have hpn : p ∈ (σ n.cls).properties := by
    rw [← h.placing.table n hn]
    exact hholds.mem hp
  rcases h.written_or_old hσ hc hS ha hn hpn he with ⟨n', hn', hrow, hwritten⟩ | ⟨hold, hbag, -⟩
  · -- what was written was read from a text
    obtain ⟨m', -, hread⟩ := mem_written.mp hwritten
    left
    rw [← hread]
    exact hK.serialize m'
  · right
    have hkeyed : p.2.shape ≠ .keyed := by
      rw [hbag]
      exact fun heq => Shape.noConfusion heq
    have hkey : key = "" := (hshaped.typed p hp).no_key hkeyed _ hm
    rw [hkey] at hm
    obtain ⟨hmem, hstores⟩ := h.kept_of_old hσ hc hS hx hn hholds hshaped hp hbag htarget hold hm
    exact ⟨hbag, hmem, hstores⟩

end Added

/-- **`db::add` leaves what it was given exactly when the conditions hold.** -/
theorem add_holds_iff {σ : Schemas} {S : Store} {v : Unmanaged} (hK : K.Settles)
    (hσ : σ.WellFormed) (hS : Store.WellFormed σ S) (hc : v.Conforms σ) :
    (∃ S' x, add K σ S v = some (S', x) ∧ Holds σ S' x v) ↔
      v.Storable σ ∧ v.Absorbable σ S ∧ v.Kept K σ S := by
  constructor
  · rintro ⟨S', x, hadd, hholds⟩
    obtain ⟨P, hadded, rfl⟩ := added_of_add hS.objects hadd
    exact ⟨hadded.storable hσ hc hS hholds, hadded.absorbable hσ hc hS hholds,
      hadded.kept hK hσ hc hS hholds⟩
  · rintro ⟨hv, ha, hkept⟩
    exact exists_holds hσ hS hc hv ha hkept

/-- The text of whole numbers of one word. -/
def integer_text : DecimalText where
  to_string v := toString v.1.toNat
  of_string text := (UInt64.ofNat (Nat.ofDigitChars 10 text.toList 0), 0x3040000000000000)

theorem integer_text_settles : integer_text.Settles := by
  have hread : ∀ v, integer_text.decimal128 v = (v.1, 0x3040000000000000) := by
    intro v
    show (UInt64.ofNat (Nat.ofDigitChars 10 (Nat.repr v.1.toNat).toList 0), _) = _
    rw [Nat.toList_repr, Nat.ofDigitChars_ten_toDigits, UInt64.ofNat_toNat]
  intro v
  rw [hread, hread]

end RealmCpp.Accessors
