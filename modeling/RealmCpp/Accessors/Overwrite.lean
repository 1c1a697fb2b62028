/-
  RealmCpp.Accessors.Overwrite
  ────────────────────────────
  **WHEN `db::add` LEAVES WHAT IT WAS GIVEN.**

  Objects with a primary key may be in the store already, and may be reached
  several times.  Accessors replace, add to or skip what they find, so that the
  stored object holds the unmanaged one only under conditions on both:

    • `Unmanaged.Storable` — what the object itself must be like,
    • `Unmanaged.Absorbable` — what the store may hold at its primary keys,
    • `Unmanaged.Kept` — which decimals are as they were,
    • `Added.column` — then every column is as the object stored there asks,
    • `Added.holds` — and the stored object holds the unmanaged one.
-/
import RealmCpp.Accessors.Holding

namespace RealmCpp.Accessors

open RealmCpp.Library
open RealmCpp.Core

variable {K : DecimalText}

/-! ## §1. The conditions. -/

/-- **What the object itself must be like**: one content for each primary key, no
null pointers and no key twice where they get lost, and what is added rather
than replaced only reached once. -/
structure Unmanaged.Storable (σ : Schemas) (v : Unmanaged) : Prop where
  same_key : ∀ u ∈ v.reached, ∀ u' ∈ v.reached, u.key σ ≠ none → u.key σ = u'.key σ →
    SameTree σ u u'
  no_null : ∀ u ∈ v.reached, ∀ p ∈ (σ u.cls).properties, p.2.SkipsNull →
    ∀ key, (key, .null) ∉ u.content p.1
  distinct : ∀ u ∈ v.reached, ∀ p ∈ (σ u.cls).properties, ∀ T, p.2 = .set_link T →
    (σ T).primary_key ≠ none → ((objects (u.content p.1)).map (·.key σ)).Nodup
  once : ∀ u ∈ v.reached, u.key σ ≠ none → ∀ p ∈ (σ u.cls).properties, p.2.Appends σ →
    u.content p.1 = [] ∨ (v.reached.countP fun u' => u'.key σ = u.key σ) = 1

/-- **What a column may hold before it is written**: nothing that is added to,
and no element, key or link that is not asked for. -/
def Kind.Absorbs (σ : Schemas) (A : Objects) (k : Kind) (old : Cell)
    (new : Content Mixed Unmanaged) : Prop :=
  (k.Appends σ → old = []) ∧
  match k with
  | set _ => ∀ e ∈ old, (e.1, .scalar e.2) ∈ new
  | dictionary _ | dictionary_link _ => ∀ e ∈ old, e.1 ∈ new.map Prod.fst
  | link _ => new = [("", .null)] → old = Cell.one .null
  | set_link T => ∀ e ∈ old, ∃ u ∈ objects new, ∃ m key,
      u.key σ = some (T, m) ∧ A.index T m = some key ∧ e.2 = .link T key
  | _ => True

/-- **What the store may hold at the primary keys** of the objects reached. -/
def Unmanaged.Absorbable (σ : Schemas) (S : Store) (v : Unmanaged) : Prop :=
  ∀ u ∈ v.reached, ∀ t m key, u.key σ = some (t, m) → S.index t m = some key →
    ∀ p ∈ (σ u.cls).properties,
      p.2.Absorbs σ S.toObjects (S.cell ⟨t, key⟩ p.1) (u.content p.1)

/-- The set that is stored at the primary key of an object has the value in it. -/
def Unmanaged.Stores (σ : Schemas) (S : Store) (u : Unmanaged) (name : String) (m : Mixed) : Prop :=
  ∃ t k key, u.key σ = some (t, k) ∧ S.index t k = some key ∧ ("", m) ∈ S.cell ⟨t, key⟩ name

/-- **Which decimals are as they were**: those that their text is read back as.  One in a
set may also be stored already, if what its text is read as is in the set too. -/
def Unmanaged.Kept (K : DecimalText) (σ : Schemas) (S : Store) (v : Unmanaged) : Prop :=
  ∀ u ∈ v.reached, ∀ p ∈ (σ u.cls).properties, ∀ key m, (key, .scalar m) ∈ u.content p.1 →
    K.serialize m = m ∨ (p.2.shape = .bag ∧
      ("", .scalar (K.serialize m)) ∈ u.content p.1 ∧ u.Stores σ S p.1 m)

/-- A new row absorbs everything. -/
theorem Kind.absorbs_default (σ : Schemas) (A : Objects) (k : Kind)
    (new : Content Mixed Unmanaged) : k.Absorbs σ A k.default new := by
  cases k with
  | scalar => exact ⟨fun h => h.elim, trivial⟩
  | list _ => exact ⟨fun _ => rfl, trivial⟩
  | set _ => exact ⟨fun _ => rfl, fun _ he => (List.not_mem_nil he).elim⟩
  | dictionary _ => exact ⟨fun _ => rfl, fun _ he => (List.not_mem_nil he).elim⟩
  | link _ => exact ⟨fun h => h.elim, fun _ => rfl⟩
  | list_link _ => exact ⟨fun _ => rfl, trivial⟩
  | set_link _ => exact ⟨fun _ => rfl, fun _ he => (List.not_mem_nil he).elim⟩
  | dictionary_link _ => exact ⟨fun _ => rfl, fun _ he => (List.not_mem_nil he).elim⟩

/-! ## §2. The nodes of one row. -/

namespace Planned

variable {σ : Schemas} {A A' : Objects} {v : Unmanaged} {P n n' : Placed}

theorem key_eq_none_iff {n : Placed} :
    (Accessors.forget n).key σ = none ↔ (σ n.cls).primary_key = none := by
  unfold Unmanaged.key
  rw [Option.map_eq_none_iff, forget_cls]

/-- Objects of one key are stored in one row. -/
theorem row_of_key (h : Planned σ A A' v P) (hn : n ∈ nodes P) (hn' : n' ∈ nodes P)
    (hsome : (Accessors.forget n).key σ ≠ none)
    (hkey : (Accessors.forget n).key σ = (Accessors.forget n').key σ) : n.row = n'.row := by
  obtain ⟨⟨t, m⟩, htm⟩ := Option.ne_none_iff_exists'.mp hsome
  have htm' := hkey.symm.trans htm
  have hindex := h.placing.row_index n' hn' t m htm'
  rw [h.row_of_index hn htm hindex, h.row_of_index hn' htm' hindex]

/-- Objects of one row have one key. -/
theorem key_of_row (h : Planned σ A A' v P) (hn : n ∈ nodes P) (hn' : n' ∈ nodes P)
    (hrow : n.row = n'.row) : (Accessors.forget n).key σ = (Accessors.forget n').key σ := by
  have hcls : n.cls = n'.cls := by
    rw [← h.placing.table n hn, ← h.placing.table n' hn', hrow]
  cases hkey : (Accessors.forget n).key σ with
  | none =>
    rw [key_eq_none_iff, hcls] at hkey
    exact (key_eq_none_iff.mpr hkey).symm
  | some tm =>
    obtain ⟨t, m⟩ := tm
    cases hkey' : (Accessors.forget n').key σ with
    | none =>
      rw [key_eq_none_iff, ← hcls, ← key_eq_none_iff, hkey] at hkey'
      cases hkey'
    | some tm' =>
      obtain ⟨t', m'⟩ := tm'
      have ht : t' = t := by
        rw [← Unmanaged.key_cls hkey, ← Unmanaged.key_cls hkey', forget_cls, forget_cls, hcls]
      subst ht
      -- the index leads to the row from one key only
      have hindex := h.placing.row_index n hn _ _ hkey
      have hindex' := h.placing.row_index n' hn' _ _ hkey'
      rw [← hrow] at hindex'
      rw [h.placing.wellFormed.index_inj _ _ _ _ hindex hindex']

/-- An object without a key is alone in its row, which is a new one. -/
theorem nodesAt_of_key_none (h : Planned σ A A' v P) (hn : n ∈ nodes P)
    (hkey : (Accessors.forget n).key σ = none) :
    nodesAt P n.row = [n] ∧ A.live n.row = false := by
  have hpk : (σ n.row.table).primary_key = none := by
    rw [h.placing.table n hn]
    exact key_eq_none_iff.mp hkey
  have hcount := h.placing.count n.row hpk
  have hmem : n ∈ nodesAt P n.row := mem_nodesAt.mpr ⟨hn, rfl⟩
  have hpos : 0 < (nodesAt P n.row).length := List.length_pos_of_mem hmem
  have hlength : (nodesAt P n.row).length = (nodes P).countP fun n' => n'.row = n.row := by
    unfold nodesAt
    rw [List.countP_eq_length_filter]
  have hbool : (A'.live n.row).toNat ≤ 1 := Bool.toNat_le _
  constructor
  · obtain ⟨m, hm⟩ := List.length_eq_one_iff.mp (show (nodesAt P n.row).length = 1 by omega)
    rw [hm] at hmem ⊢
    rw [List.mem_singleton.mp hmem]
  · cases hlive : A.live n.row with
    | false => rfl
    | true =>
      rw [hlive, Bool.toNat_true] at hcount
      omega

/-- An object is stored in a new row, or in that of its key. -/
theorem new_or_indexed (h : Planned σ A A' v P) (hn : n ∈ nodes P) :
    A.live n.row = false ∨
      ∃ m, (Accessors.forget n).key σ = some (n.row.table, m) ∧
        A.index n.row.table m = some n.row.key := by
  cases hkey : (Accessors.forget n).key σ with
  | none => exact .inl (h.nodesAt_of_key_none hn hkey).2
  | some tm =>
    obtain ⟨t, m⟩ := tm
    have ht : n.row.table = t := h.table_of_key hn hkey
    subst ht
    rcases h.placing.new_index _ _ _ (h.placing.row_index n hn _ _ hkey) with hold | ⟨hnew, -⟩
    · exact .inr ⟨m, rfl, hold⟩
    · exact .inl hnew

/-- **What is stored in one row is one object.** -/
theorem same_row (h : Planned σ A A' v P) (hv : v.Storable σ) (hn : n ∈ nodes P)
    (hn' : n' ∈ nodes P) (hrow : n.row = n'.row) :
    SameTree σ (Accessors.forget n) (Accessors.forget n') := by
  by_cases hkey : (Accessors.forget n).key σ = none
  · have hmem : n' ∈ nodesAt P n.row := mem_nodesAt.mpr ⟨hn', hrow.symm⟩
    rw [(h.nodesAt_of_key_none hn hkey).1] at hmem
    rw [List.mem_singleton.mp hmem]
    exact Bisimilar.refl _
  · exact hv.same_key _ (h.reached hn) _ (h.reached hn') hkey (h.key_of_row hn hn' hrow)

/-- The objects reached with the key of a node are those stored in its row. -/
theorem length_nodesAt (h : Planned σ A A' v P) (hn : n ∈ nodes P)
    (hkey : (Accessors.forget n).key σ ≠ none) :
    (nodesAt P n.row).length =
      v.reached.countP fun u => u.key σ = (Accessors.forget n).key σ := by
  rw [← h.forget, ← nodes_map_forget, List.countP_map]
  unfold nodesAt
  rw [← List.countP_eq_length_filter]
  apply List.countP_congr
  intro n' hn'
  simp only [decide_eq_true_eq, Function.comp]
  constructor
  · exact fun hrow => h.key_of_row hn' hn hrow
  · exact fun hkey' => (h.row_of_key hn hn' hkey hkey'.symm).symm

end Planned

/-! ## §3. The columns. -/

/-- Structurally equal objects have one key. -/
theorem SameTree.key_eq {σ : Schemas} (hσ : σ.WellFormed) {u u' : Unmanaged} (hu : u.Shaped σ)
    (hu' : u'.Shaped σ) (h : SameTree σ u u') : u.key σ = u'.key σ := by
  have hcls : u.cls = u'.cls := Bisimilar.cls_eq h
  unfold Unmanaged.key
  rw [← hcls]
  cases hpk : (σ u.cls).primary_key with
  | none => rfl
  | some name =>
    obtain ⟨e, hp⟩ := hσ.primary_key _ _ hpk
    obtain ⟨m, hm⟩ := hu.typed _ hp
    obtain ⟨m', hm'⟩ := hu'.typed _ (hcls ▸ hp)
    have hmatch : Ordered (SameTree σ) (u.content name) (u'.content name) := h.content hp
    rw [hm, hm'] at hmatch
    cases hmatch with
    | cons hslot _ =>
      have hvalue : u.value name = u'.value name := by
        unfold Unmanaged.value
        rw [hm, hm']
        cases hslot
        rfl
      show some (u.cls, u.value name) = some (u.cls, u'.value name)
      rw [hvalue]

/-- The content of a node, as the unmanaged object has it. -/
theorem mem_forget_content {n : Placed} {name key : String} {s : Slot Mixed Placed}
    (h : (key, s) ∈ n.content name) : (key, s.map forget) ∈ (forget n).content name := by
  rw [forget_content]
  exact List.mem_map_of_mem (f := fun e => (e.1, e.2.map forget)) h

theorem exists_of_mem_forget_content {n : Placed} {name key : String} {s : Slot Mixed Unmanaged}
    (h : (key, s) ∈ (forget n).content name) :
    ∃ s', (key, s') ∈ n.content name ∧ s = s'.map forget := by
  rw [forget_content] at h
  obtain ⟨e, he, heq⟩ := List.mem_map.mp h
  obtain ⟨hkey, hs⟩ := Prod.mk.inj heq
  exact ⟨e.2, by rw [← hkey]; exact he, hs.symm⟩

/-- The links that a set asks for. -/
theorem asked_links {T : TableKey} {c : Content Mixed Placed}
    (hc : ∀ e ∈ c, PointsTo Placed.cls T e.2) (hnull : ∀ key, (key, .null) ∉ c) :
    (asked c).map Prod.snd = ((objects c).map Placed.row).map Ref.link := by
  induction c with
  | nil => rfl
  | cons e c ih =>
    have hrest := ih (fun e he => hc e (List.mem_cons_of_mem _ he))
      (fun key h => hnull key (List.mem_cons_of_mem _ h))
    obtain ⟨key, s⟩ := e
    cases s with
    | null => exact absurd List.mem_cons_self (hnull key)
    | scalar m => exact (hc _ List.mem_cons_self).elim
    | object C => exact congrArg (C.row.link :: ·) hrest

namespace Planned

variable {σ : Schemas} {A A' : Objects} {v : Unmanaged} {P n n' : Placed} {p : String × Kind}

theorem shaped (h : Planned σ A A' v P) (hc : v.Conforms σ) (hn : n ∈ nodes P) :
    (Accessors.forget n).Shaped σ :=
  hc.shaped _ (h.reached hn)

theorem no_null (h : Planned σ A A' v P) (hv : v.Storable σ) (hn : n ∈ nodes P)
    (hp : p ∈ (σ n.cls).properties) (hk : p.2.SkipsNull) (key : String) :
    (key, .null) ∉ n.content p.1 := by
  intro hmem
  rw [← forget_cls] at hp
  exact hv.no_null _ (h.reached hn) p hp hk key (mem_forget_content hmem)

/-- Without primary keys, no two objects are stored in one row. -/
theorem rows_nodup_of_key_none (h : Planned σ A A' v P) {Cs : List Placed}
    (hcount : ∀ q, Cs.countP q ≤ (nodes P).countP q)
    (hkey : ∀ C ∈ Cs, C ∈ nodes P ∧ (Accessors.forget C).key σ = none) :
    (Cs.map Placed.row).Nodup := by
  rw [List.nodup_iff_count_le_one]
  intro x
  rw [List.count_eq_countP, List.countP_map]
  by_cases hx : ∃ C ∈ Cs, C.row = x
  · obtain ⟨C, hC, rfl⟩ := hx
    obtain ⟨hnode, hnone⟩ := hkey C hC
    -- only one node of the tree is stored there
    have hle := hcount fun C' => C'.row = C.row
    have hlength := congrArg List.length (h.nodesAt_of_key_none hnode hnone).1
    unfold nodesAt at hlength
    rw [← List.countP_eq_length_filter] at hlength
    rw [hlength] at hle
    refine Nat.le_trans (Nat.le_of_eq ?_) hle
    apply List.countP_congr
    intro C' _
    simp
  · have hzero : Cs.countP ((fun y => y == x) ∘ Placed.row) = 0 := by
      rw [List.countP_eq_zero]
      intro C hC hrow
      exact hx ⟨C, hC, by simpa using hrow⟩
    omega

/-- The elements of a set are stored in different rows. -/
theorem rows_nodup (h : Planned σ A A' v P) (hc : v.Conforms σ) (hv : v.Storable σ)
    (hn : n ∈ nodes P) {name : String} {T : TableKey}
    (hp : (name, Kind.set_link T) ∈ (σ n.cls).properties) :
    ((objects (n.content name)).map Placed.row).Nodup := by
  have hmem : ∀ C ∈ objects (n.content name), C ∈ nodes P := (objects_sublist hn name).subset
  by_cases hpk : (σ T).primary_key = none
  · apply h.rows_nodup_of_key_none fun q => (objects_sublist hn name).countP_le
    intro C hC
    obtain ⟨key, hkey⟩ := mem_objects.mp hC
    have hcls : C.cls = T := ((h.typed hc hn hp) _ hkey).2
    refine ⟨hmem C hC, ?_⟩
    rw [key_eq_none_iff, hcls]
    exact hpk
  · -- with them, different objects have different keys
    have hp' := hp
    rw [← forget_cls] at hp'
    have hkeys := hv.distinct _ (h.reached hn) _ hp' T rfl hpk
    rw [forget_content, objects_mapObjects, List.map_map] at hkeys
    apply List.Nodup.map_on _ hkeys.of_map
    intro C hC C' hC' hrow
    exact List.inj_on_of_nodup_map hkeys hC hC' (h.key_of_row (hmem C hC) (hmem C' hC') hrow)

/-- The conditions on the store reach every row that is written. -/
theorem absorbs {S : Store} (h : Planned σ S.toObjects A' v P) (hS : Store.WellFormed σ S)
    (ha : v.Absorbable σ S) (hn : n ∈ nodes P) (hp : p ∈ (σ n.cls).properties) :
    p.2.Absorbs σ S.toObjects (S.cell n.row p.1) ((Accessors.forget n).content p.1) := by
  rcases h.new_or_indexed hn with hnew | ⟨m, hkey, hindex⟩
  · rw [hS.fresh n.row hnew p (h.property_stored hn hp)]
    exact p.2.absorbs_default σ _ _
  · rw [← forget_cls] at hp
    exact ha _ (h.reached hn) _ _ _ hkey hindex p hp

/-- What is written for a property is what it asks for, but for sets of values. -/
theorem written_eq {S : Store} (h : Planned σ S.toObjects A' v P) (hc : v.Conforms σ)
    (hkept : v.Kept K σ S) (hn : n ∈ nodes P) (hp : p ∈ (σ n.cls).properties)
    (hset : p.2.shape = .bag → p.2.target ≠ none) :
    written K (n.content p.1) = asked (n.content p.1) := by
  cases htarget : p.2.target with
  | some T => exact written_of_target (h.typed hc hn hp) htarget
  | none =>
    refine written_eq_asked fun e he => ?_
    obtain ⟨s, hs, hm⟩ := mem_asked.mp he
    rw [← hm]
    cases s with
    | null => rfl
    | object C => rfl
    | scalar m =>
      rw [← forget_cls] at hp
      rcases hkept _ (h.reached hn) p hp e.1 m (mem_forget_content hs) with hm | ⟨hbag, -⟩
      · exact hm
      · exact absurd htarget (hset hbag)

/-- A column that no object stored here writes to. -/
theorem no_writes (h : Planned σ A A' v P) (hσ : σ.WellFormed) (hc : v.Conforms σ)
    (hn : n ∈ nodes P) (hp : p ∈ (σ n.cls).properties)
    (hnone : ∀ n' ∈ nodes P, n'.row = n.row → ownWrites K σ p.2 (n'.content p.1) = []) :
    writesAt (n.row, p.1) (events K σ P) = [] := by
  rw [List.eq_nil_iff_forall_not_mem]
  intro w hw
  have hp' := h.property_stored hn hp
  obtain ⟨n', hn', hrow, hown⟩ := h.exists_node_of_write hσ hc hp' hw
  rw [hnone n' hn' hrow] at hown
  cases hown

/-- What is added to is empty, or the only one that its row is asked for. -/
theorem empty_or_alone (h : Planned σ A A' v P) (hv : v.Storable σ) (hn : n ∈ nodes P)
    (hp : p ∈ (σ n.cls).properties) (hk : p.2.Appends σ) :
    n.content p.1 = [] ∨ nodesAt P n.row = [n] := by
  by_cases hkey : (Accessors.forget n).key σ = none
  · exact .inr (h.nodesAt_of_key_none hn hkey).1
  · have hpf : p ∈ (σ (Accessors.forget n).cls).properties := by
      rw [forget_cls]
      exact hp
    rcases hv.once _ (h.reached hn) hkey p hpf hk with hnil | hcount
    · rw [forget_content] at hnil
      exact .inl (List.map_eq_nil_iff.mp hnil)
    · right
      rw [← h.length_nodesAt hn hkey] at hcount
      obtain ⟨n', hn'⟩ := List.length_eq_one_iff.mp hcount
      have hmem : n ∈ nodesAt P n.row := mem_nodesAt.mpr ⟨hn, rfl⟩
      rw [hn'] at hmem ⊢
      rw [List.mem_singleton.mp hmem]

/-- What the objects of one row add is as long. -/
theorem content_nil_of_same_row (h : Planned σ A A' v P) (hv : v.Storable σ) (hn : n ∈ nodes P)
    (hn' : n' ∈ nodes P) (hrow : n'.row = n.row) (hp : p ∈ (σ n.cls).properties)
    (hk : p.2.Appends σ) (hnil : n.content p.1 = []) : n'.content p.1 = [] := by
  have hsame := (h.same_row hv hn hn' hrow.symm).content (p := p) (by rw [forget_cls]; exact hp)
  have hlength := hsame.length_eq hk.not_keyed
  rw [forget_content, forget_content, hnil] at hlength
  have hzero := hlength.symm
  unfold Content.mapObjects at hzero
  rw [List.length_map] at hzero
  exact List.length_eq_zero_iff.mp hzero

/-- The writes to a column of a row with one object. -/
theorem writesAt_of_alone (h : Planned σ A A' v P) (hσ : σ.WellFormed) (hc : v.Conforms σ)
    (hn : n ∈ nodes P) (hp : p ∈ (σ n.cls).properties) (halone : nodesAt P n.row = [n]) :
    writesAt (n.row, p.1) (events K σ P) = ownWrites K σ p.2 (n.content p.1) := by
  have hcol : p.1 ∈ (σ n.row.table).properties.map Prod.fst := by
    rw [h.placing.table n hn]
    exact List.mem_map_of_mem (f := Prod.fst) hp
  have hperm := writesAt_perm_nodes (K := K) (h.fitting hσ hc) hcol
  rw [halone, List.flatMap_singleton, h.placing.table n hn, hσ.kind hp] at hperm
  -- they are as many as the object's own, which are among them in order
  exact ((h.own_mem (K := K) hσ hc hn hp).eq_of_length hperm.length_eq.symm).symm

/-- **A column that is added to** is written once, or not at all. -/
theorem run_of_appends {S : Store} (h : Planned σ S.toObjects A' v P) (hσ : σ.WellFormed)
    (hc : v.Conforms σ) (hS : Store.WellFormed σ S) (hv : v.Storable σ) (ha : v.Absorbable σ S)
    (hkept : v.Kept K σ S) (hn : n ∈ nodes P) (hp : p ∈ (σ n.cls).properties)
    (hk : p.2.Appends σ) :
    runWrites Write.apply (writesAt (n.row, p.1) (events K σ P)) (S.cell n.row p.1)
      = some (asked (n.content p.1)) := by
  have hold : S.cell n.row p.1 = [] := (h.absorbs hS ha hn hp).1 hk
  rw [hold]
  rcases h.empty_or_alone hv hn hp hk with hnil | halone
  · have hnone : ∀ n' ∈ nodes P, n'.row = n.row → ownWrites K σ p.2 (n'.content p.1) = [] := by
      intro n' hn' hrow
      rw [h.content_nil_of_same_row hv hn hn' hrow hp hk hnil]
      exact ownWrites_nil_of_appends hk
    rw [h.no_writes hσ hc hn hp hnone, hnil]
    rfl
  · have htyped := h.typed hc hn hp
    have hnull : p.2.SkipsNull → ∀ key, (key, .null) ∉ n.content p.1 :=
      fun hskips key => h.no_null hv hn hp hskips key
    have hset : ∀ T, p.2 = .set_link T → (p.1, Kind.set_link T) ∈ (σ n.cls).properties := by
      intro T hT
      rw [← hT]
      exact hp
    have hwritten := h.written_eq hc hkept hn hp fun hshape => hk.target_ne_none hshape
    rw [h.writesAt_of_alone hσ hc hn hp halone, ← hwritten]
    apply run_ownWrites_of_appends htyped hk (fun T hT => hσ.set_link _ _ _ (hset T hT)) hnull
    intro hshape
    rw [hwritten]
    obtain ⟨name, k⟩ := p
    cases k with
    | set_link T =>
      rw [asked_links (fun e he => (htyped e he).2) (hnull trivial)]
      exact (h.rows_nodup hc hv hn hp).map fun x y => Ref.link_inj.mp
    | set o => cases hk
    | _ => cases hshape

/-- Only lists that are added to are written at an index. -/
theorem appends_of_insert (h : Planned σ A A' v P) (hσ : σ.WellFormed) (hc : v.Conforms σ)
    (hn : n ∈ nodes P) (hp : p ∈ (σ n.cls).properties) {i : Nat} {m : Mixed}
    (hw : .insert i m ∈ writesAt (n.row, p.1) (events K σ P)) :
    p.2.shape = .sequence ∧ p.2.Appends σ := by
  have hp' := h.property_stored hn hp
  have hallowed := h.writes_allowed hσ hc hp' _ hw
  have hshape : p.2.shape = .sequence := by
    obtain ⟨name, k⟩ := p
    cases k with
    | list _ => rfl
    | list_link _ => rfl
    | _ => cases hallowed
  refine ⟨hshape, ?_⟩
  by_contra hk
  obtain ⟨n', hn', hrow, hown⟩ := h.exists_node_of_write hσ hc hp' hw
  have htyped := h.typed_of_same_row hc hn hn' hrow hp
  rcases ownWrites_set_eq htyped hshape hk with hset | ⟨-, hnil⟩
  · rw [hset] at hown
    cases List.mem_singleton.mp hown
  · rw [hnil] at hown
    cases hown

/-- A column is that of an object of the tree, or nothing is written to it. -/
theorem column_or_no_writes (h : Planned σ A A' v P) (hσ : σ.WellFormed) (hc : v.Conforms σ)
    (x : Ref) (col : String) :
    (∃ n ∈ nodes P, ∃ p ∈ (σ n.cls).properties, x = n.row ∧ col = p.1) ∨
      writesAt (x, col) (events K σ P) = [] := by
  by_cases hx : ∃ n ∈ nodes P, n.row = x
  · obtain ⟨n, hn, rfl⟩ := hx
    by_cases hcol : col ∈ (σ n.row.table).properties.map Prod.fst
    · obtain ⟨p, hp, rfl⟩ := List.mem_map.mp hcol
      rw [h.placing.table n hn] at hp
      exact .inl ⟨n, hn, p, hp, rfl, rfl⟩
    · exact .inr (writesAt_of_not_column (h.fitting hσ hc) hcol)
  · exact .inr (writesAt_eq_nil (fun n hn hrow => hx ⟨n, hn, hrow⟩) col)

/-- **No write raises** but an insertion into a list. -/
theorem exists_run {S : Store} (h : Planned σ S.toObjects A' v P) (hσ : σ.WellFormed)
    (hc : v.Conforms σ)
    (hlist : ∀ n ∈ nodes P, ∀ p ∈ (σ n.cls).properties, p.2.shape = .sequence →
      p.2.Appends σ → ∃ c, runWrites Write.apply (writesAt (n.row, p.1) (events K σ P))
        (S.cell n.row p.1) = some c) (x : Ref) (col : String) :
    ∃ c, runWrites Write.apply (writesAt (x, col) (events K σ P)) (S.cell x col) = some c := by
  rcases h.column_or_no_writes hσ hc x col with ⟨n, hn, p, hp, rfl, rfl⟩ | hnone
  · by_cases hk : p.2.shape = .sequence ∧ p.2.Appends σ
    · exact hlist n hn p hp hk.1 hk.2
    · apply runWrites_total
      intro w hw c
      cases w with
      | insert i m => exact absurd (h.appends_of_insert hσ hc hn hp hw) hk
      | set d => exact ⟨_, rfl⟩
      | add m => exact ⟨_, rfl⟩
      | set_insert m => exact ⟨_, rfl⟩
      | dictionary_insert key m => exact ⟨_, rfl⟩
  · rw [hnone]
    exact ⟨_, rfl⟩

end Planned

namespace Added

variable {σ : Schemas} {S S' : Store} {v : Unmanaged} {P n n' : Placed} {p : String × Kind}

/-- A column that nothing is written to. -/
theorem cell_of_no_writes (h : Added K σ S S' v P) (hσ : σ.WellFormed) (hc : v.Conforms σ)
    (hn : n ∈ nodes P) (hp : p ∈ (σ n.cls).properties)
    (hnone : ∀ n' ∈ nodes P, n'.row = n.row → ownWrites K σ p.2 (n'.content p.1) = []) :
    S'.cell n.row p.1 = S.cell n.row p.1 := by
  have hcell := h.cells n.row p.1
  rw [h.no_writes hσ hc hn hp hnone] at hcell
  exact (Option.some.inj hcell).symm

/-- A null link, which is not written, stands where there was none. -/
theorem null_link_absorbed {k : Kind} {A : Objects} {old : Cell} {c : Content Mixed Placed}
    (htyped : k.Typed Placed.cls c) (habsorbs : k.Absorbs σ A old (c.mapObjects Accessors.forget))
    (hshape : k.shape = .sequence) (hk : ¬ k.Appends σ) (hnull : c = [("", .null)]) :
    old = asked c := by
  subst hnull
  cases k with
  | link T => exact habsorbs.2 rfl
  | scalar =>
    obtain ⟨m, hm⟩ := htyped
    cases hm
  | list e =>
    obtain ⟨m, hm⟩ := htyped _ (List.mem_singleton_self _)
    cases hm
  | list_link T => exact absurd trivial hk
  | _ => cases hshape

/-- **A column that is set**: one of the objects stored here has set it. -/
theorem column_of_set (h : Added K σ S S' v P) (hσ : σ.WellFormed) (hc : v.Conforms σ)
    (hS : Store.WellFormed σ S) (ha : v.Absorbable σ S) (hn : n ∈ nodes P)
    (hp : p ∈ (σ n.cls).properties) (hshape : p.2.shape = .sequence) (hk : ¬ p.2.Appends σ) :
    ∃ n' ∈ nodes P, n'.row = n.row ∧ S'.cell n.row p.1 = written K (n'.content p.1) := by
  have hown : ∀ n' ∈ nodes P, n'.row = n.row →
      ownWrites K σ p.2 (n'.content p.1) = [.set (written K (n'.content p.1))] ∨
        (n'.content p.1 = [("", .null)] ∧ ownWrites K σ p.2 (n'.content p.1) = []) := by
    intro n' hn' hrow
    exact ownWrites_set_eq (h.typed_of_same_row hc hn hn' hrow hp) hshape hk
  by_cases hsome : ∃ n' ∈ nodes P, n'.row = n.row ∧ ownWrites K σ p.2 (n'.content p.1) ≠ []
  · have hset : ∀ n' ∈ nodes P, n'.row = n.row →
        ∀ w ∈ ownWrites K σ p.2 (n'.content p.1), ∃ c, w = .set c := by
      intro n' hn' hrow w hw
      rcases hown n' hn' hrow with hset | ⟨-, hnil⟩
      · rw [hset] at hw
        exact ⟨_, List.mem_singleton.mp hw⟩
      · rw [hnil] at hw
        cases hw
    obtain ⟨n', hn', hrow, hw⟩ := h.exists_set hσ hc (h.property_stored hn hp) hset hsome
    refine ⟨n', hn', hrow, ?_⟩
    rcases hown n' hn' hrow with hset | ⟨-, hnil⟩
    · rw [hset] at hw
      injection List.mem_singleton.mp hw
    · rw [hnil] at hw
      cases hw
  · -- only null links, which are not written
    have hnone : ∀ n' ∈ nodes P, n'.row = n.row → ownWrites K σ p.2 (n'.content p.1) = [] := by
      intro n' hn' hrow
      by_contra hne
      exact hsome ⟨n', hn', hrow, hne⟩
    refine ⟨n, hn, rfl, ?_⟩
    rw [h.cell_of_no_writes hσ hc hn hp hnone]
    rcases hown n hn rfl with hset | ⟨hnull, -⟩
    · rw [hnone n hn rfl] at hset
      cases hset
    · have habsorbs := h.absorbs hS ha hn hp
      rw [forget_content] at habsorbs
      rw [null_link_absorbed (h.typed hc hn hp) habsorbs hshape hk hnull, hnull]
      rfl

/-- Slots that point to the same trees ask for the same, where those are in one row. -/
theorem askedSlot_eq {s s' : Slot Mixed Placed}
    (hrel : Slot.Rel (SameTree σ) (s'.map Accessors.forget) (s.map Accessors.forget))
    (hrow : ∀ C' C, s' = .object C' → s = .object C →
      SameTree σ (Accessors.forget C') (Accessors.forget C) → C'.row = C.row) :
    askedSlot s' = askedSlot s := by
  cases s' with
  | null =>
    cases s with
    | null => rfl
    | scalar _ => cases hrel
    | object _ => cases hrel
  | scalar _ =>
    cases s with
    | null => cases hrel
    | scalar _ =>
      cases hrel
      rfl
    | object _ => cases hrel
  | object C' =>
    cases s with
    | null => cases hrel
    | scalar _ => cases hrel
    | object C =>
      have hsame : SameTree σ (Accessors.forget C') (Accessors.forget C) := by
        cases hrel with
        | object hxy => exact hxy
      show C'.row.link = C.row.link
      rw [hrow C' C rfl rfl hsame]

/-- The objects of a set that is not appended to have primary keys. -/
theorem key_of_set_object (htyped : p.2.Typed Placed.cls (n.content p.1)) (hshape : p.2.shape = .bag)
    (hk : ¬ p.2.Appends σ) {key : String} {C : Placed}
    (hC : (key, Slot.object C) ∈ n.content p.1) : (Accessors.forget C).key σ ≠ none := by
  obtain ⟨name, k⟩ := p
  cases k with
  | set_link T =>
    intro hnone
    rw [Planned.key_eq_none_iff] at hnone
    apply hk
    have hcls : C.cls = T := htyped.pointsTo hC rfl
    show (σ T).primary_key = none
    rw [← hcls]
    exact hnone
  | set o =>
    obtain ⟨m, hm⟩ := htyped.1 _ hC
    cases hm
  | _ => cases hshape

/-- What one object stored here asks a set for, the others do as well. -/
theorem asked_of_same_row (h : Added K σ S S' v P) (hσ : σ.WellFormed) (hc : v.Conforms σ)
    (hv : v.Storable σ) (hn : n ∈ nodes P) (hn' : n' ∈ nodes P) (hrow : n'.row = n.row)
    (hp : p ∈ (σ n.cls).properties) (hshape : p.2.shape = .bag) (hk : ¬ p.2.Appends σ) {m : Mixed}
    (hm : ("", m) ∈ asked (n'.content p.1)) : ("", m) ∈ asked (n.content p.1) := by
  have hpf : p ∈ (σ (Accessors.forget n').cls).properties := by
    rw [forget_cls]
    exact h.property_of_same_row hn hn' hrow hp
  have hkeyed : p.2.shape ≠ .keyed := by
    rw [hshape]
    exact fun heq => Shape.noConfusion heq
  obtain ⟨s', hs', hms'⟩ := mem_asked.mp hm
  have hmatch := (h.same_row hv hn' hn hrow).content hpf
  obtain ⟨⟨key, t⟩, hb, hrel⟩ := hmatch.exists_of_mem (fun heq => absurd heq hkeyed)
    (mem_forget_content hs')
  obtain ⟨s, hs, rfl⟩ := exists_of_mem_forget_content hb
  have htyped := h.typed hc hn hp
  have hkey : key = "" := htyped.no_key hkeyed _ hs
  subst hkey
  refine mem_asked.mpr ⟨s, hs, ?_⟩
  rw [← hms']
  refine (askedSlot_eq hrel fun C' C heq' heq hsame => ?_).symm
  -- the two objects have one key, and so one row
  subst heq' heq
  have hC : C ∈ nodes P := child_mem_nodes hn hs
  have hC' : C' ∈ nodes P := child_mem_nodes hn' hs'
  have hkeys := hsame.key_eq hσ (h.shaped hc hC') (h.shaped hc hC)
  exact (h.row_of_key hC hC' (key_of_set_object htyped hshape hk hs) hkeys.symm).symm

/-- Each object stored in the row inserts what it asks for. -/
theorem ownWrites_of_bag (h : Added K σ S S' v P) (hσ : σ.WellFormed) (hc : v.Conforms σ)
    (hv : v.Storable σ) (hn : n ∈ nodes P) (hp : p ∈ (σ n.cls).properties)
    (hshape : p.2.shape = .bag) :
    ownWrites K σ p.2 (n.content p.1) =
      ((written K (n.content p.1)).map Prod.snd).map .set_insert := by
  refine ownWrites_bag_eq (h.typed hc hn hp) hshape ?_ fun hskips key =>
    h.no_null hv hn hp hskips key
  intro T hT
  exact hσ.set_link n.cls p.1 T (by rw [← hT]; exact hp)

/-- A set asks for no element twice. -/
theorem asked_nodup (h : Added K σ S S' v P) (hc : v.Conforms σ) (hv : v.Storable σ)
    (hn : n ∈ nodes P) (hp : p ∈ (σ n.cls).properties) (hshape : p.2.shape = .bag) :
    (asked (n.content p.1)).Nodup := by
  have htyped := h.typed hc hn hp
  obtain ⟨name, k⟩ := p
  cases k with
  | set o =>
    apply List.Nodup.map_on _ htyped.2
    intro e he e' he' heq
    obtain ⟨m, rfl⟩ := htyped.1 e he
    obtain ⟨m', rfl⟩ := htyped.1 e' he'
    cases heq
    rfl
  | set_link T =>
    apply List.Nodup.of_map Prod.snd
    rw [asked_links (fun e he => (htyped e he).2) (fun key => h.no_null hv hn hp trivial key)]
    exact (h.rows_nodup hc hv hn hp).map fun x y => Ref.link_inj.mp
  | _ => cases hshape

/-- What a set held already is asked for. -/
theorem old_asked (h : Added K σ S S' v P) (hc : v.Conforms σ) (hS : Store.WellFormed σ S)
    (ha : v.Absorbable σ S) (hn : n ∈ nodes P) (hp : p ∈ (σ n.cls).properties)
    (hshape : p.2.shape = .bag) : ∀ e ∈ S.cell n.row p.1, e ∈ asked (n.content p.1) := by
  intro e he
  have htyped := h.typed hc hn hp
  have hstored := hS.stored n.row p (h.property_stored hn hp)
  have habsorbs := h.absorbs hS ha hn hp
  obtain ⟨name, k⟩ := p
  cases k with
  | set o =>
    obtain ⟨s, hs, hscalar⟩ := exists_of_mem_forget_content (habsorbs.2 e he)
    exact mem_asked.mpr ⟨s, hs, by rw [Slot.map_eq_scalar.mp hscalar.symm]; rfl⟩
  | set_link T =>
    obtain ⟨u, hu, m, key, hkey, hindex, hlink⟩ := habsorbs.2 e he
    rw [forget_content, objects_mapObjects] at hu
    obtain ⟨C, hC, rfl⟩ := List.mem_map.mp hu
    obtain ⟨j, hmem⟩ := mem_objects.mp hC
    have hrow : C.row = ⟨T, key⟩ :=
      h.row_of_index (child_mem_nodes hn hmem) hkey (h.placing.index _ _ _ hindex)
    -- neither the element nor what asks for it has a key of its own
    have hj : j = "" := (htyped _ hmem).1
    rw [hj] at hmem
    have he1 : e.1 = "" := (hstored.1 e he).1
    have heq : e = ("", C.row.link) := by
      rw [← he1, hrow]
      show e = (e.1, Mixed.link T key)
      rw [← hlink]
    rw [heq]
    exact mem_asked.mpr ⟨_, hmem, rfl⟩
  | _ => cases hshape

/-- What is written for a property is among what it asks for. -/
theorem asked_of_written (h : Added K σ S S' v P) (hc : v.Conforms σ) (hkept : v.Kept K σ S)
    (hn : n ∈ nodes P) (hp : p ∈ (σ n.cls).properties) (hshape : p.2.shape ≠ .keyed)
    {e : String × Mixed} (he : e ∈ written K (n.content p.1)) :
    ("", e.2) ∈ asked (n.content p.1) := by
  obtain ⟨m, hm, heq⟩ := mem_written.mp he
  obtain ⟨s, hs, hsm⟩ := mem_asked.mp hm
  have hkey : e.1 = "" := (h.typed hc hn hp).no_key hshape _ hs
  rw [← heq]
  rw [hkey] at hm hs
  cases s with
  | null =>
    rw [← hsm] at hm ⊢
    exact hm
  | object C =>
    rw [← hsm] at hm ⊢
    exact hm
  | scalar m' =>
    change m' = m at hsm
    subst hsm
    have hp' := hp
    rw [← forget_cls] at hp'
    rcases hkept _ (h.reached hn) p hp' "" m' (mem_forget_content hs) with hsame | ⟨-, hmem, -⟩
    · rw [hsame]
      exact hm
    · obtain ⟨s', hs', heq'⟩ := exists_of_mem_forget_content hmem
      exact mem_asked.mpr ⟨s', hs', by rw [Slot.map_eq_scalar.mp heq'.symm]; rfl⟩

/-- What a property asks for is written, or was stored. -/
theorem written_or_stored (h : Added K σ S S' v P) (hkept : v.Kept K σ S)
    (hn : n ∈ nodes P) (hp : p ∈ (σ n.cls).properties) {e : String × Mixed}
    (he : e ∈ asked (n.content p.1)) :
    e ∈ written K (n.content p.1) ∨ ("", e.2) ∈ S.cell n.row p.1 := by
  have hwritten : K.serialize e.2 = e.2 → e ∈ written K (n.content p.1) :=
    fun heq => mem_written.mpr ⟨e.2, he, heq⟩
  obtain ⟨s, hs, hsm⟩ := mem_asked.mp he
  cases s with
  | null => exact .inl (hwritten (by rw [← hsm]; rfl))
  | object C => exact .inl (hwritten (by rw [← hsm]; rfl))
  | scalar m =>
    change m = e.2 at hsm
    rw [← forget_cls] at hp
    rcases hkept _ (h.reached hn) p hp e.1 m (mem_forget_content hs) with hsame | ⟨-, -, hstored⟩
    · rw [hsm] at hsame
      exact .inl (hwritten hsame)
    · obtain ⟨t, k, key, hkey, hindex, hmem⟩ := hstored
      rw [h.row_of_index hn hkey (h.placing.index _ _ _ hindex), ← hsm]
      exact .inr hmem

/-- **A column that is inserted into** holds what is asked for, in some order. -/
theorem column_of_bag (h : Added K σ S S' v P) (hσ : σ.WellFormed) (hc : v.Conforms σ)
    (hS : Store.WellFormed σ S) (hv : v.Storable σ) (ha : v.Absorbable σ S)
    (hkept : v.Kept K σ S) (hn : n ∈ nodes P) (hp : p ∈ (σ n.cls).properties)
    (hshape : p.2.shape = .bag) (hk : ¬ p.2.Appends σ) :
    (S'.cell n.row p.1).Perm (asked (n.content p.1)) := by
  have hp' := h.property_stored hn hp
  have hkeyed : p.2.shape ≠ .keyed := by
    rw [hshape]
    exact fun heq => Shape.noConfusion heq
  have hown : ∀ n' ∈ nodes P, n'.row = n.row → ownWrites K σ p.2 (n'.content p.1) =
      ((written K (n'.content p.1)).map Prod.snd).map .set_insert :=
    fun n' hn' hrow =>
      h.ownWrites_of_bag hσ hc hv hn' (h.property_of_same_row hn hn' hrow hp) hshape
  have hws : ∀ w ∈ writesAt (n.row, p.1) (events K σ P), ∃ m, w = .set_insert m := by
    intro w hw
    obtain ⟨n', hn', hrow, hw⟩ := h.exists_node_of_write hσ hc hp' hw
    rw [hown n' hn' hrow] at hw
    obtain ⟨m, -, rfl⟩ := List.mem_map.mp hw
    exact ⟨m, rfl⟩
  have hnew : (S'.cell n.row p.1).Nodup := by
    have hstored := (h.wellFormed hσ hc hS).stored n.row p hp'
    obtain ⟨name, k⟩ := p
    cases k with
    | set o => exact hstored.2
    | set_link T => exact hstored.2
    | _ => cases hshape
  rw [List.perm_ext_iff_of_nodup hnew (h.asked_nodup hc hv hn hp hshape)]
  intro e
  rw [mem_of_set_inserts hws (h.cells n.row p.1)]
  constructor
  · rintro (he | ⟨m, hm, rfl⟩)
    · exact h.old_asked hc hS ha hn hp hshape e he
    · -- what any object of the row inserts, this one asks for
      obtain ⟨n', hn', hrow, hw⟩ := h.exists_node_of_write hσ hc hp' hm
      rw [hown n' hn' hrow] at hw
      obtain ⟨m', hm', heq⟩ := List.mem_map.mp hw
      cases heq
      obtain ⟨e, he, rfl⟩ := List.mem_map.mp hm'
      apply h.asked_of_same_row hσ hc hv hn hn' hrow hp hshape hk
      exact h.asked_of_written hc hkept hn' (h.property_of_same_row hn hn' hrow hp) hkeyed he
  · intro he
    have he1 : e.1 = "" := by
      obtain ⟨s, hs, -⟩ := mem_asked.mp he
      exact (h.typed hc hn hp).no_key hkeyed _ hs
    rcases h.written_or_stored hkept hn hp he with hwritten | hold
    · refine .inr ⟨e.2, (h.own_mem (K := K) hσ hc hn hp).subset ?_, Prod.ext he1 rfl⟩
      rw [hown n hn rfl]
      exact List.mem_map_of_mem (f := Write.set_insert) (List.mem_map_of_mem hwritten)
    · left
      rw [← he1] at hold
      exact hold

/-- What is written at a key is found there. -/
theorem lookup_written (h : Added K σ S S' v P) (hc : v.Conforms σ) (hn : n ∈ nodes P)
    (hp : p ∈ (σ n.cls).properties) (hshape : p.2.shape = .keyed) {key : String} {m : Mixed}
    (hm : (key, m) ∈ written K (n.content p.1)) :
    (written K (n.content p.1)).lookup key = some m := by
  apply lookup_of_mem _ hm
  rw [keys_written]
  exact (h.typed hc hn hp).keys_nodup hshape

/-- The keys that a dictionary had already are written. -/
theorem old_key_written (h : Added K σ S S' v P) (hS : Store.WellFormed σ S)
    (ha : v.Absorbable σ S) (hn : n ∈ nodes P) (hp : p ∈ (σ n.cls).properties)
    (hshape : p.2.shape = .keyed) {e : String × Mixed} (he : e ∈ S.cell n.row p.1) :
    ∃ m, (e.1, m) ∈ written K (n.content p.1) := by
  have habsorbs : ∀ e ∈ S.cell n.row p.1, e.1 ∈ ((Accessors.forget n).content p.1).map Prod.fst := by
    have hall := h.absorbs hS ha hn hp
    obtain ⟨name, k⟩ := p
    cases k with
    | dictionary o => exact hall.2
    | dictionary_link T => exact hall.2
    | _ => cases hshape
  obtain ⟨⟨key, t⟩, ht, hkey⟩ := List.mem_map.mp (habsorbs e he)
  obtain ⟨s, hs, -⟩ := exists_of_mem_forget_content ht
  rw [← hkey]
  exact ⟨_, written_of_asked (mem_asked.mpr ⟨s, hs, rfl⟩)⟩

/-- **A dictionary**: each key is as it is written for one of the objects stored here. -/
theorem column_of_keyed (h : Added K σ S S' v P) (hσ : σ.WellFormed) (hc : v.Conforms σ)
    (hS : Store.WellFormed σ S) (ha : v.Absorbable σ S) (hn : n ∈ nodes P)
    (hp : p ∈ (σ n.cls).properties) (hshape : p.2.shape = .keyed) (key : String) :
    ∃ n' ∈ nodes P, n'.row = n.row ∧
      (S'.cell n.row p.1).lookup key = (written K (n'.content p.1)).lookup key := by
  have hp' := h.property_stored hn hp
  have htyped : ∀ n' ∈ nodes P, n'.row = n.row → p.2.Typed Placed.cls (n'.content p.1) :=
    fun n' hn' hrow => h.typed_of_same_row hc hn hn' hrow hp
  have hws : ∀ w ∈ writesAt (n.row, p.1) (events K σ P), ∃ key m, w = .dictionary_insert key m := by
    intro w hw
    obtain ⟨n', hn', hrow, hw⟩ := h.exists_node_of_write hσ hc hp' hw
    obtain ⟨key, m, -, rfl⟩ := (mem_ownWrites_keyed (htyped n' hn' hrow) hshape w).mp hw
    exact ⟨key, m, rfl⟩
  rcases lookup_of_dictionary_inserts hws (h.cells n.row p.1) key with ⟨m, hm, hnew⟩ | ⟨hnone, hnew⟩
  · obtain ⟨n', hn', hrow, hw⟩ := h.exists_node_of_write hσ hc hp' hm
    obtain ⟨_, _, hwritten, heq⟩ := (mem_ownWrites_keyed (htyped n' hn' hrow) hshape _).mp hw
    cases heq
    refine ⟨n', hn', hrow, ?_⟩
    rw [hnew, h.lookup_written hc hn' (h.property_of_same_row hn hn' hrow hp) hshape hwritten]
  · -- no one asks for the key, and it was not there
    refine ⟨n, hn, rfl, ?_⟩
    have hask : (written K (n.content p.1)).lookup key = none := by
      cases hl : (written K (n.content p.1)).lookup key with
      | none => rfl
      | some m =>
        have hw := (mem_ownWrites_keyed (σ := σ) (htyped n hn rfl) hshape _).mpr
          ⟨key, m, mem_of_lookup hl, rfl⟩
        exact absurd ((h.own_mem (K := K) hσ hc hn hp).subset hw) (hnone m)
    have hold : (S.cell n.row p.1).lookup key = none := by
      cases hl : (S.cell n.row p.1).lookup key with
      | none => rfl
      | some m =>
        obtain ⟨m', hwritten⟩ := h.old_key_written hS ha hn hp hshape (mem_of_lookup hl)
        rw [h.lookup_written hc hn hp hshape hwritten] at hask
        cases hask
    rw [hnew, hold, hask]

end Added

/-! ## §4. The stored object. -/

/-- The row of a placed object stands for all unmanaged objects that are
structurally equal to it. -/
def Stands (σ : Schemas) (P : Placed) (y : Ref) (u : Unmanaged) : Prop :=
  ∃ n ∈ nodes P, n.row = y ∧ SameTree σ (forget n) u

namespace Added

variable {σ : Schemas} {S S' : Store} {v : Unmanaged} {P n n' : Placed} {p : String × Kind}

/-- What another object of the row asks for is what this one asks for. -/
theorem match_asked (h : Added K σ S S' v P) (hc : v.Conforms σ) (hv : v.Storable σ)
    (hn : n ∈ nodes P) (hn' : n' ∈ nodes P) (hrow : n'.row = n.row)
    (hp : p ∈ (σ n.cls).properties) :
    p.2.shape.Match (Stands σ P) (p.2.view (asked (n'.content p.1)))
      ((Accessors.forget n).content p.1) := by
  have hp' := h.property_of_same_row hn hn' hrow hp
  have hrows : p.2.shape.Match (fun y u => ∃ C ∈ nodes P, C.row = y ∧ Accessors.forget C = u)
      (p.2.view (asked (n'.content p.1))) ((Accessors.forget n').content p.1) := by
    rw [view_asked (h.typed hc hn' hp'), forget_content]
    apply Shape.Match.of_mapObjects
    intro key C hmem
    exact ⟨C, child_mem_nodes hn' hmem, rfl, rfl⟩
  have hsame := (h.same_row hv hn' hn hrow).content (p := p) (by rw [forget_cls]; exact hp')
  refine (hrows.comp hsame).mono fun y u hyu => ?_
  obtain ⟨u', ⟨C, hC, hCrow, rfl⟩, hCu⟩ := hyu
  exact ⟨C, hC, hCrow, hCu⟩

/-- **Every column is as the object stored there asks.** -/
theorem column (h : Added K σ S S' v P) (hσ : σ.WellFormed) (hc : v.Conforms σ)
    (hS : Store.WellFormed σ S) (hv : v.Storable σ) (ha : v.Absorbable σ S)
    (hkept : v.Kept K σ S) (hn : n ∈ nodes P) (hp : p ∈ (σ n.cls).properties) :
    p.2.shape.Match (Stands σ P) (p.2.view (S'.cell n.row p.1))
      ((Accessors.forget n).content p.1) := by
  by_cases hk : p.2.Appends σ
  · have hcell := h.cells n.row p.1
    rw [h.run_of_appends hσ hc hS hv ha hkept hn hp hk] at hcell
    rw [← Option.some.inj hcell]
    exact h.match_asked hc hv hn hn rfl hp
  · -- but for sets, what is written is what is asked for
    have hwritten : p.2.shape ≠ .bag → ∀ n' ∈ nodes P, n'.row = n.row →
        written K (n'.content p.1) = asked (n'.content p.1) := fun hbag n' hn' hrow =>
      h.written_eq hc hkept hn' (h.property_of_same_row hn hn' hrow hp) fun heq => absurd heq hbag
    cases hshape : p.2.shape with
    | sequence =>
      obtain ⟨n', hn', hrow, hcell⟩ := h.column_of_set hσ hc hS ha hn hp hshape hk
      rw [hcell, hwritten (by simp [hshape]) n' hn' hrow, ← hshape]
      exact h.match_asked hc hv hn hn' hrow hp
    | bag =>
      have hperm := h.column_of_bag hσ hc hS hv ha hkept hn hp hshape hk
      have hmatch := h.match_asked hc hv hn hn rfl hp
      rw [hshape] at hmatch
      obtain ⟨d, hd, hordered⟩ := hmatch
      exact ⟨d, (hperm.map _).trans hd, hordered⟩
    | keyed =>
      intro key
      obtain ⟨n', hn', hrow, hlookup⟩ := h.column_of_keyed hσ hc hS ha hn hp hshape key
      rw [hwritten (by simp [hshape]) n' hn' hrow] at hlookup
      have hmatch := h.match_asked hc hv hn hn' hrow hp
      rw [hshape] at hmatch
      have hview : (p.2.view (S'.cell n.row p.1)).lookup key =
          (p.2.view (asked (n'.content p.1))).lookup key := by
        unfold Kind.view
        rw [lookup_map_snd, lookup_map_snd, hlookup]
      rw [hview]
      exact hmatch key

/-- **The stored object holds the unmanaged one**, and so does each behind it. -/
theorem holds (h : Added K σ S S' v P) (hσ : σ.WellFormed) (hc : v.Conforms σ)
    (hS : Store.WellFormed σ S) (hv : v.Storable σ) (ha : v.Absorbable σ S)
    (hkept : v.Kept K σ S) (hn : n ∈ nodes P) : Holds σ S' n.row (Accessors.forget n) := by
  refine ⟨Stands σ P, ?_, n, hn, rfl, Bisimilar.refl _⟩
  intro y u ⟨m, hm, hrow, hsame⟩
  subst hrow
  have htable : m.row.table = m.cls := h.placing.table m hm
  have hcls : m.cls = u.cls := by
    rw [← forget_cls]
    exact Bisimilar.cls_eq hsame
  refine ⟨htable.trans hcls, fun f hf => ?_⟩
  obtain ⟨p, hp, rfl⟩ := List.mem_map.mp hf
  change p ∈ (σ m.row.table).properties at hp
  rw [htable] at hp
  have hcolumn := h.column hσ hc hS hv ha hkept hm hp
  have hsamecontent := hsame.content (p := p) (by rw [forget_cls]; exact hp)
  show p.2.shape.Match _ ((σ.kind m.row.table p.1).view (S'.cell m.row p.1)) (u.content p.1)
  rw [htable, hσ.kind hp]
  refine (hcolumn.comp hsamecontent).mono fun y w hyw => ?_
  obtain ⟨w', ⟨C, hC, hCrow, hCw⟩, hw⟩ := hyw
  exact ⟨C, hC, hCrow, Bisimilar.trans hCw hw⟩

end Added

/-- **`db::add` leaves what it was given**, where the conditions hold. -/
theorem exists_holds {σ : Schemas} {S : Store} {v : Unmanaged} (hσ : σ.WellFormed)
    (hS : Store.WellFormed σ S) (hc : v.Conforms σ) (hv : v.Storable σ) (ha : v.Absorbable σ S)
    (hkept : v.Kept K σ S) : ∃ S' x, add K σ S v = some (S', x) ∧ Holds σ S' x v := by
  obtain ⟨A', P, hplanned, hadd⟩ := exists_add (K := K) (σ := σ) v hS.objects
  obtain ⟨S', hS', -, hadded⟩ := hadd (hplanned.exists_run hσ hc fun n hn p hp _ hk =>
    ⟨_, hplanned.run_of_appends hσ hc hS hv ha hkept hn hp hk⟩)
  refine ⟨S', P.row, hS', ?_⟩
  have hholds := hadded.holds hσ hc hS hv ha hkept (self_mem_nodes P)
  rw [hplanned.forget] at hholds
  exact hholds

end RealmCpp.Accessors
