/-
  RealmCpp.Accessors.Idempotent
  ─────────────────────────────
  **ADDING AN OBJECT AGAIN.**

  An object that reaches only objects with primary keys is stored in the same
  rows the second time, and the same journal is replayed.  Setting and inserting
  again change nothing; what is added to a list is added once more.

    • `Planned.place_again` — the second time, every object has its row,
    • `exists_add_of_keyed` — storing such an object never raises,
    • `add_again_iff` — when the second time changes nothing.
-/
import RealmCpp.Accessors.Kept

namespace RealmCpp.Accessors

open RealmCpp.Library
open RealmCpp.Core

variable {K : DecimalText}

/-! ## §1. The second placing. -/

/-- An unmanaged object that reaches only objects with primary keys. -/
def Unmanaged.Keyed (σ : Schemas) (v : Unmanaged) : Prop := ∀ u ∈ v.reached, u.key σ ≠ none

/-- The object of `n` is in the store, at the row of `n`. -/
def Present (σ : Schemas) (A : Objects) (n : Placed) : Prop :=
  create σ A (forget n) = (A, n.row)

mutual

/-- **Objects that are present are placed where they are.** -/
theorem place_again {σ : Schemas} {A : Objects} : ∀ P : Placed, (∀ n ∈ nodes P, Present σ A n) →
    place σ P.row (forget P) A = (A, P)
  | .node x t ps, h => by
      have hps := placeProperties_again ps fun n hn => h n (List.mem_cons_of_mem _ hn)
      show ((placeProperties σ (forgetProperties ps) A).1,
        Placed.node x t (placeProperties σ (forgetProperties ps) A).2) = _
      rw [hps]
termination_by structural P => P

theorem placeProperties_again {σ : Schemas} {A : Objects} :
    ∀ ps : List (String × List (String × Slot Mixed Placed)),
      (∀ n ∈ nodesProperties ps, Present σ A n) →
      placeProperties σ (forgetProperties ps) A = (A, ps)
  | [], _ => rfl
  | (name, es) :: ps, h => by
      have hes := placeEntries_again es fun n hn => h n (List.mem_append_left _ hn)
      have hps := placeProperties_again ps fun n hn => h n (List.mem_append_right _ hn)
      show ((placeProperties σ (forgetProperties ps) (placeEntries σ (forgetEntries es) A).1).1,
        (name, (placeEntries σ (forgetEntries es) A).2) ::
          (placeProperties σ (forgetProperties ps) (placeEntries σ (forgetEntries es) A).1).2) = _
      rw [hes, hps]
termination_by structural ps => ps

theorem placeEntries_again {σ : Schemas} {A : Objects} :
    ∀ es : List (String × Slot Mixed Placed), (∀ n ∈ nodesEntries es, Present σ A n) →
      placeEntries σ (forgetEntries es) A = (A, es)
  | [], _ => rfl
  | (key, .null) :: es, h => by
      have hes := placeEntries_again es h
      show ((placeEntries σ (forgetEntries es) A).1,
        (key, .null) :: (placeEntries σ (forgetEntries es) A).2) = _
      rw [hes]
  | (key, .scalar m) :: es, h => by
      have hes := placeEntries_again es h
      show ((placeEntries σ (forgetEntries es) A).1,
        (key, .scalar m) :: (placeEntries σ (forgetEntries es) A).2) = _
      rw [hes]
  | (key, .object C) :: es, h => by
      have hC := place_again C fun n hn => h n (List.mem_append_left _ hn)
      have hes := placeEntries_again es fun n hn => h n (List.mem_append_right _ hn)
      have hcreate : create σ A (forget C) = (A, C.row) :=
        h C (List.mem_append_left _ (self_mem_nodes C))
      show placeEntries σ ((key, .object (forget C)) :: forgetEntries es) A = _
      rw [placeEntries_object, hcreate, hC, hes]
termination_by structural es => es

end

/-- After a placing, what has a primary key is present. -/
theorem Planned.present {σ : Schemas} {A A' : Objects} {v : Unmanaged} {P n : Placed}
    (h : Planned σ A A' v P) (hn : n ∈ nodes P) (hkey : (Accessors.forget n).key σ ≠ none) :
    Present σ A' n := by
  obtain ⟨⟨t, m⟩, htm⟩ := Option.ne_none_iff_exists'.mp hkey
  have hindex := h.placing.row_index n hn t m htm
  have htable : n.row.table = t := h.table_of_key hn htm
  unfold Present create
  rw [htm]
  show A'.create_object_with_primary_key t m = _
  unfold Objects.create_object_with_primary_key
  rw [hindex, ← htable]

/-- **The second `db::add`** replays the journal of the first. -/
theorem Added.add_again {σ : Schemas} {S S' : Store} {v : Unmanaged} {P : Placed}
    (h : Added K σ S S' v P) (hv : v.Keyed σ) :
    add K σ S' v = (S'.writes (events K σ P)).map (·, P.row) := by
  have hpresent : ∀ n ∈ nodes P, Present σ S'.toObjects n :=
    fun n hn => h.present hn (hv _ (h.reached hn))
  have hplace := place_again P hpresent
  have hcreate : create σ S'.toObjects (Accessors.forget P) = (S'.toObjects, P.row) :=
    hpresent P (self_mem_nodes P)
  rw [h.forget] at hplace hcreate
  rw [add_eq, hcreate, hplace]
  rfl

/-! ## §2. Storing objects with primary keys does not raise. -/

/-- The writes in the loop of an accessor are in range, each by itself. -/
structure LoopInRange (a : Accessor) (es : Content Mixed Placed) : Prop where
  null : ∀ key, InRange 0 (a.null key)
  before : ∀ i key C, (key, .object C) ∈ es → InRange 0 (a.before i key C.row.link)
  after : ∀ key C, (key, .object C) ∈ es → InRange 0 (a.after key C.row.link)

theorem LoopInRange.tail {a : Accessor} {e : String × Slot Mixed Placed}
    {es : Content Mixed Placed} (h : LoopInRange a (e :: es)) : LoopInRange a es where
  null := h.null
  before i key C hC := h.before i key C (List.mem_cons_of_mem _ hC)
  after key C hC := h.after key C (List.mem_cons_of_mem _ hC)

/-- The properties of an object whose accessors write in range. -/
def WritesInRange (K : DecimalText) (σ : Schemas) (x : Ref) (ps : List (String × Content Mixed Placed)) : Prop :=
  ∀ q ∈ ps, InRange 0 (((σ.kind x.table q.1).accessor K σ).values (scalars q.2)) ∧
    LoopInRange ((σ.kind x.table q.1).accessor K σ) q.2

theorem inRange_journal {ws : List Write} (h : InRange 0 ws) (x : Ref) (name : String)
    (c : Ref × String) : InRange 0 (writesAt c (journal x name ws)) := by
  by_cases hc : (x, name) = c
  · subst hc
    rw [writesAt_journal_self]
    exact h
  · rw [show c = (c.1, c.2) from rfl, writesAt_journal_of_ne hc]
    trivial

mutual

/-- **The writes to a column are in range**, where those of each accessor are. -/
theorem inRange_events {σ : Schemas} (c : Ref × String) : ∀ P : Placed,
    (∀ n ∈ nodes P, WritesInRange K σ n.row n.props) → InRange 0 (writesAt c (events K σ P))
  | .node x _ ps, h =>
      inRange_eventsProperties c x ps (h _ List.mem_cons_self)
        fun n hn => h n (List.mem_cons_of_mem _ hn)
termination_by structural P => P

theorem inRange_eventsProperties {σ : Schemas} (c : Ref × String) (x : Ref) :
    ∀ ps : List (String × List (String × Slot Mixed Placed)), WritesInRange K σ x ps →
    (∀ n ∈ nodesProperties ps, WritesInRange K σ n.row n.props) →
    InRange 0 (writesAt c (eventsProperties K σ x ps))
  | [], _, _ => trivial
  | (name, es) :: ps, hps, h => by
      obtain ⟨hvalues, hloop⟩ := hps (name, es) List.mem_cons_self
      have hes := inRange_eventsEntries c _ x name 0 es hloop
        fun n hn => h n (List.mem_append_left _ hn)
      have hrest := inRange_eventsProperties c x ps (fun q hq => hps q (List.mem_cons_of_mem _ hq))
        fun n hn => h n (List.mem_append_right _ hn)
      show InRange 0 (writesAt c (journal x name _ ++ eventsEntries K σ _ x name 0 es ++
        eventsProperties K σ x ps))
      rw [writesAt_append, writesAt_append]
      exact ((inRange_journal hvalues x name c).append hes).append hrest
termination_by structural ps => ps

theorem inRange_eventsEntries {σ : Schemas} (c : Ref × String) (a : Accessor) (x : Ref)
    (name : String) (i : Nat) :
    ∀ es : List (String × Slot Mixed Placed), LoopInRange a es →
    (∀ n ∈ nodesEntries es, WritesInRange K σ n.row n.props) →
    InRange 0 (writesAt c (eventsEntries K σ a x name i es))
  | [], _, _ => trivial
  | (key, .null) :: es, ha, h => by
      have hrest := inRange_eventsEntries c a x name (i + 1) es ha.tail h
      show InRange 0 (writesAt c (journal x name (a.null key) ++ _))
      rw [writesAt_append]
      exact (inRange_journal (ha.null key) x name c).append hrest
  | (_, .scalar _) :: es, ha, h => inRange_eventsEntries c a x name (i + 1) es ha.tail h
  | (key, .object C) :: es, ha, h => by
      have hC := inRange_events c C fun n hn => h n (List.mem_append_left _ hn)
      have hrest := inRange_eventsEntries c a x name (i + 1) es ha.tail
        fun n hn => h n (List.mem_append_right _ hn)
      have hbefore := inRange_journal (ha.before i key C List.mem_cons_self) x name c
      have hafter := inRange_journal (ha.after key C List.mem_cons_self) x name c
      show InRange 0 (writesAt c (journal x name (a.before i key C.row.link) ++ events K σ C ++
        journal x name (a.after key C.row.link) ++ eventsEntries K σ a x name (i + 1) es))
      rw [writesAt_append, writesAt_append, writesAt_append]
      exact ((hbefore.append hC).append hafter).append hrest
termination_by structural es => es

end

/-- Writes of values that insert nothing are in range. -/
theorem inRange_map {es : List (String × Mixed)} {f : String × Mixed → Write}
    (hf : ∀ e i m, f e ≠ .insert i m) : InRange 0 (es.map f) := by
  apply inRange_of_no_insert
  intro i m hm
  obtain ⟨e, -, he⟩ := List.mem_map.mp hm
  exact hf e i m he

/-- The values of a list are written in range, appended or set. -/
theorem set_list_values_inRange (e : Element) (ms : List Mixed) :
    InRange 0 (set_list_values e ms) := by
  by_cases he : e.appends = true
  · rcases set_list_values_of_appends he ms with hws | hws
    · rw [hws]
      apply inRange_of_no_insert
      intro i m hm
      obtain ⟨m', -, heq⟩ := List.mem_map.mp hm
      cases heq
    · rw [hws]
      exact inRange_insert _ 0
  · rw [set_list_values_of_not_appends (by simpa using he)]
    trivial

theorem values_inRange (σ : Schemas) (k : Kind) (es : List (String × Mixed)) :
    InRange 0 ((k.accessor K σ).values es) := by
  cases k with
  | scalar => exact inRange_map fun e i m => Write.noConfusion
  | list e => exact set_list_values_inRange e _
  | set o => exact inRange_map fun e i m => Write.noConfusion
  | dictionary o => exact inRange_map fun e i m => Write.noConfusion
  | link T => trivial
  | list_link T => trivial
  | set_link T => trivial
  | dictionary_link T => trivial

/-- The loops over a property that points to no embedded objects write in range. -/
theorem loop_inRange {σ : Schemas} {k : Kind} {c : Content Mixed Placed}
    (hc : k.Typed Placed.cls c)
    (hembedded : ∀ C ∈ objects c, (σ C.cls).is_embedded = false) :
    LoopInRange (k.accessor K σ) c := by
  have hnil : InRange 0 [] := trivial
  cases k with
  | list_link T =>
    -- only embedded objects are inserted at an index
    have hT : ∀ key C, (key, .object C) ∈ c → (σ T).is_embedded = false := by
      intro key C hC
      have hcls : C.cls = T := hc.pointsTo hC rfl
      rw [← hcls]
      exact hembedded C (mem_objects.mpr ⟨key, hC⟩)
    refine ⟨fun _ => hnil, fun i key C hC => ?_, fun key C hC => ?_⟩
    · show InRange 0 (if (σ T).is_embedded = true then _ else _)
      rw [hT key C hC]
      exact hnil
    · show InRange 0 (if (σ T).is_embedded = true then _ else _)
      rw [hT key C hC]
      trivial
  | set_link T =>
    refine ⟨fun _ => hnil, fun _ _ _ _ => hnil, fun key C hC => ?_⟩
    show InRange 0 (if (σ T).is_embedded = true then _ else _)
    split
    · exact hnil
    · trivial
  | dictionary_link T => exact ⟨fun _ => trivial, fun _ _ _ _ => trivial, fun _ _ _ => trivial⟩
  | link T => exact ⟨fun _ => hnil, fun _ _ _ _ => trivial, fun _ _ _ => hnil⟩
  | _ => exact ⟨fun _ => hnil, fun _ _ _ _ => hnil, fun _ _ _ => hnil⟩

section Keyed

variable {σ : Schemas} {S S' : Store} {A' : Objects} {v : Unmanaged} {P n : Placed}
  {p : String × Kind}

theorem Planned.writesInRange {A : Objects} (h : Planned σ A A' v P) (hσ : σ.WellFormed)
    (hc : v.Conforms σ) (hv : v.Keyed σ) (hn : n ∈ nodes P) :
    WritesInRange K σ n.row n.props := by
  intro q hq
  obtain ⟨name, es⟩ := q
  have hname : name ∈ (σ n.cls).properties.map Prod.fst := by
    rw [← ((h.fitting hσ hc).fits n hn).names]
    exact List.mem_map_of_mem (f := Prod.fst) hq
  obtain ⟨p, hp, rfl⟩ := List.mem_map.mp hname
  have hnodup : (n.props.map Prod.fst).Nodup := by
    rw [((h.fitting hσ hc).fits n hn).names]
    exact hσ.nodup n.cls
  have hcontent : n.content p.1 = es := by
    unfold Placed.content
    rw [lookup_of_mem hnodup hq]
    rfl
  show InRange 0 (((σ.kind n.row.table p.1).accessor K σ).values (scalars es)) ∧
    LoopInRange ((σ.kind n.row.table p.1).accessor K σ) es
  rw [h.placing.table n hn, hσ.kind hp, ← hcontent]
  refine ⟨values_inRange .., loop_inRange (h.typed hc hn hp) ?_⟩
  intro C hC
  -- embedded objects have no primary keys
  cases hembedded : (σ C.cls).is_embedded with
  | false => rfl
  | true =>
    have hC' : C ∈ nodes P := (objects_sublist hn p.1).subset hC
    exact absurd (Planned.key_eq_none_iff.mpr (hσ.embedded _ hembedded)) (hv _ (h.reached hC'))

/-- Lists that are added to are written by additions and insertions. -/
theorem Planned.appends_of_list {A : Objects} (h : Planned σ A A' v P) (hσ : σ.WellFormed)
    (hc : v.Conforms σ) (hn : n ∈ nodes P) (hp : p ∈ (σ n.cls).properties) (hk : p.2.Appends σ)
    (hshape : p.2.shape = .sequence) : ∀ w ∈ writesAt (n.row, p.1) (events K σ P), w.Appends := by
  intro w hw
  have hp' := h.property_stored hn hp
  have hallowed := h.writes_allowed hσ hc hp' w hw
  obtain ⟨n', hn', hrow, hown⟩ := h.exists_node_of_write hσ hc hp' hw
  have htyped := h.typed_of_same_row hc hn hn' hrow hp
  obtain ⟨name, k⟩ := p
  cases k with
  | list e =>
    change w ∈ ownWrites K σ (.list e) (n'.content name) at hown
    rw [ownWrites_of_target_none htyped rfl] at hown
    change w ∈ set_list_values e _ at hown
    rcases set_list_values_of_appends hk
      ((asked (n'.content name)).map fun d => K.serialize d.2) with hws | hws
    · rw [hws] at hown
      obtain ⟨m, -, rfl⟩ := List.mem_map.mp hown
      trivial
    · rw [hws] at hown
      obtain ⟨m, -, rfl⟩ := List.mem_map.mp hown
      trivial
  | list_link T =>
    -- what may be written to a list of links is an addition
    cases w with
    | add m => trivial
    | insert i m => trivial
    | _ => cases hallowed
  | scalar => cases hk
  | link T => cases hk
  | _ => cases hshape

/-- **Storing objects with primary keys does not raise**, whatever is in the store. -/
theorem exists_add_of_keyed (hσ : σ.WellFormed) (hS : Store.WellFormed σ S) (hc : v.Conforms σ)
    (hv : v.Keyed σ) : ∃ S' P, add K σ S v = some (S', P.row) ∧ Added K σ S S' v P := by
  obtain ⟨A', P, hplanned, hadd⟩ := exists_add (K := K) (σ := σ) v hS.objects
  have hrun := hplanned.exists_run hσ hc fun n hn p hp hshape hk => by
    apply exists_run_of_inRange (hplanned.appends_of_list hσ hc hn hp hk hshape)
    have hrange := inRange_events (K := K) (n.row, p.1) P
      fun n hn => hplanned.writesInRange hσ hc hv hn
    exact hrange.mono (Nat.zero_le _)
  obtain ⟨S', hS', -, hadded⟩ := hadd hrun
  exact ⟨S', P, hS', hadded⟩

end Keyed

/-! ## §3. The second time. -/

/-- **Nothing that is added to is given anything**, but for null pointers. -/
def Unmanaged.AddsNothing (σ : Schemas) (v : Unmanaged) : Prop :=
  ∀ u ∈ v.reached, ∀ p ∈ (σ u.cls).properties, p.2.Appends σ → ∀ e ∈ u.content p.1, e.2 = .null

theorem ownEntries_vector_link_eq_nil_iff {T : TableKey} {c : Content Mixed Placed}
    (hc : ∀ e ∈ c, PointsTo Placed.cls T e.2) (is_embedded : Bool) (i : Nat) :
    ownEntries (accessor_vector_link is_embedded) i c = [] ↔ ∀ e ∈ c, e.2 = .null := by
  induction c generalizing i with
  | nil => simp [ownEntries]
  | cons e c ih =>
    have hrest := ih (fun e he => hc e (List.mem_cons_of_mem _ he)) (i + 1)
    obtain ⟨key, s⟩ := e
    rw [List.forall_mem_cons]
    cases s with
    | null =>
      show [] ++ ownEntries _ (i + 1) c = [] ↔ _
      rw [List.nil_append, hrest]
      exact ⟨fun h => ⟨rfl, h⟩, fun h => h.2⟩
    | scalar m => exact (hc _ List.mem_cons_self).elim
    | object C =>
      constructor
      · intro h
        cases is_embedded <;> cases h
      · intro h
        cases h.1

/-- A list that is added to is written unless there is nothing in it. -/
theorem ownWrites_eq_nil_iff {σ : Schemas} {k : Kind} {c : Content Mixed Placed}
    (hc : k.Typed Placed.cls c) (hshape : k.shape = .sequence) (hk : k.Appends σ) :
    ownWrites K σ k c = [] ↔ ∀ e ∈ c, e.2 = .null := by
  cases k with
  | list e =>
    have hnil : ownWrites K σ (.list e) c = [] ↔ c = [] := by
      rw [ownWrites_of_target_none hc rfl]
      show set_list_values e ((asked c).map fun d => K.serialize d.2) = [] ↔ _
      rcases set_list_values_of_appends hk
        ((asked c).map fun d => K.serialize d.2) with hws | hws
      · rw [hws]
        simp [asked]
      · rw [hws]
        simp [asked]
    rw [hnil]
    constructor
    · rintro rfl
      exact fun e he => absurd he List.not_mem_nil
    · intro hnull
      rw [List.eq_nil_iff_forall_not_mem]
      intro a ha
      obtain ⟨m, rfl⟩ := hc a ha
      cases hnull _ ha
  | list_link T =>
    rw [ownWrites_of_target hc rfl]
    exact ownEntries_vector_link_eq_nil_iff (fun e he => (hc e he).2) _ 0
  | scalar => cases hk
  | link T => cases hk
  | _ => cases hshape

section Again

variable {σ : Schemas} {S S' : Store} {v : Unmanaged} {P n : Placed} {p : String × Kind}

/-- What is set as a whole is only set. -/
theorem Added.writes_of_set (h : Added K σ S S' v P) (hσ : σ.WellFormed) (hc : v.Conforms σ)
    (hn : n ∈ nodes P) (hp : p ∈ (σ n.cls).properties) (hshape : p.2.shape = .sequence)
    (hk : ¬ p.2.Appends σ) : ∀ w ∈ writesAt (n.row, p.1) (events K σ P), ∃ d, w = .set d := by
  intro w hw
  have hp' := h.property_stored hn hp
  obtain ⟨n', hn', hrow, hown⟩ := h.exists_node_of_write hσ hc hp' hw
  have htyped := h.typed_of_same_row hc hn hn' hrow hp
  rcases ownWrites_set_eq htyped hshape hk with hset | ⟨-, hnil⟩
  · rw [hset] at hown
    exact ⟨_, List.mem_singleton.mp hown⟩
  · rw [hnil] at hown
    cases hown

/-- **One column, the second time**: it changes if it is added to. -/
theorem Added.run_again_iff (h : Added K σ S S' v P) (hσ : σ.WellFormed) (hc : v.Conforms σ)
    (hS : Store.WellFormed σ S) (hn : n ∈ nodes P) (hp : p ∈ (σ n.cls).properties) :
    runWrites Write.apply (writesAt (n.row, p.1) (events K σ P)) (S'.cell n.row p.1)
        = some (S'.cell n.row p.1) ↔
      (p.2.shape = .sequence → p.2.Appends σ → writesAt (n.row, p.1) (events K σ P) = []) := by
  constructor
  · -- each write would make the list longer
    intro hrun hshape hk
    have hlength := length_of_appends (h.appends_of_list hσ hc hn hp hk hshape) hrun
    exact List.length_eq_zero_iff.mp (by omega)
  · intro hnil
    have hcell := h.cells n.row p.1
    cases hshape : p.2.shape with
    | sequence =>
      by_cases hk : p.2.Appends σ
      · rw [hnil hshape hk]
        rfl
      · exact run_set_again (h.writes_of_set hσ hc hn hp hshape hk) hcell
    | bag => exact run_set_insert_again (h.writes_of_bag hσ hc hn hp hshape) hcell
    | keyed =>
      have hstored := (h.wellFormed hσ hc hS).stored n.row p (h.property_stored hn hp)
      refine run_dictionary_insert_again (h.writes_of_keyed hσ hc hn hp hshape) ?_ hcell
      obtain ⟨name, k⟩ := p
      cases k with
      | dictionary o => exact hstored
      | dictionary_link T => exact hstored.2
      | _ => cases hshape

/-- The second `db::add` changes nothing if its writes change no column. -/
theorem Added.add_again_eq_iff (h : Added K σ S S' v P) (hv : v.Keyed σ) :
    add K σ S' v = some (S', P.row) ↔ ∀ x col,
      runWrites Write.apply (writesAt (x, col) (events K σ P)) (S'.cell x col)
        = some (S'.cell x col) := by
  have hwrites := @Store.writes_eq_some_iff S' S' (events K σ P)
  rw [h.add_again hv, Option.map_eq_some_iff]
  constructor
  · intro ⟨S'', hS'', heq⟩
    obtain ⟨rfl, -⟩ := Prod.mk.inj heq
    exact (hwrites.mp hS'').2
  · intro hcells
    exact ⟨S', hwrites.mpr ⟨rfl, hcells⟩, rfl⟩

/-- The elements of a set that is added to have no primary keys. -/
theorem Added.null_of_bag (h : Added K σ S S' v P) (hc : v.Conforms σ) (hv : v.Keyed σ)
    (hn : n ∈ nodes P) (hp : p ∈ (σ n.cls).properties) (hshape : p.2.shape = .bag)
    (hk : p.2.Appends σ) {key : String} {s : Slot Mixed Placed} (hs : (key, s) ∈ n.content p.1) :
    s = .null := by
  have htyped := h.typed hc hn hp
  obtain ⟨name, k⟩ := p
  cases k with
  | set_link T =>
    cases s with
    | null => rfl
    | scalar m => exact ((htyped _ hs).2).elim
    | object C =>
      have hcls : C.cls = T := (htyped _ hs).2
      have hnone : (Accessors.forget C).key σ = none := by
        rw [Planned.key_eq_none_iff, hcls]
        exact hk
      exact absurd hnone (hv _ (h.reached (child_mem_nodes hn hs)))
  | set o => cases hk
  | _ => cases hshape

/-- If no column changes, there is nothing to add. -/
theorem Added.addsNothing_of_run (h : Added K σ S S' v P) (hσ : σ.WellFormed) (hc : v.Conforms σ)
    (hS : Store.WellFormed σ S) (hv : v.Keyed σ)
    (hcells : ∀ x col, runWrites Write.apply (writesAt (x, col) (events K σ P)) (S'.cell x col)
      = some (S'.cell x col)) : v.AddsNothing σ := by
  intro u hu p hp hk e he
  obtain ⟨n, hn, rfl⟩ := h.exists_node hu
  rw [forget_cls] at hp
  obtain ⟨s, hs, hes⟩ := exists_of_mem_forget_content (show (e.1, e.2) ∈ _ from he)
  have hnull : s = .null := by
    cases hshape : p.2.shape with
    | sequence =>
      have hnil := (h.run_again_iff hσ hc hS hn hp).mp (hcells n.row p.1) hshape hk
      have hsub := h.own_mem (K := K) hσ hc hn hp
      rw [hnil, List.sublist_nil] at hsub
      exact (ownWrites_eq_nil_iff (h.typed hc hn hp) hshape hk).mp hsub _ hs
    | bag => exact h.null_of_bag hc hv hn hp hshape hk hs
    | keyed => exact absurd hshape hk.not_keyed
  rw [hes, hnull]
  rfl

/-- If there is nothing to add, no column changes. -/
theorem Added.run_of_addsNothing (h : Added K σ S S' v P) (hσ : σ.WellFormed) (hc : v.Conforms σ)
    (hS : Store.WellFormed σ S) (hnothing : v.AddsNothing σ) (x : Ref) (col : String) :
    runWrites Write.apply (writesAt (x, col) (events K σ P)) (S'.cell x col)
      = some (S'.cell x col) := by
  rcases h.column_or_no_writes hσ hc x col with ⟨n, hn, p, hp, rfl, rfl⟩ | hnone
  · rw [h.run_again_iff hσ hc hS hn hp]
    intro hshape hk
    apply h.no_writes hσ hc hn hp
    intro n' hn' hrow
    have hp' := h.property_of_same_row hn hn' hrow hp
    rw [ownWrites_eq_nil_iff (h.typed hc hn' hp') hshape hk]
    intro e he
    have hnull := hnothing _ (h.reached hn') p (by rw [forget_cls]; exact hp') hk _
      (mem_forget_content (show (e.1, e.2) ∈ _ from he))
    obtain ⟨key, s⟩ := e
    cases s with
    | null => rfl
    | scalar m => cases hnull
    | object C => cases hnull
  · rw [hnone]
    rfl

/-- **When the second `db::add` changes nothing.** -/
theorem Added.add_again_iff (h : Added K σ S S' v P) (hσ : σ.WellFormed) (hc : v.Conforms σ)
    (hS : Store.WellFormed σ S) (hv : v.Keyed σ) :
    add K σ S' v = some (S', P.row) ↔ v.AddsNothing σ := by
  rw [h.add_again_eq_iff hv]
  constructor
  · exact h.addsNothing_of_run hσ hc hS hv
  · exact h.run_of_addsNothing hσ hc hS

end Again

/-! ## §4. Adding an object with an existing primary key. -/

/-- **`db::add` as an idempotent overwrite.**  After it the stored object holds
the unmanaged one exactly under the conditions on the two; and adding an object
that reaches only objects with primary keys never raises, and changes nothing
the second time exactly where nothing is added to a list. -/
theorem add_overwrites_iff {σ : Schemas} {S : Store} {v : Unmanaged} (hK : K.Settles)
    (hσ : σ.WellFormed) (hS : Store.WellFormed σ S) (hc : v.Conforms σ) :
    ((∃ S' x, add K σ S v = some (S', x) ∧ Holds σ S' x v) ↔
      v.Storable σ ∧ v.Absorbable σ S ∧ v.Kept K σ S) ∧
    (v.Keyed σ → ∃ S' x, add K σ S v = some (S', x) ∧
      (add K σ S' v = some (S', x) ↔ v.AddsNothing σ)) := by
  refine ⟨add_holds_iff hK hσ hS hc, fun hv => ?_⟩
  obtain ⟨S', P, hadd, hadded⟩ := exists_add_of_keyed hσ hS hc hv
  exact ⟨S', P.row, hadd, hadded.add_again_iff hσ hc hS hv⟩

/-- A class with a primary key and a list of booleans. -/
def flagSchemas : Schemas := fun _ =>
  { primary_key := some "_id"
    is_embedded := false
    properties := [("_id", .scalar ⟨.int, false⟩), ("flags", .list ⟨.bool, false⟩)] }

def flagged (flags : List Bool) : Unmanaged :=
  .node ⟨0⟩ [("_id", [("", .scalar (.int 1))]), ("flags", flags.map fun b => ("", .scalar (.bool b)))]

theorem flagSchemas_wellFormed : flagSchemas.WellFormed := by
  refine ⟨?_, ?_, ?_, ?_⟩
  · intro t
    show ["_id", "flags"].Nodup
    decide
  · intro t name h
    cases h
    exact ⟨_, List.mem_cons_self⟩
  · intro t h
    cases h
  · intro t name T h
    simp [flagSchemas] at h

theorem flagged_conforms (flags : List Bool) : (flagged flags).Conforms flagSchemas := by
  have hentries : Unmanaged.reachedEntries (flags.map fun b => ("", .scalar (.bool b))) = [] := by
    induction flags with
    | nil => rfl
    | cons b flags ih => exact ih
  have hreached : (flagged flags).reached = [flagged flags] := by
    show flagged flags :: (Unmanaged.reachedEntries (flags.map _) ++ []) = _
    rw [hentries]
    rfl
  refine ⟨fun u hu => ?_, fun u hu t low high hkey => ?_⟩
  · rw [hreached] at hu
    rw [List.mem_singleton.mp hu]
    refine ⟨rfl, fun p hp => ?_⟩
    rcases List.mem_cons.mp hp with rfl | hp
    · exact ⟨.int 1, rfl⟩
    · rw [List.mem_singleton.mp hp]
      intro e he
      obtain ⟨b, -, rfl⟩ := List.mem_map.mp he
      exact ⟨.bool b, rfl⟩
  · rw [hreached] at hu
    rw [List.mem_singleton.mp hu] at hkey
    cases hkey

theorem add_overwrites_empty :
    ((∃ S' x, add integer_text flagSchemas (Store.empty flagSchemas) (flagged [true]) = some (S', x) ∧
        Holds flagSchemas S' x (flagged [true])) ↔
      (flagged [true]).Storable flagSchemas ∧
        (flagged [true]).Absorbable flagSchemas (Store.empty flagSchemas) ∧
        (flagged [true]).Kept integer_text flagSchemas (Store.empty flagSchemas)) ∧
    ((flagged [true]).Keyed flagSchemas → ∃ S' x,
      add integer_text flagSchemas (Store.empty flagSchemas) (flagged [true]) = some (S', x) ∧
        (add integer_text flagSchemas S' (flagged [true]) = some (S', x) ↔
          (flagged [true]).AddsNothing flagSchemas)) :=
  add_overwrites_iff integer_text_settles flagSchemas_wellFormed
    (Store.empty_wellFormed flagSchemas_wellFormed) (flagged_conforms [true])

/-- **A list of booleans is added to**, not replaced, and grows each time. -/
theorem add_appends_to_list : ∃ S x S',
    add integer_text flagSchemas (Store.empty flagSchemas) (flagged [true]) = some (S, x) ∧
    add integer_text flagSchemas S (flagged [false]) = some (S', x) ∧
    S'.cell x "flags" = [("", .bool true), ("", .bool false)] ∧
    ¬ Holds flagSchemas S' x (flagged [false]) ∧
    add integer_text flagSchemas S (flagged [true]) ≠ some (S, x) := by
  refine ⟨_, _, _, rfl, rfl, rfl, ?_, ?_⟩
  · intro h
    have hmatch := h.content flagSchemas_wellFormed (p := ("flags", .list ⟨.bool, false⟩))
      (List.mem_cons_of_mem _ List.mem_cons_self)
    have hlength : 2 = 1 := hmatch.length_eq fun h => by cases h
    cases hlength
  · intro h
    have hcells := congrArg (Option.map fun r => r.1.cell r.2 "flags") h
    have hflags : some [("", Mixed.bool true), ("", .bool true)] = some [("", .bool true)] := hcells
    cases hflags

end RealmCpp.Accessors
