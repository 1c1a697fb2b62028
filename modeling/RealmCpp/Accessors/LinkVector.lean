/-
  RealmCpp.Accessors.LinkVector
  ─────────────────────────────
  **STORING A VECTOR OF POINTERS IN AN EMPTY LIST.**

  The loop skips null pointers.  What is added goes to the end of the list, but
  an embedded object is inserted at the index it has in the vector, which is beyond
  the end of the list once a null pointer has been skipped.

    • `LinkVector` — a call on an empty list,
    • `run_embedded` — when the insertions of the loop are in range,
    • `reentrant_eq_nil_iff` — when nothing else is written to the list,
    • `vector_link_set_iff` — when the list ends as it should.
-/
import RealmCpp.Accessors.Idempotent

namespace RealmCpp.Accessors

open RealmCpp.Library
open RealmCpp.Core

/-! ## §1. The list. -/

/-- The links to the objects of a vector, in order. -/
def links (c : Content Mixed Placed) : Cell := (objects c).map fun C => ("", C.row.link)

/-- No null pointer stands before one that is not null. -/
def NullsLast {ν : Type} : Content Mixed ν → Prop
  | [] => True
  | (_, .null) :: c => objects c = []
  | _ :: c => NullsLast c

theorem nullsLast_of_objects_eq_nil {ν : Type} {c : Content Mixed ν} (h : objects c = []) :
    NullsLast c := by
  induction c with
  | nil => trivial
  | cons e c ih =>
    obtain ⟨key, s⟩ := e
    cases s with
    | null => exact h
    | scalar m => exact ih h
    | object y => cases h

/-- The rows of the objects do not matter. -/
theorem nullsLast_mapObjects {ν ν' : Type} (f : ν → ν') (c : Content Mixed ν) :
    NullsLast (c.mapObjects f) ↔ NullsLast c := by
  induction c with
  | nil => exact Iff.rfl
  | cons e c ih =>
    obtain ⟨key, s⟩ := e
    cases s with
    | null =>
      show objects (Content.mapObjects f c) = [] ↔ objects c = []
      rw [objects_mapObjects, List.map_eq_nil_iff]
    | scalar m => exact ih
    | object y => exact ih

/-! ## §2. What the loop itself writes to the list. -/

section Loop

variable {T : TableKey} {c : Content Mixed Placed}

/-- One write for each object. -/
theorem length_ownEntries (hc : ∀ e ∈ c, PointsTo Placed.cls T e.2) (is_embedded : Bool) (i : Nat) :
    (ownEntries (accessor_vector_link is_embedded) i c).length = (objects c).length := by
  induction c generalizing i with
  | nil => rfl
  | cons e c ih =>
    have hrest := ih (fun e he => hc e (List.mem_cons_of_mem _ he)) (i + 1)
    obtain ⟨key, s⟩ := e
    cases s with
    | null => exact hrest
    | scalar m => exact (hc _ List.mem_cons_self).elim
    | object C =>
      show (_ ++ _ ++ ownEntries _ (i + 1) c).length = (objects c).length + 1
      rw [List.length_append, hrest]
      cases is_embedded <;> simp [accessor_vector_link] <;> omega

/-- What is not embedded is added to the list, wherever the null pointers are. -/
theorem run_not_embedded (hc : ∀ e ∈ c, PointsTo Placed.cls T e.2) (d : Cell) (i : Nat) :
    runWrites Write.apply (ownEntries (accessor_vector_link false) i c) d
      = some (d ++ links c) := by
  induction c generalizing d i with
  | nil => simp [ownEntries, runWrites, links, objects]
  | cons e c ih =>
    have hrest := fun d => ih (fun e he => hc e (List.mem_cons_of_mem _ he)) d (i + 1)
    obtain ⟨key, s⟩ := e
    cases s with
    | null => exact hrest d
    | scalar m => exact (hc _ List.mem_cons_self).elim
    | object C =>
      show runWrites Write.apply (ownEntries (accessor_vector_link false) (i + 1) c)
        (d ++ [("", C.row.link)]) = _
      rw [hrest, List.append_assoc]
      rfl

/-- The list gets longer with each write. -/
theorem appends_ownEntries (is_embedded : Bool) (i : Nat) :
    ∀ w ∈ ownEntries (accessor_vector_link is_embedded) i c, w.Appends := by
  intro w hw
  rcases mem_ownEntries hw with ⟨key, -, hnull⟩ | ⟨j, key, C, -, hobject⟩
  · cases hnull
  · cases is_embedded <;> simp [accessor_vector_link] at hobject <;> subst hobject <;> trivial

/-- **The insertions of the loop**: the index is never below the length of the list,
and is beyond it from the first null pointer on. -/
theorem run_embedded (hc : ∀ e ∈ c, PointsTo Placed.cls T e.2) {d : Cell} {i : Nat}
    (hi : d.length ≤ i) :
    (objects c = [] ∨ (d.length = i ∧ NullsLast c) →
      runWrites Write.apply (ownEntries (accessor_vector_link true) i c) d
        = some (d ++ links c)) ∧
    (∀ d', runWrites Write.apply (ownEntries (accessor_vector_link true) i c) d = some d' →
      objects c = [] ∨ (d.length = i ∧ NullsLast c)) := by
  induction c generalizing d i with
  | nil => simp [ownEntries, runWrites, links, objects]
  | cons e c ih =>
    have hc' : ∀ e ∈ c, PointsTo Placed.cls T e.2 := fun e he => hc e (List.mem_cons_of_mem _ he)
    obtain ⟨key, s⟩ := e
    cases s with
    | null =>
      -- the index goes ahead of the list
      have hahead := ih (d := d) (i := i + 1) hc' (by omega)
      show (objects c = [] ∨ (d.length = i ∧ objects c = []) → runWrites Write.apply _ d = _) ∧ _
      refine ⟨fun h => hahead.1 (.inl (by tauto)), fun d' hd' => .inl ?_⟩
      rcases hahead.2 d' hd' with h | ⟨h, -⟩
      · exact h
      · omega
    | scalar m => exact (hc _ List.mem_cons_self).elim
    | object C =>
      show (_ → (if i ≤ d.length then some (d.insertIdx i ("", C.row.link)) else none).bind _ = _) ∧
        ∀ d', (if i ≤ d.length then some (d.insertIdx i ("", C.row.link)) else none).bind _ = _ → _
      by_cases hlength : d.length = i
      · -- at the end of the list an insertion is an addition
        have hinsert : d.insertIdx i ("", C.row.link) = d ++ [("", C.row.link)] := by
          rw [← hlength, List.insertIdx_length_self]
        have hnext := ih (d := d ++ [("", C.row.link)]) (i := i + 1) hc' (by simp; omega)
        rw [if_pos (by omega), hinsert]
        constructor
        · rintro (h | ⟨-, h⟩)
          · cases h
          · have hrun := hnext.1 (.inr ⟨by simp; omega, h⟩)
            rw [List.append_assoc] at hrun
            exact hrun
        · intro d' hd'
          refine .inr ⟨hlength, ?_⟩
          rcases hnext.2 d' hd' with h | ⟨-, h⟩
          · exact nullsLast_of_objects_eq_nil (c := c) h
          · exact h
      · -- beyond its end it raises
        rw [if_neg (by omega)]
        refine ⟨?_, fun d' hd' => by cases hd'⟩
        rintro (h | ⟨h, -⟩)
        · cases h
        · exact absurd h hlength

end Loop

/-! ## §3. A call. -/

/-- **`accessor<std::vector<T*>>::set` on an empty list** of a stored object. -/
structure LinkVector where
  K : DecimalText
  σ : Schemas
  S : Store
  x : Ref
  name : String
  T : TableKey
  value : Content Mixed Unmanaged
  schemas : σ.WellFormed
  objects : Objects.WellFormed S.toObjects
  property : (name, Kind.list_link T) ∈ (σ x.table).properties
  live : S.live x = true
  empty : S.cell x name = []
  typed : (Kind.list_link T).Typed Unmanaged.cls value
  shaped : ∀ u ∈ Unmanaged.reachedEntries value, u.Shaped σ

namespace LinkVector

variable (L : LinkVector)

def accessor : Accessor := (Kind.list_link L.T).accessor L.K L.σ

/-- The store after the call; none where it raises. -/
def set : Option Store := setEntries L.K L.σ L.accessor L.x L.name 0 L.value L.S

/-- The entries, each object with the row that it is stored in. -/
def placed : Content Mixed Placed := (placeEntries L.σ L.value L.S.toObjects).2

/-- All writes of the call, in order. -/
def writes : List Event := eventsEntries L.K L.σ L.accessor L.x L.name 0 L.placed

/-- What is written to the list while the objects themselves are stored. -/
def reentrant : List Write :=
  writesAt (L.x, L.name) ((nodesEntries L.placed).flatMap (ownEvents L.K L.σ))

theorem placing : Placing L.σ L.S.toObjects (placeEntries L.σ L.value L.S.toObjects).1
    (nodesEntries L.placed) :=
  placing_entries L.σ L.value L.S.toObjects L.objects

theorem reached {n : Placed} (hn : n ∈ nodesEntries L.placed) :
    forget n ∈ Unmanaged.reachedEntries L.value := by
  rw [← forget_placeEntries L.σ L.value L.S.toObjects, ← nodesEntries_map_forget]
  exact List.mem_map_of_mem hn

theorem pointsTo : ∀ e ∈ L.placed, PointsTo Placed.cls L.T e.2 := by
  have htyped := L.typed
  rw [← forget_placeEntries L.σ L.value L.S.toObjects, forgetEntries_eq] at htyped
  have hplaced := htyped.of_mapObjects
  simp only [forget_cls] at hplaced
  exact fun e he => (hplaced e he).2

theorem kind_eq : L.σ.kind L.x.table L.name = .list_link L.T := L.schemas.kind L.property

/-- What an object stored in the row of the owner writes to the list. -/
theorem writesAt_node {n : Placed} (hn : n ∈ nodesEntries L.placed) (hrow : n.row = L.x) :
    (Kind.list_link L.T).Typed Placed.cls (n.content L.name) ∧
      writesAt (L.x, L.name) (ownEvents L.K L.σ n)
        = ownWrites L.K L.σ (.list_link L.T) (n.content L.name) := by
  have hcls : n.cls = L.x.table := by rw [← L.placing.table n hn, hrow]
  have hshaped := L.shaped _ (L.reached hn)
  have hproperty : (L.name, Kind.list_link L.T) ∈ (L.σ n.cls).properties := by
    rw [hcls]
    exact L.property
  constructor
  · have htyped := hshaped.typed (L.name, .list_link L.T) (by rw [forget_cls]; exact hproperty)
    rw [forget_content] at htyped
    have hplaced := htyped.of_mapObjects
    simp only [forget_cls] at hplaced
    exact hplaced
  · have hnames := hshaped.names
    rw [forget_props, List.map_map, forget_cls] at hnames
    have hfits : n.Fits L.σ := ⟨L.placing.table n hn, hnames⟩
    rw [← hrow, writesAt_ownEvents_self hfits (L.schemas.nodup n.cls)
      (List.mem_map_of_mem (f := Prod.fst) hproperty), hcls, L.kind_eq]

/-- **An object behind the pointers is stored in the owner itself**, if it has the
primary key of the owner. -/
theorem row_eq_iff {n : Placed} (hn : n ∈ nodesEntries L.placed) :
    n.row = L.x ↔ ∃ m, (forget n).key L.σ = some (L.x.table, m) ∧
      L.S.index L.x.table m = some L.x.key := by
  have htable := L.placing.table n hn
  constructor
  · intro hrow
    cases hkey : (forget n).key L.σ with
    | none =>
      -- an object without a primary key is not stored in a row that was live
      have hpk : (L.σ L.x.table).primary_key = none := by
        rw [← hrow, htable, ← forget_cls]
        exact Option.map_eq_none_iff.mp hkey
      have hcount := L.placing.count L.x hpk
      have hpos : 0 < (nodesEntries L.placed).countP fun n => n.row = L.x :=
        List.countP_pos_iff.mpr ⟨n, hn, by simpa using hrow⟩
      have hle : ∀ b : Bool, b.toNat ≤ 1 := fun b => by cases b <;> decide
      have hone := hle ((placeEntries L.σ L.value L.S.toObjects).1.live L.x)
      rw [L.live] at hcount
      simp only [Bool.toNat_true] at hcount
      omega
    | some key =>
      obtain ⟨t, m⟩ := key
      have ht : t = L.x.table := by
        rw [← Unmanaged.key_cls hkey, forget_cls, ← htable, hrow]
      subst ht
      have hindex := L.placing.row_index n hn _ m hkey
      rw [hrow] at hindex
      refine ⟨m, rfl, ?_⟩
      -- a key that is new is one of a row that was not live
      rcases L.placing.new_index _ m _ hindex with hold | ⟨hlive, -⟩
      · exact hold
      · exact absurd L.live (by rw [show L.x = ⟨L.x.table, L.x.key⟩ from rfl, hlive]; simp)
  · rintro ⟨m, hkey, hindex⟩
    have hnew := L.placing.index _ m _ hindex
    rw [L.placing.row_index n hn _ m hkey] at hnew
    have hcls : n.row.table = L.x.table := by
      rw [htable, ← forget_cls, Unmanaged.key_cls hkey]
    cases hx : n.row
    rw [hx] at hnew hcls
    cases hcls
    cases hnew
    rfl

/-- Nothing behind the pointers is the owner again, with pointers in the same list. -/
def NotReentered : Prop :=
  ∀ u ∈ Unmanaged.reachedEntries L.value, ∀ m, u.key L.σ = some (L.x.table, m) →
    L.S.index L.x.table m = some L.x.key → ∀ e ∈ u.content L.name, e.2 = .null

theorem reentrant_eq_nil_iff : L.reentrant = [] ↔ L.NotReentered := by
  have hnodes : L.reentrant = [] ↔
      ∀ n ∈ nodesEntries L.placed, writesAt (L.x, L.name) (ownEvents L.K L.σ n) = [] := by
    unfold reentrant
    simp only [List.eq_nil_iff_forall_not_mem, mem_writesAt, List.mem_flatMap]
    grind
  -- an object writes to the list only from the row of the owner
  have hnode : ∀ n ∈ nodesEntries L.placed,
      (writesAt (L.x, L.name) (ownEvents L.K L.σ n) = [] ↔
        (n.row = L.x → ∀ e ∈ (forget n).content L.name, e.2 = .null)) := by
    intro n hn
    by_cases hrow : n.row = L.x
    · obtain ⟨htyped, hwrites⟩ := L.writesAt_node hn hrow
      rw [hwrites, ownWrites_eq_nil_iff htyped rfl trivial, forget_content]
      simp only [hrow, forall_const, Content.mapObjects, List.forall_mem_map]
      refine forall₂_congr fun e _ => ?_
      cases e.2 <;> simp [Slot.map]
    · simp [hrow, writesAt_ownEvents_of_row_ne L.σ hrow]
  rw [hnodes]
  have hvalue : Unmanaged.reachedEntries L.value = (nodesEntries L.placed).map forget := by
    rw [nodesEntries_map_forget]
    exact congrArg _ (forget_placeEntries L.σ L.value L.S.toObjects).symm
  unfold NotReentered
  rw [hvalue, List.forall_mem_map]
  refine forall₂_congr fun n hn => ?_
  rw [hnode n hn, L.row_eq_iff hn]
  constructor
  · intro h m hkey hindex
    exact h ⟨m, hkey, hindex⟩
  · rintro h ⟨m, hkey, hindex⟩
    exact h m hkey hindex

/-- **The writes to the list**: those of the loop, in order, and the others. -/
theorem writesAt_perm_loop : (writesAt (L.x, L.name) L.writes).Perm
    (ownEntries L.accessor 0 L.placed ++ L.reentrant) := by
  have hperm := writesAt_perm (L.x, L.name)
    (eventsEntries_perm (K := L.K) L.σ L.accessor L.x L.name 0 L.placed)
  rw [writesAt_append, writesAt_journal_self] at hperm
  exact hperm

theorem writesAt_loop (h : L.reentrant = []) :
    writesAt (L.x, L.name) L.writes = ownEntries L.accessor 0 L.placed := by
  have hperm := L.writesAt_perm_loop
  rw [h, List.append_nil] at hperm
  -- they also stand in order, and nothing else does
  have hsub := writesAt_sublist (L.x, L.name)
    (ownEntries_sublist (K := L.K) L.σ L.accessor L.x L.name 0 L.placed)
  rw [writesAt_journal_self] at hsub
  exact (hsub.eq_of_length hperm.length_eq.symm).symm

/-- All of them make the list longer. -/
theorem appends : ∀ w ∈ writesAt (L.x, L.name) L.writes, w.Appends := by
  intro w hw
  rcases List.mem_append.mp (L.writesAt_perm_loop.mem_iff.mp hw) with hw | hw
  · exact appends_ownEntries _ 0 w hw
  · obtain ⟨n, hn, hmem⟩ := List.mem_flatMap.mp (mem_writesAt.mp hw)
    by_cases hrow : n.row = L.x
    · obtain ⟨htyped, hwrites⟩ := L.writesAt_node hn hrow
      have hmem := mem_writesAt.mpr hmem
      rw [hwrites, ownWrites_of_target htyped rfl] at hmem
      exact appends_ownEntries _ 0 w hmem
    · have hmem := mem_writesAt.mpr hmem
      rw [writesAt_ownEvents_of_row_ne L.σ hrow] at hmem
      cases hmem

/-! ## §4. When the list ends as it should. -/

/-- No insertion into the list is beyond its end, and what the writes to it leave is
one link for each pointer that is not null, in order. -/
def ListCorrect : Prop :=
  runWrites Write.apply (writesAt (L.x, L.name) L.writes) [] = some (links L.placed)

/-- The call returns, and that is the list. -/
def Correct : Prop := ∃ S', L.set = some S' ∧ S'.cell L.x L.name = links L.placed

/-- The writes to all other columns are in range. -/
def OthersInRange : Prop :=
  ∀ y col, (y, col) ≠ (L.x, L.name) →
    ∃ c, runWrites Write.apply (writesAt (y, col) L.writes) (L.S.cell y col) = some c

/-- **The list, by itself**, ends as it should. -/
theorem run_list_iff : L.ListCorrect ↔
    ((L.σ L.T).is_embedded = true → NullsLast L.value) ∧ L.NotReentered := by
  unfold ListCorrect
  have hnulls : NullsLast L.placed ↔ NullsLast L.value := by
    rw [← forget_placeEntries L.σ L.value L.S.toObjects, forgetEntries_eq, nullsLast_mapObjects]
    exact Iff.rfl
  rw [← reentrant_eq_nil_iff, ← hnulls]
  constructor
  · intro hrun
    -- the length of the list leaves no room for other writes
    have hlength := length_of_appends L.appends hrun
    have hperm := L.writesAt_perm_loop.length_eq
    have hown := length_ownEntries L.pointsTo (L.σ L.T).is_embedded 0
    have hreentrant : L.reentrant = [] := by
      rw [← List.length_eq_zero_iff]
      unfold links at hlength
      rw [List.length_map, List.length_nil, hperm, List.length_append] at hlength
      change (ownEntries L.accessor 0 L.placed).length = _ at hown
      omega
    refine ⟨fun hembedded => ?_, hreentrant⟩
    rw [L.writesAt_loop hreentrant] at hrun
    change runWrites Write.apply (ownEntries (accessor_vector_link (L.σ L.T).is_embedded) 0 _) [] = _
      at hrun
    rw [hembedded] at hrun
    rcases (run_embedded (d := []) L.pointsTo (Nat.le_refl 0)).2 _ hrun with h | ⟨-, h⟩
    · exact nullsLast_of_objects_eq_nil h
    · exact h
  · rintro ⟨hembedded, hreentrant⟩
    rw [L.writesAt_loop hreentrant]
    show runWrites Write.apply (ownEntries (accessor_vector_link (L.σ L.T).is_embedded) 0 _) [] = _
    cases h : (L.σ L.T).is_embedded with
    | true =>
      exact (run_embedded (d := []) L.pointsTo (Nat.le_refl 0)).1 (.inr ⟨rfl, hembedded h⟩)
    | false => exact run_not_embedded L.pointsTo [] 0

end LinkVector

/-- The call returns with the list just where nothing else keeps it from returning. -/
theorem LinkVector.correct_iff (L : LinkVector) : L.Correct ↔ L.ListCorrect ∧ L.OthersInRange := by
  have hset : L.set = (L.S.withObjects (placeEntries L.σ L.value L.S.toObjects).1).writes
      L.writes := setEntries_eq L.σ L.accessor L.x L.name 0 L.value L.S
  unfold LinkVector.ListCorrect
  rw [← L.empty]
  constructor
  · rintro ⟨S', hS', hlinks⟩
    rw [hset] at hS'
    have hcells := (Store.writes_eq_some_iff.mp hS').2
    rw [← hlinks]
    exact ⟨hcells L.x L.name, fun y col _ => ⟨_, hcells y col⟩⟩
  · rintro ⟨hlist, hothers⟩
    obtain ⟨S', hS'⟩ : ∃ S', (L.S.withObjects (placeEntries L.σ L.value L.S.toObjects).1).writes
        L.writes = some S' := by
      rw [Store.exists_writes_iff]
      intro y col
      -- the list is one column, and the others are taken to be in range
      by_cases hcell : (y, col) = (L.x, L.name)
      · cases hcell
        exact ⟨_, hlist⟩
      · exact hothers y col hcell
    refine ⟨S', hset.trans hS', ?_⟩
    have hcell := (Store.writes_eq_some_iff.mp hS').2 L.x L.name
    exact Option.some.inj (hcell.symm.trans hlist)

/-- **Exactly when a vector of pointers is stored as it should be**: an embedded
object does not come after a null pointer, and nothing else is written to the list.
The call then returns, if the objects themselves can be stored. -/
theorem vector_link_set_iff (L : LinkVector) :
    (L.ListCorrect ↔ ((L.σ L.T).is_embedded = true → NullsLast L.value) ∧ L.NotReentered) ∧
      (L.Correct ↔ L.ListCorrect ∧ L.OthersInRange) :=
  ⟨L.run_list_iff, L.correct_iff⟩

/-- A class of owners, and the embedded class of their addresses. -/
def addressSchemas : Schemas := fun t =>
  if t = ⟨0⟩ then ⟨none, false, [("addresses", .list_link ⟨1⟩)]⟩ else ⟨none, true, []⟩

/-- A null pointer and an address, for a new owner. -/
def nullFirst : LinkVector where
  K := integer_text
  σ := addressSchemas
  S :=
    { live := fun x => x == ⟨⟨0⟩, ⟨0⟩⟩
      next := fun _ => 1
      index := fun _ _ => none
      cells := fun _ => [] }
  x := ⟨⟨0⟩, ⟨0⟩⟩
  name := "addresses"
  T := ⟨1⟩
  value := [("", .null), ("", .object (.node ⟨1⟩ []))]
  schemas := by
    have hcases : ∀ t, (addressSchemas t).primary_key = none ∧
        ((addressSchemas t).properties = [("addresses", .list_link ⟨1⟩)] ∨
          (addressSchemas t).properties = []) := by
      intro t
      unfold addressSchemas
      split <;> simp
    refine ⟨fun t => ?_, fun t name h => ?_, fun t _ => (hcases t).1, fun t name T h => ?_⟩
    · rcases (hcases t).2 with h | h <;> rw [h] <;> simp
    · rw [(hcases t).1] at h
      cases h
    · rcases (hcases t).2 with heq | heq <;> rw [heq] at h <;> simp at h
  objects := by
    refine ⟨fun x hx => ?_, fun t m k h => ?_, fun t m m' k h => ?_⟩
    · rw [eq_of_beq hx]
      exact Nat.zero_lt_one
    · cases h
    · cases h
  property := by simp [addressSchemas]
  live := rfl
  empty := rfl
  typed := by simp [Kind.Typed, PointsTo, Unmanaged.cls]
  shaped := by
    intro u hu
    rw [List.mem_singleton.mp hu]
    exact ⟨rfl, fun p hp => absurd hp List.not_mem_nil⟩

/-- **The address is inserted at the index 1 of an empty list.** -/
theorem address_after_null :
    writesAt (nullFirst.x, nullFirst.name) nullFirst.writes = [.insert 1 (.link ⟨1⟩ ⟨1⟩)] ∧
      nullFirst.set = none ∧ ¬ nullFirst.ListCorrect ∧ ¬ nullFirst.Correct := by
  have hset : nullFirst.set = none := rfl
  refine ⟨rfl, hset, fun hlist => ?_, ?_⟩
  · -- there is no list that the insertion leaves
    have hnone : runWrites Write.apply (writesAt (nullFirst.x, nullFirst.name) nullFirst.writes) []
        = none := rfl
    unfold LinkVector.ListCorrect at hlist
    rw [hnone] at hlist
    cases hlist
  · rintro ⟨S', hS', -⟩
    rw [hset] at hS'
    cases hS'

end RealmCpp.Accessors
