/-
  RealmCpp.Accessors.Nodes
  ────────────────────────
  **THE JOURNAL, OBJECT BY OBJECT.**

  The journal of a placed object consists of what is written for each object of
  its tree.  The writes for one object stay in order, but those of the objects
  behind its pointers come in between.

    • `nodes` — the objects of a placed tree, `ownWrites` — what is written for one,
    • `events_perm` — the journal is made of the writes for the nodes,
    • `ownEvents_sublist` — those for one node are in it in order,
    • `writesAt_perm_nodes` — the writes to one column of one row.
-/
import RealmCpp.Accessors.Placement

namespace RealmCpp.Accessors

open RealmCpp.Library
open RealmCpp.Core

variable {K : DecimalText}

/-! ## §1. Nodes. -/

mutual

/-- The objects of a placed tree. -/
def nodes : Placed → List Placed
  | .node x t ps => .node x t ps :: nodesProperties ps
termination_by structural P => P

def nodesProperties : List (String × List (String × Slot Mixed Placed)) → List Placed
  | [] => []
  | (_, es) :: ps => nodesEntries es ++ nodesProperties ps
termination_by structural ps => ps

def nodesEntries : List (String × Slot Mixed Placed) → List Placed
  | [] => []
  | (_, .null) :: es => nodesEntries es
  | (_, .scalar _) :: es => nodesEntries es
  | (_, .object P) :: es => nodes P ++ nodesEntries es
termination_by structural es => es

end

theorem self_mem_nodes (P : Placed) : P ∈ nodes P := by
  cases P
  exact List.mem_cons_self

mutual

/-- The objects behind a node come after it, as they are in its own tree. -/
theorem nodes_sublist {n : Placed} : ∀ P : Placed, n ∈ nodes P → (nodes n).Sublist (nodes P)
  | .node x t ps, h => by
      rcases List.mem_cons.mp h with h | h
      · rw [h]
      · exact .cons _ (nodesProperties_sublist ps h)
termination_by structural P => P

theorem nodesProperties_sublist {n : Placed} :
    ∀ ps : List (String × List (String × Slot Mixed Placed)), n ∈ nodesProperties ps →
      (nodes n).Sublist (nodesProperties ps)
  | [], h => by cases h
  | (_, es) :: ps, h => by
      rcases List.mem_append.mp h with h | h
      · exact (nodesEntries_sublist es h).trans (List.sublist_append_left _ _)
      · exact (nodesProperties_sublist ps h).trans (List.sublist_append_right _ _)
termination_by structural ps => ps

theorem nodesEntries_sublist {n : Placed} :
    ∀ es : List (String × Slot Mixed Placed), n ∈ nodesEntries es →
      (nodes n).Sublist (nodesEntries es)
  | [], h => by cases h
  | (_, .null) :: es, h => nodesEntries_sublist es h
  | (_, .scalar _) :: es, h => nodesEntries_sublist es h
  | (_, .object P) :: es, h => by
      rcases List.mem_append.mp h with h | h
      · exact (nodes_sublist P h).trans (List.sublist_append_left _ _)
      · exact (nodesEntries_sublist es h).trans (List.sublist_append_right _ _)
termination_by structural es => es

end

theorem objects_sublist_nodesEntries (es : Content Mixed Placed) :
    (objects es).Sublist (nodesEntries es) := by
  induction es with
  | nil => exact .slnil
  | cons e es ih =>
    obtain ⟨key, s⟩ := e
    cases s with
    | null => exact ih
    | scalar m => exact ih
    | object C =>
      have hself : [C].Sublist (nodes C) := List.singleton_sublist.mpr (self_mem_nodes C)
      exact hself.append ih

/-- **The objects behind a property of a node** are nodes, each for itself. -/
theorem objects_sublist {P n : Placed} (hn : n ∈ nodes P) (name : String) :
    (objects (n.content name)).Sublist (nodes P) := by
  refine List.Sublist.trans ?_ (nodes_sublist P hn)
  clear hn
  obtain ⟨x, t, ps⟩ := n
  refine .cons _ ?_
  show (objects ((ps.lookup name).getD [])).Sublist (nodesProperties ps)
  induction ps with
  | nil => exact .slnil
  | cons p ps ih =>
    obtain ⟨name', es⟩ := p
    rw [lookup_cons_eq]
    split
    · exact (objects_sublist_nodesEntries es).trans (List.sublist_append_left _ _)
    · exact ih.trans (List.sublist_append_right _ _)

/-- An object behind a pointer of a node is a node. -/
theorem child_mem_nodes {P n C : Placed} (hn : n ∈ nodes P) {name key : String}
    (h : (key, .object C) ∈ n.content name) : C ∈ nodes P :=
  (objects_sublist hn name).subset (mem_objects.mpr ⟨key, h⟩)

mutual

/-- **The objects behind one property of each node** are different ones, and none
of them is the root. -/
theorem countP_children (q : Placed → Bool) (name : String) : ∀ P : Placed,
    ((nodes P).flatMap fun n => objects (n.content name)).countP q + (if q P then 1 else 0)
      ≤ (nodes P).countP q
  | .node x t ps => by
      have hproperties := countP_children_properties q name ps
      show ((Placed.node x t ps :: nodesProperties ps).flatMap _).countP q + _
        ≤ (Placed.node x t ps :: nodesProperties ps).countP q
      rw [List.flatMap_cons, List.countP_append, List.countP_cons]
      simp only [Placed.content, Placed.props] at *
      omega
termination_by structural P => P

theorem countP_children_properties (q : Placed → Bool) (name : String) :
    ∀ ps : List (String × List (String × Slot Mixed Placed)),
    (objects ((ps.lookup name).getD [])).countP q +
        ((nodesProperties ps).flatMap fun n => objects (n.content name)).countP q
      ≤ (nodesProperties ps).countP q
  | [] => Nat.le_refl _
  | (name', es) :: ps => by
      have hentries := countP_children_entries q name es
      have hproperties := countP_children_properties q name ps
      show _ + ((nodesEntries es ++ nodesProperties ps).flatMap _).countP q
        ≤ (nodesEntries es ++ nodesProperties ps).countP q
      rw [lookup_cons_eq, List.flatMap_append, List.countP_append, List.countP_append]
      split
      · rw [Option.getD_some]
        omega
      · omega
termination_by structural ps => ps

theorem countP_children_entries (q : Placed → Bool) (name : String) :
    ∀ es : List (String × Slot Mixed Placed),
    (objects es).countP q + ((nodesEntries es).flatMap fun n => objects (n.content name)).countP q
      ≤ (nodesEntries es).countP q
  | [] => Nat.le_refl _
  | (_, .null) :: es => countP_children_entries q name es
  | (_, .scalar _) :: es => countP_children_entries q name es
  | (_, .object C) :: es => by
      have hobject := countP_children q name C
      have hrest := countP_children_entries q name es
      show (C :: objects es).countP q + ((nodes C ++ nodesEntries es).flatMap _).countP q
        ≤ (nodes C ++ nodesEntries es).countP q
      rw [List.countP_cons, List.flatMap_append, List.countP_append, List.countP_append]
      omega
termination_by structural es => es

end

/-! ## §2. The writes of one object. -/

/-- What the loop of an accessor writes to its own column. -/
def ownEntries (a : Accessor) (i : Nat) : Content Mixed Placed → List Write
  | [] => []
  | (key, .null) :: es => a.null key ++ ownEntries a (i + 1) es
  | (_, .scalar _) :: es => ownEntries a (i + 1) es
  | (key, .object P) :: es =>
      a.before i key P.row.link ++ a.after key P.row.link ++ ownEntries a (i + 1) es

/-- What an accessor writes to its own column. -/
def ownWrites (K : DecimalText) (σ : Schemas) (k : Kind) (es : Content Mixed Placed) : List Write :=
  (k.accessor K σ).values (scalars es) ++ ownEntries (k.accessor K σ) 0 es

def ownProperties (K : DecimalText) (σ : Schemas) (x : Ref) (ps : List (String × Content Mixed Placed)) :
    List Event :=
  ps.flatMap fun p => journal x p.1 (ownWrites K σ (σ.kind x.table p.1) p.2)

/-- What is written to the row of an object. -/
def ownEvents (K : DecimalText) (σ : Schemas) (P : Placed) : List Event := ownProperties K σ P.row P.props

theorem journal_append (x : Ref) (col : String) (ws ws' : List Write) :
    journal x col (ws ++ ws') = journal x col ws ++ journal x col ws' :=
  List.map_append

/-! ## §3. The journal is made of them. -/

mutual

/-- **The journal of a tree is what is written for its nodes**, in another order. -/
theorem events_perm (σ : Schemas) : ∀ P : Placed,
    (events K σ P).Perm ((nodes P).flatMap (ownEvents K σ))
  | .node x _ ps => eventsProperties_perm σ x ps
termination_by structural P => P

theorem eventsProperties_perm (σ : Schemas) (x : Ref) :
    ∀ ps : List (String × List (String × Slot Mixed Placed)),
    (eventsProperties K σ x ps).Perm
      (ownProperties K σ x ps ++ (nodesProperties ps).flatMap (ownEvents K σ))
  | [] => .nil
  | (name, es) :: ps => by
      rw [List.perm_iff_count]
      intro e
      have hentries := (eventsEntries_perm σ ((σ.kind x.table name).accessor K σ) x name 0 es).count_eq e
      have hproperties := (eventsProperties_perm σ x ps).count_eq e
      simp only [eventsProperties, ownProperties, ownWrites, nodesProperties, journal_append,
        List.flatMap_cons, List.flatMap_append, List.count_append] at *
      omega
termination_by structural ps => ps

theorem eventsEntries_perm (σ : Schemas) (a : Accessor) (x : Ref) (name : String) (i : Nat) :
    ∀ es : List (String × Slot Mixed Placed),
    (eventsEntries K σ a x name i es).Perm
      (journal x name (ownEntries a i es) ++ (nodesEntries es).flatMap (ownEvents K σ))
  | [] => .nil
  | (key, .null) :: es => by
      rw [List.perm_iff_count]
      intro e
      have hrest := (eventsEntries_perm σ a x name (i + 1) es).count_eq e
      simp only [eventsEntries, ownEntries, nodesEntries, journal_append, List.count_append] at *
      omega
  | (_, .scalar _) :: es => eventsEntries_perm σ a x name (i + 1) es
  | (key, .object P) :: es => by
      rw [List.perm_iff_count]
      intro e
      have hrest := (eventsEntries_perm σ a x name (i + 1) es).count_eq e
      have hobject := (events_perm σ P).count_eq e
      simp only [eventsEntries, ownEntries, nodesEntries, journal_append, List.flatMap_append,
        List.count_append] at *
      omega
termination_by structural es => es

end

/-- The writes for the object itself come in order. -/
theorem ownEntries_sublist (σ : Schemas) (a : Accessor) (x : Ref) (name : String) (i : Nat)
    (es : Content Mixed Placed) :
    (journal x name (ownEntries a i es)).Sublist (eventsEntries K σ a x name i es) := by
  induction es generalizing i with
  | nil => exact .slnil
  | cons e es ih =>
    obtain ⟨key, s⟩ := e
    cases s with
    | null =>
      show (journal x name (a.null key ++ ownEntries a (i + 1) es)).Sublist _
      rw [journal_append]
      exact (List.Sublist.refl _).append (ih (i + 1))
    | scalar m => exact ih (i + 1)
    | object P =>
      show (journal x name (_ ++ ownEntries a (i + 1) es)).Sublist (_ ++ _ ++ _ ++ _)
      rw [journal_append, journal_append]
      refine List.Sublist.append ?_ (ih (i + 1))
      exact (List.sublist_append_left _ _).append (List.Sublist.refl _)

theorem ownProperties_sublist (σ : Schemas) (x : Ref) (ps : List (String × Content Mixed Placed)) :
    (ownProperties K σ x ps).Sublist (eventsProperties K σ x ps) := by
  induction ps with
  | nil => exact .slnil
  | cons p ps ih =>
    obtain ⟨name, es⟩ := p
    show (journal x name (_ ++ _) ++ ownProperties K σ x ps).Sublist (_ ++ _ ++ _)
    rw [journal_append]
    exact ((List.Sublist.refl _).append (ownEntries_sublist σ _ x name 0 es)).append ih

mutual

/-- **The writes for a node are in the journal in order.** -/
theorem ownEvents_sublist (σ : Schemas) {n : Placed} : ∀ P : Placed, n ∈ nodes P →
    (ownEvents K σ n).Sublist (events K σ P)
  | .node x t ps, h => by
      rcases List.mem_cons.mp h with rfl | h
      · exact ownProperties_sublist σ x ps
      · exact ownEvents_sublist_properties σ x ps h
termination_by structural P => P

theorem ownEvents_sublist_properties (σ : Schemas) {n : Placed} (x : Ref) :
    ∀ ps : List (String × List (String × Slot Mixed Placed)), n ∈ nodesProperties ps →
    (ownEvents K σ n).Sublist (eventsProperties K σ x ps)
  | [], h => by cases h
  | (name, es) :: ps, h => by
      rcases List.mem_append.mp h with h | h
      · have hes := ownEvents_sublist_entries σ ((σ.kind x.table name).accessor K σ) x name 0 es h
        exact (hes.trans (List.sublist_append_right _ _)).trans (List.sublist_append_left _ _)
      · exact (ownEvents_sublist_properties σ x ps h).trans (List.sublist_append_right _ _)
termination_by structural ps => ps

theorem ownEvents_sublist_entries (σ : Schemas) {n : Placed} (a : Accessor) (x : Ref)
    (name : String) (i : Nat) :
    ∀ es : List (String × Slot Mixed Placed), n ∈ nodesEntries es →
    (ownEvents K σ n).Sublist (eventsEntries K σ a x name i es)
  | [], h => by cases h
  | (_, .null) :: es, h =>
      (ownEvents_sublist_entries σ a x name (i + 1) es h).trans (List.sublist_append_right _ _)
  | (_, .scalar _) :: es, h => ownEvents_sublist_entries σ a x name (i + 1) es h
  | (_, .object P) :: es, h => by
      rcases List.mem_append.mp h with h | h
      · have hP := ownEvents_sublist σ P h
        exact ((hP.trans (List.sublist_append_right _ _)).trans
          (List.sublist_append_left _ _)).trans (List.sublist_append_left _ _)
      · exact (ownEvents_sublist_entries σ a x name (i + 1) es h).trans
          (List.sublist_append_right _ _)
termination_by structural es => es

end

/-! ## §4. One column. -/

theorem writesAt_journal_self (x : Ref) (col : String) (ws : List Write) :
    writesAt (x, col) (journal x col ws) = ws :=
  writesAt_map_self _ ws

theorem writesAt_journal_of_ne {x y : Ref} {col col' : String} (h : (x, col) ≠ (y, col'))
    (ws : List Write) : writesAt (y, col') (journal x col ws) = [] :=
  writesAt_map_of_ne h ws

theorem writesAt_ownProperties_of_ne (σ : Schemas) {x y : Ref} {col : String}
    {ps : List (String × Content Mixed Placed)}
    (h : ∀ p ∈ ps, (x, p.1) ≠ (y, col)) : writesAt (y, col) (ownProperties K σ x ps) = [] := by
  induction ps with
  | nil => rfl
  | cons p ps ih =>
    show writesAt (y, col) (journal x p.1 _ ++ ownProperties K σ x ps) = []
    rw [writesAt_append, writesAt_journal_of_ne (h p List.mem_cons_self), List.nil_append]
    exact ih fun q hq => h q (List.mem_cons_of_mem p hq)

/-- Each property of an object is written once. -/
theorem writesAt_ownProperties (σ : Schemas) (x : Ref) {ps : List (String × Content Mixed Placed)}
    (hps : (ps.map Prod.fst).Nodup) {col : String} {es : Content Mixed Placed}
    (hmem : ps.lookup col = some es) :
    writesAt (x, col) (ownProperties K σ x ps) = ownWrites K σ (σ.kind x.table col) es := by
  induction ps with
  | nil => cases hmem
  | cons p ps ih =>
    obtain ⟨name, es'⟩ := p
    obtain ⟨hname, hrest⟩ := List.nodup_cons.mp hps
    show writesAt (x, col) (journal x name _ ++ ownProperties K σ x ps) = _
    rw [writesAt_append]
    by_cases hcol : col = name
    · subst hcol
      have hes : es' = es := by simpa [List.lookup_cons] using hmem
      subst hes
      -- no other property has the name
      have hnone : writesAt (x, col) (ownProperties K σ x ps) = [] := by
        apply writesAt_ownProperties_of_ne
        intro q hq hxq
        apply hname
        rw [← (Prod.mk.inj hxq).2]
        show q.1 ∈ _
        exact List.mem_map_of_mem hq
      rw [hnone, List.append_nil, writesAt_journal_self]
    · have hlookup : ps.lookup col = some es := by
        have hbeq : (col == name) = false := by simpa using hcol
        simpa [List.lookup_cons, hbeq] using hmem
      rw [ih hrest hlookup, writesAt_journal_of_ne, List.nil_append]
      exact fun h => hcol (Prod.mk.inj h).2.symm

/-- **A node as its class has it**: in a row of the table, with all the properties. -/
structure Placed.Fits (σ : Schemas) (n : Placed) : Prop where
  table : n.row.table = n.cls
  names : n.props.map Prod.fst = (σ n.cls).properties.map Prod.fst

/-- What one node writes to a column of its own row. -/
theorem writesAt_ownEvents_self {σ : Schemas} {n : Placed} (hn : n.Fits σ)
    (hσ : ((σ n.cls).properties.map Prod.fst).Nodup) {col : String}
    (hcol : col ∈ (σ n.cls).properties.map Prod.fst) :
    writesAt (n.row, col) (ownEvents K σ n) = ownWrites K σ (σ.kind n.cls col) (n.content col) := by
  rw [← hn.names] at hσ hcol
  obtain ⟨es, hes⟩ := exists_lookup_iff.mpr hcol
  have hcontent : n.content col = es := by
    unfold Placed.content
    rw [hes]
    rfl
  rw [hcontent, ← hn.table]
  exact writesAt_ownProperties σ n.row hσ hes

theorem writesAt_ownEvents_of_row_ne (σ : Schemas) {n : Placed} {y : Ref} (h : n.row ≠ y)
    (col : String) : writesAt (y, col) (ownEvents K σ n) = [] :=
  writesAt_ownProperties_of_ne σ fun _ _ hxy => h (Prod.mk.inj hxy).1

/-- The nodes that are stored in a row. -/
def nodesAt (P : Placed) (y : Ref) : List Placed := (nodes P).filter fun n => n.row = y

theorem mem_nodesAt {P n : Placed} {y : Ref} : n ∈ nodesAt P y ↔ n ∈ nodes P ∧ n.row = y := by
  simp [nodesAt]

/-- The objects behind one property of the nodes of a row are different ones. -/
theorem countP_children_at (P : Placed) (y : Ref) (name : String) (q : Placed → Bool) :
    ((nodesAt P y).flatMap fun n => objects (n.content name)).countP q ≤ (nodes P).countP q := by
  refine Nat.le_trans ?_ (Nat.le_trans (Nat.le_add_right _ _) (countP_children q name P))
  unfold nodesAt
  generalize nodes P = ns
  induction ns with
  | nil => exact Nat.le_refl _
  | cons n ns ih =>
    rw [List.flatMap_cons, List.countP_append]
    by_cases hrow : n.row = y
    · rw [List.filter_cons_of_pos (by simpa using hrow), List.flatMap_cons, List.countP_append]
      omega
    · rw [List.filter_cons_of_neg (by simpa using hrow)]
      omega

/-- Nodes whose classes have properties of different names. -/
structure Fitting (σ : Schemas) (ns : List Placed) : Prop where
  fits : ∀ n ∈ ns, n.Fits σ
  nodup : ∀ n ∈ ns, ((σ n.cls).properties.map Prod.fst).Nodup

/-- **The writes to a column of a row** are those of the nodes stored there. -/
theorem writesAt_perm_nodes {σ : Schemas} {P : Placed} (h : Fitting σ (nodes P)) {y : Ref}
    {col : String} (hcol : col ∈ (σ y.table).properties.map Prod.fst) :
    (writesAt (y, col) (events K σ P)).Perm
      ((nodesAt P y).flatMap fun n => ownWrites K σ (σ.kind y.table col) (n.content col)) := by
  refine (writesAt_perm (y, col) (events_perm (K := K) σ P)).trans (.of_eq ?_)
  unfold nodesAt
  have hfits := h.fits
  have hnodup := h.nodup
  clear h
  -- from here on the nodes are any list, for the induction
  generalize nodes P = ns at hfits hnodup
  induction ns with
  | nil => rfl
  | cons n ns ih =>
    have hrest := ih (fun m hm => hfits m (List.mem_cons_of_mem n hm))
      (fun m hm => hnodup m (List.mem_cons_of_mem n hm))
    rw [List.flatMap_cons, writesAt_append, hrest]
    by_cases hrow : n.row = y
    · have htable : n.cls = y.table := by
        rw [← hrow]
        exact (hfits n List.mem_cons_self).table.symm
      have hself := writesAt_ownEvents_self (K := K) (hfits n List.mem_cons_self)
        (hnodup n List.mem_cons_self) (htable.symm ▸ hcol)
      rw [hrow, htable] at hself
      rw [hself, List.filter_cons_of_pos (by simpa using hrow), List.flatMap_cons]
    · rw [writesAt_ownEvents_of_row_ne σ hrow, List.filter_cons_of_neg (by simpa using hrow)]
      rfl

/-- **What a node writes to a column comes in order.** -/
theorem ownWrites_sublist {σ : Schemas} {P n : Placed} (h : Fitting σ (nodes P))
    (hn : n ∈ nodes P) {col : String} (hcol : col ∈ (σ n.cls).properties.map Prod.fst) :
    (ownWrites K σ (σ.kind n.cls col) (n.content col)).Sublist
      (writesAt (n.row, col) (events K σ P)) := by
  rw [← writesAt_ownEvents_self (h.fits n hn) (h.nodup n hn) hcol]
  exact writesAt_sublist _ (ownEvents_sublist σ P hn)

/-- Only the columns of a node's class are written. -/
theorem writesAt_of_not_column {σ : Schemas} {P : Placed} (h : Fitting σ (nodes P)) {y : Ref}
    {col : String} (hcol : col ∉ (σ y.table).properties.map Prod.fst) :
    writesAt (y, col) (events K σ P) = [] := by
  rw [List.eq_nil_iff_forall_not_mem]
  intro w hw
  have hmem := (events_perm (K := K) σ P).mem_iff.mp (mem_writesAt.mp hw)
  obtain ⟨n, hn, hown⟩ := List.mem_flatMap.mp hmem
  obtain ⟨p, hp, hjournal⟩ := List.mem_flatMap.mp hown
  obtain ⟨w', -, heq⟩ := List.mem_map.mp hjournal
  obtain ⟨hrow, hname⟩ := Prod.mk.inj (Prod.mk.inj heq).1
  apply hcol
  rw [← hname, ← hrow, (h.fits n hn).table, ← (h.fits n hn).names]
  exact List.mem_map_of_mem hp

/-- A column that no node is stored at is not written. -/
theorem writesAt_eq_nil {σ : Schemas} {P : Placed} {y : Ref} (h : ∀ n ∈ nodes P, n.row ≠ y)
    (col : String) : writesAt (y, col) (events K σ P) = [] := by
  have hperm := writesAt_perm (y, col) (events_perm (K := K) σ P)
  have hnil : writesAt (y, col) ((nodes P).flatMap (ownEvents K σ)) = [] := by
    rw [List.eq_nil_iff_forall_not_mem]
    intro w hw
    obtain ⟨n, hn, hmem⟩ := List.mem_flatMap.mp (mem_writesAt.mp hw)
    have hown := mem_writesAt.mpr hmem
    rw [writesAt_ownEvents_of_row_ne σ (h n hn)] at hown
    cases hown
  rw [hnil] at hperm
  exact hperm.eq_nil

end RealmCpp.Accessors
