/-
  RealmCpp.Accessors.ManagedVector
  ────────────────────────────────
  **A MANAGED VECTOR OF OBJECTS, AND THE VECTOR OF POINTERS THAT IT IS MEANT TO BE.**

  `managed<std::vector<T*>>` is a list of links.  A program makes calls and keeps objects
  that it has read; it is run side by side with one on a vector of pointers.

    • `ManagedVector` — the methods, `PointerVector` — the meaning,
    • `VectorCorresponds` — the list has the pointers of the vector,
    • `managed_vector_simulates` — programs observe the same, and the list detaches to
      what was pushed.
-/
import RealmCpp.Accessors.PointedObjects
import RealmCpp.Library.Client

namespace RealmCpp.Accessors

open RealmCpp.Library
open RealmCpp.Core

variable {K : DecimalText}

/-! ## §1. Managed vectors. -/

abbrev ManagedVector := PointerProperty

namespace ManagedVector

variable (K) (σ : Schemas) (l : ManagedVector) (S : Store)

/-- `push_back(T*)`: an embedded object is made in the list, another one gets there when its
properties are set. -/
def push_back (value : Unmanaged) : Option Store :=
  let is_embedded := (σ value.cls).is_embedded
  l.make K σ (fun m_obj => if is_embedded then [.add m_obj.link] else [])
    (fun m_obj => if is_embedded then [] else [.add m_obj.link]) S value

/-- `push_back(const managed<T>&)`, which throws for embedded objects. -/
def push_back_managed (value : Ref) : Option Store :=
  if (σ l.T).is_embedded then none
  else S.writes (journal l.m_obj l.m_key [.add value.link])

/-- `erase`.  An embedded object whose link is removed is no more in the core; here its row
stays, and nothing leads to it. -/
def erase (idx : Nat) : Option Store :=
  if idx < (l.cell S).length then
    some (S.setCell l.m_obj l.m_key ((l.cell S).eraseIdx idx))
  else none

/-- `pop_back`; where the list is empty, `size() - 1` is out of its range. -/
def pop_back : Option Store := l.erase S ((l.cell S).length - 1)

/-- `clear`. -/
def clear : Store := S.setCell l.m_obj l.m_key []

/-- `operator[]`. -/
def subscript (idx : Nat) : Option Ref := (l.cell S)[idx]?.bind fun e => target e.2

/-- `find`. -/
def find (a : Ref) : Option Nat := (l.cell S).findIdx? fun e => e.2 = a.link

/-- `detach`, to a depth of `n` calls. -/
def detach (n : Nat) : Option (List Unmanaged) :=
  (l.cell S).mapM fun e => (target e.2).bind (detachAs σ S n l.T)

end ManagedVector

/-! ## §2. Calls. -/

/-- What a program does with a vector, and with the objects that it has read, which it
numbers. -/
inductive VectorCall where
  | push_back (value : Unmanaged)
  | push_back_managed (k : Nat)
  | pop_back
  | erase (idx : Nat)
  | clear
  | size
  | subscript (idx : Nat)
  | find (k : Nat)

/-- What it observes; none where a call raises. -/
abbrev VectorCall.Answer : VectorCall → Type
  | push_back _ | push_back_managed _ | pop_back | erase _ | subscript _ => Option Unit
  | clear => Unit
  | size => Nat
  | find _ => Option (Option Nat)

/-- `operator[]`, of which the program keeps the object. -/
def ManagedVector.keep (l : ManagedVector) (s : PointerStore) (idx : Nat) :
    Option Unit × PointerStore :=
  match l.subscript s.store idx with
  | some y => (some (), { s with kept := s.kept ++ [y] })
  | none => (none, s)

/-- The calls, on a managed vector. -/
def ManagedVector.handle (K : DecimalText) (σ : Schemas) (l : ManagedVector) (s : PointerStore) :
    (c : VectorCall) → c.Answer × PointerStore
  | .push_back value => s.modify (l.push_back K σ s.store value)
  | .push_back_managed k =>
      s.modify (s.kept[k]?.bind (l.push_back_managed σ s.store))
  | .pop_back => s.modify (l.pop_back s.store)
  | .erase idx => s.modify (l.erase s.store idx)
  | .clear => ((), { s with store := l.clear s.store })
  | .size => ((l.cell s.store).length, s)
  | .subscript idx => l.keep s idx
  | .find k => (s.kept[k]?.map (l.find s.store), s)

/-! ## §3. Vectors of pointers. -/

/-- The objects that were made, and a vector of pointers to them; a pointer is the number
of its object. -/
structure PointerVector where
  objects : List Unmanaged
  pointers : List Nat
  kept : List Nat

namespace PointerVector

variable (is_embedded : Bool) (t : PointerVector)

def empty : PointerVector := ⟨[], [], []⟩

def push_back (value : Unmanaged) : PointerVector :=
  { t with
    objects := t.objects ++ [value]
    pointers := t.pointers ++ [t.objects.length] }

/-- A call that changes the vector, or raises. -/
def modify : Option (List Nat) → Option Unit × PointerVector
  | some pointers => (some (), { t with pointers := pointers })
  | none => (none, t)

def push_back_managed (p : Nat) : Option (List Nat) :=
  if is_embedded then none else some (t.pointers ++ [p])

def erase (idx : Nat) : Option (List Nat) :=
  if idx < t.pointers.length then some (t.pointers.eraseIdx idx) else none

def subscript (idx : Nat) : Option Unit × PointerVector :=
  match t.pointers[idx]? with
  | some p => (some (), { t with kept := t.kept ++ [p] })
  | none => (none, t)

/-- The calls, as they are meant. -/
def handle : (c : VectorCall) → c.Answer × PointerVector
  | .push_back value => (some (), t.push_back value)
  | .push_back_managed k => t.modify (t.kept[k]?.bind (t.push_back_managed is_embedded))
  | .pop_back => t.modify (if t.pointers = [] then none else some t.pointers.dropLast)
  | .erase idx => t.modify (t.erase idx)
  | .clear => ((), { t with pointers := [] })
  | .size => (t.pointers.length, t)
  | .subscript idx => t.subscript idx
  | .find k => (t.kept[k]?.map fun p => t.pointers.findIdx? (· = p), t)

/-- What the pointers point to. -/
def vector : List Unmanaged := t.pointers.filterMap (t.objects[·]?)

/-- Removing the last pointer is removing at the last index, which an empty vector has not. -/
theorem pop_back_eq :
    (if t.pointers = [] then none else some t.pointers.dropLast) =
      t.erase (t.pointers.length - 1) := by
  unfold PointerVector.erase
  rw [List.eraseIdx_length_sub_one]
  by_cases hnil : t.pointers = []
  · rw [if_pos hnil, if_neg (by rw [hnil]; exact Nat.lt_irrefl 0)]
  · have hpos : 0 < t.pointers.length := List.length_pos_iff.mpr hnil
    rw [if_neg hnil, if_pos (by omega)]

end PointerVector

/-! ## §4. Vectors that correspond. -/

theorem findIdx?_congr {α : Type} {p q : α → Bool} {as : List α} (h : ∀ a ∈ as, p a = q a) :
    as.findIdx? p = as.findIdx? q := by
  induction as with
  | nil => rfl
  | cons a as ih =>
    rw [List.findIdx?_cons, List.findIdx?_cons, h a List.mem_cons_self,
      ih fun b hb => h b (List.mem_cons_of_mem _ hb)]

/-- The links to objects in their rows. -/
def rowLinks (row : Nat → Ref) (ps : List Nat) : Cell := ps.map fun p => ("", (row p).link)

section Corresponds

variable {σ : Schemas} {l : ManagedVector} {s : PointerStore} {t : PointerVector}
variable {row : Nat → Ref} {G : Ref → Prop}

/-- **The list has the pointers of the vector**, by the rows of their objects. -/
structure VectorCorrespondsAt (σ : Schemas) (l : ManagedVector) (s : PointerStore)
    (t : PointerVector) (row : Nat → Ref) (G : Ref → Prop) : Prop where
  populated : Populated σ l s.store t.objects row G
  contents : l.cell s.store = rowLinks row t.pointers
  kept : s.kept = t.kept.map row
  bound : ∀ p, p ∈ t.pointers ∨ p ∈ t.kept → p < t.objects.length

/-- The vectors correspond. -/
def VectorCorresponds (σ : Schemas) (l : ManagedVector) (s : PointerStore) (t : PointerVector) :
    Prop :=
  ∃ row G, VectorCorrespondsAt σ l s t row G

theorem stored_links {A : Objects} {n : Nat} (h : ∀ p, p < n → LinkTo A l.T (row p).link)
    {ps : List Nat} (hps : ∀ p ∈ ps, p < n) : (Kind.list_link l.T).Stored A (rowLinks row ps) := by
  intro e he
  obtain ⟨p, hp, rfl⟩ := List.mem_map.mp he
  exact ⟨rfl, h p (hps p hp)⟩

namespace VectorCorrespondsAt

theorem subscript_eq (h : VectorCorrespondsAt σ l s t row G) (idx : Nat) :
    l.subscript s.store idx = t.pointers[idx]?.map row := by
  unfold ManagedVector.subscript
  rw [h.contents]
  unfold rowLinks
  rw [List.getElem?_map]
  cases t.pointers[idx]? <;> rfl

theorem subscript_agrees (h : VectorCorrespondsAt σ l s t row G) (idx : Nat) :
    (l.keep s idx).1 = (t.subscript idx).1 ∧
      VectorCorresponds σ l (l.keep s idx).2 (t.subscript idx).2 := by
  unfold ManagedVector.keep PointerVector.subscript
  rw [h.subscript_eq]
  cases hp : t.pointers[idx]? with
  | none => exact ⟨rfl, row, G, h⟩
  | some p =>
    refine ⟨rfl, row, G, h.populated, h.contents, ?_, ?_⟩
    · show s.kept ++ [row p] = (t.kept ++ [p]).map row
      rw [h.kept, List.map_append]
      rfl
    · intro q hq
      rcases hq with hq | hq
      · exact h.bound q (.inl hq)
      · rcases List.mem_append.mp hq with hq | hq
        · exact h.bound q (.inr hq)
        · rw [List.mem_singleton.mp hq]
          exact h.bound p (.inl (List.mem_of_getElem? hp))

/-- **A search finds the first pointer to the object**, as no two objects are in one row. -/
theorem find_agrees (h : VectorCorrespondsAt σ l s t row G) (k : Nat) :
    s.kept[k]?.map (l.find s.store) =
      t.kept[k]?.map fun p => t.pointers.findIdx? (· = p) := by
  rw [h.kept, List.getElem?_map]
  cases hp : t.kept[k]? with
  | none => rfl
  | some p =>
    refine congrArg some ?_
    show l.find s.store (row p) = _
    unfold ManagedVector.find
    rw [h.contents]
    unfold rowLinks
    rw [List.findIdx?_map]
    refine findIdx?_congr fun q hq => ?_
    have hbound := h.bound p (.inr (List.mem_of_getElem? hp))
    show decide ((row q).link = (row p).link) = decide (q = p)
    rw [decide_eq_decide]
    exact h.populated.link_inj (h.bound q (.inl hq)) hbound

variable (hσ : σ.WellFormed) (hl : (l.m_key, .list_link l.T) ∈ (σ l.m_obj.table).properties)
include hσ hl

/-- **Other pointers in the vector**, and the same ones in the list. -/
theorem setPointers (h : VectorCorrespondsAt σ l s t row G) {ps : List Nat}
    (hps : ∀ p ∈ ps, p < t.objects.length) :
    VectorCorrespondsAt σ l
      { s with store := s.store.setCell l.m_obj l.m_key (rowLinks row ps) }
      { t with pointers := ps } row G where
  populated := h.populated.setCell hσ hl (fun e he => by cases he)
    (stored_links (fun p hp => h.populated.linkTo hp) hps)
  contents := Store.setCell_cell_self ..
  kept := h.kept
  bound p hp := hp.elim (hps p) fun hp => h.bound p (.inr hp)

/-- A call that changes the pointers in the same way in both, or raises in both. -/
theorem modify_agrees (h : VectorCorrespondsAt σ l s t row G) {store : Option Store}
    {pointers : Option (List Nat)}
    (hstore : store = pointers.map fun ps => s.store.setCell l.m_obj l.m_key (rowLinks row ps))
    (hps : ∀ ps, pointers = some ps → ∀ p ∈ ps, p < t.objects.length) :
    (s.modify store).1 = (t.modify pointers).1 ∧
      VectorCorresponds σ l (s.modify store).2 (t.modify pointers).2 := by
  rw [hstore]
  cases pointers with
  | none => exact ⟨rfl, row, G, h⟩
  | some ps => exact ⟨rfl, row, G, h.setPointers hσ hl (hps ps rfl)⟩

theorem erase_agrees (h : VectorCorrespondsAt σ l s t row G) (idx : Nat) :
    (s.modify (l.erase s.store idx)).1 = (t.modify (t.erase idx)).1 ∧
      VectorCorresponds σ l (s.modify (l.erase s.store idx)).2
        (t.modify (t.erase idx)).2 := by
  refine h.modify_agrees hσ hl ?_ ?_
  · unfold ManagedVector.erase PointerVector.erase
    rw [h.contents]
    unfold rowLinks
    rw [List.length_map, List.eraseIdx_map]
    split <;> rfl
  · intro ps hps p hp
    unfold PointerVector.erase at hps
    split at hps
    · obtain rfl := Option.some.inj hps
      exact h.bound p (.inl (List.mem_of_mem_eraseIdx hp))
    · cases hps

theorem push_back_managed_agrees (h : VectorCorrespondsAt σ l s t row G) (k : Nat) :
    (s.modify (s.kept[k]?.bind (l.push_back_managed σ s.store))).1 =
        (t.modify (t.kept[k]?.bind (t.push_back_managed (σ l.T).is_embedded))).1 ∧
      VectorCorresponds σ l
        (s.modify (s.kept[k]?.bind (l.push_back_managed σ s.store))).2
        (t.modify (t.kept[k]?.bind (t.push_back_managed (σ l.T).is_embedded))).2 := by
  refine h.modify_agrees hσ hl ?_ ?_
  · rw [h.kept, List.getElem?_map]
    cases t.kept[k]? with
    | none => rfl
    | some p =>
      show l.push_back_managed σ s.store (row p) =
        (t.push_back_managed (σ l.T).is_embedded p).map _
      unfold ManagedVector.push_back_managed PointerVector.push_back_managed
      -- an embedded object is refused by both
      split
      · rfl
      · show some (s.store.setCell l.m_obj l.m_key (l.cell s.store ++ [("", (row p).link)])) =
          some (s.store.setCell _ _ (rowLinks row (t.pointers ++ [p])))
        rw [h.contents]
        unfold rowLinks
        rw [List.map_append]
        rfl
  · intro ps hps p hp
    obtain ⟨q, hq, hps⟩ := Option.bind_eq_some_iff.mp hps
    unfold PointerVector.push_back_managed at hps
    split at hps
    · cases hps
    · obtain rfl := Option.some.inj hps
      rcases List.mem_append.mp hp with hp | hp
      · exact h.bound p (.inl hp)
      · obtain rfl := List.mem_singleton.mp hp
        exact h.bound p (.inr (List.mem_of_getElem? hq))

theorem push_back_agrees (h : VectorCorrespondsAt σ l s t row G) {v : Unmanaged}
    (hv : v.Makes K σ l.T s.store) :
    (s.modify (l.push_back K σ s.store v)).1 = some () ∧
      VectorCorresponds σ l (s.modify (l.push_back K σ s.store v)).2
        (t.push_back v) := by
  -- the link is added, before the properties are set or after that
  have hwrites : ∀ y : Ref, runWrites Write.apply
      ((if (σ v.cls).is_embedded then [.add y.link] else []) ++
        if (σ v.cls).is_embedded then [] else [.add y.link]) (l.cell s.store) =
      some (rowLinks row t.pointers ++ [("", y.link)]) := by
    intro y
    rw [← h.contents]
    cases (σ v.cls).is_embedded <;> rfl
  obtain ⟨S', row', G', hmake, hpopulated, hold, hcell⟩ := h.populated.make hσ hl
    (fun e he => by cases he) hv hwrites fun A y hlinks hy e he => by
      rcases List.mem_append.mp he with he | he
      · exact stored_links hlinks (fun p hp => h.bound p (.inl hp)) e he
      · rw [List.mem_singleton.mp he]
        exact ⟨rfl, hy⟩
  have hpush : l.push_back K σ s.store v = some S' := hmake
  rw [hpush]
  refine ⟨rfl, row', G', hpopulated, ?_, ?_, ?_⟩
  · show l.cell S' = rowLinks row' (t.pointers ++ [t.objects.length])
    rw [hcell]
    unfold rowLinks
    rw [List.map_append]
    refine congrArg (· ++ _) (List.map_congr_left fun p hp => ?_)
    rw [hold p (h.bound p (.inl hp))]
  · refine h.kept.trans (List.map_congr_left fun p hp => ?_)
    exact (hold p (h.bound p (.inr hp))).symm
  · intro p hp
    refine lt_length_concat t.objects v ?_
    rcases hp with hp | hp
    · rcases List.mem_append.mp hp with hp | hp
      · exact Nat.le_of_lt (h.bound p (.inl hp))
      · rw [List.mem_singleton.mp hp]
    · exact Nat.le_of_lt (h.bound p (.inr hp))

omit hl in
/-- **What the pointers point to comes back** from `detach`, given calls enough. -/
theorem detach (h : VectorCorrespondsAt σ l s t row G) :
    ∃ depth, ∀ n, depth ≤ n → ∃ ds, l.detach σ s.store n = some ds ∧
      List.Forall₂ (SameTree σ) ds t.vector := by
  obtain ⟨depth, hdepth⟩ := h.populated.detach hσ
  refine ⟨depth, fun n hn => ?_⟩
  unfold ManagedVector.detach PointerVector.vector
  rw [h.contents]
  -- link by link, each of which leads to the object that its pointer has
  have hbound : ∀ p ∈ t.pointers, p < t.objects.length := fun p hp => h.bound p (.inl hp)
  generalize t.pointers = ps at hbound
  induction ps with
  | nil => exact ⟨[], rfl, .nil⟩
  | cons p ps ih =>
    obtain ⟨ds, hds, hsame⟩ := ih fun q hq => hbound q (List.mem_cons_of_mem _ hq)
    have hv := List.getElem?_eq_getElem (hbound p List.mem_cons_self)
    obtain ⟨d, hd, hdv⟩ := hdepth n hn p _ hv
    refine ⟨d :: ds, ?_, ?_⟩
    · unfold rowLinks at hds ⊢
      rw [List.map_cons, List.mapM_cons, hds]
      show (detachAs σ s.store n l.T (row p)).bind _ = _
      rw [hd]
      rfl
    · rw [List.filterMap_cons, hv]
      exact .cons hdv hsame

end VectorCorrespondsAt

/-- **What a `push_back` needs**: an object that can be made. -/
def VectorMeets (K : DecimalText) (σ : Schemas) (l : ManagedVector) (st : PointerStore × PointerVector) :
    VectorCall → Prop
  | .push_back v => v.Makes K σ l.T st.1.store
  | _ => True

variable (hσ : σ.WellFormed) (hl : (l.m_key, .list_link l.T) ∈ (σ l.m_obj.table).properties)
include hσ hl

/-- A call that has what it needs does what it is meant to do. -/
theorem vector_handle_spec (s : PointerStore) (t : PointerVector) (c : VectorCall)
    (h : VectorCorresponds σ l s t) (hc : VectorMeets K σ l (s, t) c) :
    (l.handle K σ s c).1 = (t.handle (σ l.T).is_embedded c).1 ∧
      VectorCorresponds σ l (l.handle K σ s c).2
        (t.handle (σ l.T).is_embedded c).2 := by
  obtain ⟨row, G, h⟩ := h
  have hlength : (l.cell s.store).length = t.pointers.length := by
    rw [h.contents]
    exact List.length_map ..
  cases c with
  | push_back v => exact h.push_back_agrees hσ hl hc
  | push_back_managed k => exact h.push_back_managed_agrees hσ hl k
  | pop_back =>
    show (s.modify (l.erase s.store _)).1 = (t.modify _).1 ∧
      VectorCorresponds σ l (s.modify (l.erase s.store _)).2 (t.modify _).2
    rw [t.pop_back_eq, hlength]
    exact h.erase_agrees hσ hl _
  | erase idx => exact h.erase_agrees hσ hl idx
  | clear =>
    have hnone : ∀ p ∈ ([] : List Nat), p < t.objects.length := fun p hp => by cases hp
    exact ⟨rfl, row, G, h.setPointers hσ hl hnone⟩
  | size => exact ⟨hlength, row, G, h⟩
  | subscript idx => exact h.subscript_agrees idx
  | find k => exact ⟨h.find_agrees k, row, G, h⟩

/-- **A managed vector of objects simulates a vector of pointers.**  A program that starts with
an empty one, and pushes only objects that can be stored and read, with new primary keys,
observes what it would of a vector of pointers; where it ends the list detaches, to objects
that are equal to those the pointers point to. -/
theorem managed_vector_simulates {S : Store} (hS : Store.WellFormed σ S)
    (howner : S.live l.m_obj = true) (hempty : l.cell S = []) {ρ : Type}
    (p : Client VectorCall VectorCall.Answer ρ)
    (hp : p.Along (Client.beside (l.handle K σ)
      (PointerVector.handle (σ l.T).is_embedded)) (VectorMeets K σ l) (⟨S, []⟩, .empty)) :
    (p.run (l.handle K σ) ⟨S, []⟩).1 =
        (p.run (PointerVector.handle (σ l.T).is_embedded) .empty).1 ∧
      ∃ depth, ∀ n, depth ≤ n → ∃ ds,
        l.detach σ (p.run (l.handle K σ) ⟨S, []⟩).2.store n =
            some ds ∧
          List.Forall₂ (SameTree σ) ds
            (p.run (PointerVector.handle (σ l.T).is_embedded) .empty).2.vector := by
  have hstart : VectorCorresponds σ l ⟨S, []⟩ .empty :=
    ⟨fun _ => l.m_obj, fun _ => False, .nil hS howner, hempty, rfl,
      fun p hp => by rcases hp with hp | hp <;> cases hp⟩
  obtain ⟨hresult, row, G, hend⟩ := Client.run_simulates_beside (R := VectorCorresponds σ l)
    (P := VectorMeets K σ l) (fun s t c => vector_handle_spec hσ hl s t c) p hstart hp
  exact ⟨hresult, hend.detach hσ⟩

end Corresponds

/-- Persons with dogs, of which some have a name and one is the best; a dog has a primary
key. -/
def dogSchemas : Schemas := fun t =>
  if t = ⟨0⟩ then
    ⟨none, false,
      [("dogs", .list_link ⟨1⟩), ("named", .dictionary_link ⟨1⟩), ("best", .link ⟨1⟩)]⟩
  else ⟨some "_id", false, [("_id", .scalar ⟨.int, false⟩)]⟩

def dog (id : Int) : Unmanaged := .node ⟨1⟩ [("_id", [("", .scalar (.int id))])]

/-- A person without dogs. -/
def dogStore : Store :=
  (Store.empty dogSchemas).withObjects ((Store.empty dogSchemas).create_object ⟨0⟩).1

theorem dogSchemas_wellFormed : dogSchemas.WellFormed := by
  have hcases : ∀ t,
      dogSchemas t =
        ⟨none, false,
          [("dogs", .list_link ⟨1⟩), ("named", .dictionary_link ⟨1⟩), ("best", .link ⟨1⟩)]⟩ ∨
      dogSchemas t = ⟨some "_id", false, [("_id", .scalar ⟨.int, false⟩)]⟩ := by
    intro t
    unfold dogSchemas
    split
    · exact .inl rfl
    · exact .inr rfl
  refine ⟨fun t => ?_, fun t name h => ?_, fun t h => ?_, fun t name T h => ?_⟩
  · rcases hcases t with heq | heq <;> rw [heq] <;> simp
  · rcases hcases t with heq | heq <;> rw [heq] at h ⊢ <;> simp at h
    exact ⟨_, List.mem_singleton.mpr (congrArg (·, _) h.symm)⟩
  · rcases hcases t with heq | heq <;> rw [heq] at h <;> simp at h
  · rcases hcases t with heq | heq <;> rw [heq] at h <;> simp at h

theorem dogStore_wellFormed : Store.WellFormed dogSchemas dogStore := by
  have hempty := Store.empty_wellFormed dogSchemas_wellFormed
  have hadd : add integer_text dogSchemas (Store.empty dogSchemas)
      (.node ⟨0⟩ [("dogs", []), ("named", []), ("best", [("", .null)])]) =
      some (dogStore, ⟨⟨0⟩, ⟨0⟩⟩) := rfl
  obtain ⟨P, hP, -⟩ := added_of_add hempty.objects hadd
  refine hP.wellFormed dogSchemas_wellFormed
    ⟨fun u hu => ?_, fun u hu t low high hkey => ?_⟩ hempty
  · rw [List.mem_singleton.mp hu]
    refine ⟨rfl, fun p hp => ?_⟩
    rcases List.mem_cons.mp hp with rfl | hp
    · exact fun e he => absurd he List.not_mem_nil
    · rcases List.mem_cons.mp hp with rfl | hp
      · exact ⟨fun e he => absurd he List.not_mem_nil, List.nodup_nil⟩
      · rw [List.mem_singleton.mp hp]
        exact ⟨_, rfl, trivial⟩
  · rw [List.mem_singleton.mp hu] at hkey
    cases hkey

/-- A dog can be made where there is none with its key. -/
theorem dog_makes {S : Store} {id : Int} (hnew : S.index ⟨1⟩ (.int id) = none) :
    (dog id).Makes integer_text dogSchemas ⟨1⟩ S := by
  have hproperty : ∀ p ∈ (dogSchemas ⟨1⟩).properties, p = ("_id", Kind.scalar ⟨.int, false⟩) :=
    fun p hp => List.mem_singleton.mp hp
  have hreached : ∀ u ∈ (dog id).reached, u = dog id := fun u hu => List.mem_singleton.mp hu
  refine ⟨rfl, ⟨fun u hu => ?_, fun u hu t low high hkey => ?_⟩, fun u hu p hp e he => ?_,
    ⟨?_, ?_, ?_, ?_⟩, ?_, ?_⟩
  · rw [hreached u hu]
    refine ⟨rfl, fun p hp => ?_⟩
    rw [hproperty p hp]
    exact ⟨_, rfl⟩
  · rw [hreached u hu] at hkey
    cases hkey
  · rw [hreached u hu] at hp
    rw [hproperty p hp]
    trivial
  · intro u hu u' hu' _ _
    rw [hreached u hu, hreached u' hu']
    exact Bisimilar.refl _
  · intro u hu p hp hskips
    rw [hreached u hu] at hp
    rw [hproperty p hp] at hskips
    exact hskips.elim
  · intro u hu p hp T hT
    rw [hreached u hu] at hp
    rw [hproperty p hp] at hT
    cases hT
  · intro u hu _ p hp happends
    rw [hreached u hu] at hp
    rw [hproperty p hp] at happends
    exact happends.elim
  · intro u hu t m hkey
    rw [hreached u hu] at hkey
    cases hkey
    exact hnew
  · intro u hu p hp key m hm
    rw [hreached u hu] at hp hm
    rw [hproperty p hp] at hm
    cases List.mem_singleton.mp hm
    rfl

def dogs : ManagedVector := ⟨⟨⟨0⟩, ⟨0⟩⟩, "dogs", ⟨1⟩⟩

/-- Two dogs are pushed, the first of them is read and erased, and then searched for. -/
def dogProgram : Client VectorCall VectorCall.Answer (Nat × Option (Option Nat)) :=
  .call (.push_back (dog 1)) fun _ => .call (.push_back (dog 2)) fun _ =>
    .call (.subscript 0) fun _ => .call (.erase 0) fun _ =>
      .call .size fun size => .call (.find 0) fun found => .ret (size, found)

theorem managed_vector_simulates_dogs :
    (dogProgram.run (dogs.handle integer_text dogSchemas) ⟨dogStore, []⟩).1 =
        (dogProgram.run (PointerVector.handle false) .empty).1 ∧
      ∃ depth, ∀ n, depth ≤ n → ∃ ds,
        dogs.detach dogSchemas
            (dogProgram.run (dogs.handle integer_text dogSchemas) ⟨dogStore, []⟩).2.store n = some ds ∧
          List.Forall₂ (SameTree dogSchemas) ds
            (dogProgram.run (PointerVector.handle false) .empty).2.vector :=
  managed_vector_simulates dogSchemas_wellFormed (l := dogs) List.mem_cons_self
    dogStore_wellFormed rfl rfl dogProgram
    ⟨dog_makes rfl, dog_makes rfl, trivial, trivial, trivial, trivial, trivial⟩

example : (dogProgram.run (dogs.handle integer_text dogSchemas) ⟨dogStore, []⟩).1 = (1, some none) := by
  decide

end RealmCpp.Accessors
