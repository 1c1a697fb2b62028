/-
  RealmCpp.Accessors.ManagedPointer
  ─────────────────────────────────
  **A LINK PROPERTY, AND THE POINTER THAT IT IS MEANT TO BE.**

  `managed<T*>` is a column with one link, which may be null.  It is assigned and read as
  a pointer is; what `operator->` gives is a `ref_type`, which a program keeps and compares.

    • `ManagedPointer` — the methods, `PointerVariable` — the meaning,
    • `PointerCorresponds` — the column has the pointer of the variable,
    • `pointer_handle_iff` — which comparisons answer for the pointers,
    • `pointer_program_iff` — in which programs the property is as good as a
      variable, and what it detaches to where they end.
-/
import RealmCpp.Accessors.ManagedMap

namespace RealmCpp.Accessors

open RealmCpp.Library
open RealmCpp.Core

variable {K : DecimalText}

/-! ## §1. Link properties. -/

abbrev ManagedPointer := PointerProperty

/-- What a program compares: the property with `nullptr` or with an object that it has
kept, two of these, or one of them with the property. -/
inductive Comparison where
  | null
  | object (k : Nat)
  | refs (i j : Nat)
  | ref_property (i : Nat)

namespace ManagedPointer

variable (K) (σ : Schemas) (l : ManagedPointer) (S : Store) (kept : List Ref)

/-- `m_obj->get_linked_object(m_key)`, where it is valid. -/
def get_linked_object : Option Ref := S.get_linked_object l.m_obj l.m_key

/-- `operator=(T*)`: the link to an object is set before its properties are. -/
def assign : Option Unmanaged → Option Store
  | some o => l.make K σ (fun m_obj => [.set (Cell.one m_obj.link)]) (fun _ => []) S o
  | none => S.writes (journal l.m_obj l.m_key [.set (Cell.one .null)])

/-- `operator=(const managed<T>&)`; the core sets no link to an embedded object. -/
def assign_managed (obj : Ref) : Option Store :=
  if (σ l.T).is_embedded then none
  else S.writes (journal l.m_obj l.m_key [.set (Cell.one obj.link)])

/-- `operator bool`. -/
def to_bool : Bool := (l.get_linked_object S).isSome

/-- `operator==`.  A `ref_type` is compared with the key of the object that has the
property, and not with that of the object behind it. -/
def equal : Comparison → Option Bool
  | .null => some (!(l.get_linked_object S).isSome)
  -- the key of no object is not that of one
  | .object k => kept[k]?.map fun rhs => (l.get_linked_object S).map Ref.key == some rhs.key
  | .refs i j => do
      let lhs ← kept[i]?
      let rhs ← kept[j]?
      some (lhs.table == rhs.table && lhs.key == rhs.key)
  | .ref_property i => kept[i]?.map fun lhs => lhs.key == l.m_obj.key

/-- `operator!=`.  That of the property asks whether the link is valid, whatever it is
compared with. -/
def not_equal : Comparison → Option Bool
  | .null => some (l.get_linked_object S).isSome
  | .object k => kept[k]?.map fun _ => (l.get_linked_object S).isSome
  | c => (l.equal S kept c).map (!·)

/-- `detach`, to a depth of `n` calls: `m_obj->is_null(m_key) ? *m_obj : …`. -/
def detach (n : Nat) : Option Unmanaged :=
  detachAs σ S n l.T ((l.get_linked_object S).getD l.m_obj)

end ManagedPointer

/-! ## §2. Calls. -/

/-- What a program does with the property, and with the objects that it has read, which it
numbers. -/
inductive PointerCall where
  | assign (o : Option Unmanaged)
  | assign_managed (k : Nat)
  | to_bool
  | arrow
  | equal (c : Comparison)
  | not_equal (c : Comparison)

/-- What it observes; none where a call raises, or where there is no object. -/
abbrev PointerCall.Answer : PointerCall → Type
  | assign _ | assign_managed _ | arrow => Option Unit
  | to_bool => Bool
  | equal _ | not_equal _ => Option Bool

/-- `operator->`, of which the program keeps the `ref_type`. -/
def ManagedPointer.keep (l : ManagedPointer) (s : PointerStore) : Option Unit × PointerStore :=
  match l.get_linked_object s.store with
  | some y => (some (), { s with kept := s.kept ++ [y] })
  | none => (none, s)

/-- The calls, on a link property. -/
def ManagedPointer.handle (K : DecimalText) (σ : Schemas) (l : ManagedPointer) (s : PointerStore) :
    (c : PointerCall) → c.Answer × PointerStore
  | .assign o => s.modify (l.assign K σ s.store o)
  | .assign_managed k => s.modify (s.kept[k]?.bind (l.assign_managed σ s.store))
  | .to_bool => (l.to_bool s.store, s)
  | .arrow => l.keep s
  | .equal c => (l.equal s.store s.kept c, s)
  | .not_equal c => (l.not_equal s.store s.kept c, s)

/-! ## §3. Pointer variables. -/

/-- The objects that were made, and a pointer to one of them, or null. -/
structure PointerVariable where
  objects : List Unmanaged
  pointer : Option Nat
  kept : List Nat

namespace PointerVariable

variable (is_embedded : Bool) (t : PointerVariable)

def null : PointerVariable := ⟨[], none, []⟩

def assign : Option Unmanaged → PointerVariable
  | some o => { t with objects := t.objects ++ [o], pointer := some t.objects.length }
  | none => { t with pointer := none }

def assign_managed (k : Nat) : Option Unit × PointerVariable :=
  match t.kept[k]? with
  | some p => if is_embedded then (none, t) else (some (), { t with pointer := some p })
  | none => (none, t)

def keep : Option Unit × PointerVariable :=
  match t.pointer with
  | some p => (some (), { t with kept := t.kept ++ [p] })
  | none => (none, t)

def equal : Comparison → Option Bool
  | .null => some (t.pointer == none)
  | .object k => t.kept[k]?.map fun p => t.pointer == some p
  | .refs i j => do
      let p ← t.kept[i]?
      let q ← t.kept[j]?
      some (p == q)
  | .ref_property i => t.kept[i]?.map fun p => some p == t.pointer

/-- The calls, as they are meant. -/
def handle : (c : PointerCall) → c.Answer × PointerVariable
  | .assign o => (some (), t.assign o)
  | .assign_managed k => t.assign_managed is_embedded k
  | .to_bool => (t.pointer.isSome, t)
  | .arrow => t.keep
  | .equal c => (t.equal c, t)
  | .not_equal c => ((t.equal c).map (!·), t)

/-- The object that the pointer points to. -/
def object : Option Unmanaged := t.pointer.bind (t.objects[·]?)

end PointerVariable

/-! ## §4. Pointers that correspond. -/

section Corresponds

variable {σ : Schemas} {l : ManagedPointer} {s : PointerStore} {t : PointerVariable}
variable {row : Nat → Ref} {G : Ref → Prop}

/-- **The column has the pointer of the variable**, by the row of its object. -/
structure PointerCorrespondsAt (σ : Schemas) (l : ManagedPointer) (s : PointerStore)
    (t : PointerVariable) (row : Nat → Ref) (G : Ref → Prop) : Prop where
  populated : Populated σ l s.store t.objects row G
  contents : l.cell s.store = Cell.one (rowLink row t.pointer)
  kept : s.kept = t.kept.map row
  bound : ∀ p, t.pointer = some p → p < t.objects.length
  kept_bound : ∀ p ∈ t.kept, p < t.objects.length

/-- The property and the variable correspond. -/
def PointerCorresponds (σ : Schemas) (l : ManagedPointer) (s : PointerStore)
    (t : PointerVariable) : Prop :=
  ∃ row G, PointerCorrespondsAt σ l s t row G

namespace PointerCorrespondsAt

/-- What the property leads to. -/
theorem get_linked_object (h : PointerCorrespondsAt σ l s t row G) :
    l.get_linked_object s.store = t.pointer.map row := by
  have hcell : s.store.cell l.m_obj l.m_key = Cell.one (rowLink row t.pointer) := h.contents
  unfold ManagedPointer.get_linked_object Store.get_linked_object
  rw [hcell]
  cases t.pointer <;> rfl

theorem row_inj (h : PointerCorrespondsAt σ l s t row G) {p q : Nat}
    (hp : p < t.objects.length) (hq : q < t.objects.length) : row p = row q ↔ p = q :=
  ⟨h.populated.inj p q hp hq, congrArg row⟩

theorem row_table (h : PointerCorrespondsAt σ l s t row G) {p : Nat}
    (hp : p < t.objects.length) : (row p).table = l.T := by
  have hobject := h.populated.object p _ (List.getElem?_eq_getElem hp)
  rw [hobject.holds.table, hobject.cls]

/-- The objects are of one table, in which the key tells them apart. -/
theorem key_inj (h : PointerCorrespondsAt σ l s t row G) {p q : Nat}
    (hp : p < t.objects.length) (hq : q < t.objects.length) :
    (row p).key = (row q).key ↔ p = q := by
  rw [← h.row_inj hp hq]
  refine ⟨fun hkey => ?_, congrArg Ref.key⟩
  have htable : (row p).table = (row q).table := (h.row_table hp).trans (h.row_table hq).symm
  exact Ref.link_inj.mp (congrArg₂ Mixed.link htable hkey)

theorem kept_eq_some (h : PointerCorrespondsAt σ l s t row G) {k : Nat} :
    s.kept[k]? = (t.kept[k]?).map row := by
  rw [h.kept, List.getElem?_map]

theorem leads_iff (h : PointerCorrespondsAt σ l s t row G) {p : Nat}
    (hp : p < t.objects.length) :
    l.get_linked_object s.store = some (row p) ↔ t.pointer = some p := by
  rw [h.get_linked_object]
  cases hpointer : t.pointer with
  | none =>
    constructor <;> intro hsome <;> cases hsome
  | some q =>
    show some (row q) = some (row p) ↔ some q = some p
    rw [Option.some_inj, Option.some_inj, h.row_inj (h.bound q hpointer) hp]

theorem keep_agrees (h : PointerCorrespondsAt σ l s t row G) :
    (l.keep s).1 = t.keep.1 ∧ PointerCorresponds σ l (l.keep s).2 t.keep.2 := by
  unfold ManagedPointer.keep PointerVariable.keep
  rw [h.get_linked_object]
  cases hp : t.pointer with
  | none => exact ⟨rfl, row, G, h⟩
  | some p =>
    refine ⟨rfl, row, G, ?_⟩
    refine { populated := h.populated, contents := ?_, kept := ?_, bound := ?_, kept_bound := ?_ }
    · show l.cell s.store = Cell.one (rowLink row (some p))
      rw [h.contents, hp]
    · show s.kept ++ [row p] = (t.kept ++ [p]).map row
      rw [h.kept, List.map_append]
      rfl
    · intro q hq
      exact h.bound q (hp.trans hq)
    · intro q hq
      rcases List.mem_append.mp hq with hq | hq
      · exact h.kept_bound q hq
      · rw [List.mem_singleton.mp hq]
        exact h.bound p hp

/-! The comparisons. -/

theorem equal_null (h : PointerCorrespondsAt σ l s t row G) :
    l.equal s.store s.kept .null = t.equal .null := by
  show some (!(l.get_linked_object s.store).isSome) = some (t.pointer == none)
  rw [h.get_linked_object]
  cases t.pointer <;> rfl

theorem equal_object (h : PointerCorrespondsAt σ l s t row G) (k : Nat) :
    l.equal s.store s.kept (.object k) = t.equal (.object k) := by
  show (s.kept[k]?.map fun rhs =>
      (l.get_linked_object s.store).map Ref.key == some rhs.key) =
    t.kept[k]?.map fun p => t.pointer == some p
  rw [h.kept_eq_some, h.get_linked_object, Option.map_map]
  refine Option.map_congr fun p hp => ?_
  have hbound := h.kept_bound p (List.mem_of_getElem? hp)
  rw [Function.comp_apply, Bool.eq_iff_iff, beq_iff_eq, beq_iff_eq]
  cases hpointer : t.pointer with
  | none => constructor <;> intro hsome <;> cases hsome
  | some q =>
    show some (row q).key = some (row p).key ↔ some q = some p
    rw [Option.some_inj, Option.some_inj, h.key_inj (h.bound q hpointer) hbound]

/-- A `ref_type` is compared with another one by the table and the key. -/
theorem equal_refs (h : PointerCorrespondsAt σ l s t row G) (i j : Nat) :
    l.equal s.store s.kept (.refs i j) = t.equal (.refs i j) := by
  show (s.kept[i]?.bind fun lhs => s.kept[j]?.bind fun rhs => _) = _
  rw [h.kept_eq_some, h.kept_eq_some]
  show _ = t.kept[i]?.bind fun p => t.kept[j]?.bind fun q => some (p == q)
  cases hi : t.kept[i]? with
  | none => rfl
  | some p =>
    cases hj : t.kept[j]? with
    | none => rfl
    | some q =>
      have hp := h.kept_bound p (List.mem_of_getElem? hi)
      have hq := h.kept_bound q (List.mem_of_getElem? hj)
      show some ((row p).table == (row q).table && (row p).key == (row q).key) = some (p == q)
      rw [h.row_table hp, h.row_table hq, beq_self_eq_true, Bool.true_and, Option.some_inj,
        Bool.eq_iff_iff, beq_iff_eq, beq_iff_eq, h.key_inj hp hq]

/-- **A `ref_type` compared with the property** answers for the pointers exactly where the
owner has the key of the object if that is the one behind the link. -/
theorem equal_ref_property_iff (h : PointerCorrespondsAt σ l s t row G) (i : Nat) :
    l.equal s.store s.kept (.ref_property i) = t.equal (.ref_property i) ↔
      ∀ y, s.kept[i]? = some y →
        (y.key = l.m_obj.key ↔ l.get_linked_object s.store = some y) := by
  show (s.kept[i]?.map fun lhs => lhs.key == l.m_obj.key) =
    (t.kept[i]?.map fun p => some p == t.pointer) ↔ _
  rw [h.kept_eq_some]
  cases hi : t.kept[i]? with
  | none =>
    refine ⟨fun _ y hy => ?_, fun _ => rfl⟩
    cases hy
  | some p =>
    have hp := h.kept_bound p (List.mem_of_getElem? hi)
    -- the answer is about the owner, the meaning about the link
    show some ((row p).key == l.m_obj.key) = some (some p == t.pointer) ↔
      ∀ y, some (row p) = some y → _
    rw [Option.some_inj, Bool.eq_iff_iff, beq_iff_eq, beq_iff_eq, eq_comm (a := some p),
      ← h.leads_iff hp]
    constructor
    · intro hagree y hy
      rw [← Option.some_inj.mp hy]
      exact hagree
    · intro hagree
      exact hagree _ rfl

theorem not_equal_null (h : PointerCorrespondsAt σ l s t row G) :
    l.not_equal s.store s.kept .null = (t.equal .null).map (!·) := by
  show some (l.get_linked_object s.store).isSome = some (!(t.pointer == none))
  rw [h.get_linked_object]
  cases t.pointer <;> rfl

/-- **`!=` with an object** answers for the pointers exactly where the link leads to
another one. -/
theorem not_equal_object_iff (h : PointerCorrespondsAt σ l s t row G) (k : Nat) :
    l.not_equal s.store s.kept (.object k) = (t.equal (.object k)).map (!·) ↔
      ∀ y, s.kept[k]? = some y → ∃ z, l.get_linked_object s.store = some z ∧ z ≠ y := by
  show (s.kept[k]?.map fun _ => (l.get_linked_object s.store).isSome) =
    (t.kept[k]?.map fun p => t.pointer == some p).map (!·) ↔ _
  rw [h.kept_eq_some, h.get_linked_object]
  cases hk : t.kept[k]? with
  | none =>
    refine ⟨fun _ y hy => ?_, fun _ => rfl⟩
    cases hy
  | some p =>
    have hp := h.kept_bound p (List.mem_of_getElem? hk)
    show some (t.pointer.map row).isSome = some (!(t.pointer == some p)) ↔
      ∀ y, some (row p) = some y → ∃ z, t.pointer.map row = some z ∧ z ≠ y
    cases hpointer : t.pointer with
    | none =>
      -- null is not equal to the object, which `!=` denies
      constructor
      · intro hagree
        cases hagree
      · intro hlead
        obtain ⟨z, hz, -⟩ := hlead _ rfl
        cases hz
    | some q =>
      show some true = some (!(some q == some p)) ↔ ∀ y, some (row p) = some y → _
      have hrow : row q = row p ↔ q = p := h.row_inj (h.bound q hpointer) hp
      rw [Option.some_inj, eq_comm, Bool.not_eq_true', beq_eq_false_iff_ne, Ne, Option.some_inj,
        ← hrow]
      constructor
      · intro hne y hy
        rw [← Option.some_inj.mp hy]
        exact ⟨row q, rfl, hne⟩
      · intro hlead
        obtain ⟨z, hz, hne⟩ := hlead _ rfl
        rw [Option.some_inj.mp hz]
        exact hne

/-! The assignments. -/

variable (hσ : σ.WellFormed) (hl : (l.m_key, .link l.T) ∈ (σ l.m_obj.table).properties)
include hσ hl

/-- Another pointer, and the same one in the column. -/
theorem set_agrees (h : PointerCorrespondsAt σ l s t row G) (p : Option Nat)
    (hp : ∀ q, p = some q → q < t.objects.length) :
    (s.modify (s.store.writes
        (journal l.m_obj l.m_key [.set (Cell.one (rowLink row p))]))).1 = some () ∧
      PointerCorresponds σ l
        (s.modify (s.store.writes
          (journal l.m_obj l.m_key [.set (Cell.one (rowLink row p))]))).2
        { t with pointer := p } := by
  have hwrites : s.store.writes (journal l.m_obj l.m_key [.set (Cell.one (rowLink row p))]) =
      some (s.store.setCell l.m_obj l.m_key (Cell.one (rowLink row p))) := rfl
  have hstored : (Kind.link l.T).Stored s.store.toObjects (Cell.one (rowLink row p)) := by
    refine ⟨_, rfl, ?_⟩
    cases p with
    | none => exact .inl rfl
    | some q => exact .inr (h.populated.linkTo (hp q rfl))
  rw [hwrites]
  refine ⟨rfl, row, G, ?_, Store.setCell_cell_self .., h.kept, hp, h.kept_bound⟩
  exact h.populated.setCell hσ hl (fun e he => by cases he) hstored

theorem assign_agrees (h : PointerCorrespondsAt σ l s t row G) {o : Unmanaged}
    (ho : o.Makes K σ l.T s.store) :
    (s.modify (l.assign K σ s.store (some o))).1 = some () ∧
      PointerCorresponds σ l (s.modify (l.assign K σ s.store (some o))).2 (t.assign (some o)) := by
  have hwrites : ∀ y : Ref, runWrites Write.apply ([.set (Cell.one y.link)] ++ [])
      (l.cell s.store) = some (Cell.one y.link) := fun y => rfl
  -- the object gets a row, to which the link is; the other rows are as they were
  obtain ⟨S', row', G', hmake, hpopulated, hold, hcell⟩ := h.populated.make hσ hl
    (fun e he => by cases he) ho hwrites fun A y _ hy => ⟨_, rfl, .inr hy⟩
  have hassign : l.assign K σ s.store (some o) = some S' := hmake
  rw [hassign]
  refine ⟨rfl, row', G', hpopulated, hcell, ?_, ?_, ?_⟩
  · -- what was kept is in the rows where it was
    refine h.kept.trans (List.map_congr_left fun p hp => ?_)
    exact (hold p (h.kept_bound p hp)).symm
  · intro p hp
    rw [← Option.some_inj.mp hp]
    exact lt_length_concat t.objects o (Nat.le_refl _)
  · intro p hp
    exact lt_length_concat t.objects o (Nat.le_of_lt (h.kept_bound p hp))

theorem assign_managed_agrees (h : PointerCorrespondsAt σ l s t row G) (k : Nat) :
    (s.modify (s.kept[k]?.bind (l.assign_managed σ s.store))).1 =
        (t.assign_managed (σ l.T).is_embedded k).1 ∧
      PointerCorresponds σ l (s.modify (s.kept[k]?.bind (l.assign_managed σ s.store))).2
        (t.assign_managed (σ l.T).is_embedded k).2 := by
  unfold PointerVariable.assign_managed
  rw [h.kept_eq_some]
  cases hp : t.kept[k]? with
  | none => exact ⟨rfl, row, G, h⟩
  | some p =>
    show (s.modify (l.assign_managed σ s.store (row p))).1 = _ ∧
      PointerCorresponds σ l (s.modify (l.assign_managed σ s.store (row p))).2 _
    unfold ManagedPointer.assign_managed
    cases (σ l.T).is_embedded with
    | true => exact ⟨rfl, row, G, h⟩
    | false =>
      refine h.set_agrees hσ hl (some p) fun q hq => ?_
      rw [← Option.some_inj.mp hq]
      exact h.kept_bound p (List.mem_of_getElem? hp)

omit hl in
/-- **What comes back from `detach`**: the object behind the pointer; for a null pointer
not null, but the object that has the property. -/
theorem detach (h : PointerCorrespondsAt σ l s t row G) :
    (t.pointer = none → ∀ n, l.detach σ s.store n = detachAs σ s.store n l.T l.m_obj) ∧
      ∀ v, t.object = some v → ∃ depth, ∀ n, depth ≤ n →
        ∃ d, l.detach σ s.store n = some d ∧ SameTree σ d v := by
  unfold ManagedPointer.detach
  rw [h.get_linked_object]
  constructor
  · intro hnull n
    rw [hnull]
    rfl
  · intro v hv
    obtain ⟨p, hp, hobject⟩ := Option.bind_eq_some_iff.mp hv
    obtain ⟨depth, hdepth⟩ := h.populated.detach hσ
    rw [hp]
    exact ⟨depth, fun n hn => hdepth n hn p v hobject⟩

end PointerCorrespondsAt

/-! ## §5. Programs. -/

/-- What a program assigns can be made. -/
def PointerMakes (K : DecimalText) (σ : Schemas) (l : ManagedPointer) (s : PointerStore) : PointerCall → Prop
  | .assign (some o) => o.Makes K σ l.T s.store
  | _ => True

/-- **Where a call answers for the pointers**: an object is compared by `!=` only if the link
leads to another one, and a `ref_type` with the property only if the object that has the
property has its key exactly where the link leads to it. -/
def PointerMeets (l : ManagedPointer) (s : PointerStore) : PointerCall → Prop
  | .equal (.ref_property i) | .not_equal (.ref_property i) =>
      ∀ y, s.kept[i]? = some y → (y.key = l.m_obj.key ↔ l.get_linked_object s.store = some y)
  | .not_equal (.object k) =>
      ∀ y, s.kept[k]? = some y → ∃ z, l.get_linked_object s.store = some z ∧ z ≠ y
  | _ => True

/-- Of the comparisons with `==`. -/
theorem pointer_equal_iff (h : PointerCorrespondsAt σ l s t row G) (c : Comparison) :
    l.equal s.store s.kept c = t.equal c ↔ PointerMeets l s (.equal c) := by
  cases c with
  | null => exact iff_of_true h.equal_null trivial
  | object k => exact iff_of_true (h.equal_object k) trivial
  | refs i j => exact iff_of_true (h.equal_refs i j) trivial
  | ref_property i => exact h.equal_ref_property_iff i

/-- Of the comparisons with `!=`. -/
theorem pointer_not_equal_iff (h : PointerCorrespondsAt σ l s t row G) (c : Comparison) :
    l.not_equal s.store s.kept c = (t.equal c).map (!·) ↔ PointerMeets l s (.not_equal c) := by
  have hnot : Function.Injective (Option.map fun b : Bool => !b) :=
    Option.map_injective fun a b hab => Bool.not_inj hab
  cases c with
  | null => exact iff_of_true h.not_equal_null trivial
  | object k => exact h.not_equal_object_iff k
  | refs i j => exact iff_of_true (congrArg (Option.map (!·)) (h.equal_refs i j)) trivial
  | ref_property i => exact hnot.eq_iff.trans (h.equal_ref_property_iff i)

variable (hσ : σ.WellFormed) (hl : (l.m_key, .link l.T) ∈ (σ l.m_obj.table).properties)
include hσ hl

/-- **A call does what it is meant to do** exactly where it answers for the pointers. -/
theorem pointer_handle_iff (s : PointerStore) (t : PointerVariable) (c : PointerCall)
    (h : PointerCorresponds σ l s t) (hc : PointerMakes K σ l s c) :
    Client.AgreesAt (l.handle K σ) (PointerVariable.handle (σ l.T).is_embedded)
      (PointerCorresponds σ l) (s, t) c ↔ PointerMeets l s c := by
  have hcorresponds := h
  obtain ⟨row, G, h⟩ := h
  cases c with
  | assign o =>
    refine iff_of_true ?_ trivial
    cases o with
    | some o => exact h.assign_agrees hσ hl hc
    | none => exact h.set_agrees hσ hl none fun q hq => by cases hq
  | assign_managed k => exact iff_of_true (h.assign_managed_agrees hσ hl k) trivial
  | to_bool =>
    refine iff_of_true ⟨?_, hcorresponds⟩ trivial
    show (l.get_linked_object s.store).isSome = t.pointer.isSome
    rw [h.get_linked_object, Option.isSome_map]
  | arrow => exact iff_of_true h.keep_agrees trivial
  | equal c => exact (and_iff_left hcorresponds).trans (pointer_equal_iff h c)
  | not_equal c => exact (and_iff_left hcorresponds).trans (pointer_not_equal_iff h c)

/-- **A link property is as good as a pointer variable**, call by call, exactly in the
programs whose comparisons answer for the pointers; these end as with a variable.  Where
they end the property detaches to the object that is pointed to, but a null pointer to the
object that has the property. -/
theorem pointer_program_iff {S : Store} (hS : Store.WellFormed σ S)
    (howner : S.live l.m_obj = true) (hnull : l.cell S = Cell.one .null) {ρ : Type}
    (p : Client PointerCall PointerCall.Answer ρ)
    (hp : p.Along (l.handle K σ) (PointerMakes K σ l) ⟨S, []⟩) :
    (p.Along (Client.beside (l.handle K σ) (PointerVariable.handle (σ l.T).is_embedded))
        (Client.AgreesAt (l.handle K σ) (PointerVariable.handle (σ l.T).is_embedded)
          (PointerCorresponds σ l)) (⟨S, []⟩, .null) ↔
      p.Along (l.handle K σ) (PointerMeets l) ⟨S, []⟩) ∧
    (p.Along (l.handle K σ) (PointerMeets l) ⟨S, []⟩ →
      (p.run (l.handle K σ) ⟨S, []⟩).1 =
          (p.run (PointerVariable.handle (σ l.T).is_embedded) .null).1 ∧
        ((p.run (PointerVariable.handle (σ l.T).is_embedded) .null).2.pointer = none → ∀ n,
          l.detach σ (p.run (l.handle K σ) ⟨S, []⟩).2.store n =
            detachAs σ (p.run (l.handle K σ) ⟨S, []⟩).2.store n l.T l.m_obj) ∧
        ∀ v, (p.run (PointerVariable.handle (σ l.T).is_embedded) .null).2.object = some v →
          ∃ depth, ∀ n, depth ≤ n →
            ∃ d, l.detach σ (p.run (l.handle K σ) ⟨S, []⟩).2.store n = some d ∧
              SameTree σ d v) := by
  have hstart : PointerCorresponds σ l ⟨S, []⟩ .null := by
    refine ⟨fun _ => l.m_obj, fun _ => False, .nil hS howner, hnull, rfl, ?_, ?_⟩
    · intro p hp
      cases hp
    · intro p hp
      cases hp
  -- the conditions are on the property alone, so that the variable beside it can be left out
  have hiff := Client.along_agreesAt_iff_of_along (R := PointerCorresponds σ l)
    (P := fun st c => PointerMeets l st.1 c) (Q := fun st c => PointerMakes K σ l st.1 c)
    (fun s t c => pointer_handle_iff hσ hl s t c) p hstart
    ((Client.along_beside (PointerVariable.handle (σ l.T).is_embedded) p _ _).mpr hp)
  rw [Client.along_beside] at hiff
  refine ⟨hiff.1, fun hmeets => ?_⟩
  obtain ⟨hresult, row, G, hend⟩ := hiff.2 hmeets
  exact ⟨hresult, hend.detach hσ⟩

end Corresponds

def bestDog : ManagedPointer := ⟨⟨⟨0⟩, ⟨0⟩⟩, "best", ⟨1⟩⟩

/-- The best dog is another one, and then the first one again. -/
def bestProgram : Client PointerCall PointerCall.Answer (Option Bool × Option Bool) :=
  .call (.assign (some (dog 1))) fun _ => .call .arrow fun _ =>
    .call (.assign (some (dog 2))) fun _ => .call (.not_equal (.object 0)) fun changed =>
      .call (.assign_managed 0) fun _ => .call (.equal (.object 0)) fun back =>
        .ret (changed, back)

theorem pointer_program_iff_best :
    (bestProgram.Along
        (Client.beside (bestDog.handle integer_text dogSchemas) (PointerVariable.handle false))
        (Client.AgreesAt (bestDog.handle integer_text dogSchemas) (PointerVariable.handle false)
          (PointerCorresponds dogSchemas bestDog)) (⟨dogStore, []⟩, .null) ↔
      bestProgram.Along (bestDog.handle integer_text dogSchemas) (PointerMeets bestDog) ⟨dogStore, []⟩) ∧
    (bestProgram.Along (bestDog.handle integer_text dogSchemas) (PointerMeets bestDog) ⟨dogStore, []⟩ →
      (bestProgram.run (bestDog.handle integer_text dogSchemas) ⟨dogStore, []⟩).1 =
          (bestProgram.run (PointerVariable.handle false) .null).1 ∧
        ((bestProgram.run (PointerVariable.handle false) .null).2.pointer = none → ∀ n,
          bestDog.detach dogSchemas
              (bestProgram.run (bestDog.handle integer_text dogSchemas) ⟨dogStore, []⟩).2.store n =
            detachAs dogSchemas
              (bestProgram.run (bestDog.handle integer_text dogSchemas) ⟨dogStore, []⟩).2.store n ⟨1⟩
              ⟨⟨0⟩, ⟨0⟩⟩) ∧
        ∀ v, (bestProgram.run (PointerVariable.handle false) .null).2.object = some v →
          ∃ depth, ∀ n, depth ≤ n →
            ∃ d, bestDog.detach dogSchemas
                (bestProgram.run (bestDog.handle integer_text dogSchemas) ⟨dogStore, []⟩).2.store n =
              some d ∧ SameTree dogSchemas d v) :=
  pointer_program_iff dogSchemas_wellFormed (l := bestDog)
    (List.mem_cons_of_mem _ (List.mem_cons_of_mem _ List.mem_cons_self)) dogStore_wellFormed
    rfl rfl bestProgram
    ⟨dog_makes rfl, trivial, dog_makes rfl, trivial, trivial, trivial, trivial⟩

example : (bestProgram.run (bestDog.handle integer_text dogSchemas) ⟨dogStore, []⟩).1 =
    (some true, some true) := by
  decide

end RealmCpp.Accessors
