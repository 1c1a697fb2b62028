/-
  RealmCpp.Managed.MixedProperty
  ──────────────────────────────
  **A MIXED PROPERTY AS A VARIANT.**

  A mixed property holds a value of one of the alternatives of `realm::mixed`, or a
  link to an object.  It is assigned a value or given a link; what it holds is asked
  for by type, detached, or followed as a link.

    • `detach`, `holds_alternative`, `has_link`, `get_stored_link` — the questions,
    • `Held` — what a property holds, and their answers for it,
    • `MixedStep`, `run` — programs over the properties of a store,
    • `reads_of_holds` — one property, `mixed_program_iff` — all of them, after any
      program.
-/
import RealmCpp.Core.Store
import RealmCpp.Managed.Link
import RealmCpp.Managed.StorableValues

namespace RealmCpp.Managed

open RealmCpp.Library
open RealmCpp.Core
open RealmCpp.Bridge

/-! ## §1. The questions. -/

/-- The type that `holds_alternative` is asked about. -/
inductive MixedAlternative where
  | monostate
  | value (a : Alternative)
  | pointer (table : TableKey)
  /-- A type that nothing is stored as. -/
  | other
  deriving DecidableEq, Repr

/-- `managed<mixed>::stored_type`, of what can be stored. -/
inductive StoredType where
  | Int
  | Bool
  | String
  | Binary
  | Timestamp
  | Double
  | Decimal
  | ObjectId
  | TypedLink
  | UUID
  | Null
  deriving DecidableEq, Repr

namespace MixedProperty

/-- `m_obj->get<bridge::mixed>(m_key)`: null where nothing was set. -/
def stored (S : Store) (p : Property) : Mixed :=
  match S.cell p.m_obj p.m_key with
  | (_, v) :: _ => v
  | [] => .null

/-- `get_stored_type` of a core value. -/
def get_stored_type : Mixed → StoredType
  | .null => .Null
  | .int _ => .Int
  | .bool _ => .Bool
  | .string _ => .String
  | .binary _ => .Binary
  | .timestamp _ _ => .Timestamp
  | .double _ => .Double
  | .decimal128 _ _ => .Decimal
  | .object_id _ => .ObjectId
  | .link _ _ => .TypedLink
  | .uuid _ => .UUID

variable (S : Store) (p : Property)

/-- `holds_alternative<T>`, one case for each stored type. -/
def holds_alternative (T : MixedAlternative) : Bool :=
  match get_stored_type (stored S p) with
  | .Int => T = .value .int64
  | .Bool => T = .value .bool
  | .String => T = .value .string
  | .Binary => T = .value .binary
  | .Timestamp => T = .value .time_point
  | .Double => T = .value .double
  | .Decimal => T = .value .decimal128
  | .ObjectId => T = .value .object_id
  | .UUID => T = .value .uuid
  | .Null => T = .monostate
  | .TypedLink =>
      -- the table of the class against that of the link
      match T, stored S p with
      | .pointer alternative_key, .link stored_key _ => alternative_key = stored_key
      | _, _ => false

/-- `has_link`. -/
def has_link : Bool := get_stored_type (stored S p) = .TypedLink

/-- `get_stored_link<U*>`; none where it throws, and where there is no link. -/
def get_stored_link (alternative_key : TableKey) : Option Ref :=
  match stored S p with
  | .link stored_table key =>
      if alternative_key ≠ stored_table then none else some ⟨stored_table, key⟩
  | _ => none

variable (m : Storage) (K : CoreConversions)

/-- `detach`; none where it throws. -/
def detach : Option StorableType.mixed.Value := StorableType.mixed.read m K (stored S p)

end MixedProperty

/-! ## §2. What a property holds. -/

/-- **What a mixed property is for**: a value, `std::monostate` being none, or a link. -/
inductive Held where
  | value (v : StorableType.mixed.Value)
  | link (y : Ref)

namespace Held

/-- The type of what is held. -/
def alternative : Held → MixedAlternative
  | value none => .monostate
  | value (some ⟨a, _⟩) => .value a
  | link y => .pointer y.table

/-- What is stored for it. -/
def store (K : CoreConversions) : Held → Mixed
  | value v => StorableType.mixed.serialize K v
  | link y => y.link

/-- The link to an object of a class. -/
def linked (table : TableKey) : Held → Option Ref
  | value _ => none
  | link y => if table = y.table then some y else none

def isLink : Held → Bool
  | value _ => false
  | link _ => true

end Held

open MixedProperty

/-- **The answers for what is held**: one alternative, the link if it is one, and else
the value, unless it is a decimal that the core's text changes. -/
structure Reads (m : Storage) (K : CoreConversions) (S : Store) (p : Property) (h : Held) :
    Prop where
  alternative : ∀ T, holds_alternative S p T = true ↔ T = h.alternative
  has_link : has_link S p = h.isLink
  link : ∀ table, get_stored_link S p table = h.linked table
  value : ∀ v, h = .value v → (detach S p m K = some v ↔ StorableType.mixed.Kept K v)
  throws : ∀ y, h = .link y → detach S p m K = none

/-- A property answers for what is stored in it. -/
theorem reads_of_holds {m : Storage} {K : CoreConversions} {S : Store} {p : Property} {h : Held}
    (hs : stored S p = h.store K) : Reads m K S p h := by
  constructor
  case alternative =>
    -- what is stored has one type, of which `holds_alternative` knows one alternative
    intro T
    unfold holds_alternative
    rw [hs]
    cases h with
    | value v =>
      cases v with
      | none => simp [Held.store, StorableType.serialize, get_stored_type, Held.alternative]
      | some w =>
        obtain ⟨a, v⟩ := w
        cases a <;> simp [Held.store, StorableType.serialize, Alternative.serialize,
          get_stored_type, Held.alternative]
    | link y =>
      cases T <;> simp [Held.store, Ref.link, get_stored_type, Held.alternative]
  case has_link =>
    unfold MixedProperty.has_link
    rw [hs]
    cases h with
    | value v =>
      cases v with
      | none => rfl
      | some w =>
        obtain ⟨a, v⟩ := w
        cases a <;> rfl
    | link y => rfl
  case link =>
    intro table
    unfold get_stored_link
    rw [hs]
    cases h with
    | value v =>
      cases v with
      | none => rfl
      | some w =>
        obtain ⟨a, v⟩ := w
        cases a <;> rfl
    | link y =>
      by_cases htable : table = y.table
      · simp [Held.store, Ref.link, Held.linked, htable]
      · simp [Held.store, Ref.link, Held.linked, htable]
  case value =>
    rintro v rfl
    unfold MixedProperty.detach
    rw [hs]
    exact StorableType.mixed.read_iff m K v
  case throws =>
    rintro y rfl
    unfold MixedProperty.detach
    rw [hs]
    rfl

/-! ## §3. Programs. -/

/-- What a program does with the mixed properties of a store: it assigns a value, or
sets a link to a managed object.  The core raises outside of a write transaction, and
for objects that are not live. -/
inductive MixedStep where
  | assign (p : Property) (v : StorableType.mixed.Value)
  | set_link (p : Property) (link : Object)

namespace MixedStep

variable (K : CoreConversions) (in_write : Bool)

def property : MixedStep → Property
  | assign p _ | set_link p _ => p

/-- What the property is meant to hold after the step. -/
def held : MixedStep → Held
  | assign _ v => .value v
  | set_link _ link => .link link.m_obj

/-- What the core takes: in a write transaction, a write to a live object, and a link to
a live object only. -/
structure Possible (S : Store) (op : MixedStep) : Prop where
  in_write : in_write = true
  owner : S.live op.property.m_obj = true
  target : ∀ y, op.held = .link y → S.live y = true

/-- `m_obj->set`, of a column of an object; none where it raises. -/
def set (S : Store) (p : Property) (v : Mixed) : Option Store :=
  if in_write && S.live p.m_obj then S.tryWrite p.m_obj p.m_key (.set (Cell.one v)) else none

/-- `operator=` and `set_link`; none where it raises. -/
def step (S : Store) : MixedStep → Option Store
  | assign p v => set in_write S p (StorableType.mixed.serialize K v)
  | set_link p link => if S.live link.m_obj then set in_write S p link.m_obj.link else none

def run (S : Store) : List MixedStep → Option Store
  | [] => some S
  | op :: ops => (op.step K in_write S).bind fun S' => run S' ops

/-- Two properties of a store are one column of one object. -/
def Same (p q : Property) : Prop := p.m_obj = q.m_obj ∧ p.m_key = q.m_key

instance (p q : Property) : Decidable (Same p q) := inferInstanceAs (Decidable (_ ∧ _))

/-- What was last put into a property. -/
def last (p : Property) (ops : List MixedStep) : Option Held :=
  (ops.reverse.find? fun op => Same op.property p).map held

end MixedStep

open MixedStep

/-- A write replaces one cell, in a write transaction, of a live object. -/
theorem set_eq_some_iff {in_write : Bool} {S S' : Store} {p : Property} {v : Mixed} :
    MixedStep.set in_write S p v = some S' ↔ (in_write = true ∧ S.live p.m_obj = true) ∧
      S' = S.setCell p.m_obj p.m_key (Cell.one v) := by
  unfold MixedStep.set
  by_cases h : (in_write && S.live p.m_obj) = true
  · rw [if_pos h]
    rw [Bool.and_eq_true] at h
    show some (S.setCell p.m_obj p.m_key (Cell.one v)) = some S' ↔ _
    rw [Option.some.injEq, and_iff_right h]
    exact eq_comm
  · rw [if_neg h]
    rw [Bool.and_eq_true] at h
    exact iff_of_false (by simp) fun hset => h hset.1

/-- A step replaces one cell, with what is meant. -/
theorem step_eq_some_iff {K : CoreConversions} {in_write : Bool} {S S' : Store} {op : MixedStep} :
    op.step K in_write S = some S' ↔ op.Possible in_write S ∧
      S' = S.setCell op.property.m_obj op.property.m_key (Cell.one (op.held.store K)) := by
  cases op with
  | assign p v =>
    show MixedStep.set in_write S p _ = some S' ↔ _
    rw [set_eq_some_iff]
    refine and_congr_left fun _ => ?_
    constructor
    · intro hset
      exact ⟨hset.1, hset.2, fun y hy => by cases hy⟩
    · intro hpossible
      exact ⟨hpossible.in_write, hpossible.owner⟩
  | set_link p link =>
    show (if S.live link.m_obj then MixedStep.set in_write S p link.m_obj.link else none) = _ ↔ _
    by_cases hlive : S.live link.m_obj = true
    · rw [if_pos hlive, set_eq_some_iff]
      refine and_congr_left fun _ => ?_
      constructor
      · intro hset
        refine ⟨hset.1, hset.2, fun y hy => ?_⟩
        obtain rfl := Held.link.inj hy
        exact hlive
      · intro hpossible
        exact ⟨hpossible.in_write, hpossible.owner⟩
    · rw [if_neg hlive]
      exact iff_of_false (by simp) fun hstep => hlive (hstep.1.target link.m_obj rfl)

/-- What a property holds after one cell was replaced. -/
theorem stored_setCell (S : Store) (p q : Property) (v : Mixed) :
    stored (S.setCell q.m_obj q.m_key (Cell.one v)) p =
      if Same q p then v else stored S p := by
  unfold stored
  by_cases hsame : Same q p
  · rw [if_pos hsame, ← hsame.1, ← hsame.2, Store.setCell_cell_self]
    rfl
  · have hother : ¬ (p.m_obj = q.m_obj ∧ p.m_key = q.m_key) :=
      fun h => hsame ⟨h.1.symm, h.2.symm⟩
    rw [if_neg hsame, Store.setCell_cell, if_neg hother]

theorem last_cons (p : Property) (op : MixedStep) (ops : List MixedStep) :
    last p (op :: ops) = (last p ops).or (if Same op.property p then some op.held else none) := by
  unfold last
  rw [List.reverse_cons, List.find?_append]
  cases ops.reverse.find? fun op => Same op.property p with
  | some o => rfl
  | none =>
    by_cases hsame : Same op.property p
    · simp [hsame]
    · simp [hsame]

/-- The store after a step that is possible. -/
def MixedStep.after (K : CoreConversions) (S : Store) (op : MixedStep) : Store :=
  S.setCell op.property.m_obj op.property.m_key (Cell.one (op.held.store K))

/-- A step creates and removes no objects. -/
theorem possible_after (K : CoreConversions) (in_write : Bool) (S : Store) (op o : MixedStep) :
    o.Possible in_write (op.after K S) ↔ o.Possible in_write S := by
  constructor
  · intro h
    exact ⟨h.in_write, h.owner, h.target⟩
  · intro h
    exact ⟨h.in_write, h.owner, h.target⟩

theorem run_cons_of_possible {K : CoreConversions} {in_write : Bool} {S : Store} {op : MixedStep}
    (hop : op.Possible in_write S) (ops : List MixedStep) :
    run K in_write S (op :: ops) = run K in_write (op.after K S) ops := by
  have hstep : op.step K in_write S = some (op.after K S) := step_eq_some_iff.mpr ⟨hop, rfl⟩
  rw [run, hstep]
  rfl

theorem run_cons_of_not_possible {K : CoreConversions} {in_write : Bool} {S : Store}
    {op : MixedStep} (hop : ¬ op.Possible in_write S) (ops : List MixedStep) :
    run K in_write S (op :: ops) = none := by
  have hstep : op.step K in_write S = none := by
    cases hs : op.step K in_write S with
    | none => rfl
    | some S₁ => exact absurd (step_eq_some_iff.mp hs).1 hop
  rw [run, hstep]
  rfl

/-- What is read after a step and a program, from what is read after the program. -/
theorem reads_cons {m : Storage} {K : CoreConversions} {S S' : Store} {op : MixedStep}
    {ops : List MixedStep} {p : Property} (hset : ∀ h, last p ops = some h → Reads m K S' p h)
    (hunset : last p ops = none → stored S' p = stored (op.after K S) p) :
    (∀ h, last p (op :: ops) = some h → Reads m K S' p h) ∧
      (last p (op :: ops) = none → stored S' p = stored S p) := by
  have hstored : stored (op.after K S) p =
      if Same op.property p then op.held.store K else stored S p :=
    stored_setCell S p op.property (op.held.store K)
  rw [last_cons]
  cases hlast : last p ops with
  | some h' =>
    -- it is written again later
    exact ⟨fun h hh => hset h (hlast.trans hh), nofun⟩
  | none =>
    have hS'p := hunset hlast
    by_cases hsame : Same op.property p
    · rw [if_pos hsame] at hstored ⊢
      refine ⟨fun h hh => ?_, nofun⟩
      obtain rfl := Option.some.inj hh
      exact reads_of_holds (hS'p.trans hstored)
    · rw [if_neg hsame] at hstored ⊢
      exact ⟨fun h hh => by simp at hh, fun _ => hS'p.trans hstored⟩

/-- **A program over mixed properties** goes through exactly where each of its writes is in
a write transaction, to a live object, and its links are to live objects.  Then each
property answers for what was last put into it, and one that nothing was put into is as
it was. -/
theorem mixed_program_iff (m : Storage) (K : CoreConversions) (in_write : Bool) (S : Store)
    (ops : List MixedStep) :
    ((∃ S', run K in_write S ops = some S') ↔ ∀ op ∈ ops, op.Possible in_write S) ∧
      ∀ S', run K in_write S ops = some S' → ∀ p,
        (∀ h, last p ops = some h → Reads m K S' p h) ∧
        (last p ops = none → stored S' p = stored S p) := by
  induction ops generalizing S with
  | nil =>
    refine ⟨⟨fun _ op hop => absurd hop List.not_mem_nil, fun _ => ⟨S, rfl⟩⟩, fun S' hrun p => ?_⟩
    obtain rfl := Option.some.inj hrun
    exact ⟨fun h hh => by simp [last] at hh, fun _ => rfl⟩
  | cons op ops ih =>
    by_cases hop : op.Possible in_write S
    · obtain ⟨hdefined, hreads⟩ := ih (op.after K S)
      rw [run_cons_of_possible hop]
      refine ⟨?_, fun S' hS' p => reads_cons (hreads S' hS' p).1 (hreads S' hS' p).2⟩
      rw [hdefined]
      simp only [List.forall_mem_cons, hop, true_and, possible_after]
    · rw [run_cons_of_not_possible hop]
      refine ⟨iff_of_false (by simp) fun h => hop (h op List.mem_cons_self), ?_⟩
      intro S' hS'
      cases hS'

end RealmCpp.Managed
