/-
  RealmCpp.Managed.LinkComparison
  ───────────────────────────────
  **A LINK COMPARED WITH AN OBJECT OR WITH `nullptr`.**

  `==` and `!=` of a link property have a branch for objects and one for
  queries, and the latter goes two ways, with and without a chain of links.  The
  right-hand side is `nullptr` or a `managed<T>`, which need not be valid: a
  default one has neither a realm nor a key.

    • `equal`, `not_equal` — the operators on an object,
    • `where_equal`, `where_not_equal` — the queries they build,
    • `link_comparison_iff` — exactly when they are one relation and its negation.
-/
import RealmCpp.Managed.ScalarAgreement

namespace RealmCpp.Managed.LinkComparison

open RealmCpp.Library
open RealmCpp.Core
open RealmCpp.Bridge
open RealmCpp.Rbool

variable {m : Storage}

/-! ## §1. The operators. -/

/-- What the comparisons read of a `managed<T>`: its realm and the key of its
object; a default one has none. -/
structure ManagedObject where
  m_realm : Option Nat
  key : Option ObjKey
  deriving DecidableEq, Repr

/-- The right-hand side: `nullptr` or an object. -/
inductive Operand where
  | null
  | object (r : ManagedObject)
  deriving DecidableEq, Repr

/-- `managed<T*>::operator==` on an object: `target` is the key that the link
property holds, none where it is null, and `m_realm` is the realm of the property. -/
def equal (m_realm : Nat) (target : Option ObjKey) : Operand → Bool
  | .null => target.isNone
  | .object r => if some m_realm ≠ r.m_realm then false else target == r.key

/-- `managed<T*>::operator!=` on an object: every overload asks whether the
linked object is valid. -/
def not_equal (target : Option ObjKey) : Operand → Bool
  | .null => target.isSome
  | .object _ => target.isSome

/-! ## §2. Their queries. -/

/-- The argument of `rbool::link_equal`: `std::nullopt`, or the object's `obj`,
which may have no key. -/
def Operand.rhs : Operand → Option (Option ObjKey)
  | .null => none
  | .object r => some r.key

/-- `subexpr::equal` for links: with `std::nullopt` it is `!= null()`. -/
def subexpr_equal : Option (Option ObjKey) → Test
  | some key => .links_to key
  | none => .not_links_to none

/-- `subexpr::not_equal` for links. -/
def subexpr_not_equal : Option (Option ObjKey) → Test
  | some key => .not_links_to key
  | none => .not_links_to none

/-- What the two methods of the `rbool` share: at the end of a chain a query of
its own with the test `chained`, without one a condition on `q`. -/
def link_condition (w : Context m) (col_key : ColKey) (chained direct : Test) :
    Option (Context m) :=
  match w.m_link_chain with
  | some lc => do
      let q ← (lc.column .link col_key).query .link chained
      some { w.setQ q with m_link_chain := none }
  | none => some (w.addToQ ⟨[], col_key, direct⟩)

/-- `rbool::link_equal`; `obj()` has no key. -/
def rbool_link_equal (w : Context m) (col_key : ColKey) (rhs : Option (Option ObjKey)) :
    Option (Context m) :=
  link_condition w col_key (subexpr_equal rhs) (.links_to (rhs.getD none))

/-- `rbool::link_not_equal`. -/
def rbool_link_not_equal (w : Context m) (col_key : ColKey) (rhs : Option (Option ObjKey)) :
    Option (Context m) :=
  link_condition w col_key (subexpr_not_equal rhs) (.not_links_to (rhs.getD none))

/-- For objects that have a key, these are the methods of a `where` callback. -/
theorem rbool_link_of_key (w : Context m) (col_key : ColKey) (rhs : Option ObjKey) :
    rbool_link_equal w col_key (rhs.map some) = w.link_equal col_key rhs ∧
      rbool_link_not_equal w col_key (rhs.map some) = w.link_not_equal col_key rhs := by
  unfold rbool_link_equal rbool_link_not_equal Context.link_equal Context.link_not_equal
  cases rhs <;> exact ⟨rfl, rfl⟩

/-- The query of a comparison `method` at the end of a path of links. -/
def where_link (schema : Schema) (t : TableKey) (path : List ColKey)
    (method : Context m → Option (Context m)) : Option Query := do
  let w ← run schema (path.map Step.link) (Context.init m t)
  let w' ← method w
  some w'.q

/-- The query of `==`. -/
def where_equal (m : Storage) (schema : Schema) (t : TableKey) (path : List ColKey)
    (col : ColKey) (r : Operand) : Option Query :=
  where_link (m := m) schema t path fun w => rbool_link_equal w col r.rhs

/-- The query of `!=`. -/
def where_not_equal (m : Storage) (schema : Schema) (t : TableKey) (path : List ColKey)
    (col : ColKey) (r : Operand) : Option Query :=
  where_link (m := m) schema t path fun w => rbool_link_not_equal w col r.rhs

/-! ## §3. What the queries ask. -/

/-- **The query of a comparison asks one test of the column behind the path**:
`chained` if there is a path, else `direct`. -/
theorem where_link_eq (schema : Schema) (t : TableKey) (path : List ColKey) (col : ColKey)
    (chained direct : Test) :
    where_link (m := m) schema t path (fun w => link_condition w col chained direct)
      = some (Query.only t ⟨path.map .link, col, if path = [] then direct else chained⟩) := by
  have hlinks : run schema (path.map Step.link ++ []) (Context.init m t)
      = run schema [] ((Context.init m t).atPath path) := run_links path [] _ rfl
  rw [List.append_nil] at hlinks
  unfold where_link
  rw [hlinks]
  cases path with
  | nil =>
    show some ((Context.init m t).addToQ ⟨[], col, direct⟩).q = _
    rw [Context.addToQ_q]
    rfl
  | cons c path =>
    -- the chain gives a query of its own, which the shared one is assigned
    show some (Context.setQ _ (Query.only t ⟨(c :: path).map .link, col, chained⟩)).q = _
    rw [Context.setQ_q]
    rfl

/-! ## §4. One relation. -/

/-- **What the four results of `==` and `!=` should be to each other**, where
`target` is the key that the link holds. -/
structure OneRelation (target : Option ObjKey) (r : Operand)
    (equal not_equal where_equal where_not_equal : Bool) : Prop where
  modes : equal = where_equal
  modes_not : not_equal = where_not_equal
  negation : not_equal = !equal
  where_negation : where_not_equal = !where_equal
  null : r = .null → (equal = true ↔ target = none) ∧ (where_equal = true ↔ target = none)

/-- Where they are: `nullptr` is compared without a path; an object is neither the
linked one nor compared with a null link, unless neither has a key and they are
of one realm. -/
def Agrees (m_realm : Nat) (path : List ColKey) (target : Option ObjKey) : Operand → Prop
  | .null => path = []
  | .object r =>
      if target = none then r.key = none ∧ r.m_realm = some m_realm else r.key ≠ target

/-- With an object on the right, nothing is asked of null. -/
theorem oneRelation_object {target : Option ObjKey} {r : ManagedObject} {a b c d : Bool} :
    OneRelation target (.object r) a b c d ↔ a = c ∧ b = d ∧ b = (!a) ∧ d = !c :=
  ⟨fun h => ⟨h.modes, h.modes_not, h.negation, h.where_negation⟩,
    fun h => ⟨h.1, h.2.1, h.2.2.1, h.2.2.2, fun hr => by cases hr⟩⟩

/-- On the object, `==` asks for the realm and the key. -/
theorem equal_object (m_realm : Nat) (target : Option ObjKey) (r : ManagedObject) :
    equal m_realm target (.object r)
      = (decide (r.m_realm = some m_realm) && target == r.key) := by
  unfold equal
  by_cases h : r.m_realm = some m_realm
  · simp [h]
  · have h' : some m_realm ≠ r.m_realm := fun e => h e.symm
    simp [h, h']

/-- **An object on the right-hand side**: the query compares the keys, `==` on
the object the realms as well, and `!=` on the object neither. -/
theorem object_agrees_iff (m_realm : Nat) (path : List ColKey) (target : Option ObjKey)
    (r : ManagedObject) :
    OneRelation target (.object r) (equal m_realm target (.object r))
        (not_equal target (.object r)) (target == r.key) (target != r.key)
      ↔ Agrees m_realm path target (.object r) := by
  rw [oneRelation_object, equal_object]
  unfold not_equal Agrees
  by_cases hhit : target = r.key
  · -- the object is the linked one, or both are null
    have hkey := hhit.symm
    cases target <;> simp [hkey]
  · have hkey : ¬r.key = target := fun h => hhit h.symm
    cases target <;> simp [hkey, hhit, bne]

/-- **`nullptr` on the right-hand side**, where `chained` says whether the query
goes through a path: there it asks the opposite. -/
theorem null_agrees_iff (m_realm : Nat) (path : List ColKey) (target : Option ObjKey) :
    OneRelation target .null (equal m_realm target .null) (not_equal target .null)
        (if path = [] then target == none else target != none) (target != none)
      ↔ Agrees m_realm path target .null := by
  unfold Agrees
  constructor
  · intro h
    by_contra hpath
    -- behind a path the query asks for the objects with a link
    have hmodes := h.modes
    rw [if_neg hpath] at hmodes
    cases target <;> simp [equal] at hmodes
  · intro hpath
    rw [if_pos hpath]
    cases target <;> constructor <;> simp [equal, not_equal]

/-- **Exactly when the comparisons of a link are one relation and its negation**,
on every object, directly or behind links that are not null, with every
right-hand side: on the object, in a query, and with null for `nullptr`. -/
theorem link_comparison_iff (m : Storage) (schema : Schema) (K : Semantics) (R : Rows)
    (m_realm : Nat) (t : TableKey) (x : ObjKey) (path : List ColKey) (col : ColKey)
    (r : Operand) (y : Ref) (hy : R.follow (path.map .link) ⟨t, x⟩ = some y) :
    ∃ q q', where_equal m schema t path col r = some q ∧
      where_not_equal m schema t path col r = some q' ∧
      (OneRelation (Semantics.linked (R.value y col)) r
          (equal m_realm (Semantics.linked (R.value y col)) r)
          (not_equal (Semantics.linked (R.value y col)) r)
          (q.Matches (K.sat R t) x) (q'.Matches (K.sat R t) x)
        ↔ Agrees m_realm path (Semantics.linked (R.value y col)) r) := by
  refine ⟨_, _, where_link_eq schema t path col _ _, where_link_eq schema t path col _ _, ?_⟩
  rw [Query.matches_only, Query.matches_only, Semantics.sat_of_follow hy,
    Semantics.sat_of_follow hy]
  cases r with
  | object r =>
    -- with an object, the chain and the link itself ask the same
    rw [← object_agrees_iff m_realm path]
    simp only [Operand.rhs, subexpr_equal, subexpr_not_equal, Option.getD_some, ite_self]
    exact Iff.rfl
  | null =>
    rw [← null_agrees_iff m_realm path]
    simp only [Operand.rhs, subexpr_equal, subexpr_not_equal, Option.getD_none, ite_self]
    by_cases hpath : path = []
    · rw [if_pos hpath, if_pos hpath]
      exact Iff.rfl
    · rw [if_neg hpath, if_neg hpath]
      exact Iff.rfl

/-- A table of objects whose column 1 links to object 7 of table 1, and column 2
to object 3 of table 0. -/
def linkedRows : Rows where
  value _ col := if col = ⟨1⟩ then .link ⟨1⟩ ⟨7⟩ else .link ⟨0⟩ ⟨3⟩
  entries _ _ := []

/-- `o.link == r` for the object `r` of key 8 in the same realm. -/
theorem link_comparison_iff_other :
    ∃ q, where_equal .byValue (Schema.uniform .link ⟨1⟩) ⟨0⟩ [] ⟨1⟩
        (.object ⟨some 0, some ⟨8⟩⟩) = some q ∧
      q.Matches (asciiCore.sat linkedRows ⟨0⟩) ⟨5⟩ = false := by
  obtain ⟨q, q', hq, -, hiff⟩ := link_comparison_iff .byValue (Schema.uniform .link ⟨1⟩) asciiCore
    linkedRows 0 ⟨0⟩ ⟨5⟩ [] ⟨1⟩ (.object ⟨some 0, some ⟨8⟩⟩) ⟨⟨0⟩, ⟨5⟩⟩ rfl
  refine ⟨q, hq, ?_⟩
  have hone := hiff.mpr (show (some ⟨8⟩ : Option ObjKey) ≠ some ⟨7⟩ by decide)
  exact hone.modes.symm

/-- **Link comparisons that are not one relation**: `o.link != r` on an object that
links to `r`, and the query of `o->parent->link == nullptr`, whose links are not null. -/
theorem link_comparison_differs :
    let schema : Schema := (Schema.uniform .link ⟨1⟩)
    let r : Operand := .object ⟨some 0, some ⟨7⟩⟩
    equal 0 (some ⟨7⟩) r = true ∧ not_equal (some ⟨7⟩) r = true ∧
      (where_equal .byValue schema ⟨0⟩ [⟨2⟩] ⟨1⟩ .null).map
        (fun q => q.Matches (asciiCore.sat linkedRows ⟨0⟩) ⟨5⟩) = some true ∧
      equal 0 (some ⟨7⟩) .null = false := by
  exact ⟨by decide, by decide, by decide, by decide⟩

end RealmCpp.Managed.LinkComparison
