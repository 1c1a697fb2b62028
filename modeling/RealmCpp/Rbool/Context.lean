/-
  RealmCpp.Rbool.Context
  ──────────────────────
  **THE SHARED `rbool` OF A `where` CALLBACK, AND ITS COMPARISON METHODS.**

  A `where` callback runs against one shared `rbool`: every managed property of
  the query object points at it.  `->` on a link or on a dictionary entry leaves
  a pending prefix in it, a comparison writes its query into it, and the managed
  operators hand out a copy.  The copies are what `&&`, `||` and `!` work on.

    • `Context` — the shared `rbool` (object 0) and all `rbool`s made from it,
    • `Leaf.run` — the comparison methods of `rbool`, one branch an overload,
    • `Step.run` — one step of a callback.
-/
import RealmCpp.Bridge.Query

namespace RealmCpp.Rbool

open RealmCpp.Library
open RealmCpp.Core
open RealmCpp.Bridge

/-! ## §1. State. -/

/-- `rbool::dictionary_context`. -/
structure DictionaryContext where
  origin_col_key : ColKey
  m_key : String
  deriving DecidableEq, Repr

/-- The shared `rbool` and the query-mode `rbool`s made so far.  Object 0 of
`queries` is the shared `rbool`'s `q`; it lives as long as the callback runs. -/
structure Context (m : Storage) where
  queries : Queries m
  m_link_chain : Option LinkChain
  m_table : TableKey
  m_dictionary_ctx : Option DictionaryContext
  live : 0 < queries.count

namespace Context

variable {m : Storage}

/-- The query of the shared `rbool`. -/
abbrev q (w : Context m) : Query := w.queries.get 0

/-- The number of `rbool`s, the shared one included. -/
abbrev count (w : Context m) : Nat := w.queries.count

/-- The query of the `i`-th `rbool`. -/
abbrev core (w : Context m) (i : Nat) : Query := w.queries.get i

/-- `i` is an `rbool` that the callback holds. -/
def Operand (w : Context m) (i : Nat) : Prop := 0 < i ∧ i < w.count

instance (w : Context m) (i : Nat) : Decidable (w.Operand i) :=
  inferInstanceAs (Decidable (_ ∧ _))

/-- No prefix waits for a comparison. -/
def NoPending (w : Context m) : Prop := w.m_link_chain = none ∧ w.m_dictionary_ctx = none

/-- `rbool(query(table_ref))`, as `results::where` makes it. -/
def init (m : Storage) (table_ref : TableKey) : Context m where
  queries := (Handles.empty (Query.ofTable table_ref)).create (Query.ofTable table_ref)
  m_link_chain := none
  m_table := table_ref
  m_dictionary_ctx := none
  live := Nat.zero_lt_one

/-- `q = …` from a temporary query. -/
def setQ (w : Context m) (q : Query) : Context m :=
  { w with queries := w.queries.assign 0 q, live := by simpa using w.live }

/-- A column condition called on `q` itself. -/
def addToQ (w : Context m) (c : Condition) : Context m :=
  { w with queries := addCondition w.queries 0 c, live := by simpa using w.live }

/-- Copy construction of a new `rbool`: only `q` is copied. -/
def copy (w : Context m) (i : Nat) (hi : i < w.count) : Context m :=
  { w with queries := w.queries.copy i hi, live := by simp }

/-- Construction of a new `rbool` from a temporary query. -/
def create (w : Context m) (q : Query) : Context m :=
  { w with queries := w.queries.create q, live := by simp }

/-! ## §2. Prefixes. -/

/-- `rbool::add_link_chain`. -/
def add_link_chain (w : Context m) (col_key : ColKey) : Context m :=
  match w.m_link_chain with
  | some lc => { w with m_link_chain := some (lc.link col_key) }
  | none => { w with m_link_chain := some ⟨w.m_table, [col_key]⟩ }

/-- `rbool::add_dictionary_link_chain`. -/
def add_dictionary_link_chain (w : Context m) (ctx : DictionaryContext) : Context m :=
  { w with m_dictionary_ctx := some ctx }

/-! ## §3. Comparison methods. -/

/-- `define_query` and `define_numeric_query`: the method `op` for one column
type.  A `rhs` of `null` is `std::nullopt`. -/
def define_query (schema : Schema) (w : Context m) (type : DataType) (op : Comparison)
    (col_key : ColKey) (rhs : Mixed) : Option (Context m) :=
  match w.m_link_chain with
  | some lc => do
      let q ← (lc.column type col_key).query type (.compare op rhs)
      some { w.setQ q with m_link_chain := none }
  | none =>
    match w.m_dictionary_ctx with
    | some ctx => do
        let e ← dictionary_link_subexpr schema w.q ctx.origin_col_key col_key ctx.m_key
        let q ← e.query type (.compare op rhs)
        some { w.setQ q with m_dictionary_ctx := none }
    | none => some (w.setQ ((Query.ofTable w.q.table).addCondition ⟨[], col_key, .compare op rhs⟩))

/-- `rbool::contains`. -/
def contains (w : Context m) (col_key : ColKey) (rhs : String) (case_sensitive : Bool) :
    Option (Context m) :=
  match w.m_link_chain with
  | some lc => do
      let q ← (lc.column .string col_key).query .string (.contains rhs case_sensitive)
      some { w.setQ q with m_link_chain := none }
  | none =>
      some (w.setQ ((Query.ofTable w.q.table).addCondition
        ⟨[], col_key, .contains rhs case_sensitive⟩))

/-- `rbool::mixed_equal`: through a chain a string column expression is
requested and then cast to a mixed one, whatever `rhs` is. -/
def mixed_equal (w : Context m) (col_key : ColKey) (rhs : Mixed) : Option (Context m) :=
  match w.m_link_chain with
  | some lc => do
      let q ← (lc.column .string col_key).query .mixed (.compare .equal rhs)
      some { w.setQ q with m_link_chain := none }
  | none => some (w.addToQ ⟨[], col_key, .compare .equal rhs⟩)

/-- `subexpr::mixed_not_equal`: `if (rhs)` asks for the bool that `rhs` stores,
and where that is `false` the comparison is with null. -/
def subexpr_mixed_not_equal (schema : Schema) (rhs : Mixed) : Option Test := do
  let b ← schema.to_bool rhs
  some (.compare .not_equal (if b then rhs else .null))

/-- `rbool::mixed_not_equal`. -/
def mixed_not_equal (schema : Schema) (w : Context m) (col_key : ColKey) (rhs : Mixed) :
    Option (Context m) :=
  match w.m_link_chain with
  | some lc => do
      let t ← subexpr_mixed_not_equal schema rhs
      let q ← (lc.column .mixed col_key).query .mixed t
      some { w.setQ q with m_link_chain := none }
  | none => some (w.addToQ ⟨[], col_key, .compare .not_equal rhs⟩)

/-- `subexpr::equal` for links: a null right-hand side is compared with `!=`. -/
def subexpr_link_equal (rhs : Option ObjKey) : Test :=
  match rhs with
  | some key => .links_to (some key)
  | none => .not_links_to none

/-- `rbool::link_equal`. -/
def link_equal (w : Context m) (col_key : ColKey) (rhs : Option ObjKey) : Option (Context m) :=
  match w.m_link_chain with
  | some lc => do
      let q ← (lc.column .link col_key).query .link (subexpr_link_equal rhs)
      some { w.setQ q with m_link_chain := none }
  | none => some (w.addToQ ⟨[], col_key, .links_to rhs⟩)

/-- `rbool::link_not_equal`. -/
def link_not_equal (w : Context m) (col_key : ColKey) (rhs : Option ObjKey) :
    Option (Context m) :=
  match w.m_link_chain with
  | some lc => do
      let q ← (lc.column .link col_key).query .link (.not_links_to rhs)
      some { w.setQ q with m_link_chain := none }
  | none => some (w.addToQ ⟨[], col_key, .not_links_to rhs⟩)

/-- What the dictionary methods share: a query of its own over `q`'s table. -/
def dictionary_query (w : Context m) (column_key : ColKey) (t : Test) : Option (Context m) :=
  some (w.setQ (Query.only w.q.table ⟨[], column_key, t⟩))

/-- `rbool::dictionary_has_value_for_key_equals`. -/
def dictionary_has_value_for_key_equals (w : Context m) (column_key : ColKey) (key : String)
    (value : Mixed) : Option (Context m) :=
  w.dictionary_query column_key (.dictionary_value .equal key value)

/-- `rbool::dictionary_has_value_for_key_not_equals`. -/
def dictionary_has_value_for_key_not_equals (w : Context m) (column_key : ColKey) (key : String)
    (value : Mixed) : Option (Context m) :=
  w.dictionary_query column_key (.dictionary_value .not_equal key value)

/-- `rbool::dictionary_has_value_for_key_greater_than`. -/
def dictionary_has_value_for_key_greater_than (w : Context m) (column_key : ColKey)
    (key : String) (value : Mixed) : Option (Context m) :=
  w.dictionary_query column_key (.dictionary_value .greater key value)

/-- `rbool::dictionary_has_value_for_key_less_than`. -/
def dictionary_has_value_for_key_less_than (w : Context m) (column_key : ColKey) (key : String)
    (value : Mixed) : Option (Context m) :=
  w.dictionary_query column_key (.dictionary_value .less key value)

/-- `rbool::dictionary_has_value_for_key_greater_than_equals`. -/
def dictionary_has_value_for_key_greater_than_equals (w : Context m) (column_key : ColKey)
    (key : String) (value : Mixed) : Option (Context m) :=
  w.dictionary_query column_key (.dictionary_value .greater_equal key value)

/-- `rbool::dictionary_has_value_for_key_less_than_equals`. -/
def dictionary_has_value_for_key_less_than_equals (w : Context m) (column_key : ColKey)
    (key : String) (value : Mixed) : Option (Context m) :=
  w.dictionary_query column_key (.dictionary_value .less_equal key value)

/-- `rbool::dictionary_contains_string_for_key`. -/
def dictionary_contains_string_for_key (w : Context m) (column_key : ColKey) (key value : String) :
    Option (Context m) :=
  w.dictionary_query column_key (.dictionary_contains_string key value)

/-- `rbool::dictionary_has_key`. -/
def dictionary_has_key (w : Context m) (column_key : ColKey) (key : String) :
    Option (Context m) :=
  w.dictionary_query column_key (.dictionary_contains_key key)

/-! ## §4. Operators. -/

/-- `operator&&` in query mode. -/
def and (w : Context m) (i j : Nat) (hi : w.Operand i) : Context m :=
  let w' : Context m := { w with queries := and_query w.queries i j }
  w'.copy i hi.2

/-- `operator||` in query mode. -/
def or (w : Context m) (i j : Nat) (hi : w.Operand i) : Context m :=
  let w' : Context m :=
    { w with queries := assign_or w.queries i j, live := by simpa using w.live }
  w'.copy i (by simpa [w', count] using hi.2)

/-- `operator!` in query mode. -/
def not (w : Context m) (i : Nat) (hi : w.Operand i) : Context m :=
  let w' : Context m :=
    { w with queries := negate w.queries i, live := by simpa using w.live }
  w'.copy i (by simpa [w', count] using hi.2)

/-- `truepredicate`. -/
def truepredicate (w : Context m) : Context m := w.create (Query.ofTable w.q.table)

/-- `falsepredicate`. -/
def falsepredicate (w : Context m) : Context m :=
  w.create ((Query.ofTable w.q.table).and_query ⟨w.q.table, .fls⟩)

end Context

/-! ## §5. Steps of a callback. -/

/-- A comparison, by the method that carries it out. -/
inductive Leaf where
  | compare (type : DataType) (op : Comparison) (col : ColKey) (rhs : Mixed)
  | contains (col : ColKey) (rhs : String) (case_sensitive : Bool)
  | mixed_equal (col : ColKey) (rhs : Mixed)
  | mixed_not_equal (col : ColKey) (rhs : Mixed)
  | link_equal (col : ColKey) (rhs : Option ObjKey)
  | link_not_equal (col : ColKey) (rhs : Option ObjKey)
  | dictionary_has_value_for_key (op : Comparison) (col : ColKey) (key : String) (value : Mixed)
  | dictionary_contains_string_for_key (col : ColKey) (key value : String)
  | dictionary_has_key (col : ColKey) (key : String)
  deriving DecidableEq, Repr

namespace Leaf

variable {m : Storage}

/-- The effect of the method on the shared `rbool`; no result where the method
dereferences a failed cast. -/
def run (schema : Schema) (w : Context m) : Leaf → Option (Context m)
  | compare type op col rhs => w.define_query schema type op col rhs
  | contains col rhs cs => w.contains col rhs cs
  | mixed_equal col rhs => w.mixed_equal col rhs
  | mixed_not_equal col rhs => w.mixed_not_equal schema col rhs
  | link_equal col rhs => w.link_equal col rhs
  | link_not_equal col rhs => w.link_not_equal col rhs
  | dictionary_has_value_for_key .equal col key v =>
      w.dictionary_has_value_for_key_equals col key v
  | dictionary_has_value_for_key .not_equal col key v =>
      w.dictionary_has_value_for_key_not_equals col key v
  | dictionary_has_value_for_key .greater col key v =>
      w.dictionary_has_value_for_key_greater_than col key v
  | dictionary_has_value_for_key .less col key v =>
      w.dictionary_has_value_for_key_less_than col key v
  | dictionary_has_value_for_key .greater_equal col key v =>
      w.dictionary_has_value_for_key_greater_than_equals col key v
  | dictionary_has_value_for_key .less_equal col key v =>
      w.dictionary_has_value_for_key_less_than_equals col key v
  | dictionary_contains_string_for_key col key v =>
      w.dictionary_contains_string_for_key col key v
  | dictionary_has_key col key => w.dictionary_has_key col key

/-- The column the comparison is about. -/
def col : Leaf → ColKey
  | compare _ _ c _ | contains c _ _ | mixed_equal c _ | mixed_not_equal c _ | link_equal c _
  | link_not_equal c _ | dictionary_has_value_for_key _ c _ _
  | dictionary_contains_string_for_key c _ _ | dictionary_has_key c _ => c

/-- What the comparison asks of its column: the leaf's own predicate. -/
def test : Leaf → Test
  | compare _ op _ rhs => .compare op rhs
  | contains _ rhs cs => .contains rhs cs
  | mixed_equal _ rhs => .compare .equal rhs
  | mixed_not_equal _ rhs => .compare .not_equal rhs
  | link_equal _ rhs => .links_to rhs
  | link_not_equal _ rhs => .not_links_to rhs
  | dictionary_has_value_for_key op _ key v => .dictionary_value op key v
  | dictionary_contains_string_for_key _ key v => .dictionary_contains_string key v
  | dictionary_has_key _ key => .dictionary_contains_key key

/-- The leaf's own predicate at the end of a path. -/
def condition (path : List PathStep) (l : Leaf) : Condition := ⟨path, l.col, l.test⟩

/-- The methods that call a condition method of `q` itself, without a new query. -/
def Accumulates : Leaf → Bool
  | mixed_equal .. | mixed_not_equal .. | link_equal .. | link_not_equal .. => true
  | _ => false

end Leaf

/-- One step of a `where` callback. -/
inductive Step where
  | link (col : ColKey)
  | dictionary_link (origin_col : ColKey) (key : String)
  | leaf (l : Leaf)
  | truepredicate
  | falsepredicate
  | copy (i : Nat)
  | and (i j : Nat)
  | or (i j : Nat)
  | not (i : Nat)
  deriving DecidableEq, Repr

variable {m : Storage}

/-- A step; each but the two prefix steps makes one `rbool`.  No result for a
step that names an `rbool` the callback does not hold. -/
def Step.run (schema : Schema) (w : Context m) : Step → Option (Context m)
  | .link col => some (w.add_link_chain col)
  | .dictionary_link col key => some (w.add_dictionary_link_chain ⟨col, key⟩)
  | .leaf l => (l.run schema w).map fun w' => w'.copy 0 w'.live
  | .truepredicate => some w.truepredicate
  | .falsepredicate => some w.falsepredicate
  | .copy i => if h : w.Operand i then some (w.copy i h.2) else none
  | .and i j => if h : w.Operand i ∧ w.Operand j then some (w.and i j h.1) else none
  | .or i j => if h : w.Operand i ∧ w.Operand j then some (w.or i j h.1) else none
  | .not i => if h : w.Operand i then some (w.not i h) else none

/-- A run of steps. -/
def run (schema : Schema) : List Step → Context m → Option (Context m)
  | [], w => some w
  | s :: ss, w => (s.run schema w).bind (run schema ss)

end RealmCpp.Rbool
