/-
  RealmCpp.Core.Query
  ───────────────────
  **THE CORE'S QUERIES, AS FAR AS THE C++ LAYER RELIES ON THEM.**

  A core query is a predicate over the objects of one table.  A column
  condition and `and_query` add a conjunct to the receiver; `||` and `!` build
  a new query.  A typed column expression (`Subexpr`) is cast to the type of
  the comparison before it becomes a query, and the cast can fail.

  What a single condition says about an object is left to an interpretation
  `sat : Condition → ObjKey → Bool` of the conditions.
-/
import RealmCpp.Core.Data
import RealmCpp.Library.Formula

namespace RealmCpp.Core

open RealmCpp.Library

/-! ## §1. Conditions. -/

/-- The comparison operators of the query language. -/
inductive Comparison where
  | equal | not_equal | greater | less | greater_equal | less_equal
  deriving DecidableEq, Repr

/-- One step of a path from an object to another: a link column, or an entry of
a dictionary of links. -/
inductive PathStep where
  | link (col : ColKey)
  | dictionary (col : ColKey) (key : String)
  deriving DecidableEq, Repr

/-- What is asked of one column. -/
inductive Test where
  | compare (op : Comparison) (rhs : Mixed)
  | contains (rhs : String) (case_sensitive : Bool)
  | links_to (target : Option ObjKey)
  | not_links_to (target : Option ObjKey)
  | dictionary_value (op : Comparison) (key : String) (rhs : Mixed)
  | dictionary_contains_string (key : String) (rhs : String)
  | dictionary_contains_key (key : String)
  deriving DecidableEq, Repr

/-- A single condition on the objects of a table: follow `path` from the
object, then ask `test` of column `col` there. -/
structure Condition where
  path : List PathStep
  col : ColKey
  test : Test
  deriving DecidableEq, Repr

/-! ## §2. Queries. -/

/-- A query over `table`; `Formula.tru` is the query without conditions. -/
structure Query where
  table : TableKey
  cond : Formula Condition
  deriving DecidableEq, Repr

namespace Query

/-- The query without conditions over a table. -/
def ofTable (t : TableKey) : Query := ⟨t, .tru⟩

/-- The query over a table whose only condition is `c`. -/
def only (t : TableKey) (c : Condition) : Query := ⟨t, .atom c⟩

/-- A column condition: one more conjunct on the receiver. -/
def addCondition (q : Query) (c : Condition) : Query := { q with cond := q.cond.conj (.atom c) }

/-- The conditions of `r` as a further conjunct of the receiver. -/
def and_query (q r : Query) : Query := { q with cond := q.cond.conj r.cond }

/-- The core's `||`. -/
def or (q r : Query) : Query := ⟨q.table, .or q.cond r.cond⟩

/-- The core's `!`. -/
def not (q : Query) : Query := ⟨q.table, .neg q.cond⟩

/-- Does object `x` of the table satisfy the query. -/
def Matches (sat : Condition → ObjKey → Bool) (q : Query) (x : ObjKey) : Bool :=
  q.cond.eval fun c => sat c x

variable (sat : Condition → ObjKey → Bool) (q r : Query) (x : ObjKey)

@[simp] theorem ofTable_table (t : TableKey) : (ofTable t).table = t := rfl

@[simp] theorem only_table (t : TableKey) (c : Condition) : (only t c).table = t := rfl

@[simp] theorem addCondition_table (c : Condition) : (q.addCondition c).table = q.table := rfl

@[simp] theorem and_query_table : (q.and_query r).table = q.table := rfl

@[simp] theorem or_table : (q.or r).table = q.table := rfl

@[simp] theorem not_table : q.not.table = q.table := rfl

@[simp] theorem matches_ofTable (t : TableKey) : (ofTable t).Matches sat x = true := rfl

@[simp] theorem matches_only (t : TableKey) (c : Condition) :
    (only t c).Matches sat x = sat c x := rfl

@[simp] theorem matches_addCondition (c : Condition) :
    (q.addCondition c).Matches sat x = (q.Matches sat x && sat c x) := by
  simp [Matches, addCondition]

@[simp] theorem matches_and_query :
    (q.and_query r).Matches sat x = (q.Matches sat x && r.Matches sat x) := by
  simp [Matches, and_query]

@[simp] theorem matches_or :
    (q.or r).Matches sat x = (q.Matches sat x || r.Matches sat x) := rfl

@[simp] theorem matches_not : q.not.Matches sat x = !(q.Matches sat x) := rfl

/-- A first condition on a query without conditions is its only one. -/
@[simp] theorem ofTable_addCondition (t : TableKey) (c : Condition) :
    (ofTable t).addCondition c = only t c := rfl

/-- **A condition added to a query is its only one exactly when there was none.** -/
theorem addCondition_eq_only_iff (c : Condition) :
    q.addCondition c = only q.table c ↔ q.cond = .tru := by
  rw [← Formula.conj_atom_eq_atom_iff (a := c)]
  simp [addCondition, only]

end Query

/-! ## §3. Column expressions. -/

/-- A column expression over the rows of `table`, cast to a column type. -/
structure Subexpr where
  table : TableKey
  path : List PathStep
  col : ColKey
  type : DataType
  deriving DecidableEq, Repr

/-- The query an expression gives once it is cast to column type `type`; the
cast of an expression of another type has no result. -/
def Subexpr.query (e : Subexpr) (type : DataType) (t : Test) : Option Query :=
  if e.type = type then some (Query.only e.table ⟨e.path, e.col, t⟩) else none

/-- A chain of links from the rows of `base`. -/
structure LinkChain where
  base : TableKey
  links : List ColKey
  deriving DecidableEq, Repr

namespace LinkChain

/-- One more hop. -/
def link (lc : LinkChain) (col : ColKey) : LinkChain := { lc with links := lc.links ++ [col] }

/-- A column expression of the requested type at the end of the chain. -/
def column (lc : LinkChain) (type : DataType) (col : ColKey) : Subexpr :=
  ⟨lc.base, lc.links.map .link, col, type⟩

end LinkChain

end RealmCpp.Core
