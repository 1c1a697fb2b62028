/-
  RealmCpp.Rbool.DictionaryLink
  ─────────────────────────────
  **QUERIES THROUGH A DICTIONARY OF LINKS.**

  `o.map[k]->p op v` should be a query over the origin objects: those whose map
  links at `k` to an object with `p op v`.  The expression is built from the
  table the map links to, and neither the dictionary column nor the key gets
  into it: the query is over the target table and asks `p op v` of its rows.
  The map is looked up in the table of the shared query, which is the origin
  table as long as no such comparison has replaced it.

    • `dictionary_compare_run` — the query that the comparison gives,
    • `dictionary_link_iff` — exactly when it is the one asked for.
-/
import RealmCpp.Rbool.Paths

namespace RealmCpp.Rbool

open RealmCpp.Library
open RealmCpp.Core

variable {m : Storage} {schema : Schema}

/-! ## §1. Store contents and results. -/

/-- What a store holds, as far as these queries read it.  A dictionary entry
links to an object of the table that its column points into. -/
structure Content (schema : Schema) where
  objects : TableKey → Set ObjKey
  value : TableKey → ObjKey → ColKey → Mixed
  entry : TableKey → ObjKey → ColKey → String → Option ObjKey
  entry_live : ∀ t x col key y, entry t x col key = some y →
    ∀ target, schema.get_target_table t col = some target → y ∈ objects target

/-- How the core evaluates conditions on a store: a condition on a column of the
query's own rows compares the value in that column. -/
structure Evaluation (s : Content schema) where
  compare : Comparison → Mixed → Mixed → Bool
  sat : TableKey → Condition → ObjKey → Bool
  column : ∀ t col op rhs x,
    sat t ⟨[], col, .compare op rhs⟩ x = compare op (s.value t x col) rhs

/-- The objects a query returns, with their table. -/
def resultsOf {s : Content schema} (ev : Evaluation s) (q : Query) : Set (TableKey × ObjKey) :=
  {r | r.1 = q.table ∧ r.2 ∈ s.objects q.table ∧ q.Matches (ev.sat q.table) r.2 = true}

/-- The objects of `origin` whose map has an entry `key` linking to an object
with `p op v`. -/
def linkingTo {s : Content schema} (ev : Evaluation s) (origin : TableKey) (map : ColKey)
    (key : String) (p : ColKey) (op : Comparison) (v : Mixed) : Set (TableKey × ObjKey) :=
  {r | r.1 = origin ∧ r.2 ∈ s.objects origin ∧
    ∃ target y, schema.get_target_table origin map = some target ∧
      s.entry origin r.2 map key = some y ∧ ev.compare op (s.value target y p) v = true}

/-! ## §2. The comparison. -/

/-- **The query of `o.map[key]->p op v`** is over the table the map links to. -/
theorem dictionary_compare_run (schema : Schema) (w : Context m) (h : w.NoPending)
    {map : ColKey} {target : TableKey} (htarget : schema.get_target_table w.q.table map = some target)
    (key : String) (type : DataType) (op : Comparison) (p : ColKey) (v : Mixed)
    (hty : schema.get_column_type target p = type) :
    ∃ w', run schema (pathSteps (some ⟨map, key⟩) [] ++ [.leaf (.compare type op p v)]) w
        = some w' ∧
      w'.core w.count = Query.only target ⟨[], p, .compare op v⟩ ∧
      w'.q = Query.only target ⟨[], p, .compare op v⟩ ∧
      w'.NoPending := by
  have hat : (w.atPrefix (some ⟨map, key⟩) []).m_link_chain = none := h.1
  have hlookup : schema.get_target_table (w.atPrefix (some ⟨map, key⟩) []).q.table map
      = some target := htarget
  have hrun := run_prefixed schema (some ⟨map, key⟩) [] (.compare type op p v) w h
  rw [Leaf.run_compare_ctx type op p v hat rfl, hlookup, Option.bind_some, if_pos hty] at hrun
  refine ⟨_, hrun, ?_, ?_, h.1, rfl⟩
  · refine Eq.trans ?_ (Context.setQ_q (w.atPrefix (some ⟨map, key⟩) []) _)
    have hcount := Context.setQ_count (w.atPrefix (some ⟨map, key⟩) [])
      (Query.only target ⟨[], p, .compare op v⟩)
    show (Handles.copy _ 0 _).get w.queries.count = _
    rw [show w.queries.count = _ from hcount.symm]
    exact Handles.get_copy_self _ 0 _
  · exact (Context.copy_q _ 0 _).trans (Context.setQ_q (w.atPrefix (some ⟨map, key⟩) []) _)

/-- **Exactly when a query through a dictionary of links is the one asked for.**
In a callback whose shared query is over `origin`, whatever came before: the comparison
returns the objects that link at `key` to an object with `p op v`, its query is over
`origin`, and so are those of the comparisons after it, if and only if the map links
into `origin` itself and every object of it has `p op v` just when the object at its
own entry has. -/
theorem dictionary_link_iff (schema : Schema) (origin target : TableKey) (map : ColKey)
    (htarget : schema.get_target_table origin map = some target) (w : Context m)
    (hp : w.NoPending) (hq : w.q.table = origin) (key : String) (type : DataType)
    (op : Comparison) (p : ColKey) (v : Mixed) (hty : schema.get_column_type target p = type)
    (s : Content schema) (ev : Evaluation s) :
    ∃ w', run schema (pathSteps (some ⟨map, key⟩) [] ++ [.leaf (.compare type op p v)]) w
        = some w' ∧
      ((resultsOf ev (w'.core w.count) = linkingTo ev origin map key p op v ∧
          (w'.core w.count).table = origin ∧
          ∀ l w'', Step.run schema w' (.leaf l) = some w'' → w''.q.table = origin)
        ↔ (target = origin ∧
          ∀ x ∈ s.objects origin, (ev.compare op (s.value origin x p) v = true ↔
            ∃ y, s.entry origin x map key = some y ∧
              ev.compare op (s.value origin y p) v = true))) := by
  obtain ⟨w', hw', hcore, hq', hnone⟩ :=
    dictionary_compare_run schema w hp (by rw [hq]; exact htarget) key type op p v hty
  refine ⟨w', hw', ?_⟩
  rw [hcore]
  constructor
  · rintro ⟨hres, htable, -⟩
    have hself : target = origin := htable
    subst hself
    refine ⟨rfl, fun x hx => ?_⟩
    have hmem := Set.ext_iff.mp hres (target, x)
    simp only [resultsOf, linkingTo, Set.mem_ofPred_eq, Query.only_table, Query.matches_only,
      ev.column, htarget, hx, true_and, Option.some.injEq, exists_and_left, exists_eq_left'] at hmem
    exact hmem
  · rintro ⟨hself, hsame⟩
    subst hself
    refine ⟨?_, rfl, fun l w'' hl => ?_⟩
    · ext ⟨t, x⟩
      simp only [resultsOf, linkingTo, Set.mem_ofPred_eq, Query.only_table, Query.matches_only,
        ev.column, htarget, Option.some.injEq, exists_and_left, exists_eq_left']
      exact and_congr_right fun _ => and_congr_right fun hx => hsame x hx
    · -- the next comparison is built over the table of the shared query
      obtain ⟨w₁, h₁, hcon, -⟩ := consumed_direct schema w' hnone l
      rw [Step.run_leaf h₁] at hl
      injection hl with hl
      subst hl
      rw [Context.copy_q, hcon.table, hq']
      rfl

/-- A store in which object 1 links at "a" to itself. -/
def selfContent : Content (Schema.uniform .int ⟨0⟩) where
  objects _ := {⟨1⟩}
  value _ _ _ := .int 5
  entry _ x _ key := if x = ⟨1⟩ ∧ key = "a" then some ⟨1⟩ else none
  entry_live _ x _ key y h target _ := by
    split at h
    · injection h with h
      exact h.symm
    · cases h

/-- Equality of values, on the rows of any table. -/
def selfEvaluation : Evaluation selfContent where
  compare _ a b := decide (a = b)
  sat t c x := match c.test with
    | .compare _ rhs => decide (selfContent.value t x c.col = rhs)
    | _ => false
  column _ _ _ _ _ := rfl

/-- An object that links to itself is found through its map. -/
theorem dictionary_link_iff_self :
    ∃ w' : Context .shared, run (Schema.uniform .int ⟨0⟩)
        (pathSteps (some ⟨⟨1⟩, "a"⟩) [] ++ [.leaf (.compare .int .equal ⟨2⟩ (.int 5))])
        (Context.init .shared ⟨0⟩) = some w' ∧
      resultsOf selfEvaluation (w'.core 1)
        = linkingTo selfEvaluation ⟨0⟩ ⟨1⟩ "a" ⟨2⟩ .equal (.int 5) := by
  obtain ⟨w', hw', hiff⟩ := dictionary_link_iff (Schema.uniform .int ⟨0⟩) ⟨0⟩ ⟨0⟩ ⟨1⟩ rfl
    (Context.init .shared ⟨0⟩) ⟨rfl, rfl⟩ rfl "a" .int .equal ⟨2⟩ (.int 5) rfl selfContent
    selfEvaluation
  refine ⟨w', hw', (hiff.mpr ⟨rfl, fun x hx => ?_⟩).1⟩
  have hx : x = ⟨1⟩ := hx
  subst hx
  exact ⟨fun _ => ⟨⟨1⟩, rfl, rfl⟩, fun _ => rfl⟩

/-- Object 1 of table 0 links at "a" to object 1 of table 1, object 2 does not. -/
def pairContent : Content (Schema.uniform .int ⟨1⟩) where
  objects _ := {⟨1⟩, ⟨2⟩}
  value _ _ _ := .int 5
  entry _ x _ key := if x = ⟨1⟩ ∧ key = "a" then some ⟨1⟩ else none
  entry_live _ x _ key y h target _ := by
    split at h
    · injection h with h
      subst h
      exact .inl rfl
    · cases h

/-- Equality of values, on the rows of any table. -/
def pairEvaluation : Evaluation pairContent where
  compare _ a b := decide (a = b)
  sat t c x := match c.test with
    | .compare _ rhs => decide (pairContent.value t x c.col = rhs)
    | _ => false
  column _ _ _ _ _ := rfl

/-- **`o.map["a"]->p == 5` returns target objects**, and an object that no entry
links to among them. -/
theorem dictionary_link_wrong_table :
    ∃ w : Context .byValue, run (Schema.uniform .int ⟨1⟩)
        (pathSteps (some ⟨⟨1⟩, "a"⟩) [] ++ [.leaf (.compare .int .equal ⟨2⟩ (.int 5))])
        (Context.init .byValue ⟨0⟩) = some w ∧
      (w.core 1).table = ⟨1⟩ ∧
      (⟨1⟩, ⟨2⟩) ∈ resultsOf pairEvaluation (w.core 1) ∧
      resultsOf pairEvaluation (w.core 1)
        ≠ linkingTo pairEvaluation ⟨0⟩ ⟨1⟩ "a" ⟨2⟩ .equal (.int 5) := by
  have hmem : ((⟨1⟩, ⟨2⟩) : TableKey × ObjKey) ∈ resultsOf pairEvaluation
      (Query.only ⟨1⟩ ⟨[], ⟨2⟩, .compare .equal (.int 5)⟩) := ⟨rfl, .inr rfl, rfl⟩
  refine ⟨_, rfl, rfl, hmem, fun h => ?_⟩
  have := (Set.ext_iff.mp h (⟨1⟩, ⟨2⟩)).mp hmem
  exact absurd this.1 (by decide)

end RealmCpp.Rbool
