/-
  RealmCpp.Rbool.Trees
  ────────────────────
  **EXPRESSION TREES IN A `where` CALLBACK.**

  An expression is evaluated left to right against the one shared `rbool`.  Its
  comparisons are the leaves; each is written once, so no `rbool` is used twice.
  What each evaluation leaves behind is one structure, `Evaluated`: the result
  is on a cell that no earlier `rbool` is on, and the earlier ones keep their
  value, except that a comparison which adds to the shared query also reaches
  the `rbool` that is still on the shared query's cell.

    • `evaluate_spec`, `results_where_spec` — the induction over the tree,
    • `where_boolean` — for scalar comparisons the result is the Boolean formula.
-/
import RealmCpp.Rbool.Steps

namespace RealmCpp.Rbool

open RealmCpp.Library
open RealmCpp.Core
open RealmCpp.Bridge

variable {m : Storage} {schema : Schema}

/-! ## §1. Expressions. -/

/-- An expression of a `where` callback: comparisons at the end of a chain of
links, and the three operators. -/
inductive Expr where
  | leaf (path : List ColKey) (l : Leaf)
  | and (e f : Expr)
  | or (e f : Expr)
  | not (e : Expr)
  deriving DecidableEq, Repr

namespace Expr

/-- Evaluation of an expression: the context after it and the `rbool` returned. -/
def evaluate (schema : Schema) : Expr → Context m → Option (Context m × Nat)
  | leaf path l, w =>
      (run schema (path.map Step.link ++ [.leaf l]) w).map fun w' => (w', w.count)
  | and e f, w => do
      let (w₁, i) ← e.evaluate schema w
      let (w₂, j) ← f.evaluate schema w₁
      let w₃ ← Step.run schema w₂ (.and i j)
      some (w₃, w₂.count)
  | or e f, w => do
      let (w₁, i) ← e.evaluate schema w
      let (w₂, j) ← f.evaluate schema w₁
      let w₃ ← Step.run schema w₂ (.or i j)
      some (w₃, w₂.count)
  | not e, w => do
      let (w₁, i) ← e.evaluate schema w
      let w₂ ← Step.run schema w₁ (.not i)
      some (w₂, w₁.count)

/-- The Boolean value of an expression, given the values of its comparisons. -/
def value (v : Condition → Bool) : Expr → Bool
  | leaf path l => v (l.condition (path.map .link))
  | and e f => e.value v && f.value v
  | or e f => e.value v || f.value v
  | not e => !(e.value v)

/-- Every comparison is direct or takes up the chain of links before it. -/
def Reaches (schema : Schema) : Expr → Prop
  | leaf path l => path = [] ∨ l.Follows schema = true
  | and e f | or e f => e.Reaches schema ∧ f.Reaches schema
  | not e => e.Reaches schema

/-- Is the expression a single comparison. -/
def isLeaf : Expr → Bool
  | leaf _ _ => true
  | _ => false

/-- The condition that the first comparison of the expression adds to the shared
query, if it adds to it. -/
def adds : Expr → Option Condition
  | leaf [] l => if l.Accumulates then some (l.condition []) else none
  | leaf (_ :: _) _ => none
  | and e _ | or e _ | not e => e.adds

/-- The value of an expression when a comparison that adds to the shared query
is conjoined with what the shared query held, starting from `s`: the value, and
what the shared query holds after it.  Where the query is shared, a comparison
standing left of an operator still is the shared query, and is narrowed with it. -/
def inherited (m : Storage) (v : Condition → Bool) : Expr → Bool → Bool × Bool
  | leaf [] l, s =>
      let b := if l.Accumulates then s && v (l.condition []) else v (l.condition [])
      (b, b)
  | leaf (c :: path) l, _ =>
      let b := v (l.condition ((c :: path).map .link))
      (b, b)
  | and e f, s =>
      let a := e.inherited m v s
      let b := f.inherited m v a.2
      (narrowed v a.1 (m = .shared ∧ e.isLeaf = true) f.adds && b.1, b.2)
  | or e f, s =>
      let a := e.inherited m v s
      let b := f.inherited m v a.2
      (narrowed v a.1 (m = .shared ∧ e.isLeaf = true) f.adds || b.1, b.2)
  | not e, s =>
      let a := e.inherited m v s
      (!a.1, a.2)
where
  /-- A left operand with value `a`, once the right one has been evaluated. -/
  narrowed (v : Condition → Bool) (a : Bool) (p : Prop) [Decidable p] : Option Condition → Bool
    | some c => if p then a && v c else a
    | none => a

end Expr

/-! ## §2. Paths. -/

namespace Context

/-- The context with a path of links pending. -/
def atPath (w : Context m) : List ColKey → Context m
  | [] => w
  | c :: path => { w with m_link_chain := some ⟨w.m_table, c :: path⟩ }

/-- Nothing is pending, and the shared query is over the callback's table. -/
structure Clean (w : Context m) : Prop where
  noPending : w.NoPending
  table : w.q.table = w.m_table

end Context

theorem run_links_of_chain (path : List ColKey) (ss : List Step) (w : Context m)
    (lc : LinkChain) :
    run schema (path.map Step.link ++ ss) { w with m_link_chain := some lc }
      = run schema ss { w with m_link_chain := some { lc with links := lc.links ++ path } } := by
  induction path generalizing lc with
  | nil => simp
  | cons c path ih =>
      show run schema (path.map Step.link ++ ss) { w with m_link_chain := some (lc.link c) } = _
      rw [ih]
      simp [LinkChain.link]

/-- **The links of a path collect into one chain from the callback's table.** -/
theorem run_links (path : List ColKey) (ss : List Step) (w : Context m)
    (h : w.m_link_chain = none) :
    run schema (path.map Step.link ++ ss) w = run schema ss (w.atPath path) := by
  cases path with
  | nil => rfl
  | cons c path =>
      have hfirst : w.add_link_chain c
          = { w with m_link_chain := some ⟨w.m_table, [c]⟩ } := by
        simp only [Context.add_link_chain, h]
      show run schema (path.map Step.link ++ ss) (w.add_link_chain c) = _
      rw [hfirst, run_links_of_chain]
      rfl

/-! ## §3. What an evaluation leaves behind. -/

/-- From `w` to `w'`, with `adds` the condition that the first comparison added
to the shared query: an earlier `rbool` keeps its cell, loses the shared query's,
and changes only if it was on it. -/
structure Between (adds : Option Condition) (w w' : Context m) : Prop where
  clean : w'.Clean
  m_table : w'.m_table = w.m_table
  count_le : w.count ≤ w'.count
  handle : ∀ k, w.Operand k → w'.queries.handle k = w.queries.handle k
  core : ∀ k, w.Operand k → w'.core k =
    match adds with
    | some c => if w.queries.Same k 0 then (w.core k).addCondition c else w.core k
    | none => w.core k
  apart : ∀ k, w.Operand k → ¬ w'.queries.Same k 0

/-- From `w`, the evaluation of `e` gave `w'` and returned the `rbool` `i`. -/
structure Evaluated (e : Expr) (w w' : Context m) (i : Nat) : Prop
    extends Between e.adds w w' where
  new : w.count ≤ i ∧ i < w'.count
  new_apart : ∀ k, w.Operand k → ¬ w'.queries.Same k i
  shares : w'.queries.Same i 0 ↔ m = .shared ∧ e.isLeaf = true
  table : (w'.core i).table = w.m_table
  value : ∀ sat x, (w'.core i).Matches sat x
    = (e.inherited m (fun c => sat c x) (w.q.Matches sat x)).1
  q_value : ∀ sat x, w'.q.Matches sat x
    = (e.inherited m (fun c => sat c x) (w.q.Matches sat x)).2

section
variable {e f : Expr} {w w₁ w₂ w₃ : Context m} {i j : Nat}

theorem Between.operand {a : Option Condition} (h : Between a w w₁) {k : Nat}
    (hk : w.Operand k) : w₁.Operand k :=
  ⟨hk.1, Nat.lt_of_lt_of_le hk.2 h.count_le⟩

/-- The first comparison takes the earlier `rbool`s off the shared cell, so
later ones no longer reach them. -/
theorem Between.trans {a b : Option Condition} (h : Between a w w₁) (h' : Between b w₁ w₂) :
    Between a w w₂ := by
  refine ⟨h'.clean, h'.m_table.trans h.m_table, Nat.le_trans h.count_le h'.count_le,
    fun k hk => (h'.handle k (h.operand hk)).trans (h.handle k hk), fun k hk => ?_,
    fun k hk => h'.apart k (h.operand hk)⟩
  rw [← h.core k hk, h'.core k (h.operand hk)]
  cases b with
  | none => rfl
  | some c => exact if_neg (h.apart k hk)

theorem Evaluated.result (h : Evaluated e w w₁ i) : w₁.Operand i :=
  ⟨Nat.lt_of_lt_of_le w.live h.new.1, h.new.2⟩

/-! ## §4. Comparisons. -/

/-- A comparison's value is what the shared query holds after it. -/
theorem Expr.inherited_leaf (v : Condition → Bool) (path : List ColKey) (l : Leaf) (s : Bool) :
    ((Expr.leaf path l).inherited m v s).1 = ((Expr.leaf path l).inherited m v s).2 := by
  cases path <;> rfl

/-- **A comparison hands out a copy of the shared `rbool`.**  What is to be shown
of it is what it did to the shared query and to the earlier `rbool`s. -/
theorem evaluated_leaf (w w₁ : Context m) (path : List ColKey) (l : Leaf) (hc : w₁.Clean)
    (ht : w₁.m_table = w.m_table) (hcount : w₁.queries.count = w.queries.count)
    (hhandle : ∀ k, w.Operand k → w₁.queries.handle k = w.queries.handle k)
    (hcore : ∀ k, w.Operand k → w₁.core k =
      match (Expr.leaf path l).adds with
      | some c => if w.queries.Same k 0 then (w.core k).addCondition c else w.core k
      | none => w.core k)
    (hsame : ∀ k, w.Operand k → ¬ w₁.queries.Same k 0)
    (hq : ∀ sat x, w₁.q.Matches sat x
      = ((Expr.leaf path l).inherited m (fun c => sat c x) (w.q.Matches sat x)).2) :
    Evaluated (.leaf path l) w (w₁.copy 0 w₁.live) w.count := by
  have hlt : ∀ k, w.Operand k → k < w₁.queries.count := fun k hk => by
    rw [hcount]
    exact hk.2
  have hnew : (w₁.copy 0 w₁.live).core w.count = w₁.q := by
    show (w₁.queries.copy 0 w₁.live).get w.queries.count = _
    rw [← hcount, Handles.get_copy_self]
  have hlast : w.count < (w₁.copy 0 w₁.live).count := by
    show w.queries.count < (w₁.queries.copy 0 w₁.live).count
    rw [Handles.count_copy, hcount]
    exact Nat.lt_succ_self _
  refine ⟨⟨⟨hc.noPending, ?_⟩, ht, Nat.le_of_lt hlast, fun k hk => ?_, fun k hk => ?_,
    fun k hk h => ?_⟩, ⟨Nat.le_refl _, hlast⟩, fun k hk h => ?_, ?_, ?_, fun sat x => ?_,
    fun sat x => ?_⟩
  · rw [Context.copy_q]
    exact hc.table
  · exact (Handles.handle_copy_of_lt _ 0 w₁.live (hlt k hk)).trans (hhandle k hk)
  · rw [Context.copy_core _ _ _ (hlt k hk)]
    exact hcore k hk
  · exact hsame k hk ((Handles.same_copy_of_lt _ 0 w₁.live (hlt k hk) w₁.live).mp h)
  · -- the copy is on no cell but the shared query's
    have h' : (w₁.queries.copy 0 w₁.live).Same w₁.queries.count k := by
      rw [hcount]
      exact h.symm
    exact hsame k hk ((Handles.same_copy w₁.queries 0 w₁.live (hlt k hk)).mp h').2.symm
  · show (w₁.queries.copy 0 w₁.live).Same w.queries.count 0 ↔ _
    rw [← hcount, Handles.same_copy w₁.queries 0 w₁.live w₁.live]
    simp [Handles.Same, Expr.isLeaf]
  · rw [hnew, hc.table, ht]
  · rw [hnew, hq, Expr.inherited_leaf]
  · rw [Context.copy_q, hq]

/-- A comparison with its own query, at the end of its path. -/
theorem evaluated_fresh (w w₁ : Context m) (path : List ColKey) (l : Leaf)
    (hq : w₁.queries
      = w.queries.assign 0 (Query.only w.m_table (l.condition (path.map .link))))
    (hp : w₁.NoPending) (ht : w₁.m_table = w.m_table) (hadds : (Expr.leaf path l).adds = none)
    (hval : ∀ v s, ((Expr.leaf path l).inherited m v s).2 = v (l.condition (path.map .link))) :
    Evaluated (.leaf path l) w (w₁.copy 0 w₁.live) w.count := by
  have hq₁ : w₁.q = Query.only w.m_table (l.condition (path.map .link)) := by
    rw [Context.q, hq, Handles.get_assign_self]
  refine evaluated_leaf w w₁ path l ⟨hp, by rw [hq₁, ht]; rfl⟩ ht ?_ (fun k hk => ?_)
    (fun k hk => ?_) (fun k hk => ?_) fun sat x => ?_
  · rw [hq, Handles.count_assign]
  · rw [hq, Handles.handle_assign_of_ne _ _ (by have := hk.1; omega)]
  · rw [hadds]
    show w₁.queries.get k = _
    rw [hq]
    exact Handles.get_assign_of_ne _ _ w.live hk.2 (by have := hk.1; omega)
  · rw [hq]
    exact Handles.not_same_assign w.queries _ w.live hk.2 (by have := hk.1; omega)
  · rw [hq₁, hval]
    rfl

/-- A comparison that adds its condition to the shared query. -/
theorem evaluated_added (w : Context m) (l : Leaf) (hw : w.Clean)
    (hl : l.Accumulates = true) :
    Evaluated (.leaf [] l) w ((w.addToQ (l.condition [])).copy 0 (Context.live _)) w.count := by
  refine evaluated_leaf w _ [] l ⟨hw.noPending, ?_⟩ rfl ?_ (fun k hk => ?_)
    (fun k hk => ?_) (fun k hk => ?_) fun sat x => ?_
  · rw [Context.addToQ_q]
    exact hw.table
  · exact count_addCondition _ _ _
  · exact Handles.handle_assign_of_ne _ _ (by have := hk.1; omega)
  · simp only [Expr.adds, hl, if_true]
    refine (get_addCondition w.queries _ w.live hk.2).trans ?_
    split
    next hs =>
      have hcore : w.queries.get 0 = w.core k := hs.get_eq.symm
      rw [hcore]
    next => rfl
  · exact Handles.not_same_assign _ _ (by simpa using w.live) (by simpa using hk.2)
      (by have := hk.1; omega)
  · rw [Context.addToQ_q, Query.matches_addCondition]
    simp [Expr.inherited, hl]

/-- **A comparison that is direct or takes up its chain has a result.** -/
theorem evaluate_leaf (schema : Schema) (path : List ColKey) (l : Leaf) (w : Context m)
    (hw : w.Clean) (hl : path = [] ∨ l.Follows schema = true) :
    ∃ w', (Expr.leaf path l).evaluate schema w = some (w', w.count) ∧
      Evaluated (.leaf path l) w w' w.count := by
  have hrun : ∀ w₁, l.run schema (w.atPath path) = some w₁ →
      (Expr.leaf path l).evaluate schema w = some (w₁.copy 0 w₁.live, w.count) := by
    intro w₁ h
    rw [Expr.evaluate, run_links path _ w hw.noPending.1]
    show ((Step.run schema (w.atPath path) (.leaf l)).bind some).map _ = _
    rw [Step.run_leaf h]
    rfl
  cases path with
  | nil =>
      -- some comparisons add to the shared query, others replace it
      have hdirect := l.run_direct schema hw.noPending
      cases hacc : l.Accumulates with
      | true =>
          rw [hacc] at hdirect
          exact ⟨_, hrun _ hdirect, evaluated_added w l hw hacc⟩
      | false =>
          rw [hacc] at hdirect
          refine ⟨_, hrun _ hdirect, evaluated_fresh w _ [] l ?_ hw.noPending rfl ?_ ?_⟩
          · simp only [Bool.false_eq_true, if_false, Context.setQ_queries, hw.table]
            rfl
          · simp [Expr.adds, hacc]
          · simp [Expr.inherited, hacc]
  | cons c path =>
      -- behind links there is always a new query
      have hfol : l.Follows schema = true := hl.resolve_left (by simp)
      have hchain := l.run_chain schema (w := w.atPath (c :: path)) rfl hfol
      exact ⟨_, hrun _ hchain, evaluated_fresh w _ (c :: path) l rfl
        ⟨rfl, hw.noPending.2⟩ rfl rfl fun _ _ => rfl⟩

/-! ## §5. Operators. -/

/-- A step that works on operand `i` and makes one `rbool`: the `rbool`s in `P`
keep their cell and their value, and the new one is on no cell of theirs. -/
structure Touched (P : Nat → Prop) (w w' : Context m) : Prop where
  noPending : w.NoPending → w'.NoPending
  m_table : w'.m_table = w.m_table
  count : w'.count = w.count + 1
  handle : ∀ k, P k → k < w.count → w'.queries.handle k = w.queries.handle k
  core : ∀ k, P k → k < w.count → w'.core k = w.core k
  apart : ∀ k, P k → k < w.count → ¬ w'.queries.Same k w.count

theorem and_touched (w : Context m) (i j : Nat) (hi : w.Operand i) :
    Touched (fun k => ¬ w.queries.Same k i) w (w.and i j hi) := by
  refine ⟨id, rfl, Handles.count_copy _ _ _, fun k _ hk => ?_, fun k hP hk => ?_,
    fun k hP hk h => hP ?_⟩
  · exact Handles.handle_copy_of_lt (and_query w.queries i j) i hi.2 hk
  · exact (Handles.get_copy_of_lt (and_query w.queries i j) i hi.2 hk).trans
      ((get_and_query w.queries i j k).trans (if_neg hP))
  · exact ((Handles.same_copy (and_query w.queries i j) i hi.2 hk).mp h.symm).2.symm

theorem assigned_touched (w : Context m) (i : Nat) (q : Query) (hi : w.Operand i)
    (h : i < (w.queries.assign i q).count) :
    Touched (fun k => k ≠ i) w
      { w with
        queries := (w.queries.assign i q).copy i h
        live := by rw [Handles.count_copy]; exact Nat.succ_pos _ } := by
  have hlt : ∀ k, k < w.count → k < (w.queries.assign i q).count := fun k hk => by
    rw [Handles.count_assign]
    exact hk
  refine ⟨id, rfl, ?_, fun k hP hk => ?_, fun k hP hk => ?_, fun k hP hk hsame => ?_⟩
  · show ((w.queries.assign i q).copy i h).count = _
    rw [Handles.count_copy, Handles.count_assign]
  · exact (Handles.handle_copy_of_lt _ i h (hlt k hk)).trans (Handles.handle_assign_of_ne _ _ hP)
  · exact (Handles.get_copy_of_lt _ i h (hlt k hk)).trans
      (Handles.get_assign_of_ne _ q hi.2 hk hP)
  · have h' : ((w.queries.assign i q).copy i h).Same (w.queries.assign i q).count k := by
      rw [Handles.count_assign]
      exact hsame.symm
    exact Handles.not_same_assign w.queries q hi.2 hk hP
      ((Handles.same_copy _ i h (hlt k hk)).mp h').2.symm

/-- An operator of which the operands have been evaluated. -/
theorem evaluated_operator {g : Expr} {P : Nat → Prop} (h : Between g.adds w w₁)
    (hT : Touched P w₁ w₂) (hP : ∀ k, w.Operand k → P k) (hP0 : P 0) (hleaf : g.isLeaf = false)
    (htable : (w₂.core w₁.count).table = w.m_table)
    (hvalue : ∀ sat x, (w₂.core w₁.count).Matches sat x
      = (g.inherited m (fun c => sat c x) (w.q.Matches sat x)).1)
    (hq : ∀ sat x, w₁.q.Matches sat x
      = (g.inherited m (fun c => sat c x) (w.q.Matches sat x)).2) :
    Evaluated g w w₂ w₁.count := by
  -- an operator does not write to the shared query
  have hq₂ : w₂.q = w₁.q := hT.core 0 hP0 w₁.live
  have hlt : ∀ k, w.Operand k → k < w₁.count := fun k hk => (h.operand hk).2
  refine ⟨⟨⟨hT.noPending h.clean.noPending, ?_⟩, hT.m_table.trans h.m_table, ?_,
    fun k hk => (hT.handle k (hP k hk) (hlt k hk)).trans (h.handle k hk), fun k hk => ?_,
    fun k hk hs => h.apart k hk ?_⟩, ⟨h.count_le, ?_⟩,
    fun k hk => hT.apart k (hP k hk) (hlt k hk), ?_, htable, hvalue, fun sat x => ?_⟩
  · rw [hq₂, h.clean.table, hT.m_table]
  · rw [hT.count]
    exact Nat.le_succ_of_le h.count_le
  · rw [hT.core k (hP k hk) (hlt k hk)]
    exact h.core k hk
  · show w₁.queries.handle k = w₁.queries.handle 0
    rw [← hT.handle k (hP k hk) (hlt k hk), ← hT.handle 0 hP0 w₁.live]
    exact hs
  · rw [hT.count]
    exact Nat.lt_succ_self _
  · rw [hleaf]
    refine ⟨fun hs => absurd hs.symm (hT.apart 0 hP0 w₁.live), fun hs => ?_⟩
    cases hs.2
  · rw [hq₂]
    exact hq sat x

theorem left_table (he : Evaluated e w w₁ i) (hf : Evaluated f w₁ w₂ j) :
    (w₂.core i).table = w.m_table := by
  rw [hf.core i he.result, ← he.table]
  cases f.adds with
  | none => rfl
  | some c =>
      by_cases hs : w₁.queries.Same i 0
      · simp only [if_pos hs, Query.addCondition_table]
      · simp only [if_neg hs]

/-- The left operand once the right one has been evaluated. -/
theorem narrowed_value (he : Evaluated e w w₁ i) (hf : Evaluated f w₁ w₂ j)
    (sat : Condition → ObjKey → Bool) (x : ObjKey) :
    (w₂.core i).Matches sat x
      = Expr.inherited.narrowed (fun c => sat c x)
          (e.inherited m (fun c => sat c x) (w.q.Matches sat x)).1
          (m = .shared ∧ e.isLeaf = true) f.adds := by
  rw [hf.core i he.result, ← he.value sat x]
  cases f.adds with
  | none => rfl
  | some c =>
      by_cases hs : w₁.queries.Same i 0
      · simp only [if_pos hs, if_pos (he.shares.mp hs), Expr.inherited.narrowed,
          Query.matches_addCondition]
      · simp only [if_neg hs, if_neg (fun h => hs (he.shares.mpr h)), Expr.inherited.narrowed]

end

/-! ## §6. The induction over the tree. -/

section Operators

variable {schema : Schema} {e f : Expr} {w w₁ w₂ : Context m} {i j : Nat}

/-- `lhs && rhs`: the right query is appended to the left one. -/
theorem evaluate_and (he : e.evaluate schema w = some (w₁, i)) (hei : Evaluated e w w₁ i)
    (hf : f.evaluate schema w₁ = some (w₂, j)) (hfj : Evaluated f w₁ w₂ j) :
    ∃ w' k, (Expr.and e f).evaluate schema w = some (w', k) ∧ Evaluated (.and e f) w w' k := by
  have hi : w₂.Operand i := hfj.operand hei.result
  refine ⟨w₂.and i j hi, w₂.count, ?_, ?_⟩
  · have hstep : Step.run schema w₂ (.and i j) = some (w₂.and i j hi) := by
      rw [Step.run, dif_pos ⟨hi, hfj.result⟩]
    simp [Expr.evaluate, he, hf, hstep]
  · refine evaluated_operator (hei.toBetween.trans hfj.toBetween) (and_touched w₂ i j hi)
      (fun k hk h => hei.new_apart k hk ?_) (fun h => hfj.apart i hei.result h.symm) rfl ?_
      (fun sat x => ?_) fun sat x => ?_
    · -- the right operand moved neither `k` nor `i`
      show w₁.queries.handle k = w₁.queries.handle i
      rw [← hfj.handle k (hei.operand hk), ← hfj.handle i hei.result]
      exact h
    · rw [w₂.and_result i j hi, Query.and_query_table]
      exact left_table hei hfj
    · rw [w₂.and_result i j hi, Query.matches_and_query, narrowed_value hei hfj sat x,
        hfj.value sat x, hei.q_value sat x]
      rfl
    · rw [hfj.q_value sat x, hei.q_value sat x]
      rfl

/-- `lhs || rhs`: a new query, so that nothing else can share its buffer. -/
theorem evaluate_or (he : e.evaluate schema w = some (w₁, i)) (hei : Evaluated e w w₁ i)
    (hf : f.evaluate schema w₁ = some (w₂, j)) (hfj : Evaluated f w₁ w₂ j) :
    ∃ w' k, (Expr.or e f).evaluate schema w = some (w', k) ∧ Evaluated (.or e f) w w' k := by
  have hi : w₂.Operand i := hfj.operand hei.result
  refine ⟨w₂.or i j hi, w₂.count, ?_, ?_⟩
  · have hstep : Step.run schema w₂ (.or i j) = some (w₂.or i j hi) := by
      rw [Step.run, dif_pos ⟨hi, hfj.result⟩]
    simp [Expr.evaluate, he, hf, hstep]
  · refine evaluated_operator (hei.toBetween.trans hfj.toBetween)
      (assigned_touched w₂ i _ hi _) (fun k hk h => ?_) (fun h => ?_) rfl ?_
      (fun sat x => ?_) fun sat x => ?_
    · -- the operand was there before, the left result is new
      have := hk.2
      have := hei.new.1
      omega
    · -- results are named by other handles than the shared query
      have := hi.1
      omega
    · refine (congrArg Query.table (w₂.or_result i j hi)).trans ?_
      rw [Query.or_table]
      exact left_table hei hfj
    · refine (congrArg (Query.Matches sat · x) (w₂.or_result i j hi)).trans ?_
      simp only [Query.matches_or]
      rw [narrowed_value hei hfj sat x, hfj.value sat x, hei.q_value sat x]
      rfl
    · rw [hfj.q_value sat x, hei.q_value sat x]
      rfl

/-- `!rhs`: a new query as well. -/
theorem evaluate_not (he : e.evaluate schema w = some (w₁, i)) (hei : Evaluated e w w₁ i) :
    ∃ w' k, (Expr.not e).evaluate schema w = some (w', k) ∧ Evaluated (.not e) w w' k := by
  have hi : w₁.Operand i := hei.result
  refine ⟨w₁.not i hi, w₁.count, ?_, ?_⟩
  · have hstep : Step.run schema w₁ (.not i) = some (w₁.not i hi) := by
      rw [Step.run, dif_pos hi]
    simp [Expr.evaluate, he, hstep]
  · refine evaluated_operator hei.toBetween (assigned_touched w₁ i _ hi _)
      (fun k hk h => ?_) (fun h => ?_) rfl ?_ (fun sat x => ?_) fun sat x => ?_
    · have := hk.2
      have := hei.new.1
      omega
    · have := hi.1
      omega
    · exact (congrArg Query.table (w₁.not_result i hi)).trans hei.table
    · refine (congrArg (Query.Matches sat · x) (w₁.not_result i hi)).trans ?_
      simp only [Query.matches_not]
      rw [hei.value sat x]
      rfl
    · rw [hei.q_value sat x]
      rfl

end Operators

/-- **Every expression whose comparisons take up their paths has a result**, and
`Evaluated` says which. -/
theorem evaluate_spec (schema : Schema) (e : Expr) :
    ∀ (w : Context m), w.Clean → e.Reaches schema →
      ∃ w' i, e.evaluate schema w = some (w', i) ∧ Evaluated e w w' i := by
  induction e with
  | leaf path l =>
      intro w hw hr
      obtain ⟨w', hev, h⟩ := evaluate_leaf schema path l w hw hr
      exact ⟨w', w.count, hev, h⟩
  | and e f ihe ihf =>
      intro w hw hr
      obtain ⟨w₁, i, he, hei⟩ := ihe w hw hr.1
      obtain ⟨w₂, j, hf, hfj⟩ := ihf w₁ hei.clean hr.2
      exact evaluate_and he hei hf hfj
  | or e f ihe ihf =>
      intro w hw hr
      obtain ⟨w₁, i, he, hei⟩ := ihe w hw hr.1
      obtain ⟨w₂, j, hf, hfj⟩ := ihf w₁ hei.clean hr.2
      exact evaluate_or he hei hf hfj
  | not e ihe =>
      intro w hw hr
      obtain ⟨w₁, i, he, hei⟩ := ihe w hw hr
      exact evaluate_not he hei

/-! ## §7. Scalar comparisons. -/

/-- `results::where`: the query of the `rbool` that the callback returns. -/
def results_where (m : Storage) (schema : Schema) (t : TableKey) (e : Expr) : Option Query :=
  (e.evaluate schema (Context.init m t)).map fun (w, i) => w.core i

/-- **A callback whose comparisons take up their paths returns a query** over its
table, of the value that `inherited` gives. -/
theorem results_where_spec (m : Storage) (schema : Schema) (t : TableKey) (e : Expr)
    (he : e.Reaches schema) :
    ∃ q, results_where m schema t e = some q ∧ q.table = t ∧
      ∀ sat x, q.Matches sat x = (e.inherited m (fun c => sat c x) true).1 := by
  obtain ⟨w, i, hev, h⟩ :=
    evaluate_spec schema e (Context.init m t) ⟨⟨rfl, rfl⟩, rfl⟩ he
  refine ⟨w.core i, by rw [results_where, hev]; rfl, h.table, fun sat x => ?_⟩
  rw [h.value sat x]
  rfl

/-- A scalar comparison: on a column, direct or at the end of a chain of links,
or on a value or a key of a dictionary of the object itself. -/
def Leaf.ScalarAt (path : List ColKey) : Leaf → Prop
  | .compare .. | .contains .. => True
  | .dictionary_has_value_for_key .. | .dictionary_contains_string_for_key ..
  | .dictionary_has_key .. => path = []
  | _ => False

namespace Expr

/-- Every comparison is scalar. -/
def Scalar : Expr → Prop
  | leaf path l => l.ScalarAt path
  | and e f | or e f => e.Scalar ∧ f.Scalar
  | not e => e.Scalar

theorem Scalar.reaches {e : Expr} (h : e.Scalar) : e.Reaches schema := by
  induction e with
  | leaf path l =>
      cases l with
      | compare type op col rhs => exact .inr rfl
      | contains col rhs cs => exact .inr rfl
      | dictionary_has_value_for_key op col key v => exact .inl h
      | dictionary_contains_string_for_key col key v => exact .inl h
      | dictionary_has_key col key => exact .inl h
      | mixed_equal col rhs => exact h.elim
      | mixed_not_equal col rhs => exact h.elim
      | link_equal col rhs => exact h.elim
      | link_not_equal col rhs => exact h.elim
  | and e f ihe ihf => exact ⟨ihe h.1, ihf h.2⟩
  | or e f ihe ihf => exact ⟨ihe h.1, ihf h.2⟩
  | not e ih => exact ih h

/-- A scalar comparison starts a query of its own. -/
theorem Scalar.accumulates {path : List ColKey} {l : Leaf} (h : (leaf path l).Scalar) :
    l.Accumulates = false := by
  cases l <;> first | rfl | exact h.elim

theorem Scalar.adds {e : Expr} (h : e.Scalar) : e.adds = none := by
  induction e with
  | leaf path l =>
      cases path with
      | nil => simp [Expr.adds, Scalar.accumulates h]
      | cons c path => rfl
  | and e f ihe ihf => exact ihe h.1
  | or e f ihe ihf => exact ihe h.1
  | not e ih => exact ih h

/-- **Nothing is inherited in an expression of scalar comparisons.** -/
theorem Scalar.inherited {e : Expr} (h : e.Scalar) (v : Condition → Bool) :
    ∀ s, (e.inherited m v s).1 = e.value v := by
  induction e with
  | leaf path l =>
      intro s
      cases path with
      | nil => simp [Expr.inherited, Scalar.accumulates h, value]
      | cons c path => rfl
  | and e f ihe ihf =>
      intro s
      show (inherited.narrowed v _ _ f.adds && _) = _
      rw [Scalar.adds h.2, ihf h.2]
      show (_ && _) = (_ && _)
      rw [ihe h.1]
      rfl
  | or e f ihe ihf =>
      intro s
      show (inherited.narrowed v _ _ f.adds || _) = _
      rw [Scalar.adds h.2, ihf h.2]
      show (_ || _) = (_ || _)
      rw [ihe h.1]
      rfl
  | not e ih =>
      intro s
      show (!_) = !_
      rw [ih h]

end Expr

/-- **Boolean composition of type-safe queries**, whether queries are stored by
value or shared: the query returned for a tree of scalar comparisons is over the
callback's table and matches an object exactly when the formula is true of it. -/
theorem where_boolean (m : Storage) (schema : Schema) (t : TableKey) (e : Expr)
    (he : e.Scalar) :
    ∃ q, results_where m schema t e = some q ∧ q.table = t ∧
      ∀ sat x, q.Matches sat x = e.value fun c => sat c x := by
  obtain ⟨q, hq, htable, hval⟩ := results_where_spec m schema t e he.reaches
  exact ⟨q, hq, htable, fun sat x => by rw [hval, he.inherited]⟩

/-- `(o.a == 1 || o.link->b < 2) && !o.map.contains_key("k")`. -/
theorem where_boolean_compound :
    ∃ q, results_where .shared (Schema.uniform .int ⟨0⟩) ⟨0⟩
        (.and (.or (.leaf [] (.compare .int .equal ⟨1⟩ (.int 1)))
            (.leaf [⟨2⟩] (.compare .int .less ⟨3⟩ (.int 2))))
          (.not (.leaf [] (.dictionary_has_key ⟨4⟩ "k")))) = some q ∧ q.table = ⟨0⟩ ∧
      ∀ sat x, q.Matches sat x
        = Expr.value (fun c => sat c x)
            (.and (.or (.leaf [] (.compare .int .equal ⟨1⟩ (.int 1)))
                (.leaf [⟨2⟩] (.compare .int .less ⟨3⟩ (.int 2))))
              (.not (.leaf [] (.dictionary_has_key ⟨4⟩ "k")))) :=
  where_boolean .shared _ ⟨0⟩ _ ⟨⟨trivial, trivial⟩, rfl⟩

end RealmCpp.Rbool
