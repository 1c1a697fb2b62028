/-
  RealmCpp.Rbool.Steps
  ────────────────────
  **WHAT A STEP OF A `where` CALLBACK CAN DO — support layer.**

  One lemma for each group of methods says what it does to the queries, and one
  inversion lemma says what a step can do at all.  Every invariant is derived
  from these.

    • `Leaf.run_direct`, `Leaf.run_chain` — a comparison without and with a
      chain of links before it,
    • `Leaf.run_ended`, `Step.run_effect` — the inversions of a comparison and a step,
    • `Context.and_core`, `or_core`, `not_core` — every `rbool` after an operator,
    • `run_invariant` — the induction over a run, `m_table_of_run` — its table,
    • `Alone`, `alone_of_run` — as long as the shared query has no condition, no
      `rbool` of the callback is on its cell.
-/
import RealmCpp.Rbool.Context
import Mathlib.Tactic.Common

namespace RealmCpp.Rbool

open RealmCpp.Library
open RealmCpp.Core
open RealmCpp.Bridge

variable {m : Storage} {schema : Schema}

/-! ## §1. Comparisons. -/

namespace Context

@[simp] theorem setQ_queries (w : Context m) (q : Query) :
    (w.setQ q).queries = w.queries.assign 0 q := rfl

@[simp] theorem setQ_q (w : Context m) (q : Query) : (w.setQ q).q = q := by
  simp [Context.q]

@[simp] theorem addToQ_q (w : Context m) (c : Condition) :
    (w.addToQ c).q = w.q.addCondition c := by
  show (addCondition w.queries 0 c).get 0 = _
  rw [get_addCondition_self]

theorem setQ_core (w : Context m) (q : Query) {i : Nat} (hi : w.Operand i) :
    (w.setQ q).core i = w.core i :=
  Handles.get_assign_of_ne w.queries q w.live hi.2 (by have := hi.1; omega)

theorem addToQ_core (w : Context m) (c : Condition) {i : Nat} (hi : w.Operand i)
    (h : ¬ w.queries.Same i 0) : (w.addToQ c).core i = w.core i := by
  show (addCondition w.queries 0 c).get i = _
  rw [get_addCondition w.queries c w.live hi.2, if_neg h]

/-- Copying an `rbool` changes none. -/
theorem copy_core (w : Context m) (i : Nat) (hi : i < w.count) {j : Nat} (hj : j < w.count) :
    (w.copy i hi).core j = w.core j :=
  Handles.get_copy_of_lt w.queries i hi hj

@[simp] theorem copy_q (w : Context m) (i : Nat) (hi : i < w.count) : (w.copy i hi).q = w.q :=
  Handles.get_copy_of_lt w.queries i hi w.live

@[simp] theorem setQ_count (w : Context m) (q : Query) : (w.setQ q).count = w.count :=
  Handles.count_assign w.queries 0 q

@[simp] theorem addToQ_count (w : Context m) (c : Condition) : (w.addToQ c).count = w.count :=
  count_addCondition w.queries 0 c

end Context

/-- **A comparison with no prefix before it** either puts its own query into the
shared `rbool`, or adds its condition to the query that is there. -/
theorem Leaf.run_direct (schema : Schema) (l : Leaf) {w : Context m} (h : w.NoPending) :
    l.run schema w
      = some (if l.Accumulates then w.addToQ (l.condition [])
          else w.setQ (Query.only w.q.table (l.condition []))) := by
  obtain ⟨hc, hd⟩ := h
  cases l with
  | compare type op col rhs =>
      simp [run, Context.define_query, hc, hd, condition, Leaf.col, test, Accumulates]
  | contains col rhs cs =>
      simp [run, Context.contains, hc, condition, Leaf.col, test, Accumulates]
  | mixed_equal col rhs =>
      simp [run, Context.mixed_equal, hc, condition, Leaf.col, test, Accumulates]
  | mixed_not_equal col rhs =>
      simp [run, Context.mixed_not_equal, hc, condition, Leaf.col, test, Accumulates]
  | link_equal col rhs => simp [run, Context.link_equal, hc, condition, Leaf.col, test, Accumulates]
  | link_not_equal col rhs =>
      simp [run, Context.link_not_equal, hc, condition, Leaf.col, test, Accumulates]
  | dictionary_has_value_for_key op col key v => cases op <;> rfl
  | dictionary_contains_string_for_key col key v => rfl
  | dictionary_has_key col key => rfl

/-- The step of a comparison hands out a copy of the shared `rbool`. -/
theorem Step.run_leaf {l : Leaf} {w w₁ : Context m} (h : l.run schema w = some w₁) :
    Step.run schema w (.leaf l) = some (w₁.copy 0 w₁.live) := by
  rw [Step.run, h]
  rfl

/-- The comparisons that take up a chain of links and ask their own predicate
at its end.  A mixed right-hand side must store `true`, or be the null that it is
replaced by. -/
def Leaf.Follows (schema : Schema) : Leaf → Bool
  | .compare .. | .contains .. | .link_not_equal .. => true
  | .mixed_not_equal _ rhs => (schema.to_bool rhs).any fun b => b || decide (rhs = .null)
  | .link_equal _ rhs => rhs.isSome
  | _ => false

/-- The test of `!=` through a chain is the one written where `rhs` is taken up. -/
theorem Context.subexpr_mixed_not_equal_of_follows {col : ColKey} {rhs : Mixed}
    (h : (Leaf.mixed_not_equal col rhs).Follows schema = true) :
    subexpr_mixed_not_equal schema rhs = some (.compare .not_equal rhs) := by
  simp only [Leaf.Follows, Option.any_eq_true, Bool.or_eq_true, decide_eq_true_eq] at h
  obtain ⟨b, hb, hrhs⟩ := h
  cases b with
  | true => simp [subexpr_mixed_not_equal, hb]
  | false =>
      have hnull : rhs = .null := by simpa using hrhs
      subst hnull
      simp [subexpr_mixed_not_equal, hb]

/-- **A comparison that takes up a chain of links**: its query asks the leaf's
own predicate at the end of the chain, and the chain is used up. -/
theorem Leaf.run_chain (schema : Schema) (l : Leaf) {w : Context m} {lc : LinkChain}
    (h : w.m_link_chain = some lc) (hl : l.Follows schema = true) :
    l.run schema w
      = some { w.setQ (Query.only lc.base (l.condition (lc.links.map .link))) with
          m_link_chain := none } := by
  cases l with
  | compare type op col rhs =>
      simp [run, Context.define_query, h, LinkChain.column, Subexpr.query, condition, Leaf.col, test]
  | contains col rhs cs =>
      simp [run, Context.contains, h, LinkChain.column, Subexpr.query, condition, Leaf.col, test]
  | mixed_not_equal col rhs =>
      have htest := Context.subexpr_mixed_not_equal_of_follows hl
      simp [run, Context.mixed_not_equal, h, htest, LinkChain.column, Subexpr.query, condition,
        Leaf.col, test]
  | link_not_equal col rhs =>
      simp [run, Context.link_not_equal, h, LinkChain.column, Subexpr.query, condition, Leaf.col,
        test]
  | link_equal col rhs =>
      cases rhs with
      | none => cases hl
      | some key =>
          simp [run, Context.link_equal, Context.subexpr_link_equal, h, LinkChain.column,
            Subexpr.query, condition, Leaf.col, test]
  | mixed_equal col rhs => cases hl
  | dictionary_has_value_for_key op col key v => cases hl
  | dictionary_contains_string_for_key col key v => cases hl
  | dictionary_has_key col key => cases hl

/-- **A scalar comparison directly after a dictionary entry**: its query is over
the rows of the table that the dictionary links to, and the entry is used up. -/
theorem Leaf.run_compare_ctx {w : Context m} {ctx : DictionaryContext} (type : DataType)
    (op : Comparison) (col : ColKey) (rhs : Mixed) (hc : w.m_link_chain = none)
    (hd : w.m_dictionary_ctx = some ctx) :
    (Leaf.compare type op col rhs).run schema w
      = (schema.get_target_table w.q.table ctx.origin_col_key).bind fun target =>
          if schema.get_column_type target col = type then
            some { w.setQ (Query.only target ⟨[], col, .compare op rhs⟩) with
              m_dictionary_ctx := none }
          else none := by
  simp only [run, Context.define_query, hc, hd, dictionary_link_subexpr]
  cases htarget : schema.get_target_table w.q.table ctx.origin_col_key with
  | none => rfl
  | some target =>
      by_cases h : schema.get_column_type target col = type <;> simp [Subexpr.query, h]

/-- The four ways a comparison that has a result can end. -/
inductive Leaf.Ended (l : Leaf) (w : Context m) : Context m → Prop where
  | chain (t : TableKey) (c : Condition) (h : w.m_link_chain ≠ none) :
      Ended l w { w.setQ (Query.only t c) with m_link_chain := none }
  | entry (t : TableKey) (c : Condition) (h : w.m_link_chain = none)
      (hl : ∃ type op col rhs, l = .compare type op col rhs) :
      Ended l w { w.setQ (Query.only t c) with m_dictionary_ctx := none }
  | direct (t : TableKey) (c : Condition) : Ended l w (w.setQ (Query.only t c))
  | added (h : w.m_link_chain = none) (hl : l.Accumulates = true) :
      Ended l w (w.addToQ (l.condition []))

/-- The method's branch after a chain of links. -/
theorem Leaf.ended_chain {l : Leaf} {w w' : Context m} {lc : LinkChain} {type : DataType}
    {col : ColKey} {t : Test} (hc : w.m_link_chain = some lc)
    (h : ((lc.column type col).query type t).bind
      (fun q => some { w.setQ q with m_link_chain := none }) = some w') :
    l.Ended w w' := by
  simp only [Subexpr.query, LinkChain.column, if_true, Option.bind_some, Option.some.injEq] at h
  subst h
  exact .chain _ _ (by rw [hc]; simp)

/-- **The inversion of a comparison.** -/
theorem Leaf.run_ended (l : Leaf) {w w' : Context m} (h : l.run schema w = some w') :
    l.Ended w w' := by
  cases l with
  | compare type op col rhs =>
      cases hc : w.m_link_chain with
      | some lc =>
          rw [run_chain schema _ hc rfl] at h
          injection h with h
          subst h
          exact .chain _ _ (by rw [hc]; simp)
      | none =>
          -- a link chain goes before a dictionary context
          cases hd : w.m_dictionary_ctx with
          | some ctx =>
              rw [run_compare_ctx type op col rhs hc hd] at h
              obtain ⟨target, -, h⟩ := Option.bind_eq_some_iff.mp h
              obtain ⟨-, h⟩ := Option.ite_none_right_eq_some.mp h
              injection h with h
              subst h
              exact .entry _ _ hc ⟨_, _, _, _, rfl⟩
          | none =>
              rw [run_direct schema _ ⟨hc, hd⟩] at h
              injection h with h
              subst h
              exact .direct _ _
  | contains col rhs cs =>
      simp only [run, Context.contains] at h
      split at h
      next lc hc => exact ended_chain hc h
      next => injection h with h; subst h; exact .direct _ _
  | mixed_equal col rhs =>
      simp only [run, Context.mixed_equal] at h
      split at h
      -- through a chain the cast fails
      next => simp [Subexpr.query, LinkChain.column] at h
      next hc => injection h with h; subst h; exact .added hc rfl
  | mixed_not_equal col rhs =>
      simp only [run, Context.mixed_not_equal] at h
      split at h
      next lc hc =>
        obtain ⟨t, -, h⟩ := Option.bind_eq_some_iff.mp h
        exact ended_chain hc h
      next hc => injection h with h; subst h; exact .added hc rfl
  | link_equal col rhs =>
      simp only [run, Context.link_equal] at h
      split at h
      next lc hc => exact ended_chain hc h
      next hc => injection h with h; subst h; exact .added hc rfl
  | link_not_equal col rhs =>
      simp only [run, Context.link_not_equal] at h
      split at h
      next lc hc => exact ended_chain hc h
      next hc => injection h with h; subst h; exact .added hc rfl
  | dictionary_has_value_for_key op col key v =>
      cases op <;> (injection h with h; subst h; exact .direct _ _)
  | dictionary_contains_string_for_key col key v =>
      injection h with h; subst h; exact .direct _ _
  | dictionary_has_key col key =>
      injection h with h; subst h; exact .direct _ _

/-- **Any comparison that has a result** either assigns a query with a single
condition to the shared `rbool` or, with no chain before it, adds its condition
there. -/
theorem Leaf.run_queries (l : Leaf) {w w' : Context m} (h : l.run schema w = some w') :
    (∃ t c, w'.queries = w.queries.assign 0 (Query.only t c)) ∨
      (l.Accumulates = true ∧ w.m_link_chain = none ∧
        w'.queries = addCondition w.queries 0 (l.condition [])) := by
  cases l.run_ended h with
  | chain t c hc => exact .inl ⟨t, c, rfl⟩
  | entry t c hc hl => exact .inl ⟨t, c, rfl⟩
  | direct t c => exact .inl ⟨t, c, rfl⟩
  | added hc hl => exact .inr ⟨hl, hc, rfl⟩

/-- A comparison leaves the callback's table alone. -/
theorem Leaf.run_m_table (l : Leaf) {w w' : Context m} (h : l.run schema w = some w') :
    w'.m_table = w.m_table := by
  cases l.run_ended h <;> rfl

/-- Only a scalar comparison with no chain before it uses up a dictionary entry. -/
theorem Leaf.run_dictionary_ctx (l : Leaf) {w w' : Context m} (h : l.run schema w = some w')
    (hl : w.m_link_chain ≠ none ∨ ∀ type op col rhs, l ≠ .compare type op col rhs) :
    w'.m_dictionary_ctx = w.m_dictionary_ctx := by
  cases l.run_ended h with
  | chain t c hc => rfl
  | entry t c hc hcmp =>
      obtain ⟨type, op, col, rhs, rfl⟩ := hcmp
      obtain hl | hl := hl
      · exact absurd hc hl
      · exact absurd rfl (hl type op col rhs)
  | direct t c => rfl
  | added hc hl => rfl

/-! ## §2. Inversion of a step. -/

section
variable {w w' : Context m} {i j : Nat}

theorem Step.run_copy_inv (h : Step.run schema w (.copy i) = some w') :
    ∃ hi : w.Operand i, w.copy i hi.2 = w' := by
  obtain ⟨hi, h⟩ := Option.dite_none_right_eq_some.mp h
  exact ⟨hi, Option.some.inj h⟩

theorem Step.run_and_inv (h : Step.run schema w (.and i j) = some w') :
    ∃ hi : w.Operand i ∧ w.Operand j, w.and i j hi.1 = w' := by
  obtain ⟨hi, h⟩ := Option.dite_none_right_eq_some.mp h
  exact ⟨hi, Option.some.inj h⟩

theorem Step.run_or_inv (h : Step.run schema w (.or i j) = some w') :
    ∃ hi : w.Operand i ∧ w.Operand j, w.or i j hi.1 = w' := by
  obtain ⟨hi, h⟩ := Option.dite_none_right_eq_some.mp h
  exact ⟨hi, Option.some.inj h⟩

theorem Step.run_not_inv (h : Step.run schema w (.not i) = some w') :
    ∃ hi : w.Operand i, w.not i hi = w' := by
  obtain ⟨hi, h⟩ := Option.dite_none_right_eq_some.mp h
  exact ⟨hi, Option.some.inj h⟩

end

/-- What a step can do to the queries of a callback. -/
inductive Effect (s : Queries m) : Queries m → Prop where
  | prefixed : Effect s s
  | fresh (t : TableKey) (c : Condition) (h : 0 < (s.assign 0 (Query.only t c)).count) :
      Effect s ((s.assign 0 (Query.only t c)).copy 0 h)
  | added (c : Condition) (h : 0 < (addCondition s 0 c).count) :
      Effect s ((addCondition s 0 c).copy 0 h)
  | create (q : Query) : Effect s (s.create q)
  | copy (i : Nat) (h0 : 0 < i) (h : i < s.count) : Effect s (s.copy i h)
  | and (i j : Nat) (h0 : 0 < i) (hj0 : 0 < j) (hj : j < s.count)
      (h : i < (and_query s i j).count) : Effect s ((and_query s i j).copy i h)
  | assigned (i : Nat) (q : Query) (h0 : 0 < i) (h : i < (s.assign i q).count) :
      Effect s ((s.assign i q).copy i h)

/-- **The inversion of a step.** -/
theorem Step.run_effect {s : Step} {w w' : Context m} (h : s.run schema w = some w') :
    Effect w.queries w'.queries := by
  cases s with
  | link col =>
      injection h with h
      subst h
      unfold Context.add_link_chain
      split <;> exact .prefixed
  | dictionary_link col key =>
      injection h with h
      subst h
      exact .prefixed
  | leaf l =>
      simp only [run, Option.map_eq_some_iff] at h
      obtain ⟨w₁, h₁, rfl⟩ := h
      have hlive := w₁.live
      show Effect w.queries (w₁.queries.copy 0 hlive)
      obtain ⟨t, c, hq⟩ | ⟨-, -, hq⟩ := l.run_queries h₁
      · simp only [hq] at hlive ⊢
        exact .fresh t c hlive
      · simp only [hq] at hlive ⊢
        exact .added _ hlive
  | truepredicate =>
      injection h with h
      subst h
      exact .create _
  | falsepredicate =>
      injection h with h
      subst h
      exact .create _
  | copy i =>
      obtain ⟨hi, rfl⟩ := run_copy_inv h
      exact .copy i hi.1 hi.2
  | and i j =>
      obtain ⟨hi, rfl⟩ := run_and_inv h
      exact .and i j hi.1.1 hi.2.1 hi.2.2 _
  | or i j =>
      obtain ⟨hi, rfl⟩ := run_or_inv h
      exact .assigned i _ hi.1.1 _
  | not i =>
      obtain ⟨hi, rfl⟩ := run_not_inv h
      exact .assigned i _ hi.1 _

/-- **The induction over a run.** -/
theorem run_invariant {P : Context m → Prop}
    (hstep : ∀ s w w', P w → Step.run schema w s = some w' → P w') (ss : List Step) :
    ∀ {w w' : Context m}, P w → run schema ss w = some w' → P w' := by
  induction ss with
  | nil =>
      intro w w' hw h
      injection h with h
      subst h
      exact hw
  | cons s ss ih =>
      intro w w' hw h
      obtain ⟨w₁, h₁, h₂⟩ := Option.bind_eq_some_iff.mp h
      exact ih (hstep s w w₁ hw h₁) h₂

/-- A step leaves the callback's table alone. -/
theorem Step.run_m_table {s : Step} {w w' : Context m} (h : s.run schema w = some w') :
    w'.m_table = w.m_table := by
  cases s with
  | link col =>
      injection h with h
      subst h
      unfold Context.add_link_chain
      split <;> rfl
  | leaf l =>
      simp only [run, Option.map_eq_some_iff] at h
      obtain ⟨w₁, h₁, rfl⟩ := h
      exact (l.run_m_table h₁ : w₁.m_table = w.m_table)
  | dictionary_link col key => injection h with h; subst h; rfl
  | truepredicate => injection h with h; subst h; rfl
  | falsepredicate => injection h with h; subst h; rfl
  | copy i => obtain ⟨hi, rfl⟩ := run_copy_inv h; rfl
  | and i j => obtain ⟨hi, rfl⟩ := run_and_inv h; rfl
  | or i j => obtain ⟨hi, rfl⟩ := run_or_inv h; rfl
  | not i => obtain ⟨hi, rfl⟩ := run_not_inv h; rfl

/-- A run of steps keeps the callback's table. -/
theorem run_m_table {ss : List Step} {w w' : Context m} (h : run schema ss w = some w') :
    w'.m_table = w.m_table :=
  run_invariant (P := fun v => v.m_table = w.m_table)
    (fun _ _ _ hw hs => (Step.run_m_table hs).trans hw) ss rfl h

/-- In every state of a callback its table is the one it was started with. -/
theorem m_table_of_run {t : TableKey} {ss : List Step} {w : Context m}
    (h : run schema ss (Context.init m t) = some w) : w.m_table = t :=
  run_m_table h

theorem run_append (ss ts : List Step) (w : Context m) :
    run schema (ss ++ ts) w = (run schema ss w).bind (run schema ts) := by
  induction ss generalizing w with
  | nil => rfl
  | cons s ss ih =>
      show (s.run schema w).bind (run schema (ss ++ ts)) = _
      cases hs : s.run schema w with
      | none => simp [run, hs]
      | some w₁ => simp [run, hs, ih]

/-! ## §3. Every `rbool` after an operator. -/

namespace Context

variable (w : Context m)

/-- **`&&` narrows its left operand and all that share its query.** -/
theorem and_core (i j : Nat) (hi : w.Operand i) {k : Nat} (hk : k < w.count) :
    (w.and i j hi).core k
      = if w.queries.Same k i then (w.core i).and_query (w.core j) else w.core k :=
  (Handles.get_copy_of_lt (and_query w.queries i j) i hi.2 hk).trans
    (get_and_query w.queries i j k)

theorem and_result (i j : Nat) (hi : w.Operand i) :
    (w.and i j hi).core w.count = (w.core i).and_query (w.core j) := by
  have hcopy : (w.and i j hi).core w.count = (and_query w.queries i j).get i :=
    Handles.get_copy_self (and_query w.queries i j) i hi.2
  rw [hcopy, get_and_query, if_pos (show w.queries.Same i i from rfl)]

/-- Assigning to an operand and handing out a copy of it. -/
theorem assign_copy_core (q : Query) {i k : Nat} (hi : i < w.count) (hk : k < w.count)
    (h : i < (w.queries.assign i q).count) :
    ((w.queries.assign i q).copy i h).get k = if k = i then q else w.core k := by
  rw [Handles.get_copy_of_lt _ i h (by rw [Handles.count_assign]; exact hk)]
  by_cases hki : k = i
  · subst hki
    rw [Handles.get_assign_self, if_pos rfl]
  · rw [Handles.get_assign_of_ne _ q hi hk hki, if_neg hki]

theorem assign_copy_result (q : Query) (i : Nat) (h : i < (w.queries.assign i q).count) :
    ((w.queries.assign i q).copy i h).get w.count = q := by
  have hcount : w.count = (w.queries.assign i q).count := by simp
  rw [hcount, Handles.get_copy_self, Handles.get_assign_self]

/-- **`||` widens its left operand.** -/
theorem or_core (i j : Nat) (hi : w.Operand i) {k : Nat} (hk : k < w.count) :
    (w.or i j hi).core k = if k = i then (w.core i).or (w.core j) else w.core k :=
  w.assign_copy_core _ hi.2 hk _

theorem or_result (i j : Nat) (hi : w.Operand i) :
    (w.or i j hi).core w.count = (w.core i).or (w.core j) :=
  w.assign_copy_result _ i _

/-- **`!` replaces its operand by the complement.** -/
theorem not_core (i : Nat) (hi : w.Operand i) {k : Nat} (hk : k < w.count) :
    (w.not i hi).core k = if k = i then (w.core i).not else w.core k :=
  w.assign_copy_core _ hi.2 hk _

theorem not_result (i : Nat) (hi : w.Operand i) :
    (w.not i hi).core w.count = (w.core i).not :=
  w.assign_copy_result _ i _

end Context

/-! ## §4. The shared query before its first condition. -/

/-- While the shared query has no condition, nothing else is on its cell. -/
def Alone (s : Queries m) : Prop :=
  (s.get 0).cond = .tru → ∀ j, 0 < j → j < s.count → ¬ s.Same j 0

theorem addCondition_cond_ne (q : Query) (c : Condition) : (q.addCondition c).cond ≠ .tru := by
  intro h
  have := (Formula.conj_eq_tru_iff.mp h).2
  cases this

theorem alone_copy {s : Queries m} (hlive : 0 < s.count) {i : Nat} (h : i < s.count)
    (hs : Alone s) (hi : (s.get 0).cond = .tru → ¬ s.Same i 0) : Alone (s.copy i h) := by
  intro htru j hj0 hj
  rw [Handles.get_copy_of_lt s i h hlive] at htru
  simp only [Handles.count_copy] at hj
  by_cases hlt : j < s.count
  · rw [Handles.same_copy_of_lt s i h hlt hlive]
    exact hs htru j hj0 hlt
  · have : j = s.count := by omega
    subst this
    rw [Handles.same_copy s i h hlive]
    exact fun hsame => hi htru hsame.2

/-- A new query has a cell of its own. -/
theorem alone_create {s : Queries m} (hlive : 0 < s.count) (hs : Alone s) (q : Query) :
    Alone (s.create q) := by
  intro htru j hj0 hj
  rw [Handles.get_create_of_lt s q hlive] at htru
  simp only [Handles.count_create] at hj
  have h0 := s.handle_lt 0 hlive
  by_cases hlt : j < s.count
  · have hold := hs htru j hj0 hlt
    simpa only [Handles.Same, Handles.handle_create_of_lt s q hlt,
      Handles.handle_create_of_lt s q hlive] using hold
  · have hj : j = s.count := by omega
    subst hj
    simp only [Handles.Same, Handles.handle_create_of_lt s q hlive]
    simp only [Handles.create, Function.update_self]
    omega

/-- A conjunction that is written to the shared query leaves it with a condition. -/
theorem alone_and_query {s : Queries m} (hs : Alone s) {i j : Nat} (h0 : 0 < i)
    (h : i < s.count) : Alone (and_query s i j) := by
  intro htru
  rw [get_and_query] at htru
  by_cases hsame : s.Same 0 i
  · -- then the left operand had no condition either, and shared the buffer
    rw [if_pos hsame] at htru
    have hi : (s.get i).cond = .tru := (Formula.conj_eq_tru_iff.mp htru).1
    rw [← hsame.get_eq] at hi
    exact absurd hsame.symm (hs hi i h0 h)
  · rw [if_neg hsame] at htru
    exact hs htru

/-- An assignment to another handle gives that a cell of its own. -/
theorem alone_assign {s : Queries m} (hlive : 0 < s.count) (hs : Alone s) {i : Nat} (h0 : 0 < i)
    (hi : i < s.count) (q : Query) : Alone (s.assign i q) := by
  intro htru j hj0 hj
  rw [Handles.get_assign_of_ne s q hi hlive (by omega)] at htru
  have hj' : j < s.count := by simpa using hj
  by_cases hji : j = i
  · subst hji
    exact fun hsame => Handles.not_same_assign s q hi hlive (by omega) hsame.symm
  · rw [Handles.same_assign_of_ne s q hji (by omega)]
    exact hs htru j hj0 hj'

/-- **A step keeps the shared query alone until it has a condition.** -/
theorem alone_effect {s s' : Queries m} (hlive : 0 < s.count) (hs : Alone s)
    (h : Effect s s') : Alone s' := by
  cases h with
  | prefixed => exact hs
  | fresh t c h =>
      intro htru
      rw [Handles.get_copy_of_lt _ 0 h h, Handles.get_assign_self] at htru
      cases htru
  | added c h =>
      intro htru
      rw [Handles.get_copy_of_lt _ 0 h h, get_addCondition_self] at htru
      exact absurd htru (addCondition_cond_ne _ c)
  | create q => exact alone_create hlive hs q
  | copy i h0 h => exact alone_copy hlive h hs fun htru => hs htru i h0 h
  | and i j h0 hj0 hj h =>
      have hmod : Alone (and_query s i j) := alone_and_query hs h0 h
      exact alone_copy (s := and_query s i j) hlive h hmod fun htru => hmod htru i h0 h
  | assigned i q h0 h =>
      have hi : i < s.count := by simpa using h
      have hmod := alone_assign hlive hs h0 hi q
      exact alone_copy (by simpa using hlive) h hmod fun htru => hmod htru i h0 h

/-- **In every state of a callback, the shared query without a condition is alone.** -/
theorem alone_of_run {t : TableKey} {ss : List Step} {w : Context m}
    (h : run schema ss (Context.init m t) = some w) : Alone w.queries := by
  refine run_invariant (P := fun w => Alone w.queries)
    (fun s w w' hw hs => alone_effect w.live hw (Step.run_effect hs)) ss ?_ h
  intro _ j hj0 hj
  simp [Context.init, Handles.create, Handles.empty] at hj
  omega

end RealmCpp.Rbool
