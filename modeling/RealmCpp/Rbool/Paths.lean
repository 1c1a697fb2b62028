/-
  RealmCpp.Rbool.Paths
  ────────────────────
  **THE PATH BEFORE A COMPARISON.**

  `o.link->…` and `o.map[k]->…` leave a prefix in the shared `rbool`, in two
  fields: the chain of links and the dictionary context.  The comparison after
  it should ask its predicate at the end of the path and leave both fields
  empty.  Each method decides that by itself: the dictionary methods look at
  neither field, only the scalar comparisons look at the dictionary context,
  none looks at both.

    • `Consumed` — what a comparison should do with its path,
    • `consumed_of_links`, `not_consumed_of_links`, `not_consumed_of_dictionary` —
      the methods that do, and the rest,
    • `path_consumed_iff` — in every state of a callback exactly when, and over
      every callback made of such comparisons.
-/
import RealmCpp.Rbool.Trees

namespace RealmCpp.Rbool

open RealmCpp.Library
open RealmCpp.Core
open RealmCpp.Bridge

variable {m : Storage} {schema : Schema}

/-! ## §1. Paths and what should become of them. -/

/-- The steps of a path: at most one dictionary entry, then links. -/
def pathSteps (dict : Option DictionaryContext) (links : List ColKey) : List Step :=
  (dict.map fun ctx => Step.dictionary_link ctx.origin_col_key ctx.m_key).toList
    ++ links.map .link

/-- The path from the query object. -/
def pathOf (dict : Option DictionaryContext) (links : List ColKey) : List PathStep :=
  (dict.map fun ctx => PathStep.dictionary ctx.origin_col_key ctx.m_key).toList
    ++ links.map .link

/-- After the comparison the shared query asks the comparison's predicate at the
end of the path from the objects of `t`, and nothing is pending. -/
structure Consumed (t : TableKey) (path : List PathStep) (l : Leaf) (w' : Context m) : Prop where
  table : w'.q.table = t
  asked : ∃ f : Formula Condition, w'.q.cond = f.conj (.atom (l.condition path))
  noPending : w'.NoPending

/-- The condition on a comparison and its path: no dictionary entry, and after
links one of the methods that take up a chain. -/
def TakesUp (schema : Schema) (dict : Option DictionaryContext) (links : List ColKey)
    (l : Leaf) : Prop :=
  dict = none ∧ (links = [] ∨ l.Follows schema = true)

/-- The context with a path pending. -/
def Context.atPrefix (w : Context m) (dict : Option DictionaryContext) (links : List ColKey) :
    Context m :=
  { w.atPath links with m_dictionary_ctx := dict }

theorem run_pathSteps (dict : Option DictionaryContext) (links : List ColKey) (ss : List Step)
    (w : Context m) (h : w.NoPending) :
    run schema (pathSteps dict links ++ ss) w = run schema ss (w.atPrefix dict links) := by
  obtain ⟨hc, hd⟩ := h
  cases dict with
  | none =>
      show run schema (links.map Step.link ++ ss) w = _
      rw [run_links links ss w hc]
      cases links <;> simp [Context.atPrefix, Context.atPath, ← hd]
  | some ctx =>
      show run schema (links.map Step.link ++ ss) { w with m_dictionary_ctx := some ctx } = _
      refine (run_links links ss (w.add_dictionary_link_chain ctx) hc).trans ?_
      cases links <;> rfl

/-- The last conjunct of a condition is determined by it. -/
theorem conj_atom_inj {f g : Formula Condition} {a b : Condition}
    (h : f.conj (.atom a) = g.conj (.atom b)) : a = b := by
  by_cases hf : f = .tru <;> by_cases hg : g = .tru
  · subst hf hg
    simpa using h
  · subst hf
    rw [Formula.conj_of_ne hg (by simp)] at h
    cases h
  · subst hg
    rw [Formula.conj_of_ne hf (by simp)] at h
    cases h
  · rw [Formula.conj_of_ne hf (by simp), Formula.conj_of_ne hg (by simp)] at h
    injection h with _ h
    injection h

/-- A query with one condition asks the comparison's predicate at the end of its
path only if that is the condition. -/
theorem Consumed.condition_eq {t t' : TableKey} {path : List PathStep} {l : Leaf}
    {w' : Context m} {c : Condition} (h : Consumed t path l w')
    (hq : w'.q = Query.only t' c) : c = l.condition path := by
  obtain ⟨f, hf⟩ := h.asked
  rw [hq] at hf
  exact conj_atom_inj (f := .tru) ((Formula.tru_conj _).trans hf)

/-! ## §2. The comparisons that take up their path, and the others. -/

/-- **A direct comparison asks its predicate of the root object.** -/
theorem consumed_direct (schema : Schema) (w : Context m) (h : w.NoPending) (l : Leaf) :
    ∃ w', l.run schema w = some w' ∧ Consumed w.q.table [] l w' ∧ w'.m_table = w.m_table := by
  refine ⟨_, l.run_direct schema h, ?_, ?_⟩
  · cases hl : l.Accumulates with
    | true =>
        rw [if_pos rfl]
        refine ⟨?_, ⟨w.q.cond, ?_⟩, h⟩ <;> rw [Context.addToQ_q] <;> rfl
    | false =>
        rw [if_neg (by simp)]
        refine ⟨?_, ⟨.tru, ?_⟩, h⟩ <;> rw [Context.setQ_q] <;> simp [Query.only]
  · cases l.Accumulates <;> rfl

/-- **After links, the methods that take up a chain ask at its end.** -/
theorem consumed_of_links (schema : Schema) (w : Context m) {links : List ColKey}
    (hne : links ≠ []) {l : Leaf} (hl : l.Follows schema = true) :
    ∃ w', l.run schema (w.atPrefix none links) = some w' ∧
      Consumed w.m_table (pathOf none links) l w' ∧ w'.m_table = w.m_table := by
  cases links with
  | nil => exact absurd rfl hne
  | cons c links =>
      have hchain : (w.atPrefix none (c :: links)).m_link_chain = some ⟨w.m_table, c :: links⟩ := rfl
      refine ⟨_, l.run_chain schema hchain hl, ⟨?_, ⟨.tru, ?_⟩, rfl, rfl⟩, rfl⟩
      · show ((w.atPrefix none (c :: links)).setQ _).q.table = _
        rw [Context.setQ_q]
        rfl
      · show ((w.atPrefix none (c :: links)).setQ _).q.cond = _
        rw [Context.setQ_q]
        simp [Query.only, pathOf]

/-- **After links, the other methods fail, leave the chain behind, or ask the
opposite.** -/
theorem not_consumed_of_links (w : Context m) {links : List ColKey} (hne : links ≠ [])
    {l : Leaf} (hl : l.Follows schema = false) (t : TableKey) (dict : Option DictionaryContext)
    {w' : Context m} (h : l.run schema (w.atPrefix dict links) = some w') :
    ¬ Consumed t (pathOf dict links) l w' := by
  intro hcon
  cases links with
  | nil => exact absurd rfl hne
  | cons c links =>
      cases l with
      | compare type op col rhs => cases hl
      | contains col rhs cs => cases hl
      | link_not_equal col rhs => cases hl
      | mixed_not_equal col rhs =>
          simp only [Leaf.run, Context.mixed_not_equal, Context.subexpr_mixed_not_equal,
            Context.atPrefix, Context.atPath, Subexpr.query, LinkChain.column, if_true,
            Option.bind_eq_bind, Option.bind_some] at h
          obtain ⟨test, htest, h⟩ := Option.bind_eq_some_iff.mp h
          obtain ⟨b, hb, htest⟩ := Option.bind_eq_some_iff.mp htest
          injection h with h
          injection htest with htest
          subst h htest
          have hcond := congrArg Condition.test (hcon.condition_eq (Context.setQ_q _ _))
          -- where the stored bool is false, null has taken the place of the right-hand side
          simp only [Leaf.Follows, hb, Option.any_some] at hl
          cases b with
          | true => cases hl
          | false =>
              have hrhs : Mixed.null = rhs := by simpa [Leaf.condition, Leaf.test] using hcond
              simp [← hrhs] at hl
      | mixed_equal col rhs =>
          -- the string expression cannot be cast to a mixed one
          simp [Leaf.run, Context.mixed_equal, Context.atPrefix, Context.atPath, Subexpr.query,
            LinkChain.column] at h
      | link_equal col rhs =>
          cases rhs with
          | some key => cases hl
          | none =>
              -- the comparison with null is inverted
              simp only [Leaf.run, Context.link_equal, Context.atPrefix, Context.atPath,
                Context.subexpr_link_equal, Subexpr.query, LinkChain.column, if_true,
                Option.bind_eq_bind, Option.bind_some, Option.some.injEq] at h
              subst h
              have htest := congrArg Condition.test (hcon.condition_eq (Context.setQ_q _ _))
              simp [Leaf.condition, Leaf.test] at htest
      | dictionary_has_value_for_key op col key v =>
          cases op <;>
            (injection h with h; subst h; exact absurd hcon.noPending.1 (by simp [Context.atPrefix,
              Context.atPath, Context.setQ]))
      | dictionary_contains_string_for_key col key v =>
          injection h with h
          subst h
          exact absurd hcon.noPending.1 (by simp [Context.atPrefix, Context.atPath, Context.setQ])
      | dictionary_has_key col key =>
          injection h with h
          subst h
          exact absurd hcon.noPending.1 (by simp [Context.atPrefix, Context.atPath, Context.setQ])

/-- **After a dictionary entry, no method asks at the end of the path.** -/
theorem not_consumed_of_dictionary (w : Context m) (links : List ColKey) (l : Leaf)
    (t : TableKey) (ctx : DictionaryContext) {w' : Context m}
    (h : l.run schema (w.atPrefix (some ctx) links) = some w') :
    ¬ Consumed t (pathOf (some ctx) links) l w' := by
  intro hcon
  by_cases hleft : (w.atPrefix (some ctx) links).m_link_chain ≠ none
      ∨ ∀ type op col rhs, l ≠ .compare type op col rhs
  · -- the context is left behind
    have hctx := l.run_dictionary_ctx h hleft
    rw [hcon.noPending.2] at hctx
    cases hctx
  · -- a scalar comparison directly after the entry asks the rows of the target table
    obtain ⟨hchain, type, op, col, rhs, rfl⟩ := by simpa using hleft
    rw [Leaf.run_compare_ctx type op col rhs hchain rfl] at h
    obtain ⟨target, -, h⟩ := Option.bind_eq_some_iff.mp h
    split at h
    · injection h with h
      subst h
      have hpath := congrArg Condition.path (hcon.condition_eq (Context.setQ_q _ _))
      simp [Leaf.condition, pathOf] at hpath
    · cases h

/-! ## §3. One comparison, in any state of a callback. -/

theorem run_prefixed (schema : Schema) (dict : Option DictionaryContext) (links : List ColKey) (l : Leaf)
    (w : Context m) (h : w.NoPending) :
    run schema (pathSteps dict links ++ [.leaf l]) w
      = (l.run schema (w.atPrefix dict links)).map fun w' => w'.copy 0 w'.live := by
  rw [run_pathSteps dict links _ w h]
  show ((Step.run schema (w.atPrefix dict links) (.leaf l)).bind some) = _
  rw [Step.run]
  cases l.run schema (w.atPrefix dict links) <;> rfl

theorem Consumed.copy {t : TableKey} {path : List PathStep} {l : Leaf} {w : Context m} :
    Consumed t path l (w.copy 0 w.live) ↔ Consumed t path l w := by
  constructor
  · rintro ⟨ht, ha, hp⟩
    rw [Context.copy_q] at ht ha
    exact ⟨ht, ha, hp⟩
  · rintro ⟨ht, ha, hp⟩
    refine ⟨?_, ?_, hp⟩
    · rw [Context.copy_q]
      exact ht
    · rw [Context.copy_q]
      exact ha

/-- **One comparison in a state with nothing pending**: it consumes its path
exactly when it takes it up, and where it has none, the shared query must still
be over the callback's table. -/
theorem consumed_iff (schema : Schema) (w : Context m) (h : w.NoPending) (dict : Option DictionaryContext)
    (links : List ColKey) (l : Leaf) :
    (∃ w', run schema (pathSteps dict links ++ [.leaf l]) w = some w' ∧
        Consumed w.m_table (pathOf dict links) l w') ↔
      TakesUp schema dict links l ∧ (links = [] → w.q.table = w.m_table) := by
  rw [run_prefixed schema dict links l w h]
  cases dict with
  | some ctx =>
      refine ⟨fun hex => ?_, fun hcond => ?_⟩
      · obtain ⟨w', hw', hcon⟩ := hex
        obtain ⟨w₁, h₁, rfl⟩ := Option.map_eq_some_iff.mp hw'
        exact absurd (Consumed.copy.mp hcon) (not_consumed_of_dictionary w links l _ ctx h₁)
      · exact absurd hcond.1.1 (by simp)
  | none =>
      by_cases hne : links = []
      · -- directly on the root object
        subst hne
        have hat : w.atPrefix none [] = w := by
          simp [Context.atPrefix, Context.atPath, ← h.2]
        obtain ⟨w₁, h₁, hcon, -⟩ := consumed_direct schema w h l
        rw [hat, h₁]
        constructor
        · rintro ⟨w', hw', hcon'⟩
          injection hw' with hw'
          subst hw'
          refine ⟨⟨rfl, .inl rfl⟩, fun _ => ?_⟩
          exact hcon.table.symm.trans (Consumed.copy.mp hcon').table
        · intro hcond
          refine ⟨_, rfl, Consumed.copy.mpr ?_⟩
          rw [← hcond.2 rfl]
          exact hcon
      · -- after links, it depends on whether the comparison follows them
        cases hl : l.Follows schema with
        | true =>
            obtain ⟨w₁, h₁, hcon, -⟩ := consumed_of_links schema w hne hl
            rw [h₁]
            exact ⟨fun _ => ⟨⟨rfl, .inr hl⟩, fun h => absurd h hne⟩,
              fun _ => ⟨_, rfl, Consumed.copy.mpr hcon⟩⟩
        | false =>
            refine ⟨fun hex => ?_, fun hcond => ?_⟩
            · obtain ⟨w', hw', hcon⟩ := hex
              obtain ⟨w₁, h₁, rfl⟩ := Option.map_eq_some_iff.mp hw'
              exact absurd (Consumed.copy.mp hcon) (not_consumed_of_links w hne hl _ _ h₁)
            · obtain h' | h' := hcond.1.2
              · exact absurd h' hne
              · rw [hl] at h'
                cases h'

/-! ## §4. Callbacks. -/

/-- What a callback is made of: comparisons with their paths, and the rest. -/
inductive Item where
  | comparison (dict : Option DictionaryContext) (links : List ColKey) (l : Leaf)
  | truepredicate
  | falsepredicate
  | copy (i : Nat)
  | and (i j : Nat)
  | or (i j : Nat)
  | not (i : Nat)
  deriving DecidableEq, Repr

/-- The steps of an item. -/
def Item.steps : Item → List Step
  | comparison dict links l => pathSteps dict links ++ [.leaf l]
  | truepredicate => [.truepredicate]
  | falsepredicate => [.falsepredicate]
  | copy i => [.copy i]
  | and i j => [.and i j]
  | or i j => [.or i j]
  | not i => [.not i]

/-- A comparison of the callback takes up its path. -/
def Item.TakesUp (schema : Schema) : Item → Prop
  | comparison dict links l => Rbool.TakesUp schema dict links l
  | _ => True

/-- A run of one step. -/
theorem run_single {s : Step} {w w' : Context m} (h : run schema [s] w = some w') :
    s.run schema w = some w' := by
  obtain ⟨w₁, h₁, h₂⟩ := Option.bind_eq_some_iff.mp h
  injection h₂ with h₂
  subst h₂
  exact h₁

/-- **The operators leave the prefix fields and the shared query's table alone.** -/
theorem clean_operator {c : Item} {w w' : Context m} (hw : w.Clean)
    (hc : ∀ dict links l, c ≠ .comparison dict links l) (h : run schema c.steps w = some w') :
    w'.Clean := by
  cases c with
  | comparison dict links l => exact absurd rfl (hc dict links l)
  | truepredicate =>
      injection h with h
      subst h
      exact ⟨hw.noPending, (congrArg Query.table
        (Handles.get_create_of_lt w.queries _ w.live)).trans hw.table⟩
  | falsepredicate =>
      injection h with h
      subst h
      exact ⟨hw.noPending, (congrArg Query.table
        (Handles.get_create_of_lt w.queries _ w.live)).trans hw.table⟩
  | copy i =>
      obtain ⟨hi, rfl⟩ := Step.run_copy_inv (run_single h)
      exact ⟨hw.noPending, (congrArg Query.table (w.copy_q i hi.2)).trans hw.table⟩
  | and i j =>
      obtain ⟨hi, rfl⟩ := Step.run_and_inv (run_single h)
      -- appending to the shared query keeps its table
      refine ⟨hw.noPending, (congrArg Query.table (w.and_core i j hi.1 w.live)).trans ?_⟩
      split
      next hsame =>
        have heq : w.q = w.core i := hsame.get_eq
        rw [Query.and_query_table, ← heq]
        exact hw.table
      next => exact hw.table
  | or i j =>
      obtain ⟨hi, rfl⟩ := Step.run_or_inv (run_single h)
      refine ⟨hw.noPending, (congrArg Query.table (w.or_core i j hi.1 w.live)).trans ?_⟩
      rw [if_neg (by have := hi.1.1; omega)]
      exact hw.table
  | not i =>
      obtain ⟨hi, rfl⟩ := Step.run_not_inv (run_single h)
      refine ⟨hw.noPending, (congrArg Query.table (w.not_core i hi w.live)).trans ?_⟩
      rw [if_neg (by have := hi.1; omega)]
      exact hw.table

/-- **An item whose comparison takes up its path leaves nothing pending.** -/
theorem clean_item {c : Item} {w w' : Context m} (hw : w.Clean) (hc : c.TakesUp schema)
    (h : run schema c.steps w = some w') : w'.Clean := by
  by_cases hcmp : ∃ dict links l, c = .comparison dict links l
  · obtain ⟨dict, links, l, rfl⟩ := hcmp
    obtain ⟨w₁, h₁, hcon⟩ :=
      (consumed_iff schema w hw.noPending dict links l).mpr ⟨hc, fun _ => hw.table⟩
    have heq : some w₁ = some w' := h₁.symm.trans h
    injection heq with heq
    subst heq
    exact ⟨hcon.noPending, hcon.table.trans (run_m_table h₁).symm⟩
  · exact clean_operator hw (fun dict links l heq => hcmp ⟨dict, links, l, heq⟩) h

/-- **A callback whose comparisons take up their paths** has nothing pending in
the state after any of its items. -/
theorem clean_run (cs : List Item) :
    ∀ {w w' : Context m}, w.Clean → (∀ c ∈ cs, c.TakesUp schema) →
      run schema (cs.flatMap Item.steps) w = some w' → w'.Clean := by
  induction cs with
  | nil =>
      intro w w' hw _ h
      injection h with h
      subst h
      exact hw
  | cons c cs ih =>
      intro w w' hw hcs h
      rw [List.flatMap_cons, run_append] at h
      obtain ⟨w₁, h₁, h₂⟩ := Option.bind_eq_some_iff.mp h
      exact ih (clean_item hw (hcs c (by simp)) h₁) (fun c' hc' => hcs c' (by simp [hc'])) h₂

/-- **Exactly when a path is consumed by the comparison it prefixes.**  In every
state of a callback with nothing pending; and in a callback whose comparisons so
far took up their paths, every comparison that takes up its own. -/
theorem path_consumed_iff (m : Storage) (schema : Schema) (t : TableKey) :
    (∀ (ss : List Step) (w : Context m), run schema ss (Context.init m t) = some w →
      w.NoPending → ∀ dict links l,
        ((∃ w', run schema (pathSteps dict links ++ [.leaf l]) w = some w' ∧
            Consumed t (pathOf dict links) l w') ↔
          TakesUp schema dict links l ∧ (links = [] → w.q.table = t))) ∧
    ∀ (cs : List Item) (w : Context m), (∀ c ∈ cs, c.TakesUp schema) →
      run schema (cs.flatMap Item.steps) (Context.init m t) = some w → ∀ dict links l,
        (TakesUp schema dict links l ↔
          ∃ w', run schema (pathSteps dict links ++ [.leaf l]) w = some w' ∧
            Consumed t (pathOf dict links) l w') := by
  have hstate : ∀ (ss : List Step) (w : Context m),
      run schema ss (Context.init m t) = some w → w.NoPending → ∀ dict links l,
        ((∃ w', run schema (pathSteps dict links ++ [.leaf l]) w = some w' ∧
            Consumed t (pathOf dict links) l w') ↔
          TakesUp schema dict links l ∧ (links = [] → w.q.table = t)) := by
    intro ss w hrun hp dict links l
    have hiff := consumed_iff schema w hp dict links l
    rw [m_table_of_run hrun] at hiff
    exact hiff
  refine ⟨hstate, fun cs w hcs hrun dict links l => ?_⟩
  -- where all paths were taken up, nothing is left to change the next one
  have hclean : w.Clean := clean_run cs ⟨⟨rfl, rfl⟩, rfl⟩ hcs hrun
  rw [hstate _ w hrun hclean.noPending dict links l]
  refine (and_iff_left ?_).symm
  intro _
  rw [hclean.table]
  exact m_table_of_run hrun

/-- **`o.link->map["k"] == 1` leaves its link behind**, and `o.a == 2` after it
is asked of the linked object. -/
theorem dictionary_leaves_chain :
    ∃ w w' : Context .byValue,
      run (Schema.uniform .int ⟨0⟩)
          (pathSteps none [⟨1⟩] ++
            [.leaf (.dictionary_has_value_for_key .equal ⟨2⟩ "k" (.int 1))])
          (Context.init .byValue ⟨0⟩) = some w ∧
        ¬ Consumed ⟨0⟩ (pathOf none [⟨1⟩])
          (.dictionary_has_value_for_key .equal ⟨2⟩ "k" (.int 1)) w ∧
        run (Schema.uniform .int ⟨0⟩) [.leaf (.compare .int .equal ⟨3⟩ (.int 2))] w = some w' ∧
        w'.q = Query.only ⟨0⟩ ⟨[.link ⟨1⟩], ⟨3⟩, .compare .equal (.int 2)⟩ := by
  refine ⟨_, _, rfl, fun h => ?_, rfl, by decide⟩
  exact absurd h.noPending.1 (by decide)

end RealmCpp.Rbool
