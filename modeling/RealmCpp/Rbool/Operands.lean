/-
  RealmCpp.Rbool.Operands
  ───────────────────────
  **WHAT `&&`, `||` AND `!` DO TO THEIR OPERANDS.**

  The operators take `const rbool&`, but `q` is mutable and they write into it:
  `&&` narrows its left operand (and every `rbool` that shares its query), `||`
  widens it, `!` replaces it by its complement.  What they return is right; what
  they leave behind is not.

    • `and_unchanged_iff`, `or_unchanged_iff`, `not_unchanged_iff` — one operator,
    • `Step.run_keeps`, `Step.run_reads` — a step under the exact condition that
      the `rbool`s still in use keep their objects,
    • `operators_frame` — exactly when an operator leaves its operands alone,
      and that a callback whose steps leave alone what is still used returns the
      formula its source text reads as.
-/
import RealmCpp.Rbool.Steps

namespace RealmCpp.Rbool

open RealmCpp.Library
open RealmCpp.Core
open RealmCpp.Bridge

variable {m : Storage} {schema : Schema}

/-! ## §1. Sets of objects. -/

section
variable (objs : Set ObjKey) (sat : Condition → ObjKey → Bool)

/-- Among the objects `objs`, the `k`-th `rbool` matches what it matched. -/
def Unchanged (w w' : Context m) (k : Nat) : Prop :=
  ∀ x ∈ objs, (w'.core k).Matches sat x = (w.core k).Matches sat x

/-- Among the objects `objs`, what `q` matches is matched by `r`. -/
def Within (q r : Query) : Prop :=
  ∀ x ∈ objs, q.Matches sat x = true → r.Matches sat x = true

variable {objs sat}

theorem Within.and_eq {q r : Query} (h : Within objs sat q r) {x : ObjKey} (hx : x ∈ objs) :
    (q.and_query r).Matches sat x = q.Matches sat x := by
  rw [Query.matches_and_query]
  cases hq : q.Matches sat x with
  | false => rfl
  | true => rw [h x hx hq]; rfl

theorem Within.or_eq {q r : Query} (h : Within objs sat r q) {x : ObjKey} (hx : x ∈ objs) :
    (q.or r).Matches sat x = q.Matches sat x := by
  rw [Query.matches_or]
  cases hr : r.Matches sat x with
  | false => simp
  | true => rw [h x hx hr]; rfl

end

/-- **`&&` leaves its operands alone exactly when the left one's objects are
among the right one's.** -/
theorem and_unchanged_iff (objs : Set ObjKey) (sat : Condition → ObjKey → Bool) (w : Context m)
    {i j : Nat} (hi : w.Operand i) (hj : w.Operand j) :
    (Unchanged objs sat w (w.and i j hi) i ∧ Unchanged objs sat w (w.and i j hi) j)
      ↔ Within objs sat (w.core i) (w.core j) := by
  constructor
  · rintro ⟨h, -⟩ x hx hmatch
    have hxi := h x hx
    rw [w.and_core i j hi hi.2, if_pos (show w.queries.Same i i from rfl),
      Query.matches_and_query, hmatch, Bool.true_and] at hxi
    exact hxi
  · intro h
    refine ⟨fun x hx => ?_, fun x hx => ?_⟩
    · rw [w.and_core i j hi hi.2, if_pos (show w.queries.Same i i from rfl), h.and_eq hx]
    · rw [w.and_core i j hi hj.2]
      split
      next hsame =>
        have heq : w.core j = w.core i := hsame.get_eq
        rw [h.and_eq hx, heq]
      next => rfl

/-- **`||` leaves its operands alone exactly when the right one's objects are
among the left one's.** -/
theorem or_unchanged_iff (objs : Set ObjKey) (sat : Condition → ObjKey → Bool) (w : Context m)
    {i j : Nat} (hi : w.Operand i) (hj : w.Operand j) :
    (Unchanged objs sat w (w.or i j hi) i ∧ Unchanged objs sat w (w.or i j hi) j)
      ↔ Within objs sat (w.core j) (w.core i) := by
  constructor
  · rintro ⟨h, -⟩ x hx hmatch
    have hxi := h x hx
    rw [w.or_core i j hi hi.2, if_pos rfl, Query.matches_or, hmatch, Bool.or_true] at hxi
    exact hxi.symm
  · intro h
    refine ⟨fun x hx => ?_, fun x hx => ?_⟩
    · rw [w.or_core i j hi hi.2, if_pos rfl, h.or_eq hx]
    · rw [w.or_core i j hi hj.2]
      split
      next heq => subst heq; rw [h.or_eq hx]
      next => rfl

/-- **`!` leaves its operand alone only on a table without objects.** -/
theorem not_unchanged_iff (objs : Set ObjKey) (sat : Condition → ObjKey → Bool) (w : Context m)
    {i : Nat} (hi : w.Operand i) :
    Unchanged objs sat w (w.not i hi) i ↔ objs = ∅ := by
  constructor
  · intro h
    refine Set.eq_empty_iff_forall_notMem.mpr fun x hx => ?_
    have hxi := h x hx
    rw [w.not_core i hi hi.2, if_pos rfl, Query.matches_not] at hxi
    cases hm : (w.core i).Matches sat x <;> rw [hm] at hxi <;> cases hxi
  · rintro rfl x hx
    exact absurd hx (Set.notMem_empty x)

/-! ## §2. Callbacks that name their sub-expressions. -/

/-- The `rbool`s a step names. -/
def Step.names : Step → List Nat
  | .copy i | .not i => [i]
  | .and i j | .or i j => [i, j]
  | _ => []

/-- The `rbool`s that the remaining steps name, and the one returned. -/
def needed (r : Nat) : List Step → List Nat
  | [] => [r]
  | s :: ss => s.names ++ needed r ss

/-- The formula each `rbool` is read as in the source text, over the queries
that the comparisons returned. -/
def Step.read (w w' : Context m) (tree : Nat → Formula Query) : Step → Nat → Formula Query
  | .link _ | .dictionary_link _ _ => tree
  | .leaf _ | .truepredicate | .falsepredicate =>
      Function.update tree w.count (.atom (w'.core w.count))
  | .copy i => Function.update tree w.count (tree i)
  | .and i j => Function.update tree w.count (.and (tree i) (tree j))
  | .or i j => Function.update tree w.count (.or (tree i) (tree j))
  | .not i => Function.update tree w.count (.neg (tree i))

/-- The reading of a run of steps. -/
def read (schema : Schema) : List Step → Context m → (Nat → Formula Query) → Nat → Formula Query
  | [], _, tree => tree
  | s :: ss, w, tree =>
      match s.run schema w with
      | some w' => read schema ss w' (s.read w w' tree)
      | none => tree

section
variable (objs : Set ObjKey) (sat : Condition → ObjKey → Bool)

/-- The condition on a step: of the `rbool`s in `used`, those it writes to are
written what they already match. -/
def Step.Keeps (w : Context m) (used : List Nat) : Step → Prop
  | .leaf l => l.Accumulates = true → w.m_link_chain = none →
      ∀ k ∈ used, w.Operand k → w.queries.Same k 0 →
        ∀ x ∈ objs, (w.core k).Matches sat x = true → sat (l.condition []) x = true
  | .and i j => (∃ k ∈ used, w.Operand k ∧ w.queries.Same k i) →
      Within objs sat (w.core i) (w.core j)
  | .or i j => i ∈ used → Within objs sat (w.core j) (w.core i)
  | .not i => i ∈ used → objs = ∅
  | _ => True

/-- Every step of a run meets its condition for what is still used after it. -/
def AllKeep (schema : Schema) (r : Nat) : List Step → Context m → Prop
  | [], _ => True
  | s :: ss, w => s.Keeps objs sat w (needed r ss) ∧
      ∀ w', s.run schema w = some w' → AllKeep schema r ss w'

variable {objs sat}

/-- A comparison makes no query. -/
theorem Leaf.run_count {l : Leaf} {w w₁ : Context m} (h : l.run schema w = some w₁) :
    w₁.queries.count = w.queries.count := by
  obtain ⟨t, c, hq⟩ | ⟨-, -, hq⟩ := l.run_queries h <;> simp [hq]

/-- A comparison under its condition leaves the used `rbool`s what they match. -/
theorem Leaf.run_keeps {l : Leaf} {w w₁ : Context m} {used : List Nat}
    (hs : (Step.leaf l).Keeps objs sat w used) (h : l.run schema w = some w₁) {k : Nat}
    (hk : k ∈ used) (hop : w.Operand k) {x : ObjKey} (hx : x ∈ objs) :
    (w₁.core k).Matches sat x = (w.core k).Matches sat x := by
  show (w₁.queries.get k).Matches sat x = _
  obtain ⟨t, c, hq⟩ | ⟨hacc, hchain, hq⟩ := l.run_queries h
  · rw [hq, Handles.get_assign_of_ne _ _ w.live hop.2 (by have := hop.1; omega)]
  · rw [hq, get_addCondition _ _ w.live hop.2]
    split
    next hsame =>
      -- the condition reaches `k`, and `k` matches nothing it excludes
      rw [← hsame.get_eq, Query.matches_addCondition]
      show ((w.core k).Matches sat x && _) = _
      cases hm : (w.core k).Matches sat x with
      | false => rfl
      | true =>
        rw [hs hacc hchain k hk hop hsame x hx hm]
        rfl
    next => rfl

/-- **A step under its condition** leaves the used `rbool`s what they match. -/
theorem Step.run_keeps {s : Step} {w w' : Context m} {used : List Nat}
    (hs : s.Keeps objs sat w used) (h : s.run schema w = some w') {k : Nat} (hk : k ∈ used)
    (hop : w.Operand k) : Unchanged objs sat w w' k := by
  intro x hx
  cases s with
  | link col =>
      injection h with h
      subst h
      unfold Context.add_link_chain
      split <;> rfl
  | dictionary_link col key =>
      injection h with h
      subst h
      rfl
  | leaf l =>
      simp only [run, Option.map_eq_some_iff] at h
      obtain ⟨w₁, h₁, rfl⟩ := h
      have hcore : w₁.queries.count = w.queries.count := l.run_count h₁
      have hcount : k < w₁.count := by
        rw [Context.count, hcore]
        exact hop.2
      rw [Context.copy_core _ _ _ hcount]
      exact l.run_keeps hs h₁ hk hop hx
  | truepredicate =>
      injection h with h
      subst h
      exact congrArg (Query.Matches sat · x) (Handles.get_create_of_lt w.queries _ hop.2)
  | falsepredicate =>
      injection h with h
      subst h
      exact congrArg (Query.Matches sat · x) (Handles.get_create_of_lt w.queries _ hop.2)
  | copy i =>
      obtain ⟨hi, rfl⟩ := run_copy_inv h
      rw [Context.copy_core w i hi.2 hop.2]
  | and i j =>
      obtain ⟨hi, rfl⟩ := run_and_inv h
      rw [w.and_core i j hi.1 hop.2]
      split
      next hsame =>
        have heq : w.core k = w.core i := hsame.get_eq
        rw [(hs ⟨k, hk, hop, hsame⟩).and_eq hx, heq]
      next => rfl
  | or i j =>
      obtain ⟨hi, rfl⟩ := run_or_inv h
      rw [w.or_core i j hi.1 hop.2]
      split
      next heq => subst heq; rw [(hs hk).or_eq hx]
      next => rfl
  | not i =>
      obtain ⟨hi, rfl⟩ := run_not_inv h
      rw [w.not_core i hi hop.2]
      split
      next heq =>
        subst heq
        rw [hs hk] at hx
        exact absurd hx (Set.notMem_empty x)
      next => rfl

/-- The `rbool`s in `used` match what their formula says. -/
def Reads (objs : Set ObjKey) (sat : Condition → ObjKey → Bool) (w : Context m)
    (tree : Nat → Formula Query) (used : List Nat) : Prop :=
  ∀ k ∈ used, w.Operand k → ∀ x ∈ objs,
    (w.core k).Matches sat x = (tree k).eval fun q => q.Matches sat x

/-- A step that makes an `rbool` out of the operands it names. -/
theorem Reads.extend {w w' : Context m} {tree : Nat → Formula Query} {used : List Nat}
    (hold : ∀ k ∈ used, w.Operand k → ∀ x ∈ objs,
      (w'.core k).Matches sat x = (tree k).eval fun q => q.Matches sat x)
    (hcount : w'.count = w.count + 1) (f : Formula Query)
    (hnew : ∀ x ∈ objs, (w'.core w.count).Matches sat x = f.eval fun q => q.Matches sat x) :
    Reads objs sat w' (Function.update tree w.count f) used := by
  intro k hk hop x hx
  have hlt := hop.2
  by_cases hkc : k = w.count
  · subst hkc
    rw [Function.update_self]
    exact hnew x hx
  · rw [Function.update_of_ne hkc]
    exact hold k hk ⟨hop.1, by omega⟩ x hx

/-- **A step under its condition keeps the reading.** -/
theorem Step.run_reads {s : Step} {w w' : Context m} {used : List Nat}
    {tree : Nat → Formula Query} (hs : s.Keeps objs sat w used)
    (h : s.run schema w = some w') (hr : Reads objs sat w tree (s.names ++ used)) :
    Reads objs sat w' (s.read w w' tree) used := by
  have hold : ∀ k ∈ used, w.Operand k → ∀ x ∈ objs,
      (w'.core k).Matches sat x = (tree k).eval fun q => q.Matches sat x := by
    intro k hk hop x hx
    rw [Step.run_keeps hs h hk hop x hx]
    exact hr k (List.mem_append_right _ hk) hop x hx
  cases s with
  | link col =>
      injection h with h
      subst h
      intro k hk hop x hx
      refine hold k hk ?_ x hx
      unfold Context.add_link_chain at hop
      split at hop <;> exact hop
  | dictionary_link col key =>
      injection h with h
      subst h
      exact hold
  | leaf l =>
      simp only [run, Option.map_eq_some_iff] at h
      obtain ⟨w₁, h₁, rfl⟩ := h
      refine Reads.extend hold ?_ _ fun x hx => rfl
      -- the result is a copy of the shared query, named by a handle of its own
      show (w₁.queries.copy 0 w₁.live).count = _
      rw [Handles.count_copy, l.run_count h₁]
  | truepredicate =>
      injection h with h
      subst h
      exact Reads.extend hold rfl _ fun x hx => rfl
  | falsepredicate =>
      injection h with h
      subst h
      exact Reads.extend hold rfl _ fun x hx => rfl
  | copy i =>
      obtain ⟨hi, rfl⟩ := run_copy_inv h
      refine Reads.extend hold (Handles.count_copy _ _ _) _ fun x hx => ?_
      show ((w.queries.copy i hi.2).get w.queries.count).Matches sat x = _
      rw [Handles.get_copy_self]
      exact hr i (by simp [names]) hi x hx
  | and i j =>
      obtain ⟨hi, rfl⟩ := run_and_inv h
      refine Reads.extend hold (Handles.count_copy _ _ _) _ fun x hx => ?_
      rw [w.and_result i j hi.1, Query.matches_and_query, Formula.eval_and,
        hr i (by simp [names]) hi.1 x hx, hr j (by simp [names]) hi.2 x hx]
  | or i j =>
      obtain ⟨hi, rfl⟩ := run_or_inv h
      refine Reads.extend hold ?_ _ fun x hx => ?_
      · exact (Handles.count_copy _ _ _).trans (by simp)
      · rw [w.or_result i j hi.1, Query.matches_or, Formula.eval_or,
          hr i (by simp [names]) hi.1 x hx, hr j (by simp [names]) hi.2 x hx]
  | not i =>
      obtain ⟨hi, rfl⟩ := run_not_inv h
      refine Reads.extend hold ?_ _ fun x hx => ?_
      · exact (Handles.count_copy _ _ _).trans (by simp)
      · rw [w.not_result i hi, Query.matches_not, Formula.eval_neg,
          hr i (by simp [names]) hi x hx]

/-- **A run under its conditions returns the formula it reads as.** -/
theorem run_reads {r : Nat} (ss : List Step) :
    ∀ {w w' : Context m} {tree : Nat → Formula Query}, AllKeep objs sat schema r ss w →
      run schema ss w = some w' → Reads objs sat w tree (needed r ss) →
      Reads objs sat w' (read schema ss w tree) [r] := by
  induction ss with
  | nil =>
      intro w w' tree _ h hr
      injection h with h
      subst h
      exact hr
  | cons s ss ih =>
      intro w w' tree hkeep h hr
      obtain ⟨w₁, h₁, h₂⟩ := Option.bind_eq_some_iff.mp h
      have hread : read schema (s :: ss) w tree = read schema ss w₁ (s.read w w₁ tree) := by
        simp only [read, h₁]
      rw [hread]
      exact ih (hkeep.2 w₁ h₁) h₂ (Step.run_reads hkeep.1 h₁ hr)

end

/-- **Exactly when the operators leave their operands alone.**  In every state
of a callback: `a && b` when `a`'s objects are among `b`'s, `a || b` when `b`'s
are among `a`'s, `!a` when the table has no object.  A callback in which every
step leaves alone what is still used returns the objects of its formula. -/
theorem operators_frame (schema : Schema) (t : TableKey) (objs : Set ObjKey)
    (sat : Condition → ObjKey → Bool) (ss : List Step) (w : Context m)
    (hrun : run schema ss (Context.init m t) = some w) :
    (∀ i j (hi : w.Operand i), w.Operand j →
      ((Unchanged objs sat w (w.and i j hi) i ∧ Unchanged objs sat w (w.and i j hi) j)
        ↔ Within objs sat (w.core i) (w.core j))) ∧
    (∀ i j (hi : w.Operand i), w.Operand j →
      ((Unchanged objs sat w (w.or i j hi) i ∧ Unchanged objs sat w (w.or i j hi) j)
        ↔ Within objs sat (w.core j) (w.core i))) ∧
    (∀ i (hi : w.Operand i), Unchanged objs sat w (w.not i hi) i ↔ objs = ∅) ∧
    ∀ r, w.Operand r → AllKeep objs sat schema r ss (Context.init m t) → ∀ x ∈ objs,
      (w.core r).Matches sat x
        = (read schema ss (Context.init m t) (fun _ => .tru) r).eval
            fun q => q.Matches sat x := by
  refine ⟨fun i j hi hj => and_unchanged_iff objs sat w hi hj,
    fun i j hi hj => or_unchanged_iff objs sat w hi hj,
    fun i hi => not_unchanged_iff objs sat w hi, ?_⟩
  intro r hr hkeep x hx
  refine run_reads ss hkeep hrun ?_ r (List.mem_singleton.mpr rfl) hr x hx
  -- no `rbool` is held before the first step
  intro k _ hop
  have hlt : k < 1 := hop.2
  have := hop.1
  omega

/-- `a && b` with each comparison used once, on the objects whose key is the
column compared. -/
theorem operators_frame_once :
    ∃ w : Context .shared,
      run (Schema.uniform .int ⟨0⟩)
          [.leaf (.compare .int .equal ⟨1⟩ (.int 1)), .leaf (.compare .int .less ⟨2⟩ (.int 2)),
            .and 1 2] (Context.init .shared ⟨0⟩) = some w ∧
        (w.core 3).Matches (fun c x => decide (c.col.value = x.value)) ⟨1⟩ = false := by
  refine ⟨_, rfl, ?_⟩
  refine ((operators_frame (Schema.uniform .int ⟨0⟩) ⟨0⟩ Set.univ
    (fun c x => decide (c.col.value = x.value))
    [.leaf (.compare .int .equal ⟨1⟩ (.int 1)), .leaf (.compare .int .less ⟨2⟩ (.int 2)),
      .and 1 2] _ rfl).2.2.2 3 ⟨by decide, by decide⟩ ?_ ⟨1⟩ (Set.mem_univ _)).trans (by decide)
  refine ⟨fun h => (by cases h), fun w₁ h₁ => ?_⟩
  injection h₁ with h₁
  subst h₁
  refine ⟨fun h => (by cases h), fun w₂ h₂ => ?_⟩
  injection h₂ with h₂
  subst h₂
  refine ⟨?_, fun w₃ h₃ => trivial⟩
  -- what is returned does not exist yet when `&&` narrows `a`
  rintro ⟨k, hk, hop, -⟩
  rw [List.mem_singleton.mp hk] at hop
  exact absurd hop.2 (by decide)

/-- **`auto a = leaf; return a || !a` does not match every object**: `!a` has
replaced `a` by its complement. -/
theorem not_changes_operand :
    ∃ w w' : Context .byValue,
      run (Schema.uniform .int ⟨0⟩) [.leaf (.compare .int .equal ⟨1⟩ (.int 1))]
          (Context.init .byValue ⟨0⟩) = some w ∧
        run (Schema.uniform .int ⟨0⟩) [.not 1, .or 1 2] w = some w' ∧
        ¬ Unchanged {⟨5⟩} (fun _ _ => true) w w' 1 ∧
        (w'.core 3).Matches (fun _ _ => true) ⟨5⟩ = false := by
  refine ⟨_, _, rfl, rfl, fun h => ?_, by decide⟩
  exact absurd (h ⟨5⟩ rfl) (by decide)

end RealmCpp.Rbool
