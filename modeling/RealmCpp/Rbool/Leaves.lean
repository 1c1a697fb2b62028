/-
  RealmCpp.Rbool.Leaves
  ─────────────────────
  **A COMPARISON AND THE HISTORY OF ITS CALLBACK.**

  A comparison with no prefix should put its own query into the shared `rbool`,
  whatever was compared before, and should leave the `rbool`s made before alone.
  The mixed and the link comparisons call a condition method of the shared query
  instead of starting a new one: they inherit what is there, and where queries
  are shared they also narrow the `rbool` the previous comparison returned.
  A new query is started over the shared query's table, which is the callback's
  own unless a comparison through a dictionary of links has replaced it.

    • `Step.leaf_fresh`, `Step.leaf_accumulates` — the two kinds of comparison,
    • `leaf_alone_iff` — after any run, exactly when a comparison stands alone.
-/
import RealmCpp.Rbool.Steps

namespace RealmCpp.Rbool

open RealmCpp.Library
open RealmCpp.Core
open RealmCpp.Bridge

variable {m : Storage} {schema : Schema}

/-- The comparison `l` of a callback over `t`, carried out in `w`, gave `w'`: the
shared query is over `t` with its own predicate as the only condition, and every
`rbool` made before matches the objects it matched. -/
def StandsAlone (t : TableKey) (l : Leaf) (w w' : Context m) : Prop :=
  w'.q = Query.only t (l.condition []) ∧
    ∀ i, w.Operand i → ∀ (sat : Condition → ObjKey → Bool) (x : ObjKey),
      (w'.core i).Matches sat x = (w.core i).Matches sat x

/-- **A comparison that starts a new query stands alone**, over the table that the
shared query was over. -/
theorem Step.leaf_fresh (schema : Schema) (l : Leaf) (w : Context m) (h : w.NoPending)
    (hl : l.Accumulates = false) :
    ∃ w', Step.run schema w (.leaf l) = some w' ∧ StandsAlone w.q.table l w w' := by
  have hrun : l.run schema w = some (w.setQ (Query.only w.q.table (l.condition []))) := by
    rw [l.run_direct schema h, hl]
    rfl
  refine ⟨_, Step.run_leaf hrun, ?_, ?_⟩
  · rw [Context.copy_q, Context.setQ_q]
  · intro i hi sat x
    rw [Context.copy_core _ _ _ (by rw [Context.setQ_count]; exact hi.2), Context.setQ_core w _ hi]

/-- **A comparison that adds to the shared query** leaves the conditions that
were there in it, and no `rbool` on another cell notices. -/
theorem Step.leaf_accumulates (schema : Schema) (l : Leaf) (w : Context m) (h : w.NoPending)
    (hl : l.Accumulates = true) :
    ∃ w', Step.run schema w (.leaf l) = some w' ∧
      w'.q = w.q.addCondition (l.condition []) ∧
      ∀ i, w.Operand i → ¬ w.queries.Same i 0 → w'.core i = w.core i := by
  have hrun : l.run schema w = some (w.addToQ (l.condition [])) := by
    rw [l.run_direct schema h, hl]
    rfl
  refine ⟨_, Step.run_leaf hrun, ?_, ?_⟩
  · rw [Context.copy_q, Context.addToQ_q]
  · intro i hi hsame
    rw [Context.copy_core _ _ _ (by rw [Context.addToQ_count]; exact hi.2),
      Context.addToQ_core w _ hi hsame]

/-- **After any run of a callback over `t`, a comparison with no prefix stands
alone if and only if** the shared query is still over `t`, and the comparison's
method starts a new query or nothing was compared before. -/
theorem leaf_alone_iff (schema : Schema) (t : TableKey) (ss : List Step) (w : Context m)
    (hrun : run schema ss (Context.init m t) = some w) (hp : w.NoPending) (l : Leaf) :
    ∃ w', Step.run schema w (.leaf l) = some w' ∧
      (StandsAlone t l w w' ↔
        w.q.table = t ∧ (l.Accumulates = false ∨ w.q.cond = .tru)) := by
  cases hl : l.Accumulates with
  | false =>
      obtain ⟨w', hw', halone⟩ := Step.leaf_fresh schema l w hp hl
      refine ⟨w', hw', fun hthis => ⟨?_, .inl rfl⟩, fun hcond => ?_⟩
      · exact congrArg Query.table (halone.1.symm.trans hthis.1)
      · rw [← hcond.1]
        exact halone
  | true =>
      obtain ⟨w', hw', hq, hcore⟩ := Step.leaf_accumulates schema l w hp hl
      refine ⟨w', hw', fun halone => ?_, fun hcond => ?_⟩
      · -- the inherited conditions are still there
        have honly := hq.symm.trans halone.1
        have htable : w.q.table = t := congrArg Query.table honly
        rw [← htable] at honly
        exact ⟨htable, .inr ((Query.addCondition_eq_only_iff _ _).mp honly)⟩
      · obtain ⟨htable, hempty⟩ := hcond
        have hempty : w.q.cond = .tru := by simpa using hempty
        refine ⟨?_, fun i hi sat x => ?_⟩
        · rw [hq, ← htable]
          exact (Query.addCondition_eq_only_iff _ _).mpr hempty
        · -- nothing else is on the cell of a query without conditions
          rw [hcore i hi (alone_of_run hrun hempty i hi.1 hi.2)]

/-- A mixed comparison in the callback's first position stands alone. -/
theorem leaf_alone_iff_first :
    ∃ w', Step.run (Schema.uniform .mixed ⟨0⟩) (Context.init .shared ⟨0⟩)
        (.leaf (.mixed_equal ⟨1⟩ (.int 7))) = some w' ∧
      (StandsAlone ⟨0⟩ (.mixed_equal ⟨1⟩ (.int 7)) (Context.init .shared ⟨0⟩) w' ↔
        (Context.init .shared ⟨0⟩).q.table = ⟨0⟩ ∧
          (Leaf.Accumulates (.mixed_equal ⟨1⟩ (.int 7)) = false ∨
            (Context.init .shared ⟨0⟩).q.cond = .tru)) :=
  leaf_alone_iff _ ⟨0⟩ [] _ rfl ⟨rfl, rfl⟩ _

/-- **The second comparison of `o.a == 1 && o.b == mixed(2)` does not stand
alone**: its query still asks for `a == 1`. -/
theorem mixed_equal_inherits :
    ∃ w w' : Context .byValue,
      run (Schema.uniform .int ⟨0⟩) [.leaf (.compare .int .equal ⟨1⟩ (.int 1))]
          (Context.init .byValue ⟨0⟩) = some w ∧
        w.NoPending ∧
        Step.run (Schema.uniform .int ⟨0⟩) w (.leaf (.mixed_equal ⟨2⟩ (.int 2))) = some w' ∧
        ¬ StandsAlone ⟨0⟩ (.mixed_equal ⟨2⟩ (.int 2)) w w' := by
  refine ⟨_, _, rfl, ⟨rfl, rfl⟩, rfl, fun h => ?_⟩
  exact absurd h.1 (by decide)

end RealmCpp.Rbool
