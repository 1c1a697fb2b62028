/-
  RealmCpp.Observation.ResultsChange
  ──────────────────────────────────
  **OBSERVING RESULTS.**

  The notifier of the core tells every commit as a change of the rows that it
  watches.  For results of the SDK these are all rows of the table, so that what
  the handler is given speaks about the table.

    • `Notifier` — the notifier of the core,
    • `notifications` — what the handler is given in a run of commits,
    • `Tells` — what it should be given,
    • `results_changes_iff` — where that is the same.
-/
import RealmCpp.Library.Diff
import RealmCpp.Managed.Results
import RealmCpp.Observation.CollectionChange
import Mathlib.Logic.Nontrivial.Basic

namespace RealmCpp.Observation

open RealmCpp.Library
open RealmCpp.Core
open RealmCpp.Managed

variable {V W : Type}

/-! ## §1. The notifier. -/

/-- **The notifier of the core**: it tells each commit as a change of the rows
that it watches.  Results have no owner that could be deleted. -/
structure Notifier (V W : Type) where
  change : (Version V W → List ObjKey) → Version V W → Version V W → CollectionChangeSet
  correct : ∀ watched s s', Diffs (watched s) (watched s') (s.Modified s')
    (change watched s s').deletions.indexes (change watched s s').insertions.indexes
    (change watched s s').modifications.indexes
  no_root : ∀ watched s s', (change watched s s').collection_root_was_deleted = false

/-- The change sets of a run of commits. -/
def Notifier.changes (n : Notifier V W) (watched : Version V W → List ObjKey) :
    Version V W → List (Version V W) → List CollectionChangeSet
  | _, [] => []
  | s, s' :: ss => n.change watched s s' :: n.changes watched s' ss

theorem Notifier.changes_no_root (n : Notifier V W) (watched : Version V W → List ObjKey)
    (s : Version V W) (ss : List (Version V W)) :
    ∀ c ∈ n.changes watched s ss, c.collection_root_was_deleted = false := by
  induction ss generalizing s with
  | nil =>
    intro c hc
    cases hc
  | cons s' ss ih =>
    intro c hc
    rcases List.mem_cons.mp hc with rfl | hc
    · exact n.no_root watched s s'
    · exact ih s' c hc

section Runs

variable {K : Type} [LinearOrder K] (column : Version V W → String → ObjKey → K)

/-- **What the handler of `observe` is given** from the version `s` on: the initial
notification, and then one for each commit. -/
def notifications (n : Notifier V W) (r : ManagedResults V W) (initial : CollectionChangeSet)
    (s : Version V W) (ss : List (Version V W)) : List (List (ResultsChange (ManagedResults V W))) :=
  deliveries (results_callback_wrapper r) true
    (initial :: n.changes (r.observed.contents column) s ss)

/-- **One change for each commit**, which tells it as a change of the results. -/
def Tells (r : ManagedResults V W) : Version V W → List (Version V W) →
    List (List (ResultsChange (ManagedResults V W))) → Prop
  | _, [], outs => outs = []
  | s, s' :: ss, outs => ∃ change rest, outs = [change] :: rest ∧
      Diffs (r.contents column s) (r.contents column s') (s.Modified s') change.deletions
        change.insertions change.modifications ∧ Tells r s' ss rest

/-- **A run in which the results are told about**: nothing at first, and then each
commit. -/
def ToldAbout (n : Notifier V W) (r : ManagedResults V W) (initial : CollectionChangeSet)
    (s : Version V W) (ss : List (Version V W)) : Prop :=
  ∃ rest, notifications column n r initial s ss = [⟨r, [], [], [], false⟩] :: rest ∧
    Tells column r s ss rest

/-! ## §2. What the handler is given. -/

variable {column} {n : Notifier V W} {r : ManagedResults V W} {initial : CollectionChangeSet}

/-- The change sets of the table, as they are. -/
theorem notifications_eq (s : Version V W) (ss : List (Version V W)) :
    notifications column n r initial s ss = [⟨r, [], [], [], false⟩] ::
      (n.changes (r.observed.contents column) s ss).map
        fun c => [passed (ResultsChange.mk r) c] :=
  (@indexDeliveries_iff _ (ResultsChange.mk r) (by simp) true _).mpr
    (n.changes_no_root _ s ss)

/-- A commit and the run after it. -/
theorem tells_cons_iff {watched : Version V W → List ObjKey} {s s' : Version V W}
    {ss : List (Version V W)} :
    Tells column r s (s' :: ss)
        ((n.changes watched s (s' :: ss)).map fun c => [passed (ResultsChange.mk r) c]) ↔
      Diffs (r.contents column s) (r.contents column s') (s.Modified s')
          (n.change watched s s').deletions.indexes (n.change watched s s').insertions.indexes
          (n.change watched s s').modifications.indexes ∧
        Tells column r s' ss
          ((n.changes watched s' ss).map fun c => [passed (ResultsChange.mk r) c]) := by
  constructor
  · rintro ⟨change, rest, heq, hdiffs, hrest⟩
    obtain ⟨hchange, rfl⟩ := List.cons.inj heq
    cases hchange
    exact ⟨hdiffs, hrest⟩
  · rintro ⟨hdiffs, hrest⟩
    exact ⟨_, _, rfl, hdiffs, hrest⟩

/-- **A notifier tells a run of what it watches.** -/
theorem tells_changes {watched : Version V W → List ObjKey} {s : Version V W}
    {ss : List (Version V W)} (h : ∀ t ∈ s :: ss, r.contents column t = watched t) :
    Tells column r s ss
      ((n.changes watched s ss).map fun c => [passed (ResultsChange.mk r) c]) := by
  induction ss generalizing s with
  | nil => rfl
  | cons s' ss ih =>
    rw [tells_cons_iff]
    refine ⟨?_, ih fun t ht => h t (List.mem_cons_of_mem _ ht)⟩
    rw [h s List.mem_cons_self, h s' (List.mem_cons_of_mem _ List.mem_cons_self)]
    exact n.correct watched s s'

/-- A run that is told about has the changes of the table in it. -/
theorem ToldAbout.diffs {s s' : Version V W} (h : ToldAbout column n r initial s [s']) :
    ∃ d i m, Diffs (r.contents column s) (r.contents column s') (s.Modified s') d i m ∧
      Diffs (r.observed.contents column s) (r.observed.contents column s') (s.Modified s') d i m := by
  obtain ⟨rest, heq, htells⟩ := h
  rw [notifications_eq] at heq
  obtain ⟨-, rfl⟩ := List.cons.inj heq
  exact ⟨_, _, _, (tells_cons_iff.mp htells).1, n.correct _ s s'⟩

/-! ## §3. Where the results are told about. -/

/-- Writing to a row modifies it, and no other one. -/
theorem modified_set {s : Version V W} {x : ObjKey} {v : V} (hv : v ≠ s.value x) (y : ObjKey) :
    s.Modified (s.set x v) y ↔ y = x := by
  unfold Version.Modified Version.set
  dsimp only
  by_cases hy : y = x
  · rw [if_pos hy, hy]
    simpa using Ne.symm hv
  · rw [if_neg hy]
    simp [hy]

/-- **Results that every run tells about are the table**: a run that fills the table
gives as many rows, and one that writes to a row gives it its index. -/
theorem eval_eq_rows [Nontrivial V] {parent : Results V W}
    (h : ∀ s ss, ToldAbout column n ⟨.live, parent⟩ initial s ss) (s : Version V W) :
    parent.eval column s = s.rows := by
  have hlength : (parent.eval column s).length = s.rows.length := by
    obtain ⟨d, i, m, hresults, htable⟩ := (h s.clear [s]).diffs
    rw [ManagedResults.contents_observed, ManagedResults.contents_observed] at htable
    change Diffs (parent.eval column s.clear) (parent.eval column s) _ d i m at hresults
    change Diffs [] s.rows _ d i m at htable
    rw [Results.eval_clear] at hresults
    exact hresults.length_eq htable
  apply List.ext_getElem hlength
  intro j hj hj'
  obtain ⟨v, hv⟩ := exists_ne (s.value s.rows[j])
  obtain ⟨d, i, m, hresults, htable⟩ := (h s [s.set s.rows[j] v]).diffs
  rw [ManagedResults.contents_observed, ManagedResults.contents_observed] at htable
  change Diffs s.rows s.rows _ d i m at htable
  -- the rows of the table have not changed
  obtain ⟨rfl, -⟩ := htable.unchanged rfl
  have hmem : j ∈ m := by
    rw [htable.mem_modifications_iff]
    exact ⟨_, List.getElem?_eq_getElem hj', (modified_set hv _).mpr rfl⟩
  obtain ⟨x, hx, hmodified⟩ := (hresults.mem_modifications_iff j).mp hmem
  change (parent.eval column s)[j]? = some x at hx
  rw [List.getElem?_eq_getElem hj, (modified_set hv x).mp hmodified] at hx
  exact Option.some.inj hx

/-- **Where notifications speak about the observed results.**  They do in every run
in which the results are the table in its order, and results of which every run
speaks are so in every version. -/
theorem results_changes_iff [Nontrivial V] (n : Notifier V W) (parent : Results V W)
    (initial : CollectionChangeSet) :
    (∀ s ss, (∀ t ∈ s :: ss, parent.eval column t = t.rows) →
      ToldAbout column n ⟨.live, parent⟩ initial s ss) ∧
    ((∀ s ss, ToldAbout column n ⟨.live, parent⟩ initial s ss) ↔
      ∀ s, parent.eval column s = s.rows) := by
  have hrun : ∀ s ss, (∀ t ∈ s :: ss, parent.eval column t = t.rows) →
      ToldAbout column n ⟨.live, parent⟩ initial s ss := by
    intro s ss h
    refine ⟨_, notifications_eq s ss, tells_changes fun t ht => ?_⟩
    rw [ManagedResults.contents_observed]
    exact h t ht
  refine ⟨hrun, fun h => eval_eq_rows h, fun h s ss => hrun s ss fun t _ => h t⟩

end Runs

/-- A notifier that compares the rows. -/
def comparingNotifier : Notifier Int Unit where
  change watched s s' :=
    let d := difference (watched s) (watched s')
    let modifications := (indexesOf (fun x => s.value x != s'.value x) (watched s)).filter
      fun j => !d.1.contains j
    { deletions := ⟨d.1, (sorted_difference _ _).1⟩
      insertions := ⟨d.2, (sorted_difference _ _).2⟩
      modifications := ⟨modifications, (sorted_indexesOf _ _).filter _⟩
      columns := []
      collection_root_was_deleted := false
      empty := d.1.isEmpty && d.2.isEmpty && modifications.isEmpty
      of_empty := by
        intro h
        simp only [Bool.and_eq_true] at h
        exact ⟨h.1.1, h.1.2, h.2, rfl⟩ }
  correct watched s s' := by
    have hdiffs := diffs_difference (watched s) (watched s') fun x => s.value x != s'.value x
    have hmodified : s.Modified s' = fun x => (s.value x != s'.value x) = true := by
      funext x
      simp [Version.Modified]
    rw [hmodified]
    exact hdiffs
  no_root _ _ _ := rfl

theorem results_changes_table :
    (∀ s ss, (∀ t ∈ s :: ss, Results.ofTable.eval valueColumn t = t.rows) →
      ToldAbout valueColumn comparingNotifier ⟨.live, .ofTable⟩ .none s ss) ∧
    ((∀ s ss, ToldAbout valueColumn comparingNotifier ⟨.live, .ofTable⟩ .none s ss) ↔
      ∀ s, Results.ofTable.eval valueColumn s = s.rows) :=
  @results_changes_iff _ _ _ _ valueColumn ⟨0, 1, by decide⟩ comparingNotifier .ofTable .none

/-- The rows that hold 1. -/
def rowsWithOne : ManagedResults Int Unit := ⟨.live, .ofQuery fun s x => s.value x = 1⟩

/-- **Filtered results are told about rows that they do not have.** -/
theorem filtered_results_changes :
    rowsWithOne.contents valueColumn twoRows = [⟨1⟩] ∧
      notifications valueColumn comparingNotifier rowsWithOne .none twoRows.clear [twoRows] =
        [[⟨rowsWithOne, [], [], [], false⟩], [⟨rowsWithOne, [], [0, 1], [], false⟩]] ∧
      ¬ ToldAbout valueColumn comparingNotifier rowsWithOne .none twoRows.clear [twoRows] := by
  have hcontents : rowsWithOne.contents valueColumn twoRows = [⟨1⟩] := List.mergeSort_singleton _
  have hclear : rowsWithOne.contents valueColumn twoRows.clear = [] :=
    Results.eval_clear valueColumn _ twoRows
  refine ⟨hcontents, ?_, ?_⟩
  · rw [notifications_eq]
    simp only [Notifier.changes, comparingNotifier, ManagedResults.contents_observed, passed]
    rfl
  · intro h
    obtain ⟨d, i, m, hresults, htable⟩ := h.diffs
    rw [hclear, hcontents] at hresults
    rw [ManagedResults.contents_observed, ManagedResults.contents_observed] at htable
    change Diffs [] _ _ d i m at htable
    exact absurd (hresults.length_eq htable) (by decide)

end RealmCpp.Observation
