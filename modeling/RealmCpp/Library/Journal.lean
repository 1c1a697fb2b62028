/-
  RealmCpp.Library.Journal
  ────────────────────────
  **JOURNALS OF WRITES TO KEYED CELLS.**

  A journal is a list of writes, each to the cell at a key.  A write may fail,
  and then so does the journal.  No write reads another cell, so that a journal
  can be followed one cell at a time:

    • `replay_eq_some_iff` — replaying a journal is running, for every key, the
      writes to the cell at that key,
    • `runWrites_invariant` — what every write keeps, a run of them keeps,
    • `runWrites_last` — after writes that look at nothing, the cell is as the
      last one left it.
-/
import Mathlib.Logic.Function.Basic
import Mathlib.Data.List.Basic

namespace RealmCpp.Library

variable {K C W : Type}

/-! ## §1. One cell. -/

/-- A run of writes to one cell. -/
def runWrites (apply : W → C → Option C) : List W → C → Option C
  | [], c => some c
  | w :: ws, c => (apply w c).bind (runWrites apply ws)

variable {apply : W → C → Option C}

/-- **Induction over a run**: a property of the cell that each write keeps. -/
theorem runWrites_invariant {P : C → Prop} {ws : List W}
    (hstep : ∀ w ∈ ws, ∀ c c', P c → apply w c = some c' → P c') {c c' : C}
    (hrun : runWrites apply ws c = some c') (hc : P c) : P c' := by
  induction ws generalizing c with
  | nil =>
    cases hrun
    exact hc
  | cons w ws ih =>
    obtain ⟨c₁, hw, hrest⟩ := Option.bind_eq_some_iff.mp hrun
    apply ih _ hrest
    · exact hstep w List.mem_cons_self c c₁ hc hw
    · intro w' hw'
      exact hstep w' (List.mem_cons_of_mem w hw')

/-- A run of writes that never fail. -/
theorem runWrites_total {ws : List W} (h : ∀ w ∈ ws, ∀ c, ∃ c', apply w c = some c') (c : C) :
    ∃ c', runWrites apply ws c = some c' := by
  induction ws generalizing c with
  | nil => exact ⟨c, rfl⟩
  | cons w ws ih =>
    obtain ⟨c₁, hw⟩ := h w List.mem_cons_self c
    obtain ⟨c', hrest⟩ := ih (fun w' hw' => h w' (List.mem_cons_of_mem w hw')) c₁
    exact ⟨c', Option.bind_eq_some_iff.mpr ⟨c₁, hw, hrest⟩⟩

/-- **Writes that do not look at the cell** leave it as the last one does. -/
theorem runWrites_last {ws : List W} (h : ∀ w ∈ ws, ∃ d, ∀ c, apply w c = some d)
    (hne : ws ≠ []) {c c' : C} (hrun : runWrites apply ws c = some c') :
    ∃ w ∈ ws, ∀ d, apply w d = some c' := by
  induction ws generalizing c with
  | nil => exact absurd rfl hne
  | cons w ws ih =>
    obtain ⟨c₁, hw, hrest⟩ := Option.bind_eq_some_iff.mp hrun
    cases ws with
    | nil =>
      cases hrest
      obtain ⟨d, hd⟩ := h w List.mem_cons_self
      have hc' : d = c' := Option.some.inj ((hd c).symm.trans hw)
      subst hc'
      exact ⟨w, List.mem_cons_self, hd⟩
    | cons w₂ ws =>
      have htail : ∀ w' ∈ w₂ :: ws, ∃ d, ∀ c, apply w' c = some d :=
        fun w' hw' => h w' (List.mem_cons_of_mem w hw')
      obtain ⟨w', hw', hlast⟩ := ih htail (List.cons_ne_nil _ _) hrest
      exact ⟨w', List.mem_cons_of_mem w hw', hlast⟩

/-! ## §2. All cells. -/

variable [DecidableEq K]

/-- The writes of a journal to the cell at `k`. -/
def writesAt (k : K) (es : List (K × W)) : List W :=
  es.filterMap fun e => if e.1 = k then some e.2 else none

/-- Replay a journal. -/
def replay (apply : W → C → Option C) : List (K × W) → (K → C) → Option (K → C)
  | [], m => some m
  | (k, w) :: es, m => (apply w (m k)).bind fun c => replay apply es (Function.update m k c)

@[simp] theorem writesAt_cons_self (k : K) (w : W) (es : List (K × W)) :
    writesAt k ((k, w) :: es) = w :: writesAt k es := by
  simp [writesAt]

theorem writesAt_cons_of_ne {j k : K} (h : j ≠ k) (w : W) (es : List (K × W)) :
    writesAt k ((j, w) :: es) = writesAt k es := by
  simp [writesAt, h]

theorem mem_writesAt {k : K} {w : W} {es : List (K × W)} :
    w ∈ writesAt k es ↔ (k, w) ∈ es := by
  unfold writesAt
  rw [List.mem_filterMap]
  constructor
  · intro ⟨⟨j, w'⟩, hmem, h⟩
    obtain ⟨hj, hw⟩ := Option.ite_none_right_eq_some.mp h
    cases hj
    cases hw
    exact hmem
  · intro hmem
    exact ⟨(k, w), hmem, if_pos rfl⟩

@[simp] theorem writesAt_append (k : K) (es es' : List (K × W)) :
    writesAt k (es ++ es') = writesAt k es ++ writesAt k es' :=
  List.filterMap_append

theorem writesAt_perm (k : K) {es es' : List (K × W)} (h : es.Perm es') :
    (writesAt k es).Perm (writesAt k es') :=
  h.filterMap _

theorem writesAt_sublist (k : K) {es es' : List (K × W)} (h : es.Sublist es') :
    (writesAt k es).Sublist (writesAt k es') :=
  h.filterMap _

/-- The writes of one cell's own journal. -/
theorem writesAt_map_self (k : K) (ws : List W) : writesAt k (ws.map (k, ·)) = ws := by
  induction ws with
  | nil => rfl
  | cons w ws ih => simp [ih]

theorem writesAt_map_of_ne {j k : K} (h : j ≠ k) (ws : List W) :
    writesAt k (ws.map (j, ·)) = [] := by
  induction ws with
  | nil => rfl
  | cons w ws ih => simp [writesAt_cons_of_ne h, ih]

theorem replay_append (es es' : List (K × W)) (m : K → C) :
    replay apply (es ++ es') m = (replay apply es m).bind (replay apply es') := by
  induction es generalizing m with
  | nil => rfl
  | cons e es ih =>
    obtain ⟨k, w⟩ := e
    show (apply w (m k)).bind _ = ((apply w (m k)).bind _).bind _
    cases apply w (m k) with
    | none => rfl
    | some c => exact ih _

/-- **A journal acts on each cell by itself.** -/
theorem replay_eq_some_iff {es : List (K × W)} {m m' : K → C} :
    replay apply es m = some m' ↔ ∀ k, runWrites apply (writesAt k es) (m k) = some (m' k) := by
  induction es generalizing m with
  | nil =>
    show some m = some m' ↔ ∀ k, some (m k) = some (m' k)
    simp [funext_iff]
  | cons e es ih =>
    obtain ⟨j, w⟩ := e
    show (apply w (m j)).bind _ = some m' ↔ _
    cases hw : apply w (m j) with
    | none =>
      -- the writes to the cell at `j` begin with the one that fails
      constructor
      · intro h
        cases h
      · intro h
        have hj := h j
        simp [runWrites, hw] at hj
    | some c =>
      refine Iff.trans ih (forall_congr' fun k => ?_)
      by_cases hk : j = k
      · subst hk
        simp [runWrites, hw]
      · simp [writesAt_cons_of_ne hk, Function.update_of_ne (Ne.symm hk)]

/-- A journal can be replayed where the writes to each cell can be run. -/
theorem exists_replay_iff {es : List (K × W)} {m : K → C} :
    (∃ m', replay apply es m = some m')
      ↔ ∀ k, ∃ c, runWrites apply (writesAt k es) (m k) = some c := by
  simp only [replay_eq_some_iff]
  constructor
  · intro ⟨m', h⟩ k
    exact ⟨m' k, h k⟩
  · intro h
    exact ⟨fun k => (h k).choose, fun k => (h k).choose_spec⟩

end RealmCpp.Library
