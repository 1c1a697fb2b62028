/-
  RealmCpp.Library.Traversal
  ──────────────────────────
  **READING ELEMENT BY ELEMENT.**

  A list is read by a function that may fail on an element, or by a loop that goes
  from position to position.

    • `mapM_eq_some_iff` — what is read of a list,
    • `run_loop` — a loop, run for a number of iterations,
    • `run_loop_of_path` — where it ends, `run_loop_fixed` — where it does not.
-/
import Mathlib.Data.List.Forall2
import RealmCpp.Library.Termination

namespace RealmCpp.Library

variable {α β : Type}

/-! ## §1. Lists. -/

theorem mapM_eq_some_iff {f : α → Option β} {l : List α} {l' : List β} :
    l.mapM f = some l' ↔ List.Forall₂ (fun a b => f a = some b) l l' := by
  induction l generalizing l' with
  | nil =>
    rw [List.forall₂_nil_left_iff]
    exact ⟨fun h => (Option.some.inj h).symm, fun h => by rw [h]; rfl⟩
  | cons a l ih =>
    rw [List.mapM_cons, List.forall₂_cons_left_iff]
    constructor
    · intro h
      obtain ⟨b, hb, h⟩ := Option.bind_eq_some_iff.mp h
      obtain ⟨bs, hbs, h⟩ := Option.bind_eq_some_iff.mp h
      exact ⟨b, bs, hb, ih.mp hbs, (Option.some.inj h).symm⟩
    · rintro ⟨b, bs, hb, hbs, rfl⟩
      rw [hb, ih.mpr hbs]
      rfl

theorem exists_mapM {f : α → Option β} {l : List α}
    (h : ∀ a ∈ l, ∃ b, f a = some b) : ∃ l', l.mapM f = some l' := by
  induction l with
  | nil => exact ⟨[], rfl⟩
  | cons a l ih =>
    obtain ⟨b, hb⟩ := h a List.mem_cons_self
    obtain ⟨l', hl'⟩ := ih fun a' ha' => h a' (List.mem_cons_of_mem _ ha')
    exact ⟨b :: l', by rw [List.mapM_cons, hb, hl']; rfl⟩

/-- What was written element by element is read back just when each of the elements
is. -/
theorem mapM_map_eq_some_iff {f : β → Option α} {g : α → β} {l : List α} :
    (l.map g).mapM f = some l ↔ ∀ a ∈ l, f (g a) = some a := by
  rw [mapM_eq_some_iff, List.forall₂_map_left_iff, List.forall₂_same]

theorem length_of_mapM {f : α → Option β} {l : List α} {l' : List β}
    (h : l.mapM f = some l') : l'.length = l.length :=
  (mapM_eq_some_iff.mp h).length_eq.symm

/-- What comes back entry by entry has the names of the entries. -/
theorem names_eq_of_forall₂ {β γ : Type} {Q : String × β → String × γ → Prop}
    {l : List (String × β)} {l' : List (String × γ)}
    (h : List.Forall₂ (fun p q => q.1 = p.1 ∧ Q p q) l l') :
    l'.map Prod.fst = l.map Prod.fst := by
  induction h with
  | nil => rfl
  | cons hpq _ ih => rw [List.map_cons, List.map_cons, hpq.1, ih]

/-! ## §2. Loops. -/

section Loops

section Paths

variable {ι : Type} (next : ι → Option ι) (last : ι)

/-- The positions lead, one after the other, from the first of them to `last`. -/
def Path : ι → List ι → Prop
  | it, [] => it = last
  | it, j :: its => it = j ∧ it ≠ last ∧ ∃ k, next it = some k ∧ Path k its

variable {next last}

/-- Positions that are numbered, each leading to the next one. -/
theorem path_of_indices {f : Nat → ι} {n : Nat} (hnext : ∀ i < n, next (f i) = some (f (i + 1)))
    (hne : ∀ i < n, f i ≠ f n) (k : Nat) (hk : k ≤ n) :
    Path next (f n) (f (n - k)) ((List.range' (n - k) k).map f) := by
  induction k with
  | zero => rfl
  | succ k ih =>
    have hsucc : n - (k + 1) + 1 = n - k := by omega
    have hlt : n - (k + 1) < n := by omega
    rw [List.range'_succ, List.map_cons, hsucc]
    refine ⟨rfl, hne _ hlt, f (n - k), ?_, ih (by omega)⟩
    rw [hnext _ hlt, hsucc]

end Paths

variable {ι : Type} [DecidableEq ι] (next : ι → Option ι) (last : ι)

/-- `for (it = first; it != last; next(it))`: the positions that are visited.  The
loop is pending where it has not ended after the iterations that it was given. -/
def run_loop : Nat → ι → Outcome (List ι)
  | 0, it => if it = last then .returned [] else .pending
  | n + 1, it =>
      if it = last then .returned []
      else do
        let it' ← Outcome.ofOption (next it)
        let its ← run_loop n it'
        .returned (it :: its)

variable {next last}

/-- **A loop along a path** visits it, in as many iterations as it has positions. -/
theorem run_loop_of_path {it : ι} {its : List ι} (h : Path next last it its) {n : Nat}
    (hn : its.length ≤ n) : run_loop next last n it = .returned its := by
  induction its generalizing it n with
  | nil =>
    have hit : it = last := h
    cases n <;> simp [run_loop, hit]
  | cons j its ih =>
    obtain ⟨rfl, hne, k, hk, hrest⟩ := h
    rw [List.length_cons] at hn
    obtain ⟨n, rfl⟩ : ∃ n', n = n' + 1 := ⟨n - 1, by omega⟩
    unfold run_loop
    rw [if_neg hne, hk]
    simp [ih hrest (show its.length ≤ n by omega)]

/-- **A loop that stays where it is does not end.** -/
theorem run_loop_fixed {it : ι} (hfixed : next it = some it) (hne : it ≠ last) (n : Nat) :
    run_loop next last n it = .pending := by
  induction n with
  | zero => simp [run_loop, hne]
  | succ n ih =>
    unfold run_loop
    rw [if_neg hne, hfixed]
    simp [ih]

/-- **A loop over numbered positions** visits each of them once, in their order. -/
theorem run_loop_indices {f : Nat → ι} {n : Nat}
    (hnext : ∀ i < n, next (f i) = some (f (i + 1))) (hne : ∀ i < n, f i ≠ f n) {m : Nat}
    (hm : n ≤ m) : run_loop next (f n) m (f 0) = .returned ((List.range n).map f) := by
  have hpath := path_of_indices hnext hne n (Nat.le_refl n)
  rw [Nat.sub_self, ← List.range_eq_range'] at hpath
  exact run_loop_of_path hpath (by simpa using hm)

end Loops

end RealmCpp.Library
