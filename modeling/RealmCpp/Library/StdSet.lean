/-
  RealmCpp.Library.StdSet
  ───────────────────────
  **SETS WITH A COMPARATOR.**

  A `std::set` takes a value for one that it has where its comparator puts neither
  before the other.  A set is the list of its elements, as they were inserted.
-/
import Mathlib.Data.List.Pairwise
import Mathlib.Data.List.Sublists

namespace RealmCpp.Library

variable {α : Type} (less : α → α → Bool)

/-- The comparator puts one of the values before the other. -/
def ToldApart (a b : α) : Prop := less a b = true ∨ less b a = true

instance : DecidableRel (ToldApart less) :=
  fun a b => inferInstanceAs (Decidable (less a b = true ∨ less b a = true))

/-- `insert`. -/
def std_insert (s : List α) (v : α) : List α :=
  if ∀ w ∈ s, ToldApart less w v then s ++ [v] else s

/-- The set of the values, inserted one by one. -/
def std_set (vs : List α) : List α := vs.foldl (std_insert less) []

theorem foldl_std_insert_sublist (s vs : List α) :
    (vs.foldl (std_insert less) s).Sublist (s ++ vs) := by
  induction vs generalizing s with
  | nil => simp
  | cons v vs ih =>
    have hrest := ih (std_insert less s v)
    unfold std_insert at hrest
    rw [List.foldl_cons]
    unfold std_insert
    split at hrest
    · next h =>
      rw [if_pos h]
      simpa using hrest
    · next h =>
      rw [if_neg h]
      -- a value that is left out
      exact hrest.trans (List.Sublist.append_left (List.sublist_cons_self v vs) s)

theorem std_set_sublist (vs : List α) : (std_set less vs).Sublist vs :=
  foldl_std_insert_sublist less [] vs

theorem foldl_std_insert_eq_iff (s vs : List α) :
    vs.foldl (std_insert less) s = s ++ vs ↔
      (∀ v ∈ vs, ∀ w ∈ s, ToldApart less w v) ∧ vs.Pairwise (ToldApart less) := by
  induction vs generalizing s with
  | nil => simp
  | cons v vs ih =>
    rw [List.foldl_cons]
    by_cases h : ∀ w ∈ s, ToldApart less w v
    · have hinsert : std_insert less s v = s ++ [v] := if_pos h
      have happend : s ++ v :: vs = (s ++ [v]) ++ vs := by simp
      rw [hinsert, happend, ih, List.pairwise_cons]
      constructor
      · intro ⟨hvs, hpairs⟩
        refine ⟨fun u hu w hw => ?_, fun u hu => hvs u hu v (by simp), hpairs⟩
        rcases List.mem_cons.mp hu with rfl | hu
        · exact h w hw
        · exact hvs u hu w (List.mem_append_left _ hw)
      · intro ⟨hvs, hv, hpairs⟩
        refine ⟨fun u hu w hw => ?_, hpairs⟩
        rcases List.mem_append.mp hw with hw | hw
        · exact hvs u (List.mem_cons_of_mem _ hu) w hw
        · rw [List.mem_singleton.mp hw]
          exact hv u hu
    · have hinsert : std_insert less s v = s := if_neg h
      rw [hinsert]
      refine iff_of_false (fun heq => ?_) fun ⟨hvs, _⟩ => h (hvs v List.mem_cons_self)
      -- `v` is missing in what came of the others
      have hlength := (foldl_std_insert_sublist less s vs).length_le
      rw [heq] at hlength
      simp only [List.length_append, List.length_cons] at hlength
      omega

/-- **All values are in the set** just when the comparator tells them apart. -/
theorem std_set_eq_iff (vs : List α) : std_set less vs = vs ↔ vs.Pairwise (ToldApart less) := by
  have h := foldl_std_insert_eq_iff less [] vs
  rw [List.nil_append] at h
  exact h.trans ⟨fun h => h.2, fun h => ⟨fun _ _ _ hw => absurd hw List.not_mem_nil, h⟩⟩

end RealmCpp.Library
