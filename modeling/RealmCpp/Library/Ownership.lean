/-
  RealmCpp.Library.Ownership
  ──────────────────────────
  **ONE OWNER FOR EACH RESOURCE — library layer.**

  Resources are live for a time: memory that is allocated, a callback that is registered.
  Each has one owner that ends it, and an owner has one resource or none.

    • `Owned` — every live resource has one owner, and what is owned is live,
    • `Owned.acquire`, `Owned.release`, `Owned.transfer` — how that is kept.
-/
import Mathlib.Logic.Function.Basic

namespace RealmCpp.Library

/-- **Every live resource has one owner, and what is owned is live.** -/
structure Owned {ι R : Type} (live : R → Prop) (owner : ι → Option R) : Prop where
  allocated : ∀ i p, owner i = some p → live p
  one : ∀ i j p, owner i = some p → owner j = some p → i = j
  owned : ∀ p, live p → ∃ i, owner i = some p

namespace Owned

variable {ι R : Type} {live live' : R → Prop} {owner : ι → Option R}

theorem empty (h : ∀ p, ¬ live p) : Owned live fun _ : ι => none where
  allocated _ _ hi := by cases hi
  one _ _ _ hi := by cases hi
  owned p hp := absurd hp (h p)

theorem congr (ho : Owned live owner) (h : ∀ p, live' p ↔ live p) : Owned live' owner where
  allocated i p hi := (h p).mpr (ho.allocated i p hi)
  one := ho.one
  owned p hp := ho.owned p ((h p).mp hp)

variable [DecidableEq ι]

/-- A resource that was not live goes to one that has none. -/
theorem acquire (ho : Owned live owner) {i : ι} (hi : owner i = none) {p : R} (hp : ¬ live p)
    (h : ∀ q, live' q ↔ q = p ∨ live q) : Owned live' (Function.update owner i (some p)) where
  allocated j q hj := by
    rw [Function.update_apply] at hj
    split at hj
    · exact (h q).mpr (.inl (Option.some.inj hj).symm)
    · exact (h q).mpr (.inr (ho.allocated j q hj))
  one j k q hj hk := by
    -- nobody owned it, as it was not live
    have hold : ∀ k, owner k ≠ some p := fun k hk => hp (ho.allocated k p hk)
    rw [Function.update_apply] at hj hk
    split at hj <;> split at hk
    · next hji hki => rw [hji, hki]
    · exact absurd (hk.trans hj.symm) (hold k)
    · exact absurd (hj.trans hk.symm) (hold j)
    · exact ho.one j k q hj hk
  owned q hq := by
    rcases (h q).mp hq with rfl | hlive
    · exact ⟨i, Function.update_self ..⟩
    · obtain ⟨j, hj⟩ := ho.owned q hlive
      have hne : j ≠ i := by
        rintro rfl
        rw [hi] at hj
        cases hj
      exact ⟨j, (Function.update_of_ne hne ..).trans hj⟩

/-- What is ended loses its owner. -/
theorem release (ho : Owned live owner) {i : ι} {p : R} (hi : owner i = some p)
    (h : ∀ q, live' q ↔ q ≠ p ∧ live q) : Owned live' (Function.update owner i none) where
  allocated j q hj := by
    rw [Function.update_apply] at hj
    split at hj
    · cases hj
    · next hne =>
      -- another one's resource is another one
      refine (h q).mpr ⟨?_, ho.allocated j q hj⟩
      rintro rfl
      exact hne (ho.one j i q hj hi)
  one j k q hj hk := by
    rw [Function.update_apply] at hj hk
    split at hj
    · cases hj
    · split at hk
      · cases hk
      · exact ho.one j k q hj hk
  owned q hq := by
    obtain ⟨hne, hlive⟩ := (h q).mp hq
    obtain ⟨j, hj⟩ := ho.owned q hlive
    have hji : j ≠ i := by
      rintro rfl
      exact hne (Option.some.inj (hj.symm.trans hi))
    exact ⟨j, (Function.update_of_ne hji ..).trans hj⟩

/-- What one owns goes to another one that owns nothing. -/
theorem transfer (ho : Owned live owner) {i j : ι} (hi : owner i = none) :
    Owned live (Function.update (Function.update owner j none) i (owner j)) where
  allocated k p hk := by
    simp only [Function.update_apply] at hk
    split at hk
    · exact ho.allocated j p hk
    · split at hk
      · cases hk
      · exact ho.allocated k p hk
  one k l p hk hl := by
    simp only [Function.update_apply] at hk hl
    -- what `i` owns now, only `j` owned before
    have hfrom : ∀ l, owner l = some p → owner j = some p → l = j := fun l h h' =>
      ho.one l j p h h'
    split at hk <;> split at hl
    · next hki hli => rw [hki, hli]
    · split at hl
      · cases hl
      · next hlj => exact absurd (hfrom l hl hk) hlj
    · split at hk
      · cases hk
      · next hkj => exact absurd (hfrom k hk hl) hkj
    · split at hk
      · cases hk
      · split at hl
        · cases hl
        · exact ho.one k l p hk hl
  owned p hp := by
    obtain ⟨k, hk⟩ := ho.owned p hp
    by_cases hkj : k = j
    · exact ⟨i, (Function.update_self ..).trans (hkj ▸ hk)⟩
    · have hki : k ≠ i := by
        rintro rfl
        rw [hi] at hk
        cases hk
      exact ⟨k, by rw [Function.update_of_ne hki, Function.update_of_ne hkj, hk]⟩

end Owned

end RealmCpp.Library
