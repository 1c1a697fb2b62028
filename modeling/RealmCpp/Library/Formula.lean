/-
  RealmCpp.Library.Formula
  ────────────────────────
  **BOOLEAN FORMULAS OVER ATOMS — library layer.**

  A predicate builder collects conditions into a formula whose atoms are
  interpreted elsewhere.  The one operation that is not a constructor is
  `conj`: adding a conjunct to an empty collection leaves just that conjunct.

    • `eval_conj` — `conj` means conjunction,
    • `conj_eq_tru_iff` — only empty conjuncts give the empty formula,
    • `conj_atom_eq_atom_iff` — a lone atom remains exactly when nothing was there.
-/
import Mathlib.Data.Set.Basic

namespace RealmCpp.Library

universe u

/-- A Boolean formula over atoms of type `α`.  `tru` is the empty condition. -/
inductive Formula (α : Type u) where
  | tru
  | fls
  | atom (a : α)
  | neg (f : Formula α)
  | and (f g : Formula α)
  | or (f g : Formula α)
  deriving DecidableEq, Repr

namespace Formula

variable {α : Type u}

/-- The truth value under an interpretation of the atoms. -/
def eval (v : α → Bool) : Formula α → Bool
  | tru => true
  | fls => false
  | atom a => v a
  | neg f => !(f.eval v)
  | and f g => f.eval v && g.eval v
  | or f g => f.eval v || g.eval v

@[simp] theorem eval_tru (v : α → Bool) : (tru : Formula α).eval v = true := rfl

@[simp] theorem eval_fls (v : α → Bool) : (fls : Formula α).eval v = false := rfl

@[simp] theorem eval_atom (v : α → Bool) (a : α) : (atom a).eval v = v a := rfl

@[simp] theorem eval_neg (v : α → Bool) (f : Formula α) :
    (neg f).eval v = !(f.eval v) := rfl

@[simp] theorem eval_and (v : α → Bool) (f g : Formula α) :
    (and f g).eval v = (f.eval v && g.eval v) := rfl

@[simp] theorem eval_or (v : α → Bool) (f g : Formula α) :
    (or f g).eval v = (f.eval v || g.eval v) := rfl

/-- Conjunction in which the empty condition is neutral. -/
def conj : Formula α → Formula α → Formula α
  | tru, g => g
  | f, tru => f
  | f, g => and f g

@[simp] theorem tru_conj (g : Formula α) : conj tru g = g := by
  cases g <;> rfl

@[simp] theorem conj_tru (f : Formula α) : conj f tru = f := by
  cases f <;> rfl

/-- Off the neutral element, `conj` is the constructor. -/
theorem conj_of_ne {f g : Formula α} (hf : f ≠ tru) (hg : g ≠ tru) :
    conj f g = and f g := by
  cases f with
  | tru => exact absurd rfl hf
  | fls => cases g <;> first | rfl | exact absurd rfl hg
  | atom a => cases g <;> first | rfl | exact absurd rfl hg
  | neg f => cases g <;> first | rfl | exact absurd rfl hg
  | and f f' => cases g <;> first | rfl | exact absurd rfl hg
  | or f f' => cases g <;> first | rfl | exact absurd rfl hg

/-- **`conj` means conjunction.** -/
@[simp] theorem eval_conj (v : α → Bool) (f g : Formula α) :
    (conj f g).eval v = (f.eval v && g.eval v) := by
  by_cases hf : f = tru
  · subst hf; simp
  · by_cases hg : g = tru
    · subst hg; simp
    · rw [conj_of_ne hf hg, eval_and]

/-- **Nothing but empty conditions conjoins to the empty condition.** -/
theorem conj_eq_tru_iff {f g : Formula α} : conj f g = tru ↔ f = tru ∧ g = tru := by
  constructor
  · intro h
    by_cases hf : f = tru
    · subst hf
      exact ⟨rfl, by simpa using h⟩
    · by_cases hg : g = tru
      · subst hg
        exact absurd (by simpa using h) hf
      · rw [conj_of_ne hf hg] at h
        cases h
  · rintro ⟨rfl, rfl⟩
    rfl

/-- **A conjoined atom stands alone exactly when nothing stood there before.** -/
theorem conj_atom_eq_atom_iff {f : Formula α} {a : α} :
    conj f (atom a) = atom a ↔ f = tru := by
  constructor
  · intro h
    by_contra hf
    rw [conj_of_ne hf (by simp)] at h
    cases h
  · rintro rfl
    rfl

end Formula

end RealmCpp.Library
