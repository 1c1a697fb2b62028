/-
  RealmCpp.Library.Fifo
  ─────────────────────
  **WHAT IS ADDED IS SERVED IN ORDER.**

  The abstract queue: what was added to it so far, and what was served of that.
  Only the first that was not served can be served next.
-/
import Mathlib.Data.List.Nodup
import Mathlib.Logic.Relation

namespace RealmCpp.Library

/-- What was added, and what was served. -/
structure Fifo (α : Type) where
  added : List α
  served : List α

namespace Fifo

variable {α : Type} {q q' : Fifo α}

def empty : Fifo α := ⟨[], []⟩

inductive Step : Fifo α → Fifo α → Prop where
  | add (q : Fifo α) (a : α) : Step q ⟨q.added ++ [a], q.served⟩
  | serve (q : Fifo α) (a : α) (rest : List α) (h : q.added = q.served ++ a :: rest) :
      Step q ⟨q.added, q.served ++ [a]⟩

theorem Step.served_isPrefix (h : Step q q') (hq : q.served <+: q.added) :
    q'.served <+: q'.added := by
  cases h with
  | add a => exact hq.trans (List.prefix_append _ _)
  | serve a rest h =>
    refine ⟨rest, ?_⟩
    rw [h]
    simp

/-- **Elements are served in the order in which they were added.** -/
theorem served_isPrefix (h : Relation.ReflTransGen Step empty q) : q.served <+: q.added := by
  induction h with
  | refl => exact List.prefix_refl _
  | tail _ hstep ih => exact hstep.served_isPrefix ih

/-- **And once, if they are all different.** -/
theorem served_nodup (h : Relation.ReflTransGen Step empty q) (hq : q.added.Nodup) :
    q.served.Nodup :=
  (served_isPrefix h).sublist.nodup hq

end Fifo

end RealmCpp.Library
