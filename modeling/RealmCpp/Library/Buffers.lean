/-
  RealmCpp.Library.Buffers
  ────────────────────────
  **BUFFERS ON THE HEAP, AND WHO OWNS THEM — library layer.**

  A buffer is allocated with elements that are not determined yet, is written, and is
  freed once.  Who keeps its address owns it.

    • `Heap.alloc`, `Heap.free`, `Heap.store`, `Heap.copy` — the operations; all but the
      first fail for an address that is not allocated,
    • `Owned.alloc`, `Owned.free`, `Owned.store` — every buffer has one owner, and keeps it.
-/
import Mathlib.Data.List.Basic
import RealmCpp.Library.Ownership

namespace RealmCpp.Library

/-- The buffers that are allocated; from `next` on no address was used yet. -/
structure Heap (β : Type) where
  block : Nat → Option (List (Option β))
  next : Nat
  unused : ∀ p, next ≤ p → block p = none

namespace Heap

variable {β : Type} (h : Heap β)

def empty : Heap β := ⟨fun _ => none, 0, fun _ _ => rfl⟩

theorem unused_alloc (n : Nat) :
    ∀ p, h.next + 1 ≤ p →
      Function.update h.block h.next (some (List.replicate n none)) p = none := by
  intro p hp
  rw [Function.update_of_ne (by omega)]
  exact h.unused p (by omega)

/-- `new β[n]`, at the next address. -/
def alloc (n : Nat) : Heap β where
  block := Function.update h.block h.next (some (List.replicate n none))
  next := h.next + 1
  unused := h.unused_alloc n

theorem unused_update {p : Nat} {bs : List (Option β)} (hp : h.block p = some bs)
    (b : Option (List (Option β))) : ∀ q, h.next ≤ q → Function.update h.block p b q = none := by
  intro q hq
  have hne : q ≠ p := by
    rintro rfl
    rw [h.unused q hq] at hp
    cases hp
  rw [Function.update_of_ne hne]
  exact h.unused q hq

/-- `delete[]`. -/
def free (p : Nat) : Option (Heap β) :=
  match hp : h.block p with
  | some _ => some ⟨Function.update h.block p none, h.next, h.unused_update hp none⟩
  | none => none

/-- Elements written to the front of a buffer that has as many. -/
def store (p : Nat) (bs : List (Option β)) : Option (Heap β) :=
  match hp : h.block p with
  | some old =>
      if bs.length ≤ old.length then
        -- the elements behind them stay
        some ⟨Function.update h.block p (some (bs ++ old.drop bs.length)), h.next,
          h.unused_update hp _⟩
      else none
  | none => none

/-- `memcpy` of `n` elements: both buffers have as many. -/
def copy (dst src n : Nat) : Option (Heap β) :=
  (h.block src).bind fun bs => if n ≤ bs.length then h.store dst (bs.take n) else none

theorem block_next : h.block h.next = none := h.unused h.next (Nat.le_refl _)

theorem block_alloc (n p : Nat) :
    (h.alloc n).block p = if p = h.next then some (List.replicate n none) else h.block p :=
  Function.update_apply ..

variable {h}

theorem exists_free {p : Nat} {bs : List (Option β)} (hp : h.block p = some bs) :
    ∃ h', h.free p = some h' ∧ h'.next = h.next ∧
      ∀ q, h'.block q = if q = p then none else h.block q := by
  unfold free
  split
  · exact ⟨_, rfl, rfl, fun q => Function.update_apply ..⟩
  · next hnone =>
    rw [hp] at hnone
    cases hnone

/-- A buffer is filled. -/
theorem exists_store {p : Nat} {old bs : List (Option β)} (hp : h.block p = some old)
    (hlength : old.length = bs.length) :
    ∃ h', h.store p bs = some h' ∧ h'.next = h.next ∧
      ∀ q, h'.block q = if q = p then some bs else h.block q := by
  unfold store
  split
  · next old' hold =>
    obtain rfl := Option.some.inj (hp.symm.trans hold)
    rw [if_pos (by omega)]
    refine ⟨_, rfl, rfl, fun q => ?_⟩
    refine (Function.update_apply ..).trans ?_
    rw [← hlength, List.drop_length, List.append_nil]
  · next hnone =>
    rw [hp] at hnone
    cases hnone

/-- A buffer is filled from one with as many elements. -/
theorem exists_copy {dst src : Nat} {old bs : List (Option β)} (hdst : h.block dst = some old)
    (hsrc : h.block src = some bs) (hlength : old.length = bs.length) :
    ∃ h', h.copy dst src bs.length = some h' ∧ h'.next = h.next ∧
      ∀ q, h'.block q = if q = dst then some bs else h.block q := by
  unfold copy
  rw [hsrc, Option.bind_some, if_pos (Nat.le_refl _), List.take_length]
  exact exists_store hdst hlength

end Heap

/-! ## Who owns them. -/

/-- The addresses of buffers. -/
def Heap.Allocated {β : Type} (h : Heap β) (p : Nat) : Prop := ∃ bs, h.block p = some bs

namespace Owned

variable {β : Type} {h h' : Heap β} {owner : Nat → Option Nat}

/-- The new buffer goes to one that owns none. -/
theorem alloc (ho : Owned h.Allocated owner) {i : Nat} (hi : owner i = none) (n : Nat) :
    Owned (h.alloc n).Allocated (Function.update owner i (some h.next)) := by
  refine ho.acquire hi ?_ fun q => ?_
  · intro ⟨bs, hbs⟩
    rw [h.block_next] at hbs
    cases hbs
  · unfold Heap.Allocated
    rw [Heap.block_alloc]
    by_cases hq : q = h.next
    · simp [hq]
    · simp [hq]

/-- What is freed loses its owner. -/
theorem free (ho : Owned h.Allocated owner) {i p : Nat} (hi : owner i = some p)
    (hblock : ∀ q, h'.block q = if q = p then none else h.block q) :
    Owned h'.Allocated (Function.update owner i none) := by
  refine ho.release hi fun q => ?_
  unfold Heap.Allocated
  rw [hblock]
  by_cases hq : q = p
  · simp [hq]
  · simp [hq]

/-- Writing to a buffer leaves all owners. -/
theorem store (ho : Owned h.Allocated owner) {p : Nat} {old bs : List (Option β)}
    (hp : h.block p = some old) (hblock : ∀ q, h'.block q = if q = p then some bs else h.block q) :
    Owned h'.Allocated owner := by
  refine ho.congr fun q => ?_
  unfold Heap.Allocated
  rw [hblock]
  by_cases hq : q = p
  · simp [hq, hp]
  · simp [hq]

end Owned

end RealmCpp.Library
