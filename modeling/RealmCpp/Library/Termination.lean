/-
  RealmCpp.Library.Termination
  ────────────────────────────
  **RECURSIONS THAT FOLLOW A RELATION, AND WHEN THEY END.**

  A recursion is run to a depth of calls.  It may be `pending` there, raise, or
  return.  One that follows the edges of a relation ends where no cycle can be
  reached, if what can be reached is finite; and where each edge leads to a
  smaller result, there is no cycle.

    • `Outcome` — what a run of a recursion comes to,
    • `acc_iff_no_cycle` — where following the edges ends,
    • `acc_of_size` — smaller results along the edges.
-/
import Mathlib.Data.Fintype.Card
import Mathlib.Data.Set.Finite.Basic
import Mathlib.Logic.Relation
import Mathlib.Order.WellFounded

namespace RealmCpp.Library

/-! ## §1. Outcomes. -/

/-- What a recursion comes to within the calls that it was given. -/
inductive Outcome (α : Type) where
  | pending
  | raised
  | returned (a : α)
  deriving DecidableEq, Repr

namespace Outcome

variable {α β : Type}

/-- Raise, or go on with what was returned. -/
def bind : Outcome α → (α → Outcome β) → Outcome β
  | pending, _ => pending
  | raised, _ => raised
  | returned a, f => f a

instance : Monad Outcome where
  pure := returned
  bind := bind

instance : LawfulMonad Outcome := LawfulMonad.mk' Outcome
  (fun x => by cases x <;> rfl) (fun _ _ => rfl) (fun x _ _ => by cases x <;> rfl)

/-- A step that raises or returns. -/
def ofOption : Option α → Outcome α
  | none => raised
  | some a => returned a

@[simp] theorem pending_bind (f : α → Outcome β) : (pending >>= f) = pending := rfl

@[simp] theorem raised_bind (f : α → Outcome β) : (raised >>= f) = raised := rfl

@[simp] theorem returned_bind (a : α) (f : α → Outcome β) : (returned a >>= f) = f a := rfl

@[simp] theorem ofOption_none : ofOption (none : Option α) = raised := rfl

@[simp] theorem ofOption_some (a : α) : ofOption (some a) = returned a := rfl

theorem bind_eq_returned_iff {x : Outcome α} {f : α → Outcome β} {b : β} :
    (x >>= f) = returned b ↔ ∃ a, x = returned a ∧ f a = returned b := by
  cases x <;> simp

theorem ofOption_bind (x : Option α) (f : α → Option β) :
    (ofOption x >>= fun a => ofOption (f a)) = ofOption (x.bind f) := by
  cases x <;> rfl

theorem ofOption_ne_pending (x : Option α) : ofOption x ≠ pending := by
  cases x <;> simp

theorem raised_ne_pending : (raised : Outcome α) ≠ pending := by
  simp

theorem returned_ne_pending (a : α) : returned a ≠ pending := by
  simp

theorem bind_ne_pending {x : Outcome α} {f : α → Outcome β} (hx : x ≠ pending)
    (hf : ∀ a, x = returned a → f a ≠ pending) : (x >>= f) ≠ pending := by
  cases x with
  | pending => exact absurd rfl hx
  | raised => simp
  | returned a => exact hf a rfl

/-- What was returned, if anything was. -/
def toOption : Outcome α → Option α
  | returned a => some a
  | _ => none

@[simp] theorem toOption_eq_some_iff {x : Outcome α} {a : α} :
    x.toOption = some a ↔ x = returned a := by
  cases x <;> simp [toOption]

theorem toOption_bind (x : Outcome α) (f : α → Outcome β) :
    (x >>= f).toOption = x.toOption.bind fun a => (f a).toOption := by
  cases x <;> rfl

theorem toOption_map (x : Outcome α) (f : α → β) :
    (f <$> x).toOption = x.toOption.map f := by
  cases x <;> rfl

theorem toOption_mapM (f : α → Outcome β) (l : List α) :
    (l.mapM f).toOption = l.mapM fun a => (f a).toOption := by
  induction l with
  | nil => rfl
  | cons a l ih =>
    rw [List.mapM_cons, List.mapM_cons, toOption_bind]
    show _ = (f a).toOption.bind fun b => (l.mapM fun a => (f a).toOption).bind fun bs => some (b :: bs)
    rw [← ih]
    congr 1
    funext b
    exact toOption_bind _ _

/-- What a recursion comes to, it comes to with more calls as well. -/
def Le (x y : Outcome α) : Prop := x ≠ pending → y = x

theorem Le.refl (x : Outcome α) : Le x x := fun _ => rfl

theorem Le.ne_pending {x y : Outcome α} (h : Le x y) (hx : x ≠ pending) : y ≠ pending := by
  rw [h hx]
  exact hx

theorem Le.bind {x y : Outcome α} {f f' : α → Outcome β} (hxy : Le x y)
    (hf : ∀ a, Le (f a) (f' a)) : Le (x >>= f) (y >>= f') := by
  intro h
  cases x with
  | pending => exact absurd rfl h
  | raised => rw [hxy (by simp)]; rfl
  | returned a =>
    rw [hxy (by simp)]
    exact hf a h

theorem Le.map {x y : Outcome α} (f : α → β) (hxy : Le x y) : Le (f <$> x) (f <$> y) := by
  rw [← bind_pure_comp, ← bind_pure_comp]
  exact hxy.bind fun a => Le.refl _

theorem Le.mapM {f f' : α → Outcome β} (h : ∀ a, Le (f a) (f' a)) (l : List α) :
    Le (l.mapM f) (l.mapM f') := by
  induction l with
  | nil => exact Le.refl _
  | cons a l ih =>
    rw [List.mapM_cons, List.mapM_cons]
    exact (h a).bind fun b => ih.bind fun bs => Le.refl _

theorem map_ne_pending {x : Outcome α} (f : α → β) (hx : x ≠ pending) : f <$> x ≠ pending := by
  rw [← bind_pure_comp]
  exact bind_ne_pending hx fun a _ => returned_ne_pending (f a)

/-- A loop ends where each round does. -/
theorem mapM_ne_pending {f : α → Outcome β} {l : List α} (h : ∀ a ∈ l, f a ≠ pending) :
    l.mapM f ≠ pending := by
  induction l with
  | nil => exact returned_ne_pending []
  | cons a l ih =>
    rw [List.mapM_cons]
    apply bind_ne_pending (h a List.mem_cons_self)
    intro b _
    apply bind_ne_pending (ih fun a' ha' => h a' (List.mem_cons_of_mem _ ha'))
    exact fun bs _ => returned_ne_pending (b :: bs)

theorem Le.trans {x y z : Outcome α} (hxy : Le x y) (hyz : Le y z) : Le x z := by
  intro hx
  rw [hyz (hxy.ne_pending hx), hxy hx]

theorem le_add {f : Nat → Outcome α} (hmono : ∀ n, Le (f n) (f (n + 1))) (n k : Nat) :
    Le (f n) (f (n + k)) := by
  induction k with
  | zero => exact Le.refl _
  | succ k ih => exact ih.trans (hmono (n + k))

/-- **What a run comes to with enough calls is what it returns.** -/
theorem returns_iff {f : Nat → Outcome α} (hmono : ∀ n, Le (f n) (f (n + 1))) {k : Nat}
    {x : Outcome α} (h : ∀ n, f (n + k) = x) (a : α) : (∃ n, f n = returned a) ↔ x = returned a := by
  constructor
  · intro ⟨n, hn⟩
    have hle := le_add hmono n k
    rw [h n, hn] at hle
    exact hle (returned_ne_pending a)
  · intro hx
    exact ⟨0 + k, (h 0).trans hx⟩

end Outcome

/-! ## §2. Cycles. -/

section Cycles

variable {ν : Type} {r : ν → ν → Prop} {x y : ν}

theorem acc_of_reachable (h : Acc (fun b a => r a b) x) (hxy : Relation.ReflTransGen r x y) :
    Acc (fun b a => r a b) y := by
  induction hxy with
  | refl => exact h
  | tail _ hbc ih => exact ih.inv hbc

/-- Where following the edges ends, there is no cycle. -/
theorem not_cycle_of_acc (h : Acc (fun b a => r a b) x) : ¬ Relation.TransGen r x x := by
  induction h with
  | intro a _ ih =>
    intro hcycle
    obtain ⟨b, hab, hba⟩ := Relation.TransGen.head'_iff.mp hcycle
    exact ih b hab (Relation.TransGen.tail' hba hab)

/-- **Following the edges ends exactly where no cycle can be reached**, if what
can be reached is finite. -/
theorem acc_iff_no_cycle (hfin : {y | Relation.ReflTransGen r x y}.Finite) :
    Acc (fun b a => r a b) x ↔
      ¬ ∃ y, Relation.ReflTransGen r x y ∧ Relation.TransGen r y y := by
  constructor
  · rintro h ⟨y, hxy, hcycle⟩
    exact not_cycle_of_acc (acc_of_reachable h hxy) hcycle
  · intro hno
    -- on what can be reached, the edges backwards are well founded
    let R := {y // Relation.ReflTransGen r x y}
    have : Finite R := hfin
    let s : R → R → Prop := fun b a => r a.1 b.1
    have hlift : ∀ {a b : R}, Relation.TransGen s b a → Relation.TransGen r a.1 b.1 := by
      intro a b h
      induction h with
      | single h => exact .single h
      | tail _ h ih => exact .head h ih
    have hirrefl : Std.Irrefl (Relation.TransGen s) :=
      ⟨fun a h => hno ⟨a.1, a.2, hlift h⟩⟩
    have hwf : WellFounded (Relation.TransGen s) := Finite.wellFounded_of_trans_of_irrefl _
    have hacc : ∀ a : R, Acc (fun b a => r a b) a.1 := by
      intro a
      induction a using hwf.induction with
      | _ a ih =>
        refine ⟨_, fun b hb => ?_⟩
        exact ih ⟨b, a.2.tail hb⟩ (.single hb)
    exact hacc ⟨x, .refl⟩

/-- **Each edge leads to a smaller result**: then following them ends. -/
theorem acc_of_size {α : Type} [SizeOf α] {f : Nat → ν → Option α}
    (hstep : ∀ n x a y, f n x = some a → r x y → ∃ m b, f m y = some b ∧ sizeOf b < sizeOf a)
    {n : Nat} {a : α} (h : f n x = some a) : Acc (fun b a => r a b) x := by
  induction hsize : sizeOf a using Nat.strong_induction_on generalizing n x a with
  | _ k ih =>
    subst hsize
    refine ⟨_, fun y hxy => ?_⟩
    obtain ⟨m, b, hb, hlt⟩ := hstep n x a y h hxy
    exact ih (sizeOf b) hlt hb rfl

end Cycles

/-! ## §3. Depth. -/

/-- Finitely many runs end within the same calls. -/
theorem exists_common_depth {α : Type} {P : Nat → α → Prop}
    (hmono : ∀ n a, P n a → P (n + 1) a) {l : List α} (h : ∀ a ∈ l, ∃ n, P n a) :
    ∃ n, ∀ a ∈ l, P n a := by
  have hle : ∀ {n m a}, n ≤ m → P n a → P m a := by
    intro n m a hnm hn
    induction hnm with
    | refl => exact hn
    | step _ ih => exact hmono _ a ih
  induction l with
  | nil => exact ⟨0, fun a ha => absurd ha List.not_mem_nil⟩
  | cons a l ih =>
    obtain ⟨n, hn⟩ := h a List.mem_cons_self
    obtain ⟨m, hm⟩ := ih fun a' ha' => h a' (List.mem_cons_of_mem _ ha')
    refine ⟨max n m, fun a' ha' => ?_⟩
    rcases List.mem_cons.mp ha' with rfl | ha'
    · exact hle (Nat.le_max_left n m) hn
    · exact hle (Nat.le_max_right n m) (hm a' ha')

end RealmCpp.Library
