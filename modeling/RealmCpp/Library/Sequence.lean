/-
  RealmCpp.Library.Sequence
  ─────────────────────────
  **SEQUENCES THAT A `size_t` COUNTS — library layer.**

  A sequence refuses an index that is out of its range, and is then as it was.  An index
  is a `size_t`, so that the one before the first is the greatest there is.

    • `mem_of_push`, …, `mem_of_set` — what a modification leaves,
    • `remove_size_sub_one` — removing at `size() - 1` is removing the last element,
    • `push_map`, …, `find_map` — a conversion of all elements,
    • `find_eq_iff` — when two predicates find the same index.
-/
import Mathlib.Data.List.InsertIdx

namespace RealmCpp.Library

structure Sequence (α : Type) where
  elements : List α
  size_lt : elements.length < 18446744073709551616

namespace Sequence

/-! ## §1. Operations. -/

section Operations

variable {α : Type}

theorem ext_elements {s t : Sequence α} (h : s.elements = t.elements) : s = t := by
  cases s
  cases t
  simp only [mk.injEq]
  exact h

def empty : Sequence α := ⟨[], Nat.succ_pos _⟩

/-- `size`. -/
def size (s : Sequence α) : UInt64 := UInt64.ofNat s.elements.length

/-- The element at an index. -/
def get (s : Sequence α) (i : UInt64) : Option α := s.elements[i.toNat]?

/-- An element more at the end, if it can be counted. -/
def push (s : Sequence α) (a : α) : Option (Sequence α) :=
  if h : (s.elements ++ [a]).length < 18446744073709551616 then some ⟨s.elements ++ [a], h⟩
  else none

/-- The elements of another one at the end, if they can be counted. -/
def append (s t : Sequence α) : Option (Sequence α) :=
  if h : (s.elements ++ t.elements).length < 18446744073709551616 then
    some ⟨s.elements ++ t.elements, h⟩
  else none

theorem size_eraseIdx_lt (s : Sequence α) (i : Nat) :
    (s.elements.eraseIdx i).length < 18446744073709551616 :=
  Nat.lt_of_le_of_lt (List.length_eraseIdx_le ..) s.size_lt

/-- The element at a position is removed. -/
def removeAt (s : Sequence α) (i : Nat) : Option (Sequence α) :=
  if i < s.elements.length then some ⟨s.elements.eraseIdx i, s.size_eraseIdx_lt i⟩ else none

/-- The element at an index is removed. -/
def remove (s : Sequence α) (i : UInt64) : Option (Sequence α) := s.removeAt i.toNat

/-- The last element is removed. -/
def pop (s : Sequence α) : Option (Sequence α) :=
  if s.elements.length = 0 then none else s.removeAt (s.elements.length - 1)

theorem size_set_lt (s : Sequence α) (i : Nat) (a : α) :
    (s.elements.set i a).length < 18446744073709551616 := by
  rw [List.length_set]
  exact s.size_lt

/-- The element at an index is replaced. -/
def set (s : Sequence α) (i : UInt64) (a : α) : Option (Sequence α) :=
  if i.toNat < s.elements.length then some ⟨s.elements.set i.toNat a, s.size_set_lt _ a⟩ else none

/-- The index of the first element with a property, or the greatest `size_t`. -/
def find (s : Sequence α) (p : α → Bool) : UInt64 :=
  match s.elements.findIdx? p with
  | some i => UInt64.ofNat i
  | none => 18446744073709551615

/-- An element after a modification was there before, or is the new one. -/
theorem mem_of_push {s u : Sequence α} {a b : α} (h : s.push a = some u) (hb : b ∈ u.elements) :
    b ∈ s.elements ∨ b = a := by
  unfold push at h
  split at h
  · rw [← Option.some.inj h] at hb
    exact (List.mem_append.mp hb).imp_right List.mem_singleton.mp
  · simp at h

theorem mem_push {s u : Sequence α} {a : α} (h : s.push a = some u) : a ∈ u.elements := by
  unfold push at h
  split at h
  · rw [← Option.some.inj h]
    exact List.mem_append_right s.elements List.mem_cons_self
  · simp at h

theorem mem_of_removeAt {s u : Sequence α} {i : Nat} {b : α} (h : s.removeAt i = some u)
    (hb : b ∈ u.elements) : b ∈ s.elements := by
  unfold removeAt at h
  split at h
  · rw [← Option.some.inj h] at hb
    exact List.mem_of_mem_eraseIdx hb
  · simp at h

theorem mem_of_pop {s u : Sequence α} {b : α} (h : s.pop = some u) (hb : b ∈ u.elements) :
    b ∈ s.elements := by
  unfold pop at h
  split at h
  · simp at h
  · exact mem_of_removeAt h hb

theorem mem_of_set {s u : Sequence α} {i : UInt64} {a b : α} (h : s.set i a = some u)
    (hb : b ∈ u.elements) : b ∈ s.elements ∨ b = a := by
  unfold set at h
  split at h
  · rw [← Option.some.inj h] at hb
    exact List.mem_or_eq_of_mem_set hb
  · simp at h

theorem mem_set {s u : Sequence α} {i : UInt64} {a : α} (h : s.set i a = some u) :
    a ∈ u.elements := by
  unfold set at h
  split at h
  · rename_i hi
    rw [← Option.some.inj h]
    exact List.mem_set hi a
  · simp at h

theorem toNat_size (s : Sequence α) : s.size.toNat = s.elements.length := by
  unfold size
  rw [UInt64.toNat_ofNat']
  exact Nat.mod_eq_of_lt s.size_lt

/-- **The index `size() - 1` is the last one**; of an empty sequence it is out of range. -/
theorem remove_size_sub_one (s : Sequence α) : s.remove (s.size - 1) = s.pop := by
  have hindex : (s.size - 1).toNat =
      if s.elements.length = 0 then 18446744073709551615 else s.elements.length - 1 := by
    rw [UInt64.toNat_sub, toNat_size]
    show (18446744073709551616 - 1 + s.elements.length) % 18446744073709551616 = _
    have hlt := s.size_lt
    by_cases h : s.elements.length = 0
    · rw [if_pos h]
      omega
    · rw [if_neg h]
      omega
  unfold remove pop
  rw [hindex]
  by_cases h : s.elements.length = 0
  · -- the difference wraps around
    rw [if_pos h, if_pos h]
    exact if_neg (by omega)
  · rw [if_neg h, if_neg h]

end Operations

/-! ## §2. Conversions. -/

section Conversions

variable {α β : Type} (f : α → β)

/-- The elements are converted. -/
def map (s : Sequence α) : Sequence β :=
  ⟨s.elements.map f, by rw [List.length_map]; exact s.size_lt⟩

theorem size_map (s : Sequence α) : (s.map f).size = s.size := by
  unfold size map
  rw [List.length_map]

theorem get_map (s : Sequence α) (i : UInt64) : (s.map f).get i = (s.get i).map f := by
  unfold get map
  exact List.getElem?_map ..

theorem push_map (s : Sequence α) (a : α) :
    (s.map f).push (f a) = (s.push a).map fun t => t.map f := by
  have hlength : ((s.map f).elements ++ [f a]).length = (s.elements ++ [a]).length := by
    simp [map]
  unfold push
  by_cases h : (s.elements ++ [a]).length < 18446744073709551616
  · rw [dif_pos h, dif_pos (by omega)]
    exact congrArg some (ext_elements (by simp [map]))
  · rw [dif_neg h, dif_neg (by omega)]
    rfl

theorem remove_map (s : Sequence α) (i : UInt64) :
    (s.map f).remove i = (s.remove i).map fun t => t.map f := by
  unfold remove removeAt
  by_cases h : i.toNat < s.elements.length
  · rw [if_pos h, if_pos (by simpa [map] using h)]
    exact congrArg some (ext_elements (List.eraseIdx_map ..))
  · rw [if_neg h, if_neg (by simpa [map] using h)]
    rfl

theorem pop_map (s : Sequence α) : (s.map f).pop = s.pop.map fun t => t.map f := by
  rw [← remove_size_sub_one, ← remove_size_sub_one, size_map]
  exact remove_map f s _

theorem set_map (s : Sequence α) (i : UInt64) (a : α) :
    (s.map f).set i (f a) = (s.set i a).map fun t => t.map f := by
  unfold set
  by_cases h : i.toNat < s.elements.length
  · rw [if_pos h, if_pos (by simpa [map] using h)]
    exact congrArg some (ext_elements List.map_set.symm)
  · rw [if_neg h, if_neg (by simpa [map] using h)]
    rfl

theorem find_map (s : Sequence α) (p : β → Bool) : (s.map f).find p = s.find fun a => p (f a) := by
  unfold find map
  rw [List.findIdx?_map]
  rfl

end Conversions

/-! ## §3. What is found. -/

section Find

variable {α : Type}

/-- The predicates agree up to the first element that has them. -/
def AgreeFirst (p q : α → Bool) : List α → Prop
  | [] => True
  | a :: l => p a = q a ∧ (p a = true ∨ AgreeFirst p q l)

theorem findIdx?_eq_iff (p q : α → Bool) (l : List α) :
    l.findIdx? p = l.findIdx? q ↔ AgreeFirst p q l := by
  induction l with
  | nil => exact iff_of_true rfl trivial
  | cons a l ih =>
    unfold AgreeFirst
    rw [← ih, List.findIdx?_cons, List.findIdx?_cons]
    cases p a with
    | true =>
      cases q a with
      | true => simp
      | false =>
        cases List.findIdx? q l <;> simp
    | false =>
      cases q a with
      | true =>
        cases List.findIdx? p l <;> simp
      | false =>
        -- neither has it: the rest decides
        simp only [Bool.false_eq_true, if_false, true_and, false_or]
        exact (Option.map_injective fun i j hij => Nat.add_right_cancel hij).eq_iff

theorem agreeFirst_of_eq {p q : α → Bool} (h : ∀ a, p a = q a) (l : List α) : AgreeFirst p q l := by
  rw [← findIdx?_eq_iff, funext h]

/-- An index is found within the sequence. -/
theorem find_eq_ofNat {s : Sequence α} {p : α → Bool} {i : Nat} (h : s.elements.findIdx? p = some i) :
    (s.find p).toNat = i ∧ i < s.elements.length := by
  have hi : i < s.elements.length := (List.findIdx?_eq_some_iff_getElem.mp h).1
  have hlt := s.size_lt
  refine ⟨?_, hi⟩
  unfold find
  rw [h]
  show (UInt64.ofNat i).toNat = i
  rw [UInt64.toNat_ofNat']
  exact Nat.mod_eq_of_lt (by omega)

theorem find_eq_npos {s : Sequence α} {p : α → Bool} (h : s.elements.findIdx? p = none) :
    (s.find p).toNat = 18446744073709551615 := by
  unfold find
  rw [h]
  rfl

/-- **Two predicates find the same just where they agree up to the first element.** -/
theorem find_eq_iff (s : Sequence α) (p q : α → Bool) :
    s.find p = s.find q ↔ AgreeFirst p q s.elements := by
  rw [← findIdx?_eq_iff]
  refine ⟨fun h => ?_, fun h => by unfold find; rw [h]⟩
  have hnat := congrArg UInt64.toNat h
  have hlt := s.size_lt
  -- an index that is found is not the greatest `size_t`
  cases hp : s.elements.findIdx? p with
  | none =>
    cases hq : s.elements.findIdx? q with
    | none => rfl
    | some j =>
      rw [find_eq_npos hp, (find_eq_ofNat hq).1] at hnat
      have hj := (find_eq_ofNat hq).2
      omega
  | some i =>
    have hi := find_eq_ofNat hp
    cases hq : s.elements.findIdx? q with
    | none =>
      rw [find_eq_npos hq, hi.1] at hnat
      omega
    | some j =>
      rw [hi.1, (find_eq_ofNat hq).1] at hnat
      rw [hnat]

end Find

end Sequence

end RealmCpp.Library
