/-
  RealmCpp.Library.Assoc
  ──────────────────────
  **LISTS OF KEYED ENTRIES.**

  `List.lookup` finds the first entry at a key.  Where each key occurs once it
  finds every entry, and the list is as good as the map it stands for.
-/
import Mathlib.Data.List.Nodup

namespace RealmCpp.Library

variable {α β γ : Type} [DecidableEq α]

theorem lookup_cons_eq (k j : α) (b : β) (l : List (α × β)) :
    ((j, b) :: l).lookup k = if k = j then some b else l.lookup k := by
  rw [List.lookup_cons]
  by_cases hk : k = j
  · simp [hk]
  · have hbeq : (k == j) = false := by simpa using hk
    rw [hbeq, if_neg hk]

theorem mem_of_lookup {l : List (α × β)} {k : α} {b : β} (h : l.lookup k = some b) :
    (k, b) ∈ l := by
  induction l with
  | nil => cases h
  | cons e l ih =>
    obtain ⟨j, b'⟩ := e
    rw [lookup_cons_eq] at h
    split at h
    · next hk =>
      cases h
      rw [hk]
      exact List.mem_cons_self
    · exact List.mem_cons_of_mem _ (ih h)

/-- **Where keys do not repeat, every entry is found.** -/
theorem lookup_of_mem {l : List (α × β)} (hl : (l.map Prod.fst).Nodup) {k : α} {b : β}
    (h : (k, b) ∈ l) : l.lookup k = some b := by
  induction l with
  | nil => cases h
  | cons e l ih =>
    obtain ⟨j, b'⟩ := e
    obtain ⟨hj, hl⟩ := List.nodup_cons.mp hl
    rw [lookup_cons_eq]
    rcases List.mem_cons.mp h with h | h
    · cases h
      rw [if_pos rfl]
    · rw [if_neg, ih hl h]
      intro hkj
      apply hj
      show j ∈ _
      rw [← hkj]
      exact List.mem_map_of_mem (f := Prod.fst) h

theorem exists_lookup_iff {l : List (α × β)} {k : α} :
    (∃ b, l.lookup k = some b) ↔ k ∈ l.map Prod.fst := by
  constructor
  · intro ⟨b, hb⟩
    exact List.mem_map_of_mem (f := Prod.fst) (mem_of_lookup hb)
  · intro h
    cases hl : l.lookup k with
    | some b => exact ⟨b, rfl⟩
    | none =>
      rw [List.lookup_eq_none_iff] at hl
      obtain ⟨e, he, rfl⟩ := List.mem_map.mp h
      simpa using hl e he

/-- **Lists with the same keys and the same values are one.** -/
theorem ext_of_lookup {l l' : List (α × β)} (hkeys : l.map Prod.fst = l'.map Prod.fst)
    (hl : (l.map Prod.fst).Nodup) (h : ∀ k, l.lookup k = l'.lookup k) : l = l' := by
  induction l generalizing l' with
  | nil => exact (List.map_eq_nil_iff.mp hkeys.symm).symm
  | cons e l ih =>
    obtain ⟨j, b⟩ := e
    cases l' with
    | nil => cases hkeys
    | cons e' l' =>
      obtain ⟨j', b'⟩ := e'
      obtain ⟨hj, hl⟩ := List.nodup_cons.mp hl
      injection hkeys with hhead htail
      change j = j' at hhead
      subst hhead
      have hb := h j
      rw [lookup_cons_eq, lookup_cons_eq, if_pos rfl, if_pos rfl] at hb
      rw [Option.some.inj hb, ih htail hl]
      intro k
      by_cases hk : k = j
      · -- the first key does not occur again
        have hnone : ∀ d : List (α × β), d.map Prod.fst = l.map Prod.fst → d.lookup j = none := by
          intro d hd
          cases hlookup : d.lookup j with
          | none => rfl
          | some b'' =>
            have hmem := List.mem_map_of_mem (f := Prod.fst) (mem_of_lookup hlookup)
            rw [hd] at hmem
            exact absurd hmem hj
        rw [hk, hnone l rfl, hnone l' htail.symm]
      · have hrest := h k
        rw [lookup_cons_eq, lookup_cons_eq, if_neg hk, if_neg hk] at hrest
        exact hrest

theorem lookup_map_snd (f : β → γ) (l : List (α × β)) (k : α) :
    (l.map fun e => (e.1, f e.2)).lookup k = (l.lookup k).map f := by
  induction l with
  | nil => rfl
  | cons e l ih =>
    obtain ⟨j, b⟩ := e
    rw [List.map_cons, lookup_cons_eq, lookup_cons_eq, ih]
    split <;> rfl

/-! ## Writing at a key. -/

/-- Write `b` at key `k`, after the other entries if there was none. -/
def put : List (α × β) → α → β → List (α × β)
  | [], k, b => [(k, b)]
  | (j, c) :: l, k, b => if k = j then (j, b) :: l else (j, c) :: put l k b

theorem put_eq_self_iff {l : List (α × β)} {k : α} {b : β} :
    put l k b = l ↔ l.lookup k = some b := by
  induction l with
  | nil => simp [put]
  | cons e l ih =>
    obtain ⟨j, c⟩ := e
    rw [lookup_cons_eq]
    unfold put
    split
    · simp [eq_comm]
    · simp [ih]

theorem mem_put {l : List (α × β)} {k : α} {b : β} {e : α × β} (h : e ∈ put l k b) :
    e ∈ l ∨ e = (k, b) := by
  induction l with
  | nil => exact .inr (List.mem_singleton.mp h)
  | cons a l ih =>
    obtain ⟨j, c⟩ := a
    unfold put at h
    split at h
    · next hk =>
      rcases List.mem_cons.mp h with h | h
      · rw [h, hk]
        exact .inr rfl
      · exact .inl (List.mem_cons_of_mem _ h)
    · rcases List.mem_cons.mp h with h | h
      · exact .inl (h ▸ List.mem_cons_self)
      · exact (ih h).imp_left (List.mem_cons_of_mem _)

theorem put_of_not_mem {l : List (α × β)} {k : α} (hk : k ∉ l.map Prod.fst) (b : β) :
    put l k b = l ++ [(k, b)] := by
  induction l with
  | nil => rfl
  | cons e l ih =>
    obtain ⟨j, c⟩ := e
    have hhead : k ≠ j := fun h => hk (by simp [h])
    have htail : k ∉ l.map Prod.fst := fun h => hk (List.mem_cons_of_mem _ h)
    unfold put
    rw [if_neg hhead, ih htail]
    rfl

theorem lookup_put (l : List (α × β)) (k : α) (b : β) (i : α) :
    (put l k b).lookup i = if i = k then some b else l.lookup i := by
  induction l with
  | nil => rw [put, lookup_cons_eq]
  | cons e l ih =>
    obtain ⟨j, c⟩ := e
    unfold put
    by_cases hk : k = j
    · subst hk
      rw [if_pos rfl, lookup_cons_eq, lookup_cons_eq]
      by_cases hi : i = k <;> simp [hi]
    · rw [if_neg hk, lookup_cons_eq, lookup_cons_eq, ih]
      by_cases hi : i = j
      · simp [hi, Ne.symm hk]
      · simp [hi]

theorem keys_put (l : List (α × β)) (k : α) (b : β) :
    (put l k b).map Prod.fst =
      if k ∈ l.map Prod.fst then l.map Prod.fst else l.map Prod.fst ++ [k] := by
  induction l with
  | nil => rfl
  | cons e l ih =>
    obtain ⟨j, c⟩ := e
    unfold put
    by_cases hk : k = j
    · simp [hk]
    · rw [if_neg hk, List.map_cons, List.map_cons, ih]
      by_cases hmem : k ∈ l.map Prod.fst
      · rw [if_pos hmem, if_pos (List.mem_cons_of_mem _ hmem)]
      · have hcons : k ∉ j :: l.map Prod.fst := by simp [hk, hmem]
        rw [if_neg hmem, if_neg hcons]
        rfl

theorem nodup_put {l : List (α × β)} (hl : (l.map Prod.fst).Nodup) (k : α) (b : β) :
    ((put l k b).map Prod.fst).Nodup := by
  rw [keys_put]
  split
  · exact hl
  · next hk =>
    refine List.nodup_append.mpr ⟨hl, List.nodup_singleton k, fun a ha a' ha' => ?_⟩
    rw [List.mem_singleton.mp ha']
    intro heq
    exact hk (heq ▸ ha)

/-! ## Removing a key. -/

/-- The entries at the other keys. -/
def removeKey (l : List (α × β)) (k : α) : List (α × β) := l.filter fun e => decide (e.1 ≠ k)

theorem lookup_removeKey (l : List (α × β)) (k i : α) :
    (removeKey l k).lookup i = if i = k then none else l.lookup i := by
  unfold removeKey
  induction l with
  | nil => simp
  | cons e l ih =>
    obtain ⟨j, c⟩ := e
    rw [lookup_cons_eq, List.filter_cons]
    by_cases hj : j = k
    · -- the entry is removed
      subst hj
      simp only [ne_eq, not_true_eq_false, decide_false, Bool.false_eq_true, if_false]
      rw [ih]
      by_cases hi : i = j <;> simp [hi]
    · simp only [ne_eq, hj, not_false_eq_true, decide_true, if_true]
      rw [lookup_cons_eq, ih]
      by_cases hi : i = j
      · simp [hi, hj]
      · simp [hi]

theorem nodup_removeKey {l : List (α × β)} (hl : (l.map Prod.fst).Nodup) (k : α) :
    ((removeKey l k).map Prod.fst).Nodup :=
  hl.sublist (List.filter_sublist.map Prod.fst)

/-! ## Orders of the entries. -/

theorem mem_iff_lookup {l : List (α × β)} (hl : (l.map Prod.fst).Nodup) {k : α} {b : β} :
    (k, b) ∈ l ↔ l.lookup k = some b :=
  ⟨lookup_of_mem hl, mem_of_lookup⟩

/-- **In another order the entries are found as well.** -/
theorem lookup_of_perm {l l' : List (α × β)} (h : l.Perm l') (hl : (l.map Prod.fst).Nodup) (k : α) :
    l.lookup k = l'.lookup k := by
  have hl' : (l'.map Prod.fst).Nodup := (h.map Prod.fst).nodup_iff.mp hl
  ext b
  rw [← mem_iff_lookup hl, ← mem_iff_lookup hl']
  exact h.mem_iff

/-- **Lists in which the same is found** have the same entries, in some order. -/
theorem perm_of_lookup {l l' : List (α × β)} (hl : (l.map Prod.fst).Nodup)
    (hl' : (l'.map Prod.fst).Nodup) (h : ∀ k, l.lookup k = l'.lookup k) : l.Perm l' := by
  rw [List.perm_ext_iff_of_nodup hl.of_map hl'.of_map]
  intro e
  show (e.1, e.2) ∈ l ↔ (e.1, e.2) ∈ l'
  rw [mem_iff_lookup hl, mem_iff_lookup hl', h]

end RealmCpp.Library
