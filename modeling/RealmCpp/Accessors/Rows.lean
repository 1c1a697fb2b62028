/-
  RealmCpp.Accessors.Rows
  ───────────────────────
  **THE ROWS THAT OBJECTS ARE PLACED IN.**

  Placing only adds objects to the store.  An object with a primary key goes to
  the row of that key, wherever in the tree it is; one without goes to a new row
  that nothing else goes to.

    • `forget_place`, `nodes_map_forget` — placing keeps the tree,
    • `Placing` — what placing does to the objects of the store,
    • `Placing.create`, `append` — one object, and one after another,
    • `placing_place`, `placing_create` — the whole tree.
-/
import RealmCpp.Accessors.Nodes
import Mathlib.Tactic.Common

namespace RealmCpp.Accessors

open RealmCpp.Library
open RealmCpp.Core

variable {K : DecimalText}

/-! ## §1. Forgetting the rows. -/

mutual

/-- The tree that was placed. -/
def forget : Placed → Unmanaged
  | .node _ t ps => .node t (forgetProperties ps)
termination_by structural P => P

def forgetProperties : List (String × List (String × Slot Mixed Placed)) →
    List (String × List (String × Slot Mixed Unmanaged))
  | [] => []
  | (name, es) :: ps => (name, forgetEntries es) :: forgetProperties ps
termination_by structural ps => ps

def forgetEntries : List (String × Slot Mixed Placed) →
    List (String × Slot Mixed Unmanaged)
  | [] => []
  | (key, .null) :: es => (key, .null) :: forgetEntries es
  | (key, .scalar m) :: es => (key, .scalar m) :: forgetEntries es
  | (key, .object P) :: es => (key, .object (forget P)) :: forgetEntries es
termination_by structural es => es

end

theorem forgetEntries_eq (es : Content Mixed Placed) :
    forgetEntries es = es.mapObjects forget := by
  induction es with
  | nil => rfl
  | cons e es ih =>
    obtain ⟨key, s⟩ := e
    cases s <;> exact congrArg (_ :: ·) ih

theorem forgetProperties_eq (ps : List (String × Content Mixed Placed)) :
    forgetProperties ps = ps.map fun p => (p.1, p.2.mapObjects forget) := by
  induction ps with
  | nil => rfl
  | cons p ps ih =>
    obtain ⟨name, es⟩ := p
    show (name, forgetEntries es) :: forgetProperties ps = _
    rw [forgetEntries_eq, ih]
    rfl

@[simp] theorem forget_cls (P : Placed) : (forget P).cls = P.cls := by
  cases P
  rfl

theorem forget_props (P : Placed) :
    (forget P).props = P.props.map fun p => (p.1, p.2.mapObjects forget) := by
  cases P
  exact forgetProperties_eq _

/-- What a property holds, up to rows. -/
theorem forget_content (P : Placed) (name : String) :
    (forget P).content name = (P.content name).mapObjects forget := by
  unfold Unmanaged.content Placed.content
  rw [forget_props, lookup_map_snd]
  cases P.props.lookup name <;> rfl

mutual

/-- **Placing keeps the tree.** -/
theorem forget_place (σ : Schemas) (x : Ref) : ∀ (u : Unmanaged) (A : Objects),
    forget (place σ x u A).2 = u
  | .node t ps, A => congrArg (Unmanaged.node t) (forget_placeProperties σ ps A)
termination_by structural u => u

theorem forget_placeProperties (σ : Schemas) :
    ∀ (ps : List (String × List (String × Slot Mixed Unmanaged))) (A : Objects),
    forgetProperties (placeProperties σ ps A).2 = ps
  | [], A => rfl
  | (name, es) :: ps, A => by
      show (name, forgetEntries (placeEntries σ es A).2) :: forgetProperties _ = _
      rw [forget_placeEntries σ es A, forget_placeProperties σ ps _]
termination_by structural ps => ps

theorem forget_placeEntries (σ : Schemas) :
    ∀ (es : List (String × Slot Mixed Unmanaged)) (A : Objects),
    forgetEntries (placeEntries σ es A).2 = es
  | [], A => rfl
  | (key, .null) :: es, A => by
      show (key, .null) :: forgetEntries (placeEntries σ es A).2 = _
      rw [forget_placeEntries σ es A]
  | (key, .scalar m) :: es, A => by
      show (key, .scalar m) :: forgetEntries (placeEntries σ es A).2 = _
      rw [forget_placeEntries σ es A]
  | (key, .object u) :: es, A => by
      rw [placeEntries_object]
      show (key, .object (forget (place σ _ u _).2)) :: forgetEntries _ = _
      rw [forget_place σ _ u _, forget_placeEntries σ es _]
termination_by structural es => es

end

mutual

/-- **The nodes of a placed tree are the objects that are reached.** -/
theorem nodes_map_forget : ∀ P : Placed, (nodes P).map forget = (forget P).reached
  | .node _ _ ps => congrArg (_ :: ·) (nodesProperties_map_forget ps)
termination_by structural P => P

theorem nodesProperties_map_forget :
    ∀ ps : List (String × List (String × Slot Mixed Placed)),
    (nodesProperties ps).map forget = Unmanaged.reachedProperties (forgetProperties ps)
  | [] => rfl
  | (name, es) :: ps => by
      show (nodesEntries es ++ nodesProperties ps).map forget = _
      rw [List.map_append, nodesEntries_map_forget es, nodesProperties_map_forget ps]
      rfl
termination_by structural ps => ps

theorem nodesEntries_map_forget : ∀ es : List (String × Slot Mixed Placed),
    (nodesEntries es).map forget = Unmanaged.reachedEntries (forgetEntries es)
  | [] => rfl
  | (_, .null) :: es => nodesEntries_map_forget es
  | (_, .scalar _) :: es => nodesEntries_map_forget es
  | (_, .object P) :: es => by
      show (nodes P ++ nodesEntries es).map forget = _
      rw [List.map_append, nodes_map_forget P, nodesEntries_map_forget es]
      rfl
termination_by structural es => es

end

/-! ## §2. The objects of the store. -/

/-- What holds of the objects of any store: free keys are free, and primary keys
name live objects, each object at most once. -/
structure Objects.WellFormed (A : Objects) : Prop where
  live_lt : ∀ x, A.live x = true → x.key.value < A.next x.table
  index_live : ∀ t m k, A.index t m = some k → A.live ⟨t, k⟩ = true
  index_inj : ∀ t m m' k, A.index t m = some k → A.index t m' = some k → m = m'

/-- **What placing the nodes `ns` does to the objects of a store.** -/
structure Placing (σ : Schemas) (A A' : Objects) (ns : List Placed) : Prop where
  wellFormed : Objects.WellFormed A'
  live : ∀ x, A.live x = true → A'.live x = true
  index : ∀ t m k, A.index t m = some k → A'.index t m = some k
  table : ∀ n ∈ ns, n.row.table = n.cls
  row_live : ∀ n ∈ ns, A'.live n.row = true
  row_index : ∀ n ∈ ns, ∀ t m, (forget n).key σ = some (t, m) → A'.index t m = some n.row.key
  new_live : ∀ x, A'.live x = true → A.live x = true ∨ ∃ n ∈ ns, n.row = x
  new_index : ∀ t m k, A'.index t m = some k →
    A.index t m = some k ∨ (A.live ⟨t, k⟩ = false ∧ ∃ n ∈ ns, n.row = ⟨t, k⟩)
  /-- Without a primary key, a row is used once, when it becomes live. -/
  count : ∀ x, (σ x.table).primary_key = none →
    (ns.countP fun n => n.row = x) + (A.live x).toNat ≤ (A'.live x).toNat

theorem Unmanaged.key_cls {σ : Schemas} {u : Unmanaged} {t : TableKey} {m : Mixed}
    (h : u.key σ = some (t, m)) : u.cls = t := by
  obtain ⟨name, -, hname⟩ := Option.map_eq_some_iff.mp h
  exact (Prod.mk.inj hname).1

/-- An object that is there keeps its row, a new one gets the next. -/
theorem create_cases {σ : Schemas} {A A' : Objects} {u : Unmanaged} {x : Ref}
    (h : create σ A u = (A', x)) :
    (A' = A ∧ x.table = u.cls ∧ ∃ m, u.key σ = some (u.cls, m) ∧ A.index u.cls m = some x.key) ∨
    ((∀ t m, u.key σ = some (t, m) → A.index t m = none) ∧ x = ⟨u.cls, ⟨A.next u.cls⟩⟩ ∧
      A'.live = Function.update A.live x true ∧
      A'.next = Function.update A.next u.cls (A.next u.cls + 1) ∧
      ∀ t m, A'.index t m = if u.key σ = some (t, m) then some x.key else A.index t m) := by
  unfold create at h
  cases hkey : u.key σ with
  | none =>
    rw [hkey] at h
    cases h
    refine .inr ⟨fun t m h => ?_, rfl, rfl, rfl, fun t m => ?_⟩
    · cases h
    · rfl
  | some key =>
    obtain ⟨t, m⟩ := key
    have ht := Unmanaged.key_cls hkey
    subst ht
    rw [hkey] at h
    simp only [Objects.create_object_with_primary_key] at h
    -- an object of that key may be there
    cases hindex : A.index u.cls m with
    | some k =>
      rw [hindex] at h
      cases h
      exact .inl ⟨rfl, rfl, m, rfl, hindex⟩
    | none =>
      rw [hindex] at h
      cases h
      refine .inr ⟨fun t' m' h => ?_, rfl, rfl, rfl, fun t' m' => ?_⟩
      · cases h
        exact hindex
      · simp only [Objects.create_object, Option.some.injEq, Prod.mk.injEq, eq_comm]

/-- **A new row** for an object: it was free, is live from here on, and is found by
the primary key of the object if it has one.  Nothing else is different. -/
structure NewRow (σ : Schemas) (A A' : Objects) (u : Unmanaged) (x : Ref) : Prop where
  table : x.table = u.cls
  free : A.live x = false
  wellFormed : Objects.WellFormed A'
  live_iff : ∀ y, A'.live y = true ↔ y = x ∨ A.live y = true
  index_kept : ∀ t m k, A.index t m = some k → A'.index t m = some k
  index_self : ∀ t m, u.key σ = some (t, m) → A'.index t m = some x.key
  index_cases : ∀ t m k, A'.index t m = some k →
    (u.key σ = some (t, m) ∧ (⟨t, k⟩ : Ref) = x) ∨ A.index t m = some k

section Create

variable {σ : Schemas} {A A' : Objects} {u : Unmanaged} {x : Ref}

/-- The next free key is that of no live object. -/
theorem live_next (hA : Objects.WellFormed A) (t : TableKey) : A.live ⟨t, ⟨A.next t⟩⟩ = false := by
  cases hl : A.live ⟨t, ⟨A.next t⟩⟩ with
  | false => rfl
  | true => exact absurd (hA.live_lt _ hl) (Nat.lt_irrefl _)

/-- One more object is live. -/
theorem live_create_iff (hlive : A'.live = Function.update A.live x true) (y : Ref) :
    A'.live y = true ↔ y = x ∨ A.live y = true := by
  rw [hlive]
  by_cases hy : y = x
  · rw [hy]
    simp
  · simp [hy]

/-- What is found is the new object, by its key, or was found before. -/
theorem index_create_cases (htable : x.table = u.cls)
    (hindex : ∀ t m, A'.index t m = if u.key σ = some (t, m) then some x.key else A.index t m)
    {t : TableKey} {m : Mixed} {k : ObjKey} (hk : A'.index t m = some k) :
    (u.key σ = some (t, m) ∧ (⟨t, k⟩ : Ref) = x) ∨ A.index t m = some k := by
  rw [hindex] at hk
  split at hk
  · next hkey =>
    cases hk
    refine .inl ⟨hkey, ?_⟩
    rw [← Unmanaged.key_cls hkey, ← htable]
  · exact .inr hk

/-- The objects with the new one. -/
theorem wellFormed_create (hA : Objects.WellFormed A) (hrow : x = ⟨u.cls, ⟨A.next u.cls⟩⟩)
    (hnext : A'.next = Function.update A.next u.cls (A.next u.cls + 1))
    (hlive : ∀ y, A'.live y = true ↔ y = x ∨ A.live y = true)
    (hindex : ∀ t m k, A'.index t m = some k →
      (u.key σ = some (t, m) ∧ (⟨t, k⟩ : Ref) = x) ∨ A.index t m = some k) :
    Objects.WellFormed A' := by
  -- a new object has one key, and is no other's
  have hother : ∀ t m k, A.index t m = some k → (⟨t, k⟩ : Ref) ≠ x := by
    intro t m k hk hx
    have hl := hA.index_live t m k hk
    rw [hx, hrow, live_next hA] at hl
    cases hl
  refine ⟨?_, ?_, ?_⟩
  · -- keys below the next one
    intro y hy
    rw [hnext]
    rcases (hlive y).mp hy with rfl | hy
    · rw [hrow]
      simp
    · have hlt := hA.live_lt y hy
      by_cases ht : y.table = u.cls
      · rw [ht] at hlt
        rw [ht, Function.update_self]
        omega
      · rw [Function.update_of_ne ht]
        exact hlt
  · -- what is found is live
    intro t m k hk
    rcases hindex t m k hk with ⟨-, hx⟩ | hk
    · exact (hlive _).mpr (.inl hx)
    · exact (hlive _).mpr (.inr (hA.index_live t m k hk))
  · -- and by one key
    intro t m m' k hk hk'
    rcases hindex t m k hk with ⟨hkey, hx⟩ | hk
    · rcases hindex t m' k hk' with ⟨hkey', -⟩ | hk'
      · rw [hkey] at hkey'
        cases hkey'
        rfl
      · exact absurd hx (hother t m' k hk')
    · rcases hindex t m' k hk' with ⟨-, hx⟩ | hk'
      · exact absurd hx (hother t m k hk)
      · exact hA.index_inj t m m' k hk hk'

theorem newRow_of_create (hA : Objects.WellFormed A)
    (hnew : ∀ t m, u.key σ = some (t, m) → A.index t m = none)
    (hrow : x = ⟨u.cls, ⟨A.next u.cls⟩⟩) (hlive : A'.live = Function.update A.live x true)
    (hnext : A'.next = Function.update A.next u.cls (A.next u.cls + 1))
    (hindex : ∀ t m, A'.index t m = if u.key σ = some (t, m) then some x.key else A.index t m) :
    NewRow σ A A' u x := by
  have htable : x.table = u.cls := by rw [hrow]
  have hfree : A.live x = false := by
    rw [hrow]
    exact live_next hA u.cls
  have hlive_iff := live_create_iff hlive
  have hcases := fun t m k => index_create_cases (t := t) (m := m) (k := k) htable hindex
  refine ⟨htable, hfree, wellFormed_create hA hrow hnext hlive_iff hcases, hlive_iff, ?_, ?_, hcases⟩
  · intro t m k hk
    rw [hindex]
    split
    · next hkey =>
      rw [hnew t m hkey] at hk
      cases hk
    · exact hk
  · intro t m hkey
    rw [hindex, if_pos hkey]

end Create

namespace Placing

variable {σ : Schemas} {A A' A'' : Objects} {ns ns' : List Placed}

theorem nil (h : Objects.WellFormed A) : Placing σ A A [] where
  wellFormed := h
  live _ h := h
  index _ _ _ h := h
  table n hn := by cases hn
  row_live n hn := by cases hn
  row_index n hn := by cases hn
  new_live _ h := .inl h
  new_index _ _ _ h := .inl h
  count _ _ := by simp

/-- **One placing after another.** -/
theorem append (h : Placing σ A A' ns) (h' : Placing σ A' A'' ns') :
    Placing σ A A'' (ns ++ ns') where
  wellFormed := h'.wellFormed
  live x hx := h'.live x (h.live x hx)
  index t m k hk := h'.index t m k (h.index t m k hk)
  table n hn := by
    rcases List.mem_append.mp hn with hn | hn
    · exact h.table n hn
    · exact h'.table n hn
  row_live n hn := by
    rcases List.mem_append.mp hn with hn | hn
    · exact h'.live _ (h.row_live n hn)
    · exact h'.row_live n hn
  row_index n hn t m hkey := by
    rcases List.mem_append.mp hn with hn | hn
    · exact h'.index _ _ _ (h.row_index n hn t m hkey)
    · exact h'.row_index n hn t m hkey
  new_live x hx := by
    rcases h'.new_live x hx with hx | ⟨n, hn, hrow⟩
    · rcases h.new_live x hx with hx | ⟨n, hn, hrow⟩
      · exact .inl hx
      · exact .inr ⟨n, List.mem_append_left _ hn, hrow⟩
    · exact .inr ⟨n, List.mem_append_right _ hn, hrow⟩
  new_index t m k hk := by
    rcases h'.new_index t m k hk with hk | ⟨hlive, n, hn, hrow⟩
    · rcases h.new_index t m k hk with hk | ⟨hlive, n, hn, hrow⟩
      · exact .inl hk
      · exact .inr ⟨hlive, n, List.mem_append_left _ hn, hrow⟩
    · refine .inr ⟨?_, n, List.mem_append_right _ hn, hrow⟩
      -- what is not live later was not live before
      cases hl : A.live ⟨t, k⟩ with
      | false => rfl
      | true => exact absurd (h.live _ hl) (by simp [hlive])
  count x hx := by
    have hcount := h.count x hx
    have hcount' := h'.count x hx
    rw [List.countP_append]
    omega

/-- An object that is there: its row is found by its primary key. -/
theorem kept {P : Placed} (hA : Objects.WellFormed A) (htable : P.row.table = (forget P).cls)
    {m : Mixed} (hkey : (forget P).key σ = some ((forget P).cls, m))
    (hindex : A.index (forget P).cls m = some P.row.key) : Placing σ A A [P] := by
  have hpk : (σ P.row.table).primary_key ≠ none := by
    intro hnone
    unfold Unmanaged.key at hkey
    rw [← htable, hnone] at hkey
    cases hkey
  have hrow : P.row = ⟨P.cls, P.row.key⟩ := by
    rw [← forget_cls, ← htable]
  have hlive : A.live P.row = true := by
    rw [hrow, ← forget_cls]
    exact hA.index_live _ _ _ hindex
  refine ⟨hA, fun _ h => h, fun _ _ _ h => h, ?_, ?_, ?_, fun _ h => .inl h, fun _ _ _ h => .inl h,
    ?_⟩
  · intro n hn
    rw [List.mem_singleton.mp hn, htable, forget_cls]
  · intro n hn
    rw [List.mem_singleton.mp hn]
    exact hlive
  · intro n hn t m' hn'
    rw [List.mem_singleton.mp hn] at hn' ⊢
    rw [hkey] at hn'
    cases hn'
    exact hindex
  · -- the row has a primary key, so it is not counted
    intro x hx
    have hne : ¬ P.row = x := fun hPx => hpk (hPx ▸ hx)
    simp [hne]

/-- An object that is not there: its row is a new one. -/
theorem new {P : Placed} (h : NewRow σ A A' (forget P) P.row) : Placing σ A A' [P] where
  wellFormed := h.wellFormed
  live x hx := (h.live_iff x).mpr (.inr hx)
  index := h.index_kept
  table n hn := by
    rw [List.mem_singleton.mp hn, h.table]
    exact forget_cls P
  row_live n hn := by
    rw [List.mem_singleton.mp hn]
    exact (h.live_iff _).mpr (.inl rfl)
  row_index n hn t m hkey := by
    rw [List.mem_singleton.mp hn] at hkey ⊢
    exact h.index_self t m hkey
  new_live x hx := by
    rcases (h.live_iff x).mp hx with rfl | hx
    · exact .inr ⟨P, List.mem_singleton_self P, rfl⟩
    · exact .inl hx
  new_index t m k hk := by
    rcases h.index_cases t m k hk with ⟨-, hx⟩ | hk
    · exact .inr ⟨hx ▸ h.free, P, List.mem_singleton_self P, hx.symm⟩
    · exact .inl hk
  count x _ := by
    by_cases hx : x = P.row
    · -- counted once, and live from here on
      have hlive := (h.live_iff x).mpr (.inl hx)
      simp [hx ▸ hlive, h.free, hx]
    · have hlive : A'.live x = A.live x := by
        rw [Bool.eq_iff_iff, h.live_iff]
        simp [hx]
      simp [hlive, Ne.symm hx]

/-- **One object**, in the row that it is created in. -/
theorem create {P : Placed} (hA : Objects.WellFormed A)
    (h : create σ A (forget P) = (A', P.row)) : Placing σ A A' [P] := by
  rcases create_cases h with ⟨rfl, htable, m, hkey, hindex⟩ | ⟨hnew, hrow, hlive, hnext, hindex⟩
  · exact kept hA htable hkey hindex
  · exact new (newRow_of_create hA hnew hrow hlive hnext hindex)

/-- An object, then the objects behind its pointers. -/
theorem cons {P : Placed} (hA : Objects.WellFormed A)
    (h : Accessors.create σ A (forget P) = (A', P.row))
    (h' : Placing σ A' A'' (nodesProperties P.props)) : Placing σ A A'' (nodes P) := by
  have hnodes : nodes P = [P] ++ nodesProperties P.props := by
    cases P
    rfl
  rw [hnodes]
  exact (create hA h).append h'

end Placing

mutual

theorem placing_place (σ : Schemas) (x : Ref) : ∀ (u : Unmanaged) (A : Objects),
    Objects.WellFormed A →
    Placing σ A (place σ x u A).1 (nodesProperties (place σ x u A).2.props)
  | .node _ ps, A, hA => placing_properties σ ps A hA
termination_by structural u => u

theorem placing_properties (σ : Schemas) :
    ∀ (ps : List (String × List (String × Slot Mixed Unmanaged))) (A : Objects),
    Objects.WellFormed A →
    Placing σ A (placeProperties σ ps A).1 (nodesProperties (placeProperties σ ps A).2)
  | [], A, hA => .nil hA
  | (_, es) :: ps, A, hA => by
      have hes := placing_entries σ es A hA
      exact hes.append (placing_properties σ ps _ hes.wellFormed)
termination_by structural ps => ps

theorem placing_entries (σ : Schemas) :
    ∀ (es : List (String × Slot Mixed Unmanaged)) (A : Objects),
    Objects.WellFormed A →
    Placing σ A (placeEntries σ es A).1 (nodesEntries (placeEntries σ es A).2)
  | [], A, hA => .nil hA
  | (_, .null) :: es, A, hA => placing_entries σ es A hA
  | (_, .scalar _) :: es, A, hA => placing_entries σ es A hA
  | (_, .object u) :: es, A, hA => by
      rw [placeEntries_object]
      cases hc : create σ A u with
      | mk A₁ y =>
        have hcreate : create σ A (forget (place σ y u A₁).2) = (A₁, (place σ y u A₁).2.row) := by
          rw [forget_place, place_row, hc]
        have hA₁ := (Placing.create hA hcreate).wellFormed
        have hP := Placing.cons hA hcreate (placing_place σ y u A₁ hA₁)
        exact hP.append (placing_entries σ es _ hP.wellFormed)
termination_by structural es => es

end

/-- **Placing a whole tree.** -/
theorem placing_create {σ : Schemas} {A A₁ : Objects} {v : Unmanaged} {x : Ref}
    (hA : Objects.WellFormed A) (h : create σ A v = (A₁, x)) :
    Placing σ A (place σ x v A₁).1 (nodes (place σ x v A₁).2) := by
  have hcreate : create σ A (forget (place σ x v A₁).2) = (A₁, (place σ x v A₁).2.row) := by
    rw [forget_place, place_row, h]
  have hA₁ := (Placing.create hA hcreate).wellFormed
  exact Placing.cons hA hcreate (placing_place σ x v A₁ hA₁)

/-! ## §3. Adding an object. -/

/-- The tree of `v` has been placed; `P.row` is the row of `v` itself. -/
structure Planned (σ : Schemas) (A A' : Objects) (v : Unmanaged) (P : Placed) : Prop where
  forget : forget P = v
  placing : Placing σ A A' (nodes P)

/-- **What `db::add` does**: it places the tree of `v` and replays the journal. -/
structure Added (K : DecimalText) (σ : Schemas) (S S' : Store) (v : Unmanaged) (P : Placed) : Prop extends
    Planned σ S.toObjects S'.toObjects v P where
  cells : ∀ x col, runWrites Write.apply (writesAt (x, col) (events K σ P)) (S.cell x col)
    = some (S'.cell x col)

theorem add_eq (σ : Schemas) (S : Store) (v : Unmanaged) :
    add K σ S v = ((S.withObjects (place σ (create σ S.toObjects v).2 v
        (create σ S.toObjects v).1).1).writes
      (events K σ (place σ (create σ S.toObjects v).2 v (create σ S.toObjects v).1).2)).map
        (·, (create σ S.toObjects v).2) := by
  show (setObject K σ _ v (S.withObjects _)).bind (fun S' => some (S', _)) = _
  rw [setObject_eq]
  exact Option.map_eq_bind.symm

/-- **A successful `db::add`**, and the row of the object it returns. -/
theorem added_of_add {σ : Schemas} {S S' : Store} {v : Unmanaged} {x : Ref}
    (hS : Objects.WellFormed S.toObjects) (h : add K σ S v = some (S', x)) :
    ∃ P, Added K σ S S' v P ∧ P.row = x := by
  rw [add_eq] at h
  cases hc : create σ S.toObjects v with
  | mk A₁ y =>
    rw [hc] at h
    obtain ⟨S₁, hS₁, hS'⟩ := Option.map_eq_some_iff.mp h
    obtain ⟨rfl, rfl⟩ := Prod.mk.inj hS'
    obtain ⟨hobj, hcells⟩ := Store.writes_eq_some_iff.mp hS₁
    refine ⟨(place σ y v A₁).2, ⟨⟨forget_place σ y v A₁, ?_⟩, hcells⟩, place_row σ y v A₁⟩
    rw [hobj]
    exact placing_create hS hc

/-- **Before anything is written**: `db::add` succeeds where the writes to each
cell do. -/
theorem exists_add {σ : Schemas} {S : Store} (v : Unmanaged)
    (hS : Objects.WellFormed S.toObjects) :
    ∃ A' P, Planned σ S.toObjects A' v P ∧
      ((∀ x col, ∃ c, runWrites Write.apply (writesAt (x, col) (events K σ P)) (S.cell x col)
          = some c) →
        ∃ S', add K σ S v = some (S', P.row) ∧ S'.toObjects = A' ∧ Added K σ S S' v P) := by
  cases hc : create σ S.toObjects v with
  | mk A₁ y =>
    have hplanned : Planned σ S.toObjects (place σ y v A₁).1 v (place σ y v A₁).2 :=
      ⟨forget_place σ y v A₁, placing_create hS hc⟩
    refine ⟨(place σ y v A₁).1, (place σ y v A₁).2, hplanned, fun h => ?_⟩
    obtain ⟨S', hS'⟩ : ∃ S', (S.withObjects (place σ y v A₁).1).writes
        (events K σ (place σ y v A₁).2) = some S' := by
      rw [Store.exists_writes_iff]
      exact h
    obtain ⟨hobj, hcells⟩ := Store.writes_eq_some_iff.mp hS'
    refine ⟨S', ?_, hobj, ?_⟩
    · rw [add_eq, hc, hS', place_row]
      rfl
    · refine ⟨?_, hcells⟩
      rw [hobj]
      exact hplanned

end RealmCpp.Accessors
