/-
  RealmCpp.Library.KeyedTree
  ──────────────────────────
  **TREES OF ARRAYS AND KEYED ENTRIES — library layer.**

  A tree is a leaf, an array of trees or a list of trees with keys.  Whoever builds one
  may write a key twice; whoever keeps it in a map has the last of them only.

    • `induction`, `fold` — the two ways to go through a tree,
    • `map`, `traverse` — another leaf for each,
    • `merge`, `merged` — one entry for each key, and that everywhere in a tree,
    • `map_merged_eq_self_iff` — the trees that merging and a map leave as they are.
-/
import RealmCpp.Library.Assoc

namespace RealmCpp.Library

/-! ## §1. One entry for each key. -/

section Merge

variable {κ α β : Type} [DecidableEq κ]

/-- The entries written one after the other: a key stays where it was written first. -/
def merge (es : List (κ × α)) : List (κ × α) := es.foldl (fun l e => put l e.1 e.2) []

theorem nodup_foldl_put (es : List (κ × α)) {l : List (κ × α)} (hl : (l.map Prod.fst).Nodup) :
    ((es.foldl (fun l e => put l e.1 e.2) l).map Prod.fst).Nodup := by
  induction es generalizing l with
  | nil => exact hl
  | cons e es ih => exact ih (nodup_put hl e.1 e.2)

theorem nodup_merge (es : List (κ × α)) : ((merge es).map Prod.fst).Nodup :=
  nodup_foldl_put es List.nodup_nil

/-- Keys that were not there are written after the others. -/
theorem foldl_put_eq_append (es l : List (κ × α)) (h : ((l ++ es).map Prod.fst).Nodup) :
    es.foldl (fun l e => put l e.1 e.2) l = l ++ es := by
  induction es generalizing l with
  | nil => exact (List.append_nil l).symm
  | cons e es ih =>
    have hnew : e.1 ∉ l.map Prod.fst := by
      rw [List.map_append, List.map_cons] at h
      exact fun hmem => (List.nodup_append.mp h).2.2 e.1 hmem e.1 List.mem_cons_self rfl
    have hsplit : l ++ [(e.1, e.2)] ++ es = l ++ e :: es := by
      rw [List.append_assoc]
      rfl
    rw [List.foldl_cons, put_of_not_mem hnew, ih (l ++ [(e.1, e.2)]) (hsplit ▸ h), hsplit]

/-- **Nothing is merged where no key is written twice.** -/
theorem merge_eq_self_iff {es : List (κ × α)} : merge es = es ↔ (es.map Prod.fst).Nodup := by
  constructor
  · intro h
    rw [← h]
    exact nodup_merge es
  · exact foldl_put_eq_append es []

theorem put_map_snd (f : α → β) (l : List (κ × α)) (k : κ) (a : α) :
    (put l k a).map (fun e => (e.1, f e.2)) = put (l.map fun e => (e.1, f e.2)) k (f a) := by
  induction l with
  | nil => rfl
  | cons e l ih =>
    obtain ⟨j, c⟩ := e
    unfold put
    by_cases hk : k = j
    · simp [hk]
    · simp [hk, ih]

theorem merge_map_snd (f : α → β) (es : List (κ × α)) :
    merge (es.map fun e => (e.1, f e.2)) = (merge es).map fun e => (e.1, f e.2) := by
  -- the entries are written after others, which are mapped too
  have h : ∀ l : List (κ × α),
      (es.map fun e => (e.1, f e.2)).foldl (fun l e => put l e.1 e.2)
          (l.map fun e => (e.1, f e.2)) =
        (es.foldl (fun l e => put l e.1 e.2) l).map fun e => (e.1, f e.2) := by
    induction es with
    | nil => exact fun l => rfl
    | cons e es ih =>
      intro l
      simp only [List.map_cons, List.foldl_cons]
      rw [← put_map_snd, ih]
  exact h []

/-- An entry that is kept is one that was written. -/
theorem mem_of_mem_merge {es : List (κ × α)} {e : κ × α} (h : e ∈ merge es) : e ∈ es := by
  have hfold : ∀ l : List (κ × α), e ∈ es.foldl (fun l e => put l e.1 e.2) l → e ∈ l ∨ e ∈ es := by
    clear h
    induction es with
    | nil => exact fun l h => .inl h
    | cons c es ih =>
      intro l h
      rcases ih _ h with hput | hmem
      · rcases mem_put hput with hl | rfl
        · exact .inl hl
        · exact .inr List.mem_cons_self
      · exact .inr (List.mem_cons_of_mem _ hmem)
  exact (hfold [] h).resolve_left List.not_mem_nil

end Merge

/-! ## §2. Trees. -/

inductive KeyedTree (κ L : Type) where
  | leaf (l : L)
  | array (ts : List (KeyedTree κ L))
  | document (es : List (κ × KeyedTree κ L))

namespace KeyedTree

variable {κ L M N α : Type}

mutual

/-- What holds of a leaf, and of a tree if it does of each below it. -/
@[elab_as_elim] theorem induction {P : KeyedTree κ L → Prop} (leaf : ∀ l, P (.leaf l))
    (array : ∀ ts, (∀ t ∈ ts, P t) → P (.array ts))
    (document : ∀ es, (∀ e ∈ es, P e.2) → P (.document es)) : ∀ t, P t
  | .leaf l => leaf l
  | .array ts => array ts (induction_array leaf array document ts)
  | .document es => document es (induction_document leaf array document es)

theorem induction_array {P : KeyedTree κ L → Prop} (leaf : ∀ l, P (.leaf l))
    (array : ∀ ts, (∀ t ∈ ts, P t) → P (.array ts))
    (document : ∀ es, (∀ e ∈ es, P e.2) → P (.document es)) :
    ∀ ts : List (KeyedTree κ L), ∀ t ∈ ts, P t
  | [] => fun _ h => absurd h List.not_mem_nil
  | t :: ts => List.forall_mem_cons.mpr
      ⟨induction leaf array document t, induction_array leaf array document ts⟩

theorem induction_document {P : KeyedTree κ L → Prop} (leaf : ∀ l, P (.leaf l))
    (array : ∀ ts, (∀ t ∈ ts, P t) → P (.array ts))
    (document : ∀ es, (∀ e ∈ es, P e.2) → P (.document es)) :
    ∀ es : List (κ × KeyedTree κ L), ∀ e ∈ es, P e.2
  | [] => fun _ h => absurd h List.not_mem_nil
  | (_, t) :: es => List.forall_mem_cons.mpr
      ⟨induction leaf array document t, induction_document leaf array document es⟩

end

section Fold

variable (leaf : L → α) (array : List α → α) (document : List (κ × α) → α)

mutual

/-- A value for each tree, from those of the trees below it. -/
def fold : KeyedTree κ L → α
  | .leaf l => leaf l
  | .array ts => array (fold_array ts)
  | .document es => document (fold_document es)

-- these are maps, written out for the recursion to be structural
def fold_array : List (KeyedTree κ L) → List α
  | [] => []
  | t :: ts => fold t :: fold_array ts

def fold_document : List (κ × KeyedTree κ L) → List (κ × α)
  | [] => []
  | (k, t) :: es => (k, fold t) :: fold_document es

end

theorem fold_array_eq (ts : List (KeyedTree κ L)) :
    fold_array leaf array document ts = ts.map (fold leaf array document) := by
  induction ts with
  | nil => rfl
  | cons t ts ih =>
    rw [List.map_cons, ← ih]
    rfl

theorem fold_document_eq (es : List (κ × KeyedTree κ L)) :
    fold_document leaf array document es =
      es.map fun e => (e.1, fold leaf array document e.2) := by
  induction es with
  | nil => rfl
  | cons e es ih =>
    rw [List.map_cons, ← ih]
    rfl

@[simp] theorem fold_leaf (l : L) :
    fold leaf array document (.leaf l : KeyedTree κ L) = leaf l := rfl

@[simp] theorem fold_of_array (ts : List (KeyedTree κ L)) :
    fold leaf array document (.array ts) = array (ts.map (fold leaf array document)) :=
  congrArg array (fold_array_eq leaf array document ts)

@[simp] theorem fold_of_document (es : List (κ × KeyedTree κ L)) :
    fold leaf array document (.document es) =
      document (es.map fun e => (e.1, fold leaf array document e.2)) :=
  congrArg document (fold_document_eq leaf array document es)

end Fold

/-- The leaves, from left to right. -/
def leaves : KeyedTree κ L → List L :=
  fold (fun l => [l]) List.flatten fun es => (es.map Prod.snd).flatten

/-- Another leaf for each. -/
def map (f : L → M) : KeyedTree κ L → KeyedTree κ M := fold (fun l => leaf (f l)) array document

/-- The same, unless it fails for one. -/
def traverse (f : L → Option M) : KeyedTree κ L → Option (KeyedTree κ M) :=
  fold (fun l => (f l).map leaf) (fun os => (os.mapM id).map array)
    fun os => (os.mapM fun e : κ × Option (KeyedTree κ M) => e.2.map (Prod.mk e.1)).map document

@[simp] theorem map_array (f : L → M) (ts : List (KeyedTree κ L)) :
    (array ts).map f = array (ts.map (map f)) := fold_of_array ..

@[simp] theorem map_document (f : L → M) (es : List (κ × KeyedTree κ L)) :
    (document es).map f = document (es.map fun e => (e.1, e.2.map f)) := fold_of_document ..

theorem mem_leaves_array {ts : List (KeyedTree κ L)} {l : L} :
    l ∈ (array ts).leaves ↔ ∃ t ∈ ts, l ∈ t.leaves := by
  unfold leaves
  simp

theorem mem_leaves_document {es : List (κ × KeyedTree κ L)} {l : L} :
    l ∈ (document es).leaves ↔ ∃ e ∈ es, l ∈ e.2.leaves := by
  unfold leaves
  simp

theorem list_map_eq_self_iff {f : α → α} {l : List α} : l.map f = l ↔ ∀ a ∈ l, f a = a := by
  have h : l.map f = l.map id ↔ ∀ a ∈ l, f a = id a := List.map_inj_left
  rwa [List.map_id] at h

/-- What is folded after a map. -/
theorem fold_map (f : L → M) (leaf : M → α) (array : List α → α) (document : List (κ × α) → α)
    (t : KeyedTree κ L) :
    fold leaf array document (t.map f) = fold (fun l => leaf (f l)) array document t := by
  induction t using induction with
  | leaf l => rfl
  | array ts ih =>
    rw [map_array, fold_of_array, fold_of_array, List.map_map]
    exact congrArg array (List.map_congr_left ih)
  | document es ih =>
    rw [map_document, fold_of_document, fold_of_document, List.map_map]
    exact congrArg document (List.map_congr_left fun e he => congrArg (Prod.mk e.1) (ih e he))

theorem map_map (f : L → M) (g : M → N) (t : KeyedTree κ L) : (t.map f).map g = t.map (g ∘ f) :=
  fold_map f ..

/-- **A tree is left alone exactly where its leaves are.** -/
theorem map_eq_self_iff {f : L → L} {t : KeyedTree κ L} : t.map f = t ↔ ∀ l ∈ t.leaves, f l = l := by
  induction t using induction with
  | leaf l => simp [map, leaves]
  | array ts ih =>
    rw [map_array, array.injEq, list_map_eq_self_iff]
    constructor
    · intro h l hl
      obtain ⟨t, ht, hl⟩ := mem_leaves_array.mp hl
      exact (ih t ht).mp (h t ht) l hl
    · intro h t ht
      exact (ih t ht).mpr fun l hl => h l (mem_leaves_array.mpr ⟨t, ht, hl⟩)
  | document es ih =>
    rw [map_document, document.injEq, list_map_eq_self_iff]
    constructor
    · intro h l hl
      obtain ⟨e, he, hl⟩ := mem_leaves_document.mp hl
      exact (ih e he).mp (congrArg Prod.snd (h e he)) l hl
    · intro h e he
      have hmap := (ih e he).mpr fun l hl => h l (mem_leaves_document.mpr ⟨e, he, hl⟩)
      exact congrArg (Prod.mk e.1) hmap

theorem traverse_eq_map {f : L → Option M} {g : L → M} (h : ∀ l, f l = some (g l))
    (t : KeyedTree κ L) : t.traverse f = some (t.map g) := by
  induction t using induction with
  | leaf l => exact congrArg (Option.map leaf) (h l)
  | array ts ih =>
    have hts : ts.map (traverse f) = ts.map fun t => some (t.map g) := List.map_congr_left ih
    have hall : (ts.map (traverse f)).mapM id = some (ts.map (map g)) := by
      rw [hts, List.mapM_map]
      exact List.mapM_pure
    exact (fold_of_array ..).trans ((congrArg (Option.map array) hall).trans
      (congrArg some (map_array g ts).symm))
  | document es ih =>
    have hes : es.map (fun e => (e.1, e.2.traverse f)) = es.map fun e => (e.1, some (e.2.map g)) :=
      List.map_congr_left fun e he => congrArg (Prod.mk e.1) (ih e he)
    have hall : (es.map fun e => (e.1, e.2.traverse f)).mapM
        (fun e : κ × Option (KeyedTree κ M) => e.2.map (Prod.mk e.1)) =
          some (es.map fun e => (e.1, e.2.map g)) := by
      rw [hes, List.mapM_map]
      exact List.mapM_pure
    exact (fold_of_document ..).trans ((congrArg (Option.map document) hall).trans
      (congrArg some (map_document g es).symm))

/-! ## §3. Merging. -/

/-- No key is written twice anywhere. -/
inductive WellKeyed : KeyedTree κ L → Prop
  | leaf (l : L) : WellKeyed (.leaf l)
  | array {ts : List (KeyedTree κ L)} (h : ∀ t ∈ ts, WellKeyed t) : WellKeyed (.array ts)
  | document {es : List (κ × KeyedTree κ L)} (hes : (es.map Prod.fst).Nodup)
      (h : ∀ e ∈ es, WellKeyed e.2) : WellKeyed (.document es)

theorem wellKeyed_array {ts : List (KeyedTree κ L)} :
    (array ts).WellKeyed ↔ ∀ t ∈ ts, t.WellKeyed :=
  ⟨fun h => by cases h; assumption, .array⟩

theorem wellKeyed_document {es : List (κ × KeyedTree κ L)} :
    (document es).WellKeyed ↔ (es.map Prod.fst).Nodup ∧ ∀ e ∈ es, e.2.WellKeyed :=
  ⟨fun h => by cases h; constructor <;> assumption, fun h => .document h.1 h.2⟩

theorem wellKeyed_map {f : L → M} {t : KeyedTree κ L} : (t.map f).WellKeyed ↔ t.WellKeyed := by
  induction t using induction with
  | leaf l => exact iff_of_true (.leaf _) (.leaf _)
  | array ts ih =>
    rw [map_array, wellKeyed_array, wellKeyed_array, List.forall_mem_map]
    exact forall₂_congr ih
  | document es ih =>
    rw [map_document, wellKeyed_document, wellKeyed_document, List.map_map, List.forall_mem_map]
    exact and_congr_right fun _ => forall₂_congr ih

section Merged

variable [DecidableEq κ]

/-- One entry for each key, everywhere. -/
def merged : KeyedTree κ L → KeyedTree κ L := fold leaf array fun es => document (merge es)

@[simp] theorem merged_array (ts : List (KeyedTree κ L)) :
    (array ts).merged = array (ts.map merged) := fold_of_array ..

@[simp] theorem merged_document (es : List (κ × KeyedTree κ L)) :
    (document es).merged = document (merge (es.map fun e => (e.1, e.2.merged))) :=
  fold_of_document ..

theorem wellKeyed_merged (t : KeyedTree κ L) : t.merged.WellKeyed := by
  induction t using induction with
  | leaf l => exact .leaf l
  | array ts ih =>
    rw [merged_array, wellKeyed_array, List.forall_mem_map]
    exact ih
  | document es ih =>
    rw [merged_document]
    refine .document (nodup_merge _) fun e he => ?_
    obtain ⟨c, hc, rfl⟩ := List.mem_map.mp (mem_of_mem_merge he)
    exact ih c hc

theorem WellKeyed.merged_eq {t : KeyedTree κ L} (h : t.WellKeyed) : t.merged = t := by
  induction t using induction with
  | leaf l => rfl
  | array ts ih =>
    rw [merged_array, array.injEq, list_map_eq_self_iff]
    exact fun t ht => ih t ht (wellKeyed_array.mp h t ht)
  | document es ih =>
    obtain ⟨hes, hbelow⟩ := wellKeyed_document.mp h
    have hmap : (es.map fun e => (e.1, e.2.merged)) = es :=
      list_map_eq_self_iff.mpr fun e he => congrArg (Prod.mk e.1) (ih e he (hbelow e he))
    rw [merged_document, hmap, merge_eq_self_iff.mpr hes]

/-- Merging does not look at the leaves. -/
theorem merged_map (f : L → M) (t : KeyedTree κ L) : (t.map f).merged = t.merged.map f := by
  induction t using induction with
  | leaf l => rfl
  | array ts ih =>
    rw [map_array, merged_array, merged_array, map_array, List.map_map, List.map_map]
    exact congrArg array (List.map_congr_left ih)
  | document es ih =>
    rw [map_document, merged_document, merged_document, map_document, ← merge_map_snd,
      List.map_map, List.map_map]
    refine congrArg (fun es => document (merge es)) (List.map_congr_left fun e he => ?_)
    exact congrArg (Prod.mk e.1) (ih e he)

/-- **What a tree that is merged and whose leaves are mapped comes to** is the tree, exactly
where no key is written twice and each leaf is kept. -/
theorem map_merged_eq_self_iff {f : L → L} {t : KeyedTree κ L} :
    t.merged.map f = t ↔ t.WellKeyed ∧ ∀ l ∈ t.leaves, f l = l := by
  constructor
  · intro h
    -- no key is twice in what was merged, and the map keeps the keys
    have hkeyed : t.WellKeyed := h ▸ wellKeyed_map.mpr (wellKeyed_merged t)
    rw [hkeyed.merged_eq] at h
    exact ⟨hkeyed, map_eq_self_iff.mp h⟩
  · intro ⟨hkeyed, hleaves⟩
    rw [hkeyed.merged_eq]
    exact map_eq_self_iff.mpr hleaves

end Merged

end KeyedTree

end RealmCpp.Library
