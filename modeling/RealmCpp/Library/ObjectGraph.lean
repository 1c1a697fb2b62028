/-
  RealmCpp.Library.ObjectGraph
  ────────────────────────────
  **OBJECT GRAPHS AND STRUCTURAL EQUALITY.**

  A graph of objects is given by the class of each object and the content of
  each of its fields: values, nulls and references to other objects, under a
  key where the field is a dictionary.  Two objects, of one graph or of two, are
  structurally equal when some simulation relates them: a relation between
  objects of the same class whose fields agree up to the relation.

    • `Shape.Match` — when two fields agree, in order, as a bag or key by key,
    • `Bisimilar` — structural equality, which need not be well-founded,
    • `Bisimilar.refl`, `symm`, `trans`, `Bisimilar.unfold` — an equivalence, and a
      simulation itself.
-/
import RealmCpp.Library.Assoc
import Mathlib.Data.List.Forall2
import Mathlib.Data.List.Perm.Basic

namespace RealmCpp.Library

variable {κ φ μ ν ν' ν'' : Type}

/-! ## §1. Fields. -/

/-- What stands in one place of a field. -/
inductive Slot (μ ν : Type) where
  | null
  | scalar (m : μ)
  | object (y : ν)
  deriving DecidableEq, Repr

/-- The content of a field: its slots, each under a key. -/
abbrev Content (μ ν : Type) := List (String × Slot μ ν)

/-- The slot with another object for each. -/
def Slot.map (f : ν → ν') : Slot μ ν → Slot μ ν'
  | null => null
  | scalar m => scalar m
  | object y => object (f y)

/-- The content with another object for each. -/
def Content.mapObjects (f : ν → ν') (c : Content μ ν) : Content μ ν' :=
  c.map fun e => (e.1, e.2.map f)

/-- The objects among the slots. -/
def objects : Content μ ν → List ν
  | [] => []
  | (_, .object y) :: c => y :: objects c
  | _ :: c => objects c

theorem mem_objects {c : Content μ ν} {y : ν} :
    y ∈ objects c ↔ ∃ key, (key, .object y) ∈ c := by
  induction c with
  | nil => simp [objects]
  | cons e c ih =>
    obtain ⟨j, s⟩ := e
    cases s <;> simp [objects, ih, exists_or]

theorem objects_mapObjects (f : ν → ν') (c : Content μ ν) :
    objects (c.mapObjects f) = (objects c).map f := by
  induction c with
  | nil => rfl
  | cons e c ih =>
    obtain ⟨key, s⟩ := e
    cases s with
    | null => exact ih
    | scalar m => exact ih
    | object y => exact congrArg (f y :: ·) ih

theorem objects_perm {c c' : Content μ ν} (h : c.Perm c') : (objects c).Perm (objects c') := by
  have hfilter : ∀ d : Content μ ν, objects d = d.filterMap fun e =>
      match e.2 with
      | .object y => some y
      | _ => none := by
    intro d
    induction d with
    | nil => rfl
    | cons e d ih =>
      obtain ⟨key, s⟩ := e
      cases s with
      | null => exact ih
      | scalar m => exact ih
      | object y => exact congrArg (y :: ·) ih
  rw [hfilter, hfilter]
  exact h.filterMap _

/-- Slots that are the same up to a relation of objects. -/
inductive Slot.Rel (R : ν → ν' → Prop) : Slot μ ν → Slot μ ν' → Prop where
  | null : Slot.Rel R .null .null
  | scalar (m : μ) : Slot.Rel R (.scalar m) (.scalar m)
  | object {x : ν} {y : ν'} (h : R x y) : Slot.Rel R (.object x) (.object y)

/-- How the contents of two fields are compared: in order, as a bag, or key by key. -/
inductive Shape where
  | sequence
  | bag
  | keyed
  deriving DecidableEq, Repr

/-- The slots of a content, in order. -/
def Ordered (R : ν → ν' → Prop) : Content μ ν → Content μ ν' → Prop :=
  List.Forall₂ fun a b => Slot.Rel R a.2 b.2

/-- **Contents that are the same** up to a relation of objects. -/
def Shape.Match (R : ν → ν' → Prop) : Shape → Content μ ν → Content μ ν' → Prop
  | sequence, c, c' => Ordered R c c'
  | bag, c, c' => ∃ d, c.Perm d ∧ Ordered R d c'
  | keyed, c, c' => ∀ k, Option.Rel (Slot.Rel R) (c.lookup k) (c'.lookup k)

section Match

variable {R R' : ν → ν' → Prop}

theorem Slot.Rel.mono (h : ∀ x y, R x y → R' x y) {a : Slot μ ν} {b : Slot μ ν'}
    (hab : Slot.Rel R a b) : Slot.Rel R' a b := by
  cases hab with
  | null => exact .null
  | scalar m => exact .scalar m
  | object hxy => exact .object (h _ _ hxy)

theorem Slot.Rel.flip {a : Slot μ ν} {b : Slot μ ν'} (h : Slot.Rel R a b) :
    Slot.Rel (fun y x => R x y) b a := by
  cases h with
  | null => exact .null
  | scalar m => exact .scalar m
  | object hxy => exact .object hxy

theorem Slot.Rel.comp {S : ν' → ν'' → Prop} {a : Slot μ ν} {b : Slot μ ν'} {c : Slot μ ν''}
    (hab : Slot.Rel R a b) (hbc : Slot.Rel S b c) :
    Slot.Rel (fun x z => ∃ y, R x y ∧ S y z) a c := by
  cases hab with
  | null => cases hbc; exact .null
  | scalar m => cases hbc; exact .scalar m
  | object hxy =>
    cases hbc with
    | object hyz => exact .object ⟨_, hxy, hyz⟩

theorem Slot.Rel.refl {R : ν → ν → Prop} (h : ∀ x, R x x) (a : Slot μ ν) : Slot.Rel R a a := by
  cases a with
  | null => exact .null
  | scalar m => exact .scalar m
  | object y => exact .object (h y)

/-- A slot that is the same as a null one is null. -/
theorem Slot.Rel.eq_null_of_right {a : Slot μ ν} (h : Slot.Rel R a (.null : Slot μ ν')) :
    a = .null := by
  cases h
  rfl

theorem Slot.Rel.eq_null_of_left {b : Slot μ ν'} (h : Slot.Rel R (.null : Slot μ ν) b) :
    b = .null := by
  cases h
  rfl

theorem Ordered.mono (h : ∀ x y, R x y → R' x y) {c : Content μ ν} {c' : Content μ ν'}
    (hcc : Ordered R c c') : Ordered R' c c' :=
  List.Forall₂.imp (fun _ _ => Slot.Rel.mono h) hcc

theorem Ordered.flip {c : Content μ ν} {c' : Content μ ν'} (h : Ordered R c c') :
    Ordered (fun y x => R x y) c' c :=
  List.Forall₂.flip (List.Forall₂.imp (fun _ _ => Slot.Rel.flip) h)

theorem Ordered.comp {S : ν' → ν'' → Prop} {c : Content μ ν} {c' : Content μ ν'}
    {c'' : Content μ ν''} (h : Ordered R c c') (h' : Ordered S c' c'') :
    Ordered (fun x z => ∃ y, R x y ∧ S y z) c c'' := by
  induction h generalizing c'' with
  | nil => cases h'; exact .nil
  | cons hab _ ih =>
    cases h' with
    | cons hbc hrest => exact .cons (hab.comp hbc) (ih hrest)

/-- A bag can be rearranged on either side. -/
theorem Ordered.perm {c : Content μ ν} {c' d' : Content μ ν'} (h : Ordered R c c')
    (hp : c'.Perm d') : ∃ d, c.Perm d ∧ Ordered R d d' := by
  obtain ⟨d, hd, hperm⟩ := List.perm_comp_forall₂ hp.symm h.flip
  exact ⟨d, hperm.symm, Ordered.flip hd⟩

theorem Shape.Match.mono (h : ∀ x y, R x y → R' x y) {s : Shape} {c : Content μ ν}
    {c' : Content μ ν'} (hcc : s.Match R c c') : s.Match R' c c' := by
  cases s with
  | sequence => exact Ordered.mono h hcc
  | bag =>
    obtain ⟨d, hp, hd⟩ := hcc
    exact ⟨d, hp, hd.mono h⟩
  | keyed =>
    intro k
    have hk := hcc k
    revert hk
    cases c.lookup k <;> cases c'.lookup k <;> intro hk <;> cases hk
    · exact .none
    · next hab => exact .some (hab.mono h)

theorem Shape.Match.flip {s : Shape} {c : Content μ ν} {c' : Content μ ν'}
    (h : s.Match R c c') : s.Match (fun y x => R x y) c' c := by
  cases s with
  | sequence => exact Ordered.flip h
  | bag =>
    obtain ⟨d, hp, hd⟩ := h
    exact hd.flip.perm hp.symm
  | keyed =>
    intro k
    have hk := h k
    revert hk
    cases c.lookup k <;> cases c'.lookup k <;> intro hk <;> cases hk
    · exact .none
    · next hab => exact .some hab.flip

theorem Shape.Match.comp {S : ν' → ν'' → Prop} {s : Shape} {c : Content μ ν}
    {c' : Content μ ν'} {c'' : Content μ ν''} (h : s.Match R c c') (h' : s.Match S c' c'') :
    s.Match (fun x z => ∃ y, R x y ∧ S y z) c c'' := by
  cases s with
  | sequence => exact Ordered.comp h h'
  | bag =>
    obtain ⟨d, hp, hd⟩ := h
    obtain ⟨d', hp', hd'⟩ := h'
    obtain ⟨d₁, hp₁, hd₁⟩ := hd.perm hp'
    exact ⟨d₁, hp.trans hp₁, hd₁.comp hd'⟩
  | keyed =>
    intro k
    have hk := h k
    have hk' := h' k
    revert hk hk'
    cases c.lookup k <;> cases c'.lookup k <;> cases c''.lookup k <;> intro hk hk' <;>
      cases hk <;> cases hk'
    · exact .none
    · next hab hbc => exact .some (hab.comp hbc)

theorem Shape.Match.refl {R : ν → ν → Prop} (h : ∀ x, R x x) (s : Shape) (c : Content μ ν) :
    s.Match R c c := by
  have hordered : Ordered R c c := by
    unfold Ordered
    induction c with
    | nil => exact .nil
    | cons a c ih => exact .cons (Slot.Rel.refl h a.2) ih
  cases s with
  | sequence => exact hordered
  | bag => exact ⟨c, .refl c, hordered⟩
  | keyed =>
    intro k
    cases c.lookup k with
    | none => exact .none
    | some a => exact .some (Slot.Rel.refl h a)

/-- **One content under two names of its objects.** -/
theorem Shape.Match.of_mapObjects {f : ν'' → ν} {g : ν'' → ν'} (s : Shape) (c : Content μ ν'')
    (h : ∀ key y, (key, .object y) ∈ c → R (f y) (g y)) :
    s.Match R (c.mapObjects f) (c.mapObjects g) := by
  have hslot : ∀ e ∈ c, Slot.Rel R (e.2.map f) (e.2.map g) := by
    intro e he
    obtain ⟨key, a⟩ := e
    cases a with
    | null => exact .null
    | scalar m => exact .scalar m
    | object y => exact .object (h key y he)
  have hordered : Ordered R (c.mapObjects f) (c.mapObjects g) := by
    unfold Ordered Content.mapObjects
    clear h
    induction c with
    | nil => exact .nil
    | cons e c ih =>
      exact .cons (hslot e List.mem_cons_self) (ih fun e he => hslot e (List.mem_cons_of_mem _ he))
  cases s with
  | sequence => exact hordered
  | bag => exact ⟨_, .refl _, hordered⟩
  | keyed =>
    intro k
    unfold Content.mapObjects
    rw [lookup_map_snd, lookup_map_snd]
    cases hk : c.lookup k with
    | none => exact .none
    | some a => exact .some (hslot (k, a) (mem_of_lookup hk))

/-- **Contents that are the same entry by entry** are the same in every way. -/
theorem Shape.Match.of_forall₂ (s : Shape) {c : Content μ ν} {c' : Content μ ν'}
    (h : List.Forall₂ (fun a b => a.1 = b.1 ∧ Slot.Rel R a.2 b.2) c c') : s.Match R c c' := by
  have hordered : Ordered R c c' := List.Forall₂.imp (fun _ _ hab => hab.2) h
  cases s with
  | sequence => exact hordered
  | bag => exact ⟨c, .refl c, hordered⟩
  | keyed =>
    intro k
    clear hordered
    induction h with
    | nil => exact .none
    | @cons a b _ _ hab _ ih =>
      obtain ⟨key, s⟩ := a
      obtain ⟨key', s'⟩ := b
      obtain ⟨hkey, hs⟩ := hab
      change key = key' at hkey
      subst hkey
      rw [List.lookup_cons, List.lookup_cons]
      cases k == key with
      | true => exact .some hs
      | false => exact ih

/-- Each element of related lists has its counterpart. -/
theorem exists_of_mem_forall₂ {α β : Type} {Q : α → β → Prop} {as : List α} {bs : List β}
    (h : List.Forall₂ Q as bs) {a : α} (ha : a ∈ as) : ∃ b ∈ bs, Q a b := by
  induction h with
  | nil => cases ha
  | cons hab _ ih =>
    rcases List.mem_cons.mp ha with rfl | ha
    · exact ⟨_, List.mem_cons_self, hab⟩
    · obtain ⟨b, hb, hrel⟩ := ih ha
      exact ⟨b, List.mem_cons_of_mem _ hb, hrel⟩

/-- Nothing is repeated where nothing is repeated on the other side, and what
is given the same name is one. -/
theorem nodup_map_of_forall₂ {α β γ : Type} {Q : α → β → Prop} {f : β → γ} {as : List α}
    {bs : List β} (h : List.Forall₂ Q as bs) (has : as.Nodup)
    (hf : ∀ a ∈ as, ∀ a' ∈ as, ∀ b ∈ bs, ∀ b' ∈ bs, Q a b → Q a' b' → f b = f b' → a = a') :
    (bs.map f).Nodup := by
  induction h with
  | nil => exact List.nodup_nil
  | @cons a b as bs hab hrest ih =>
    obtain ⟨ha, has⟩ := List.nodup_cons.mp has
    rw [List.map_cons, List.nodup_cons]
    constructor
    · intro hmem
      obtain ⟨b', hb', heq⟩ := List.mem_map.mp hmem
      obtain ⟨a', ha', hab'⟩ := exists_of_mem_forall₂ hrest.flip hb'
      have haa := hf a List.mem_cons_self a' (List.mem_cons_of_mem _ ha') b List.mem_cons_self b'
        (List.mem_cons_of_mem _ hb') hab hab' heq.symm
      rw [haa] at ha
      exact ha ha'
    · apply ih has
      intro a₁ ha₁ a₂ ha₂ b₁ hb₁ b₂ hb₂
      exact hf a₁ (List.mem_cons_of_mem _ ha₁) a₂ (List.mem_cons_of_mem _ ha₂) b₁
        (List.mem_cons_of_mem _ hb₁) b₂ (List.mem_cons_of_mem _ hb₂)

/-- Each slot has its counterpart, where keys do not repeat. -/
theorem Shape.Match.exists_of_mem {s : Shape} {c : Content μ ν} {c' : Content μ ν'}
    (hs : s = .keyed → (c.map Prod.fst).Nodup) (h : s.Match R c c') {a : String × Slot μ ν}
    (ha : a ∈ c) : ∃ b ∈ c', Slot.Rel R a.2 b.2 := by
  cases s with
  | sequence => exact exists_of_mem_forall₂ h ha
  | bag =>
    obtain ⟨d, hp, hd⟩ := h
    exact exists_of_mem_forall₂ hd (hp.subset ha)
  | keyed =>
    have hk := h a.1
    rw [lookup_of_mem (hs rfl) ha] at hk
    cases hl : c'.lookup a.1 with
    | none =>
      rw [hl] at hk
      cases hk
    | some b =>
      rw [hl] at hk
      cases hk with
      | some hab => exact ⟨(a.1, b), mem_of_lookup hl, hab⟩

theorem Ordered.of_mem {c : Content μ ν} {c' : Content μ ν'} (h : Ordered R c c') :
    Ordered (fun x y => R x y ∧ y ∈ objects c') c c' := by
  induction h with
  | nil => exact .nil
  | @cons a b c c' hab hrest ih =>
    obtain ⟨key, s⟩ := a
    obtain ⟨key', s'⟩ := b
    have hsub : ∀ y ∈ objects c', y ∈ objects ((key', s') :: c') := by
      intro y hy
      obtain ⟨j, hj⟩ := mem_objects.mp hy
      exact mem_objects.mpr ⟨j, List.mem_cons_of_mem _ hj⟩
    refine .cons ?_ (ih.mono fun x y hxy => ⟨hxy.1, hsub y hxy.2⟩)
    cases hab with
    | null => exact .null
    | scalar m => exact .scalar m
    | object hxy => exact .object ⟨hxy, List.mem_cons_self⟩

/-- Only the objects of the contents are compared. -/
theorem Shape.Match.of_mem {s : Shape} {c : Content μ ν} {c' : Content μ ν'}
    (h : s.Match R c c') : s.Match (fun x y => R x y ∧ y ∈ objects c') c c' := by
  cases s with
  | sequence => exact Ordered.of_mem h
  | bag =>
    obtain ⟨d, hp, hd⟩ := h
    exact ⟨d, hp, hd.of_mem⟩
  | keyed =>
    intro k
    have hk := h k
    revert hk
    cases c.lookup k <;> cases hl : c'.lookup k <;> intro hk <;> cases hk
    · exact .none
    · next hab =>
      refine .some ?_
      cases hab with
      | null => exact .null
      | scalar m => exact .scalar m
      | object hxy => exact .object ⟨hxy, mem_objects.mpr ⟨k, mem_of_lookup hl⟩⟩

/-- The objects of ordered contents, one by one. -/
theorem Ordered.objects {c : Content μ ν} {c' : Content μ ν'} (h : Ordered R c c') :
    List.Forall₂ R (objects c) (objects c') := by
  induction h with
  | nil => exact .nil
  | @cons a b c c' hab _ ih =>
    obtain ⟨key, s⟩ := a
    obtain ⟨key', s'⟩ := b
    cases hab with
    | null => exact ih
    | scalar m => exact ih
    | object hxy => exact .cons hxy ih

/-- Ordered contents are of one length. -/
theorem Shape.Match.length_eq {s : Shape} {c : Content μ ν} {c' : Content μ ν'}
    (hs : s ≠ .keyed) (h : s.Match R c c') : c.length = c'.length := by
  cases s with
  | sequence => exact List.Forall₂.length_eq h
  | bag =>
    obtain ⟨d, hp, hd⟩ := h
    exact hp.length_eq.trans (List.Forall₂.length_eq hd)
  | keyed => exact absurd rfl hs

end Match

/-! ## §2. Graphs. -/

/-- A graph of objects. -/
structure Graph (κ φ μ ν : Type) where
  cls : ν → κ
  content : ν → φ → Content μ ν

variable (fields : κ → List (φ × Shape))

/-- An object has another one in a field. -/
def Leads (g : Graph κ φ μ ν) (x y : ν) : Prop :=
  ∃ f ∈ fields (g.cls x), ∃ key, (key, .object y) ∈ g.content x f.1

/-- A relation of objects of the same class, whose fields agree up to it. -/
def Simulation (g : Graph κ φ μ ν) (h : Graph κ φ μ ν') (R : ν → ν' → Prop) : Prop :=
  ∀ x y, R x y → g.cls x = h.cls y ∧
    ∀ f ∈ fields (g.cls x), f.2.Match R (g.content x f.1) (h.content y f.1)

/-- **Structural equality** of two objects. -/
def Bisimilar (g : Graph κ φ μ ν) (h : Graph κ φ μ ν') (x : ν) (y : ν') : Prop :=
  ∃ R, Simulation fields g h R ∧ R x y

variable {fields} {g : Graph κ φ μ ν} {h : Graph κ φ μ ν'} {k : Graph κ φ μ ν''}

/-- Structural equality is a simulation. -/
theorem Bisimilar.unfold {x : ν} {y : ν'} (hxy : Bisimilar fields g h x y) :
    g.cls x = h.cls y ∧
      ∀ f ∈ fields (g.cls x), f.2.Match (Bisimilar fields g h) (g.content x f.1) (h.content y f.1) := by
  obtain ⟨R, hR, hr⟩ := hxy
  obtain ⟨hcls, hfields⟩ := hR x y hr
  refine ⟨hcls, fun f hf => ?_⟩
  exact (hfields f hf).mono fun a b hab => ⟨R, hR, hab⟩

theorem Bisimilar.cls_eq {x : ν} {y : ν'} (hxy : Bisimilar fields g h x y) : g.cls x = h.cls y :=
  hxy.unfold.1

theorem Bisimilar.content {x : ν} {y : ν'} (hxy : Bisimilar fields g h x y) {f : φ × Shape}
    (hf : f ∈ fields (g.cls x)) :
    f.2.Match (Bisimilar fields g h) (g.content x f.1) (h.content y f.1) :=
  hxy.unfold.2 f hf

/-- Objects of one class with structurally equal fields. -/
theorem Bisimilar.intro {x : ν} {y : ν'} (hcls : g.cls x = h.cls y)
    (hfields : ∀ f ∈ fields (g.cls x),
      f.2.Match (Bisimilar fields g h) (g.content x f.1) (h.content y f.1)) :
    Bisimilar fields g h x y := by
  refine ⟨fun a b => (a = x ∧ b = y) ∨ Bisimilar fields g h a b, ?_, .inl ⟨rfl, rfl⟩⟩
  rintro a b (⟨rfl, rfl⟩ | hab)
  · exact ⟨hcls, fun f hf => (hfields f hf).mono fun _ _ => .inr⟩
  · exact ⟨hab.cls_eq, fun f hf => (hab.content hf).mono fun _ _ => .inr⟩

theorem Bisimilar.refl (x : ν) : Bisimilar fields g g x x := by
  refine ⟨Eq, ?_, rfl⟩
  intro x y hxy
  subst hxy
  exact ⟨rfl, fun f _ => Shape.Match.refl (fun _ => rfl) f.2 _⟩

theorem Bisimilar.symm {x : ν} {y : ν'} (hxy : Bisimilar fields g h x y) :
    Bisimilar fields h g y x := by
  refine ⟨fun y x => Bisimilar fields g h x y, ?_, hxy⟩
  intro y x hyx
  refine ⟨hyx.cls_eq.symm, fun f hf => ?_⟩
  rw [← hyx.cls_eq] at hf
  exact (hyx.content hf).flip

theorem Bisimilar.trans {x : ν} {y : ν'} {z : ν''} (hxy : Bisimilar fields g h x y)
    (hyz : Bisimilar fields h k y z) : Bisimilar fields g k x z := by
  refine ⟨fun x z => ∃ y, Bisimilar fields g h x y ∧ Bisimilar fields h k y z, ?_, y, hxy, hyz⟩
  intro x z ⟨y, hxy, hyz⟩
  refine ⟨hxy.cls_eq.trans hyz.cls_eq, fun f hf => ?_⟩
  have hf' : f ∈ fields (h.cls y) := by rw [← hxy.cls_eq]; exact hf
  exact (hxy.content hf).comp (hyz.content hf')

end RealmCpp.Library
