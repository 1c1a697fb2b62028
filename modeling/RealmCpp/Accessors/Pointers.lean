/-
  RealmCpp.Accessors.Pointers
  ───────────────────────────
  **`db::add` ALONG THE POINTERS OF UNMANAGED OBJECTS.**

  In memory unmanaged objects are a graph: a pointer may be shared, and pointers
  may form a cycle.  The accessors follow every pointer, and keep no record of
  the objects that they have been to.  To a depth of calls they get to the tree
  that the graph unfolds to, if it does:

    • `setObjectAt`, `addAt` — the accessors on a graph,
    • `unfold` — the tree of an object,
    • `addAt_eq` — on a graph that unfolds, `db::add` stores its tree,
    • `exists_unfold_iff` — a graph unfolds where following the pointers ends.
-/
import RealmCpp.Accessors.Detach
import RealmCpp.Library.Termination

namespace RealmCpp.Accessors

open RealmCpp.Library
open RealmCpp.Core

variable {K : DecimalText} {ν : Type}

/-! ## §1. The accessors on a graph. -/

/-- The class and the primary key of an object, if it has one. -/
def keyAt (σ : Schemas) (g : Graph TableKey String Mixed ν) (p : ν) : Option (TableKey × Mixed) :=
  (σ (g.cls p)).primary_key.map fun name => (g.cls p, match g.content p name with
    | (_, .scalar m) :: _ => m
    | _ => .null)

/-- The stored object for an unmanaged one. -/
def createAt (σ : Schemas) (g : Graph TableKey String Mixed ν) (A : Objects) (p : ν) :
    Objects × Ref :=
  match keyAt σ g p with
  | some (t, pk) => A.create_object_with_primary_key t pk
  | none => A.create_object (g.cls p)

section Loops

variable (K) (σ : Schemas) (g : Graph TableKey String Mixed ν)
  (set : Ref → ν → Store → Outcome Store)

/-- The loop of an accessor over its pointers. -/
def setEntriesAt (a : Accessor) (x : Ref) (name : String) :
    Nat → Content Mixed ν → Store → Outcome Store
  | _, [], S => .returned S
  | i, (key, .null) :: es, S => do
      let S₁ ← .ofOption (S.writes (journal x name (a.null key)))
      setEntriesAt a x name (i + 1) es S₁
  | i, (_, .scalar _) :: es, S => setEntriesAt a x name (i + 1) es S
  | i, (key, .object q) :: es, S => do
      let (A, y) := createAt σ g S.toObjects q
      let S₁ ← .ofOption ((S.withObjects A).writes (journal x name (a.before i key y.link)))
      let S₂ ← set y q S₁
      let S₃ ← .ofOption (S₂.writes (journal x name (a.after key y.link)))
      setEntriesAt a x name (i + 1) es S₃

/-- `std::apply` of the accessors over the properties of the class. -/
def setPropertiesAt (x : Ref) (p : ν) : List (String × Kind) → Store → Outcome Store
  | [], S => .returned S
  | (name, k) :: ps, S => do
      let a := k.accessor K σ
      let S₁ ← .ofOption (S.writes (journal x name (a.values (scalars (g.content p name)))))
      let S₂ ← setEntriesAt σ g set a x name 0 (g.content p name) S₁
      setPropertiesAt x p ps S₂

end Loops

/-- The properties of the object `x`, from those of the unmanaged object `p`, to
a depth of calls. -/
def setObjectAt (K : DecimalText) (σ : Schemas) (g : Graph TableKey String Mixed ν) :
    Nat → Ref → ν → Store → Outcome Store
  | 0, _, _, _ => .pending
  | n + 1, x, p, S =>
      setPropertiesAt K σ g (setObjectAt K σ g n) x p (σ (g.cls p)).properties S

/-- `db::add` of the object `p` of the graph, to a depth of calls. -/
def addAt (K : DecimalText) (σ : Schemas) (g : Graph TableKey String Mixed ν) (S : Store) (n : Nat)
    (p : ν) : Outcome (Store × Ref) := do
  let (A, x) := createAt σ g S.toObjects p
  let S' ← setObjectAt K σ g n x p (S.withObjects A)
  .returned (S', x)

/-! ## §2. Unfolding. -/

/-- A slot with the tree behind its pointer. -/
def unfoldSlot (tree : ν → Option Unmanaged) (e : String × Slot Mixed ν) :
    Option (String × Slot Mixed Unmanaged) :=
  match e.2 with
  | .null => some (e.1, .null)
  | .scalar m => some (e.1, .scalar m)
  | .object q => (tree q).map fun u => (e.1, .object u)

/-- **The tree of an object**, to a depth of pointers. -/
def unfold (σ : Schemas) (g : Graph TableKey String Mixed ν) : Nat → ν → Option Unmanaged
  | 0, _ => none
  | n + 1, p => do
      let ps ← (σ (g.cls p)).properties.mapM fun q =>
        ((g.content p q.1).mapM (unfoldSlot (unfold σ g n))).map fun es => (q.1, es)
      some (.node (g.cls p) ps)

section Unfolded

variable {σ : Schemas} {g : Graph TableKey String Mixed ν}

/-- The tree of an object, property by property. -/
theorem unfold_eq_some_iff {n : Nat} {p : ν} {u : Unmanaged} :
    unfold σ g (n + 1) p = some u ↔ u.cls = g.cls p ∧
      List.Forall₂ (fun q r => r.1 = q.1 ∧
        (g.content p q.1).mapM (unfoldSlot (unfold σ g n)) = some r.2)
        (σ (g.cls p)).properties u.props := by
  obtain ⟨t, ps⟩ := u
  have hmap : ∀ (q : String × Kind) (r : String × Content Mixed Unmanaged),
      (((g.content p q.1).mapM (unfoldSlot (unfold σ g n))).map fun es => (q.1, es)) = some r ↔
        r.1 = q.1 ∧ (g.content p q.1).mapM (unfoldSlot (unfold σ g n)) = some r.2 := by
    intro q r
    obtain ⟨name, es⟩ := r
    cases (g.content p q.1).mapM (unfoldSlot (unfold σ g n)) <;> simp [eq_comm]
  show (do
    let ps ← (σ (g.cls p)).properties.mapM fun (q : String × Kind) =>
      ((g.content p q.1).mapM (unfoldSlot (unfold σ g n))).map fun es => (q.1, es)
    some (Unmanaged.node (g.cls p) ps)) = _ ↔ t = g.cls p ∧ List.Forall₂ _ _ ps
  constructor
  · -- `mapM` relates the properties one by one
    intro h
    obtain ⟨ps', hps, hu⟩ := Option.bind_eq_some_iff.mp h
    cases hu
    exact ⟨rfl, List.Forall₂.imp (fun q r hr => (hmap q r).mp hr) (mapM_eq_some_iff.mp hps)⟩
  · rintro ⟨rfl, hps⟩
    refine Option.bind_eq_some_iff.mpr ⟨ps, ?_, rfl⟩
    exact mapM_eq_some_iff.mpr (List.Forall₂.imp (fun q r hr => (hmap q r).mpr hr) hps)

theorem unfold_cls {n : Nat} {p : ν} {u : Unmanaged} (h : unfold σ g n p = some u) :
    u.cls = g.cls p := by
  cases n with
  | zero => cases h
  | succ n => exact (unfold_eq_some_iff.mp h).1

/-- What a property of the tree holds. -/
theorem unfold_content (hσ : σ.WellFormed) {n : Nat} {p : ν} {u : Unmanaged}
    (h : unfold σ g (n + 1) p = some u) {q : String × Kind}
    (hq : q ∈ (σ (g.cls p)).properties) :
    (g.content p q.1).mapM (unfoldSlot (unfold σ g n)) = some (u.content q.1) := by
  obtain ⟨-, hprops⟩ := unfold_eq_some_iff.mp h
  obtain ⟨r, hr, hname, hcontent⟩ := exists_of_mem_forall₂ hprops hq
  have hnames := names_eq_of_forall₂ hprops
  have hlookup : u.props.lookup q.1 = some r.2 := by
    apply lookup_of_mem
    · rw [hnames]
      exact hσ.nodup _
    · rw [← hname]
      exact hr
  rw [hcontent]
  show _ = some ((u.props.lookup q.1).getD [])
  rw [hlookup]
  rfl

theorem scalars_unfoldSlot {tree : ν → Option Unmanaged} {es : Content Mixed ν}
    {es' : Content Mixed Unmanaged} (h : es.mapM (unfoldSlot tree) = some es') :
    scalars es' = scalars es := by
  rw [mapM_eq_some_iff] at h
  induction h with
  | nil => rfl
  | @cons e e' es es' he _ ih =>
    obtain ⟨key, s⟩ := e
    cases s with
    | null =>
      cases he
      exact ih
    | scalar m =>
      cases he
      exact congrArg ((key, m) :: ·) ih
    | object q =>
      obtain ⟨u, -, rfl⟩ := Option.map_eq_some_iff.mp he
      exact ih

/-- An object and its tree have one primary key. -/
theorem unfold_key (hσ : σ.WellFormed) {n : Nat} {p : ν} {u : Unmanaged}
    (h : unfold σ g n p = some u) : keyAt σ g p = u.key σ := by
  cases n with
  | zero => cases h
  | succ n =>
    unfold keyAt Unmanaged.key Unmanaged.value
    rw [unfold_cls h]
    cases hpk : (σ (g.cls p)).primary_key with
    | none => rfl
    | some name =>
      obtain ⟨e, hq⟩ := hσ.primary_key _ _ hpk
      -- the value of the key is read from the same entry in both
      have hcontent := unfold_content hσ h hq
      change (g.content p name).mapM _ = some (u.content name) at hcontent
      rw [mapM_eq_some_iff] at hcontent
      show some (g.cls p, _) = some (g.cls p, _)
      generalize g.content p name = es at hcontent
      generalize u.content name = es' at hcontent
      cases hcontent with
      | nil => rfl
      | @cons e e' es es' he _ =>
        obtain ⟨key, s⟩ := e
        cases s with
        | null =>
          cases he
          rfl
        | scalar m =>
          cases he
          rfl
        | object q =>
          obtain ⟨w, -, rfl⟩ := Option.map_eq_some_iff.mp he
          rfl

theorem createAt_eq (hσ : σ.WellFormed) {n : Nat} {p : ν} {u : Unmanaged}
    (h : unfold σ g n p = some u) (A : Objects) : createAt σ g A p = create σ A u := by
  unfold createAt create
  rw [unfold_key hσ h]
  cases Unmanaged.key σ u with
  | some e => rfl
  | none =>
    show A.create_object (g.cls p) = A.create_object u.cls
    rw [unfold_cls h]

theorem create_table {A : Objects} {u : Unmanaged} : (create σ A u).2.table = u.cls := by
  cases hc : create σ A u with
  | mk A' x =>
    rcases create_cases hc with ⟨-, htable, -⟩ | ⟨-, hrow, -⟩
    · exact htable
    · rw [hrow]

/-- The loop over the pointers of a graph is that over the trees behind them. -/
theorem setEntriesAt_eq {tree : ν → Option Unmanaged} {set : Ref → ν → Store → Outcome Store}
    (hcreate : ∀ q u A, tree q = some u → createAt σ g A q = create σ A u)
    (hset : ∀ q u y S, tree q = some u → y.table = u.cls →
      set y q S = .ofOption (setObject K σ y u S))
    {a : Accessor} {x : Ref} {name : String} {i : Nat} {es : Content Mixed ν}
    {es' : Content Mixed Unmanaged} (h : es.mapM (unfoldSlot tree) = some es') (S : Store) :
    setEntriesAt σ g set a x name i es S = .ofOption (setEntries K σ a x name i es' S) := by
  rw [mapM_eq_some_iff] at h
  induction h generalizing i S with
  | nil => rfl
  | @cons e e' es es' he _ ih =>
    obtain ⟨key, s⟩ := e
    cases s with
    | null =>
      cases he
      show (Outcome.ofOption (S.writes _) >>= fun S₁ => setEntriesAt σ g set a x name (i + 1) es S₁)
        = .ofOption ((S.writes _).bind fun S₁ => setEntries K σ a x name (i + 1) es' S₁)
      simp only [ih, Outcome.ofOption_bind]
    | scalar m =>
      cases he
      exact ih S
    | object q =>
      obtain ⟨u, hu, rfl⟩ := Option.map_eq_some_iff.mp he
      -- both loops create the row, set the object and go on
      have htable : (create σ S.toObjects u).2.table = u.cls := create_table
      rw [setEntriesAt, setEntries, hcreate q u _ hu]
      cases hc : create σ S.toObjects u with
      | mk A y =>
        rw [hc] at htable
        show (_ >>= fun S₁ => set y q S₁ >>= fun S₂ => _ >>= fun S₃ =>
          setEntriesAt σ g set a x name (i + 1) es S₃) = .ofOption (Option.bind _ fun S₁ =>
            (setObject K σ y u S₁).bind fun S₂ => Option.bind _ fun S₃ =>
              setEntries K σ a x name (i + 1) es' S₃)
        simp only [hset q u y _ hu htable, ih, Outcome.ofOption_bind]

/-- Storing the properties of an object is storing those of its tree. -/
theorem setObjectAt_eq (hσ : σ.WellFormed) (n : Nat) : ∀ p u x S, unfold σ g n p = some u →
    x.table = u.cls → setObjectAt K σ g n x p S = .ofOption (setObject K σ x u S) := by
  induction n with
  | zero =>
    intro p u x S h
    cases h
  | succ n ih =>
    intro p u x S h hx
    obtain ⟨hcls, hprops⟩ := unfold_eq_some_iff.mp h
    have hkind : ∀ q ∈ (σ (g.cls p)).properties, σ.kind x.table q.1 = q.2 := by
      intro q hq
      rw [hx, hcls]
      exact hσ.kind hq
    obtain ⟨t, ps⟩ := u
    show setPropertiesAt K σ g (setObjectAt K σ g n) x p (σ (g.cls p)).properties S
      = .ofOption (setProperties K σ x ps S)
    change List.Forall₂ _ _ ps at hprops
    clear h hx hcls
    -- property by property
    generalize (σ (g.cls p)).properties = l at hprops hkind
    induction hprops generalizing S with
    | nil => rfl
    | @cons q r l ps hqr _ ihps =>
      obtain ⟨name, k⟩ := q
      obtain ⟨name', es⟩ := r
      obtain ⟨hname, hes⟩ := hqr
      change name' = name at hname
      subst hname
      rw [setPropertiesAt, setProperties, hkind _ List.mem_cons_self]
      show (_ >>= fun S₁ => setEntriesAt σ g (setObjectAt K σ g n) _ x name' 0 _ S₁ >>= fun S₂ =>
          setPropertiesAt K σ g (setObjectAt K σ g n) x p l S₂)
        = .ofOption (Option.bind _ fun S₁ => (setEntries K σ _ x name' 0 es S₁).bind fun S₂ =>
          setProperties K σ x ps S₂)
      have hentries : ∀ S₁, setEntriesAt σ g (setObjectAt K σ g n) (k.accessor K σ) x name' 0 _ S₁
          = .ofOption (setEntries K σ (k.accessor K σ) x name' 0 es S₁) := fun S₁ =>
        setEntriesAt_eq (fun q u A hu => createAt_eq hσ hu A) ih hes S₁
      rw [scalars_unfoldSlot hes]
      simp only [hentries, ihps _ fun q hq => hkind q (List.mem_cons_of_mem _ hq),
        Outcome.ofOption_bind]

/-- **On a graph that unfolds, `db::add` stores the tree.** -/
theorem addAt_eq (hσ : σ.WellFormed) {n : Nat} {p : ν} {u : Unmanaged}
    (h : unfold σ g n p = some u) (S : Store) : addAt K σ g S n p = .ofOption (add K σ S u) := by
  have htable : (create σ S.toObjects u).2.table = u.cls := create_table
  unfold addAt add
  rw [createAt_eq hσ h]
  cases hc : create σ S.toObjects u with
  | mk A x =>
    rw [hc] at htable
    show (setObjectAt K σ g n x p (S.withObjects A) >>= fun S' => Outcome.returned (S', x))
      = .ofOption ((setObject K σ x u (S.withObjects A)).bind fun S' => some (S', x))
    rw [setObjectAt_eq hσ n p u x _ h htable]
    exact Outcome.ofOption_bind _ fun S' => some (S', x)

end Unfolded

/-! ## §3. Where it ends. -/

section Ends

variable {σ : Schemas} {g : Graph TableKey String Mixed ν}

/-- The loop over the pointers returns only where each object behind them does. -/
theorem mapM_of_setEntriesAt {tree : ν → Option Unmanaged}
    {set : Ref → ν → Store → Outcome Store}
    (hset : ∀ q y S S', set y q S = .returned S' → ∃ u, tree q = some u) {a : Accessor} {x : Ref}
    {name : String} {i : Nat} {es : Content Mixed ν} {S S' : Store}
    (h : setEntriesAt σ g set a x name i es S = .returned S') :
    ∃ es', es.mapM (unfoldSlot tree) = some es' := by
  apply exists_mapM
  induction es generalizing i S with
  | nil =>
    intro e he
    cases he
  | cons e es ih =>
    obtain ⟨key, s⟩ := e
    -- for the other entries, the loop has to come to them
    have hcons : ∀ e', unfoldSlot tree (key, s) = some e' →
        (∃ i S₁, setEntriesAt σ g set a x name i es S₁ = .returned S') →
        ∀ e ∈ (key, s) :: es, ∃ e', unfoldSlot tree e = some e' := by
      intro e' he' ⟨j, S₁, hrest⟩ e he
      rcases List.mem_cons.mp he with rfl | he
      · exact ⟨e', he'⟩
      · exact ih hrest e he
    cases s with
    | null =>
      obtain ⟨S₁, -, hrest⟩ := Outcome.bind_eq_returned_iff.mp h
      exact hcons _ rfl ⟨_, S₁, hrest⟩
    | scalar m => exact hcons _ rfl ⟨_, S, h⟩
    | object q =>
      rw [setEntriesAt] at h
      cases hc : createAt σ g S.toObjects q with
      | mk A y =>
        rw [hc] at h
        obtain ⟨S₁, -, h⟩ := Outcome.bind_eq_returned_iff.mp h
        obtain ⟨S₂, hS₂, h⟩ := Outcome.bind_eq_returned_iff.mp h
        obtain ⟨S₃, -, h⟩ := Outcome.bind_eq_returned_iff.mp h
        obtain ⟨u, hu⟩ := hset q y S₁ S₂ hS₂
        refine hcons (key, .object u) ?_ ⟨_, S₃, h⟩
        show (tree q).map _ = _
        rw [hu]
        rfl

/-- **Where the accessors return, the graph unfolds.** -/
theorem unfold_of_setObjectAt (n : Nat) : ∀ p x S S',
    setObjectAt K σ g n x p S = .returned S' → ∃ u, unfold σ g n p = some u := by
  induction n with
  | zero =>
    intro p x S S' h
    cases h
  | succ n ih =>
    intro p x S S' h
    change setPropertiesAt K σ g (setObjectAt K σ g n) x p (σ (g.cls p)).properties S = _ at h
    have hall : ∀ l S, setPropertiesAt K σ g (setObjectAt K σ g n) x p l S = .returned S' →
        ∀ q ∈ l, ∃ es, (g.content p q.1).mapM (unfoldSlot (unfold σ g n)) = some es := by
      intro l
      induction l with
      | nil =>
        intro S _ q hq
        cases hq
      | cons q l ihl =>
        intro S h q' hq'
        obtain ⟨S₁, -, h⟩ := Outcome.bind_eq_returned_iff.mp h
        obtain ⟨S₂, hS₂, h⟩ := Outcome.bind_eq_returned_iff.mp h
        rcases List.mem_cons.mp hq' with rfl | hq'
        · exact mapM_of_setEntriesAt (fun q y S S' => ih q y S S') hS₂
        · exact ihl S₂ h q' hq'
    obtain ⟨ps, hps⟩ := exists_mapM (l := (σ (g.cls p)).properties) (f := fun q =>
        ((g.content p q.1).mapM (unfoldSlot (unfold σ g n))).map fun es => (q.1, es))
      fun q hq => by
        obtain ⟨es, hes⟩ := hall _ S h q hq
        exact ⟨(q.1, es), by rw [hes]; rfl⟩
    exact ⟨.node (g.cls p) ps, Option.bind_eq_some_iff.mpr ⟨ps, hps, rfl⟩⟩

theorem unfoldSlot_mono {tree tree' : ν → Option Unmanaged}
    (h : ∀ q u, tree q = some u → tree' q = some u) {e : String × Slot Mixed ν}
    {e' : String × Slot Mixed Unmanaged} (he : unfoldSlot tree e = some e') :
    unfoldSlot tree' e = some e' := by
  obtain ⟨key, s⟩ := e
  cases s with
  | null => exact he
  | scalar m => exact he
  | object q =>
    obtain ⟨u, hu, rfl⟩ := Option.map_eq_some_iff.mp he
    exact Option.map_eq_some_iff.mpr ⟨u, h q u hu, rfl⟩

/-- What unfolds to a depth unfolds to a greater one. -/
theorem unfold_succ (n : Nat) : ∀ p u, unfold σ g n p = some u → unfold σ g (n + 1) p = some u := by
  induction n with
  | zero =>
    intro p u h
    cases h
  | succ n ih =>
    intro p u h
    rw [unfold_eq_some_iff] at h ⊢
    refine ⟨h.1, List.Forall₂.imp ?_ h.2⟩
    rintro q r ⟨hname, hes⟩
    rw [mapM_eq_some_iff] at hes ⊢
    exact ⟨hname, List.Forall₂.imp (fun _ _ => unfoldSlot_mono ih) hes⟩

/-- A pointer leads to a smaller tree. -/
theorem unfold_smaller (hσ : σ.WellFormed) (n : Nat) (p : ν) (u : Unmanaged) (q : ν)
    (h : unfold σ g n p = some u) (hpq : Leads σ.fields g p q) :
    ∃ m w, unfold σ g m q = some w ∧ sizeOf w < sizeOf u := by
  cases n with
  | zero => cases h
  | succ n =>
    obtain ⟨f, hf, key, hkey⟩ := hpq
    obtain ⟨k, hk, rfl⟩ := List.mem_map.mp hf
    have hcontent := unfold_content hσ h hk
    obtain ⟨e, he, hslot⟩ := exists_of_mem_forall₂ (mapM_eq_some_iff.mp hcontent) hkey
    obtain ⟨w, hw, rfl⟩ := Option.map_eq_some_iff.mp hslot
    exact ⟨n, w, hw, sizeOf_lt_of_mem (Unmanaged.content_mem_props he) he⟩

/-- **A graph unfolds where following the pointers ends.** -/
theorem exists_unfold_iff (hσ : σ.WellFormed) (p : ν) :
    (∃ n u, unfold σ g n p = some u) ↔ Acc (fun q p => Leads σ.fields g p q) p := by
  constructor
  · rintro ⟨n, u, h⟩
    exact acc_of_size (unfold_smaller hσ) h
  · intro h
    induction h with
    | intro p _ ih =>
      -- each slot of each property unfolds, and so all do at one depth
      have hslot : ∀ q ∈ (σ (g.cls p)).properties, ∀ e ∈ g.content p q.1,
          ∃ n, ∃ e', unfoldSlot (unfold σ g n) e = some e' := by
        rintro q hq ⟨key, s⟩ he
        cases s with
        | null => exact ⟨0, _, rfl⟩
        | scalar m => exact ⟨0, _, rfl⟩
        | object w =>
          obtain ⟨n, u, hu⟩ := ih w ⟨_, mem_fields hq, key, he⟩
          exact ⟨n, _, Option.map_eq_some_iff.mpr ⟨u, hu, rfl⟩⟩
      have hproperty : ∀ q ∈ (σ (g.cls p)).properties, ∃ n, ∀ e ∈ g.content p q.1,
          ∃ e', unfoldSlot (unfold σ g n) e = some e' := fun q hq =>
        exists_common_depth (fun n _ ⟨e', he'⟩ => ⟨e', unfoldSlot_mono (unfold_succ n) he'⟩)
          (hslot q hq)
      obtain ⟨n, hn⟩ := exists_common_depth (fun n _ h e he => by
        obtain ⟨e', he'⟩ := h e he
        exact ⟨e', unfoldSlot_mono (unfold_succ n) he'⟩) hproperty
      obtain ⟨ps, hps⟩ := exists_mapM (l := (σ (g.cls p)).properties) (f := fun q =>
          ((g.content p q.1).mapM (unfoldSlot (unfold σ g n))).map fun es => (q.1, es))
        fun q hq => by
          obtain ⟨es, hes⟩ := exists_mapM (hn q hq)
          exact ⟨(q.1, es), by rw [hes]; rfl⟩
      exact ⟨n + 1, .node (g.cls p) ps, Option.bind_eq_some_iff.mpr ⟨ps, hps, rfl⟩⟩

/-- **`db::add` ends where no cycle of pointers can be reached**, and returns
nowhere else. -/
theorem addAt_ends (hσ : σ.WellFormed) (S : Store) {p : ν}
    (hfin : {q | Relation.ReflTransGen (Leads σ.fields g) p q}.Finite) :
    ((¬ ∃ q, Relation.ReflTransGen (Leads σ.fields g) p q ∧
        Relation.TransGen (Leads σ.fields g) q q) → ∃ n, addAt K σ g S n p ≠ .pending) ∧
      ((∃ q, Relation.ReflTransGen (Leads σ.fields g) p q ∧
        Relation.TransGen (Leads σ.fields g) q q) → ∀ n r, addAt K σ g S n p ≠ .returned r) := by
  constructor
  · intro hno
    obtain ⟨n, u, hu⟩ := (exists_unfold_iff hσ p).mpr ((acc_iff_no_cycle hfin).mpr hno)
    refine ⟨n, ?_⟩
    rw [addAt_eq hσ hu]
    exact Outcome.ofOption_ne_pending _
  · intro hcycle n r hr
    obtain ⟨S', hS', -⟩ := Outcome.bind_eq_returned_iff.mp hr
    obtain ⟨u, hu⟩ := unfold_of_setObjectAt n _ _ _ _ hS'
    exact (acc_iff_no_cycle hfin).mp ((exists_unfold_iff hσ p).mp ⟨n, u, hu⟩) hcycle

end Ends

end RealmCpp.Accessors
