/-
  RealmCpp.Accessors.Termination
  ──────────────────────────────
  **WHERE COPYING AN OBJECT GRAPH ENDS.**

  `db::add` follows the pointers of unmanaged objects, `detach` the links of
  stored ones.  Neither keeps a record of where it has been, so that each of
  them ends where no cycle can be reached, and returns nowhere else.

    • `detachRun` — `detach` to a depth of calls, running and raising apart,
    • `NullFree` — no null link behind an object,
    • `detachRun_ends` — where `detach` ends,
    • `copying_ends` — both copies.
-/
import RealmCpp.Accessors.Pointers
import RealmCpp.Accessors.RoundTrip

namespace RealmCpp.Accessors

open RealmCpp.Library
open RealmCpp.Core

variable {K : DecimalText}

/-! ## §1. `detach`, running and raising apart. -/

/-- The object behind an entry of a column. -/
def detachEntryRun (run : TableKey → Ref → Outcome Unmanaged) (T : TableKey)
    (e : String × Mixed) : Outcome (String × Slot Mixed Unmanaged) :=
  match e.2 with
  | .link t key => (fun u => (e.1, .object u)) <$> run T ⟨t, key⟩
  | _ => .raised

/-- `detach` of a property of the object `x`, from its column. -/
def detachKindRun (run : TableKey → Ref → Outcome Unmanaged) (x : Ref) (k : Kind) (c : Cell) :
    Outcome (Content Mixed Unmanaged) :=
  match k with
  | .link T =>
      match c with
      | [(_, .link t key)] => (fun u => [("", .object u)]) <$> run T ⟨t, key⟩
      | _ => (fun u => [("", .object u)]) <$> run T x
  | .list_link T | .set_link T | .dictionary_link T => c.mapM (detachEntryRun run T)
  | k => .ofOption (detachKind (fun _ _ => none) x k c)

/-- The object `x` as one of the class `t`, to a depth of calls. -/
def detachRun (σ : Schemas) (S : Store) : Nat → TableKey → Ref → Outcome Unmanaged
  | 0, _, _ => .pending
  | n + 1, t, x => do
      let ps ← (σ t).properties.mapM fun p =>
        if ((σ x.table).properties.lookup p.1).any p.2.sameColumn then
          (fun c => (p.1, c)) <$> detachKindRun (detachRun σ S n) x p.2 (S.cell x p.1)
        else .raised
      .returned (.node t ps)

section Run

variable {run : TableKey → Ref → Outcome Unmanaged} {x : Ref}

theorem detachEntryRun_toOption (T : TableKey) (e : String × Mixed) :
    (detachEntryRun run T e).toOption = detachEntry (fun t y => (run t y).toOption) T e := by
  obtain ⟨key, m⟩ := e
  cases m with
  | link t j => exact Outcome.toOption_map _ _
  | _ => rfl

theorem detachKindRun_toOption (k : Kind) (c : Cell) :
    (detachKindRun run x k c).toOption =
      detachKind (fun t y => (run t y).toOption) x k c := by
  have hentries : ∀ T, (c.mapM (detachEntryRun run T)).toOption
      = c.mapM (detachEntry (fun t y => (run t y).toOption) T) := by
    intro T
    rw [Outcome.toOption_mapM]
    congr 1
    funext e
    exact detachEntryRun_toOption T e
  cases k with
  | link T =>
    rcases c with _ | ⟨⟨key, m⟩, _ | ⟨e, c⟩⟩
    · exact Outcome.toOption_map _ _
    · cases m with
      | link t j => exact Outcome.toOption_map _ _
      | _ => exact Outcome.toOption_map _ _
    · cases m <;> exact Outcome.toOption_map _ _
  | list_link T => exact hentries T
  | set_link T => exact hentries T
  | dictionary_link T => exact hentries T
  | set e =>
    show (Outcome.ofOption (if e.optional = true then _ else _)).toOption
      = if e.optional = true then _ else _
    by_cases hoptional : e.optional = true
    · simp only [hoptional, if_true]
      rfl
    · simp only [hoptional]
      rfl
  | _ => rfl

/-- What `detach` returns is what comes back. -/
theorem detachRun_toOption (σ : Schemas) (S : Store) (n : Nat) : ∀ t x,
    (detachRun σ S n t x).toOption = detachAs σ S n t x := by
  induction n with
  | zero =>
    intro t x
    rfl
  | succ n ih =>
    intro t x
    have hbelow : (fun t y => (detachRun σ S n t y).toOption) = detachAs σ S n := by
      funext t y
      exact ih t y
    unfold detachRun detachAs
    rw [Outcome.toOption_bind, Outcome.toOption_mapM]
    show Option.bind _ (fun ps => some _) = Option.bind _ fun ps => some _
    congr 2
    funext p
    split
    · rw [Outcome.toOption_map, detachKindRun_toOption, hbelow]
    · rfl

theorem detachKindRun_le {run' : TableKey → Ref → Outcome Unmanaged}
    (h : ∀ t y, Outcome.Le (run t y) (run' t y)) (k : Kind) (c : Cell) :
    Outcome.Le (detachKindRun run x k c) (detachKindRun run' x k c) := by
  have hentry : ∀ T e, Outcome.Le (detachEntryRun run T e) (detachEntryRun run' T e) := by
    intro T e
    unfold detachEntryRun
    split
    · exact (h _ _).map _
    · exact .refl _
  cases k with
  | link T =>
    simp only [detachKindRun]
    split
    · exact (h _ _).map _
    · exact (h _ _).map _
  | list_link T => exact .mapM (hentry T) c
  | set_link T => exact .mapM (hentry T) c
  | dictionary_link T => exact .mapM (hentry T) c
  | _ => exact .refl _

/-- What `detach` comes to, it comes to at a greater depth as well. -/
theorem detachRun_succ (σ : Schemas) (S : Store) (n : Nat) : ∀ t x,
    Outcome.Le (detachRun σ S n t x) (detachRun σ S (n + 1) t x) := by
  induction n with
  | zero =>
    intro t x h
    exact absurd rfl h
  | succ n ih =>
    intro t x
    rw [detachRun, detachRun]
    refine Outcome.Le.bind (Outcome.Le.mapM (fun p => ?_) _) fun ps => .refl _
    split
    · exact (detachKindRun_le ih p.2 _).map _
    · exact .refl _

end Run

/-! ## §2. Where it ends. -/

/-- **No null link** in the objects that can be reached from `x`. -/
def NullFree (σ : Schemas) (S : Store) (x : Ref) : Prop :=
  ∀ y, Relation.ReflTransGen (Leads σ.fields (managed σ S)) x y →
    ∀ p ∈ (σ y.table).properties, ∀ T, p.2 = .link T → S.cell y p.1 ≠ Cell.one .null

section Ends

variable {σ : Schemas} {S : Store} {x y : Ref}

/-- What a link in a column leads to. -/
theorem leads_of_mem (hσ : σ.WellFormed) {p : String × Kind} (hp : p ∈ (σ x.table).properties)
    {T : TableKey} (hk : p.2.target = some T) {key : String}
    (h : (key, y.link) ∈ S.cell x p.1) : Leads σ.fields (managed σ S) x y := by
  refine ⟨_, mem_fields hp, key, ?_⟩
  show (key, _) ∈ (σ.kind x.table p.1).view (S.cell x p.1)
  rw [hσ.kind hp, ← slot_link hk y]
  exact List.mem_map_of_mem (f := fun e => (e.1, p.2.slot e.2)) h

/-- An object that is led to stands in a column, as a link. -/
theorem exists_mem_of_leads (hσ : σ.WellFormed) (h : Leads σ.fields (managed σ S) x y) :
    ∃ p ∈ (σ x.table).properties, ∃ T, p.2.target = some T ∧
      ∃ key, (key, y.link) ∈ S.cell x p.1 := by
  obtain ⟨f, hf, key, hkey⟩ := h
  obtain ⟨p, hp, rfl⟩ := List.mem_map.mp hf
  change p ∈ (σ x.table).properties at hp
  change (key, Slot.object y) ∈ (σ.kind x.table p.1).view (S.cell x p.1) at hkey
  rw [hσ.kind hp] at hkey
  obtain ⟨e, he, heq⟩ := List.mem_map.mp hkey
  obtain ⟨-, hslot⟩ := Prod.mk.inj heq
  unfold Kind.slot at hslot
  cases hk : p.2.target with
  | none =>
    rw [hk] at hslot
    cases hslot
  | some T =>
    rw [hk] at hslot
    obtain ⟨j, m⟩ := e
    cases m with
    | link t i =>
      cases hslot
      exact ⟨p, hp, T, hk, j, he⟩
    | _ => cases hslot

theorem linkTo_of_stored {A : Objects} {k : Kind} {T : TableKey} {c : Cell} (h : k.Stored A c)
    (hk : k.target = some T) {key : String} (hmem : (key, y.link) ∈ c) :
    y.table = T ∧ A.live y = true := by
  -- a link is to the row that it names
  have hlink : LinkTo A T y.link → y.table = T ∧ A.live y = true := by
    rintro ⟨z, htable, hlive, hz⟩
    rw [Ref.link_inj.mp hz]
    exact ⟨htable, hlive⟩
  have hnull : y.link ≠ .null := fun h => Mixed.noConfusion h
  cases k with
  | link T' =>
    cases hk
    obtain ⟨m, rfl, hm⟩ := h
    have heq := List.mem_singleton.mp hmem
    cases heq
    exact hlink (hm.resolve_left hnull)
  | list_link T' =>
    cases hk
    exact hlink (h _ hmem).2
  | set_link T' =>
    cases hk
    exact hlink (h.1 _ hmem).2
  | dictionary_link T' =>
    cases hk
    exact hlink ((h.1 _ hmem).resolve_left hnull)
  | _ => cases hk

/-- Links lead to live objects. -/
theorem live_of_leads (hσ : σ.WellFormed) (hS : Store.WellFormed σ S)
    (h : Leads σ.fields (managed σ S) x y) : S.live y = true := by
  obtain ⟨p, hp, T, hk, key, hkey⟩ := exists_mem_of_leads hσ h
  exact (linkTo_of_stored (hS.stored x p hp) hk hkey).2

/-- Finitely many objects can be reached in a store with finitely many. -/
theorem reachable_finite (hσ : σ.WellFormed) (hS : Store.WellFormed σ S)
    (hfin : {y | S.live y = true}.Finite) (hx : S.live x = true) :
    {y | Relation.ReflTransGen (Leads σ.fields (managed σ S)) x y}.Finite := by
  apply hfin.subset
  intro y hy
  cases hy with
  | refl => exact hx
  | tail _ hlast => exact live_of_leads hσ hS hlast

theorem detachEntryRun_ne_pending {run : TableKey → Ref → Outcome Unmanaged} {T : TableKey}
    {e : String × Mixed} (h : ∀ y : Ref, e.2 = y.link → run T y ≠ .pending) :
    detachEntryRun run T e ≠ .pending := by
  obtain ⟨key, m⟩ := e
  cases m with
  | link t j => exact Outcome.map_ne_pending _ (h ⟨t, j⟩ rfl)
  | _ => exact Outcome.raised_ne_pending

/-- A property ends where the objects behind its links do. -/
theorem exists_detachKindRun {A : Objects} {k : Kind} {c : Cell} (hc : k.Stored A c)
    (hnull : ∀ T, k = .link T → c ≠ Cell.one .null)
    (hlinks : ∀ T, k.target = some T → ∀ key (y : Ref), (key, y.link) ∈ c →
      ∃ n, detachRun σ S n T y ≠ .pending) :
    ∃ n, detachKindRun (detachRun σ S n) x k c ≠ .pending := by
  have hentries : ∀ T, k.target = some T →
      ∃ n, c.mapM (detachEntryRun (detachRun σ S n) T) ≠ .pending := by
    intro T hk
    have hentry : ∀ e ∈ c, ∃ n, ∀ y : Ref, e.2 = y.link → detachRun σ S n T y ≠ .pending := by
      rintro ⟨key, m⟩ he
      cases m with
      | link t j =>
        obtain ⟨n, hn⟩ := hlinks T hk key ⟨t, j⟩ he
        refine ⟨n, fun y hy => ?_⟩
        rw [← Ref.link_inj.mp (show Ref.link ⟨t, j⟩ = y.link from hy)]
        exact hn
      | _ => exact ⟨0, fun y hy => Mixed.noConfusion hy⟩
    -- the loop ends at a depth at which each round does
    obtain ⟨n, hn⟩ := exists_common_depth
      (fun n e h y hy => (detachRun_succ σ S n T y).ne_pending (h y hy)) hentry
    exact ⟨n, Outcome.mapM_ne_pending fun e he => detachEntryRun_ne_pending (hn e he)⟩
  cases k with
  | link T =>
    obtain ⟨m, rfl, hm⟩ := hc
    rcases hm with rfl | ⟨y, -, -, rfl⟩
    · exact absurd rfl (hnull T rfl)
    · obtain ⟨n, hn⟩ := hlinks T rfl "" y (List.mem_singleton_self _)
      exact ⟨n, Outcome.map_ne_pending _ hn⟩
  | list_link T => exact hentries T rfl
  | set_link T => exact hentries T rfl
  | dictionary_link T => exact hentries T rfl
  | scalar e => exact ⟨0, Outcome.returned_ne_pending _⟩
  | list e => exact ⟨0, Outcome.returned_ne_pending _⟩
  | set e => exact ⟨0, Outcome.ofOption_ne_pending _⟩
  | dictionary e => exact ⟨0, Outcome.returned_ne_pending _⟩

/-- **`detach` ends where following the links does.** -/
theorem exists_detachRun (hσ : σ.WellFormed) (hS : Store.WellFormed σ S)
    (hacc : Acc (fun b a => Leads σ.fields (managed σ S) a b) x) (hnull : NullFree σ S x) :
    ∃ n, detachRun σ S n x.table x ≠ .pending := by
  induction hacc with
  | intro x _ ih =>
    have hproperty : ∀ p ∈ (σ x.table).properties,
        ∃ n, detachKindRun (detachRun σ S n) x p.2 (S.cell x p.1) ≠ .pending := by
      intro p hp
      apply exists_detachKindRun (hS.stored x p hp) (hnull x .refl p hp)
      intro T hk key y hy
      have hlead := leads_of_mem hσ hp hk hy
      obtain ⟨n, hn⟩ := ih y hlead fun z hz => hnull z (.head hlead hz)
      obtain ⟨htable, -⟩ := linkTo_of_stored (hS.stored x p hp) hk hy
      rw [htable] at hn
      exact ⟨n, hn⟩
    -- a depth for each property, and so one for all of them
    obtain ⟨n, hn⟩ := exists_common_depth
      (fun n p h => (detachKindRun_le (detachRun_succ σ S n) p.2 (S.cell x p.1)).ne_pending h) hproperty
    refine ⟨n + 1, ?_⟩
    unfold detachRun
    refine Outcome.bind_ne_pending (Outcome.mapM_ne_pending fun p hp => ?_) fun ps _ =>
      Outcome.returned_ne_pending _
    split
    · exact Outcome.map_ne_pending _ (hn p hp)
    · exact Outcome.raised_ne_pending

/-- A link leads to an object that comes back, where the owner does. -/
theorem exists_detached {detach : TableKey → Ref → Option Unmanaged} {A : Objects} {k : Kind}
    {c : Cell} {content : Content Mixed Unmanaged} (hc : k.Stored A c) {T : TableKey}
    (hk : k.target = some T) {key : String} (hmem : (key, y.link) ∈ c)
    (h : detachKind detach x k c = some content) :
    ∃ j w, (j, .object w) ∈ content ∧ detach T y = some w := by
  have hentries : c.mapM (detachEntry detach T) = some content →
      ∃ j w, (j, .object w) ∈ content ∧ detach T y = some w := by
    intro hmap
    obtain ⟨b, hb, heq⟩ := exists_of_mem_forall₂ (mapM_eq_some_iff.mp hmap) hmem
    obtain ⟨z, w, hz, hw, rfl⟩ := detachEntry_eq_some.mp heq
    rw [← Ref.link_inj.mp hz] at hw
    exact ⟨_, w, hb, hw⟩
  cases k with
  | link T' =>
    cases hk
    obtain ⟨m, rfl, -⟩ := hc
    cases List.mem_singleton.mp hmem
    obtain ⟨w, hw, rfl⟩ := Option.map_eq_some_iff.mp h
    exact ⟨"", w, List.mem_singleton_self _, hw⟩
  | list_link T' =>
    cases hk
    exact hentries h
  | set_link T' =>
    cases hk
    exact hentries h
  | dictionary_link T' =>
    cases hk
    exact hentries h
  | _ => cases hk

/-- What comes back from behind a link is smaller. -/
theorem detachAs_smaller (hσ : σ.WellFormed) (hS : Store.WellFormed σ S) (n : Nat) (x : Ref)
    (d : Unmanaged) (y : Ref) (h : detachAs σ S n x.table x = some d)
    (hxy : Leads σ.fields (managed σ S) x y) :
    ∃ m w, detachAs σ S m y.table y = some w ∧ sizeOf w < sizeOf d := by
  cases n with
  | zero => cases h
  | succ n =>
    obtain ⟨-, -, hcontent⟩ := detachAs_eq_some hσ h
    obtain ⟨p, hp, T, hk, key, hkey⟩ := exists_mem_of_leads hσ hxy
    have hstored := hS.stored x p hp
    obtain ⟨j, w, hw, hback⟩ := exists_detached hstored hk hkey (hcontent p hp)
    obtain ⟨htable, -⟩ := linkTo_of_stored hstored hk hkey
    rw [← htable] at hback
    exact ⟨n, w, hback, sizeOf_lt_of_mem (Unmanaged.content_mem_props hw) hw⟩

/-- **`detach` ends where no cycle of links can be reached**, if there is no null
link behind the object, and returns nowhere else. -/
theorem detachRun_ends (hσ : σ.WellFormed) (hS : Store.WellFormed σ S)
    (hfin : {y | S.live y = true}.Finite) (hx : S.live x = true) :
    (NullFree σ S x → (¬ ∃ y, Relation.ReflTransGen (Leads σ.fields (managed σ S)) x y ∧
        Relation.TransGen (Leads σ.fields (managed σ S)) y y) →
        ∃ n, detachRun σ S n x.table x ≠ .pending) ∧
      ((∃ y, Relation.ReflTransGen (Leads σ.fields (managed σ S)) x y ∧
        Relation.TransGen (Leads σ.fields (managed σ S)) y y) →
        ∀ n d, detachRun σ S n x.table x ≠ .returned d) := by
  have hreach := reachable_finite hσ hS hfin hx
  constructor
  · intro hnull hno
    exact exists_detachRun hσ hS ((acc_iff_no_cycle hreach).mpr hno) hnull
  · intro hcycle n d hd
    rw [← Outcome.toOption_eq_some_iff, detachRun_toOption] at hd
    exact (acc_iff_no_cycle hreach).mp
      (acc_of_size (f := fun n x => detachAs σ S n x.table x) (detachAs_smaller hσ hS) hd) hcycle

end Ends

/-! ## §3. Both copies. -/

/-- **Copying ends where no cycle can be reached, and returns nowhere else.** -/
theorem copying_ends {σ : Schemas} (hσ : σ.WellFormed) :
    (∀ (ν : Type) (g : Graph TableKey String Mixed ν) (S : Store) (p : ν),
      {q | Relation.ReflTransGen (Leads σ.fields g) p q}.Finite →
        ((¬ ∃ q, Relation.ReflTransGen (Leads σ.fields g) p q ∧
            Relation.TransGen (Leads σ.fields g) q q) → ∃ n, addAt K σ g S n p ≠ .pending) ∧
          ((∃ q, Relation.ReflTransGen (Leads σ.fields g) p q ∧
            Relation.TransGen (Leads σ.fields g) q q) → ∀ n r, addAt K σ g S n p ≠ .returned r)) ∧
      ∀ (S : Store) (x : Ref), Store.WellFormed σ S → {y | S.live y = true}.Finite →
        S.live x = true →
          (NullFree σ S x →
            (¬ ∃ y, Relation.ReflTransGen (Leads σ.fields (managed σ S)) x y ∧
              Relation.TransGen (Leads σ.fields (managed σ S)) y y) →
            ∃ n, detachRun σ S n x.table x ≠ .pending) ∧
          ((∃ y, Relation.ReflTransGen (Leads σ.fields (managed σ S)) x y ∧
              Relation.TransGen (Leads σ.fields (managed σ S)) y y) →
            ∀ n d, detachRun σ S n x.table x ≠ .returned d) :=
  ⟨fun _ _ S _ hfin => addAt_ends hσ S hfin, fun _ _ hS hfin hx => detachRun_ends hσ hS hfin hx⟩

/-- An unmanaged object with a pointer to another one. -/
def linkGraph : Graph TableKey String Mixed Bool where
  cls target := if target then ⟨1⟩ else ⟨0⟩
  content _ name :=
    if name = "_id" then [("", .scalar (.int 1))]
    else if name = "str_col" then [("", .scalar (.string "string col link"))]
    else [("", .object true)]

/-- A link of these classes. -/
theorem linkSchemas_target {t T : TableKey} {p : String × Kind}
    (hp : p ∈ (linkSchemas t).properties) (hk : p.2.target = some T) :
    p = ("str_link_col", .link ⟨1⟩) ∧ t = ⟨0⟩ ∧ T = ⟨1⟩ := by
  rcases List.mem_append.mp hp with hp | hp
  · rcases List.mem_cons.mp hp with rfl | hp
    · cases hk
    · rw [List.mem_singleton.mp hp] at hk
      cases hk
  · by_cases ht : t = ⟨0⟩
    · rw [if_pos ht] at hp
      have hp := List.mem_singleton.mp hp
      subst hp
      cases hk
      exact ⟨rfl, ht, rfl⟩
    · rw [if_neg ht] at hp
      cases hp

/-- Where no link leads on, there are no cycles. -/
theorem not_cycle_of_leads {ν : Type} {g : Graph TableKey String Mixed ν}
    (h : ∀ p q, Leads linkSchemas.fields g p q → g.cls p = ⟨0⟩ ∧ g.cls q = ⟨1⟩) (q : ν) :
    ¬ Relation.TransGen (Leads linkSchemas.fields g) q q := by
  intro hcycle
  obtain ⟨r, hqr, hrq⟩ := Relation.TransGen.head'_iff.mp hcycle
  obtain ⟨hq, hr⟩ := h q r hqr
  have hr' : g.cls r = ⟨0⟩ := by
    rcases Relation.ReflTransGen.cases_head hrq with heq | ⟨w, hrw, -⟩
    · rw [heq]
      exact hq
    · exact (h r w hrw).1
  rw [hr] at hr'
  exact absurd hr' (by decide)

/-- The pointer of the graph leads to the other object, which has none. -/
theorem linkGraph_leads {p q : Bool} (h : Leads linkSchemas.fields linkGraph p q) :
    linkGraph.cls p = ⟨0⟩ ∧ linkGraph.cls q = ⟨1⟩ := by
  obtain ⟨f, hf, key, hkey⟩ := h
  cases p with
  | false =>
    refine ⟨rfl, ?_⟩
    change (key, Slot.object q) ∈ linkGraph.content false f.1 at hkey
    unfold linkGraph at hkey
    dsimp only at hkey
    split at hkey
    · cases List.mem_singleton.mp hkey
    · split at hkey
      · cases List.mem_singleton.mp hkey
      · cases List.mem_singleton.mp hkey
        rfl
  | true =>
    obtain ⟨k, hk, rfl⟩ := List.mem_map.mp hf
    rcases List.mem_cons.mp hk with rfl | hk
    · cases List.mem_singleton.mp hkey
    · rw [List.mem_singleton.mp hk] at hkey
      cases List.mem_singleton.mp hkey

/-- A link of a store leads to the other class. -/
theorem linkStore_leads {S : Store} (hS : Store.WellFormed linkSchemas S) {y z : Ref}
    (h : Leads linkSchemas.fields (managed linkSchemas S) y z) :
    y.table = ⟨0⟩ ∧ z.table = ⟨1⟩ := by
  obtain ⟨p, hp, T, hk, key, hkey⟩ := exists_mem_of_leads linkSchemas_wellFormed h
  obtain ⟨-, hy, hT⟩ := linkSchemas_target hp hk
  exact ⟨hy, hT ▸ (linkTo_of_stored (hS.stored y p hp) hk hkey).1⟩

theorem copying_ends_link :
    (∃ n, addAt integer_text linkSchemas linkGraph (Store.empty linkSchemas) n false ≠ .pending) ∧
      ∃ S x, add integer_text linkSchemas (Store.empty linkSchemas)
          (linkObject 1 "link object" (.object (stringObject 1 "string col link"))) = some (S, x) ∧
        ∃ n, detachRun linkSchemas S n x.table x ≠ .pending := by
  have hσ := linkSchemas_wellFormed
  constructor
  · refine ((copying_ends hσ).1 Bool linkGraph _ false (Set.toFinite _)).1 ?_
    rintro ⟨q, -, hcycle⟩
    exact not_cycle_of_leads (fun _ _ => linkGraph_leads) q hcycle
  · obtain ⟨S, x, hadd⟩ : ∃ S x, add integer_text linkSchemas (Store.empty linkSchemas)
        (linkObject 1 "link object" (.object (stringObject 1 "string col link"))) = some (S, x) :=
      ⟨_, _, rfl⟩
    have hcell : S.cell x "str_link_col" = Cell.one (Ref.link ⟨⟨1⟩, ⟨0⟩⟩) := by
      cases hadd
      rfl
    have hS₀ := Store.empty_wellFormed hσ
    obtain ⟨P, hP, rfl⟩ := added_of_add hS₀.objects hadd
    have hS := hP.wellFormed hσ (linkObject_conforms (.inr ⟨_, _, rfl⟩)) hS₀
    have hlive : ∀ y, S.live y = true → y ∈ (nodes P).map Placed.row := by
      intro y hy
      rcases hP.placing.new_live y hy with hold | ⟨n, hn, hrow⟩
      · cases hold
      · exact List.mem_map.mpr ⟨n, hn, hrow⟩
    refine ⟨S, P.row, hadd, ((copying_ends (K := integer_text) hσ).2 S P.row hS ?_ ?_).1 ?_ ?_⟩
    · exact (List.finite_toSet _).subset hlive
    · exact hP.placing.row_live P (self_mem_nodes P)
    · intro y hy p hp T hk
      obtain ⟨rfl, hy₀, -⟩ := linkSchemas_target hp (T := T) (by rw [hk]; rfl)
      -- only the root is of this class
      rcases Relation.ReflTransGen.cases_tail hy with rfl | ⟨z, -, hzy⟩
      · rw [hcell]
        decide
      · rw [(linkStore_leads hS hzy).2] at hy₀
        exact absurd hy₀ (by decide)
    · rintro ⟨y, -, hcycle⟩
      exact not_cycle_of_leads (fun _ _ => linkStore_leads hS) y hcycle

/-- Objects with a link to one of their own class. -/
def nodeSchemas : Schemas := fun t =>
  { primary_key := none, is_embedded := false, properties := [("next", .link t)] }

/-- An unmanaged object that points to itself. -/
def loopGraph : Graph TableKey String Mixed Unit := ⟨fun _ => ⟨0⟩, fun _ _ => [("", .object ())]⟩

/-- The one object of a store. -/
def nodeRef : Ref := ⟨⟨0⟩, ⟨0⟩⟩

/-- A store with one object, and what its link holds. -/
def nodeStore (m : Mixed) : Store where
  live x := x = nodeRef
  next t := if t = ⟨0⟩ then 1 else 0
  index _ _ := none
  cells c := if c.1 = nodeRef then Cell.one m else Cell.one .null

theorem nodeSchemas_wellFormed : nodeSchemas.WellFormed := by
  refine ⟨fun t => List.nodup_singleton _, ?_, fun t h => rfl, ?_⟩
  · intro t name h
    cases h
  · intro t name T h
    cases List.mem_singleton.mp h

theorem nodeStore_wellFormed {m : Mixed} (hm : m = .null ∨ m = nodeRef.link) :
    Store.WellFormed nodeSchemas (nodeStore m) := by
  have hlink : ∀ x : Ref, x = nodeRef → ∃ m', Cell.one m = Cell.one m' ∧
      (m' = .null ∨ LinkTo (nodeStore m).toObjects x.table m') := by
    rintro x rfl
    exact ⟨m, rfl, hm.imp_right fun h => ⟨nodeRef, rfl, rfl, h⟩⟩
  refine ⟨⟨?_, ?_, ?_⟩, ?_, ?_, ?_⟩
  · intro x hx
    rw [of_decide_eq_true hx]
    exact Nat.zero_lt_one
  · intro t m k h
    cases h
  · intro t m m' k h
    cases h
  · intro x p hp
    rw [List.mem_singleton.mp hp]
    show ∃ m', (if x = nodeRef then Cell.one m else Cell.one .null) = _ ∧ _
    by_cases hx : x = nodeRef
    · rw [if_pos hx]
      exact hlink x hx
    · rw [if_neg hx]
      exact ⟨.null, rfl, .inl rfl⟩
  · intro x hx p hp
    rw [List.mem_singleton.mp hp]
    exact if_neg (of_decide_eq_false hx)
  · intro x name hx h
    cases h

theorem detachRun_nodeStore (m : Mixed) (hm : m = .null ∨ m = nodeRef.link) (n : Nat) :
    detachRun nodeSchemas (nodeStore m) n nodeRef.table nodeRef = .pending := by
  induction n with
  | zero => rfl
  | succ n ih =>
    have hkind : detachKindRun (detachRun nodeSchemas (nodeStore m) n) nodeRef (.link ⟨0⟩)
        (Cell.one m) = .pending := by
      rcases hm with rfl | rfl
      · show _ <$> detachRun nodeSchemas (nodeStore .null) n ⟨0⟩ nodeRef = _
        rw [show detachRun nodeSchemas (nodeStore .null) n ⟨0⟩ nodeRef = .pending from ih]
        rfl
      · show _ <$> detachRun nodeSchemas (nodeStore nodeRef.link) n ⟨0⟩ nodeRef = _
        rw [show detachRun nodeSchemas (nodeStore nodeRef.link) n ⟨0⟩ nodeRef = .pending from ih]
        rfl
    show (((fun c => ("next", c)) <$> detachKindRun (detachRun nodeSchemas (nodeStore m) n) nodeRef
      (.link ⟨0⟩) (Cell.one m) >>= fun _ => _) >>= fun _ => _) = _
    rw [hkind]
    rfl

/-- **Nothing ends on a cycle, nor at a null link to an object's own class.** -/
theorem copying_loops :
    nodeSchemas.WellFormed ∧
      (∀ n, addAt integer_text nodeSchemas loopGraph (Store.empty nodeSchemas) n () = .pending) ∧
      ∀ m, m = Mixed.null ∨ m = nodeRef.link →
        Store.WellFormed nodeSchemas (nodeStore m) ∧ (nodeStore m).live nodeRef = true ∧
          ∀ n, detachRun nodeSchemas (nodeStore m) n nodeRef.table nodeRef = .pending := by
  refine ⟨nodeSchemas_wellFormed, ?_, ?_⟩
  · have hset : ∀ n x S, setObjectAt integer_text nodeSchemas loopGraph n x () S = .pending := by
      intro n
      induction n with
      | zero =>
        intro x S
        rfl
      | succ n ih =>
        intro x S
        show (Outcome.ofOption (S.writes []) >>= fun S₁ => setEntriesAt nodeSchemas loopGraph
          (setObjectAt integer_text nodeSchemas loopGraph n) accessor_link x "next" 0
            [("", .object ())] S₁ >>= fun S₂ => _) = _
        rw [Store.writes_nil, Outcome.ofOption_some, Outcome.returned_bind, setEntriesAt]
        -- the link is set before the pointer is followed
        show (Outcome.ofOption (some _) >>= fun S₁ =>
          setObjectAt integer_text nodeSchemas loopGraph n _ () S₁ >>= fun S₂ => _) >>= _ = _
        rw [Outcome.ofOption_some, Outcome.returned_bind, ih]
        rfl
    intro n
    show (setObjectAt integer_text nodeSchemas loopGraph n _ () _ >>= fun S' => _) = _
    rw [hset]
    rfl
  · exact fun m hm => ⟨nodeStore_wellFormed hm, rfl, detachRun_nodeStore m hm⟩

end RealmCpp.Accessors
