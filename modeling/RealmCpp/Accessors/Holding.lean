/-
  RealmCpp.Accessors.Holding
  ──────────────────────────
  **STORED OBJECTS AS AN OBJECT GRAPH, AND WHAT A PROPERTY ASKS FOR.**

  A stored object holds an unmanaged one when the two are structurally equal.
  A property of a placed object asks for a cell of its column: its own entries,
  with a link for each pointer.  What an accessor writes is compared with that.

    • `managed`, `SameTree`, `Holds` — structural equality,
    • `asked` — the cell that a property asks for, `view_asked`,
    • `written` — the cell that is written for it, `written_of_target`,
    • `Kind.Appends` — the properties that are added to what is there,
    • `ownWrites_set_eq`, `ownWrites_list_eq`, `ownWrites_bag_eq`,
      `mem_ownWrites_keyed` — what the accessors write for it.
-/
import RealmCpp.Accessors.Columns

namespace RealmCpp.Accessors

open RealmCpp.Library
open RealmCpp.Core

variable {K : DecimalText}

/-! ## §1. Structural equality. -/

/-- The entry of a column: an object where the property points to objects. -/
def Kind.slot (k : Kind) (m : Mixed) : Slot Mixed Ref :=
  match k.target, m with
  | none, m => .scalar m
  | some _, .link t key => .object ⟨t, key⟩
  | some _, _ => .null

/-- The content of a column. -/
def Kind.view (k : Kind) (c : Cell) : Content Mixed Ref := c.map fun e => (e.1, k.slot e.2)

/-- The stored objects as an object graph. -/
def managed (σ : Schemas) (S : Store) : Graph TableKey String Mixed Ref :=
  ⟨Ref.table, fun x name => (σ.kind x.table name).view (S.cell x name)⟩

/-- Unmanaged objects that are structurally equal. -/
def SameTree (σ : Schemas) : Unmanaged → Unmanaged → Prop :=
  Bisimilar σ.fields Unmanaged.graph Unmanaged.graph

/-- **A stored object that is structurally equal to an unmanaged one.** -/
def Holds (σ : Schemas) (S : Store) : Ref → Unmanaged → Prop :=
  Bisimilar σ.fields (managed σ S) Unmanaged.graph

theorem mem_fields {σ : Schemas} {t : TableKey} {p : String × Kind}
    (hp : p ∈ (σ t).properties) : (p.1, p.2.shape) ∈ σ.fields t :=
  List.mem_map_of_mem (f := fun p => (p.1, p.2.shape)) hp

theorem SameTree.content {σ : Schemas} {u u' : Unmanaged} (h : SameTree σ u u')
    {p : String × Kind} (hp : p ∈ (σ u.cls).properties) :
    p.2.shape.Match (SameTree σ) (u.content p.1) (u'.content p.1) :=
  Bisimilar.content h (f := (p.1, p.2.shape)) (mem_fields hp)

theorem Holds.table {σ : Schemas} {S : Store} {x : Ref} {u : Unmanaged} (h : Holds σ S x u) :
    x.table = u.cls :=
  Bisimilar.cls_eq h

/-- What a stored object holds, property by property. -/
theorem Holds.content {σ : Schemas} (hσ : σ.WellFormed) {S : Store} {x : Ref} {u : Unmanaged}
    (h : Holds σ S x u) {p : String × Kind} (hp : p ∈ (σ u.cls).properties) :
    p.2.shape.Match (Holds σ S) (p.2.view (S.cell x p.1)) (u.content p.1) := by
  rw [← h.table] at hp
  have hmatch := Bisimilar.content h (f := (p.1, p.2.shape)) (mem_fields hp)
  have hkind := hσ.kind hp
  show p.2.shape.Match _ _ _
  rw [← hkind]
  rw [← hkind] at hmatch
  exact hmatch

/-! ## §2. What a property asks for. -/

/-- The entry that a slot asks for. -/
def askedSlot : Slot Mixed Placed → Mixed
  | .null => .null
  | .scalar m => m
  | .object C => C.row.link

/-- **The cell that a property asks for.** -/
def asked (c : Content Mixed Placed) : Cell := c.map fun e => (e.1, askedSlot e.2)

theorem mem_asked {c : Content Mixed Placed} {key : String} {m : Mixed} :
    (key, m) ∈ asked c ↔ ∃ s, (key, s) ∈ c ∧ askedSlot s = m := by
  unfold asked
  rw [List.mem_map]
  constructor
  · intro ⟨e, he, hem⟩
    obtain ⟨hkey, hm⟩ := Prod.mk.inj hem
    exact ⟨e.2, by rw [← hkey]; exact he, hm⟩
  · intro ⟨s, hs, hm⟩
    exact ⟨(key, s), hs, by rw [hm]⟩

theorem slot_asked_of_target_none {k : Kind} (hk : k.target = none) (m : Mixed) :
    k.slot m = .scalar m := by
  unfold Kind.slot
  rw [hk]

theorem slot_link {k : Kind} {T : TableKey} (hk : k.target = some T) (y : Ref) :
    k.slot y.link = .object y := by
  unfold Kind.slot
  rw [hk]
  rfl

theorem slot_null {k : Kind} {T : TableKey} (hk : k.target = some T) :
    k.slot .null = .null := by
  unfold Kind.slot
  rw [hk]

/-- The slots of a property are of its type. -/
theorem Kind.Typed.slots {ν : Type} {cls : ν → TableKey} {k : Kind} {c : Content Mixed ν}
    (hc : k.Typed cls c) : ∀ e ∈ c, match k.target with
      | none => ∃ m, e.2 = .scalar m
      | some T => PointsTo cls T e.2 := by
  intro e he
  cases k with
  | scalar =>
    obtain ⟨m, rfl⟩ := hc
    exact ⟨m, by rw [List.mem_singleton.mp he]⟩
  | list _ =>
    obtain ⟨m, rfl⟩ := hc e he
    exact ⟨m, rfl⟩
  | set _ =>
    obtain ⟨m, rfl⟩ := hc.1 e he
    exact ⟨m, rfl⟩
  | dictionary _ =>
    obtain ⟨key, m, rfl⟩ := hc.1 e he
    exact ⟨m, rfl⟩
  | link T =>
    obtain ⟨s, rfl, hs⟩ := hc
    rw [List.mem_singleton.mp he]
    exact hs
  | list_link T => exact (hc e he).2
  | set_link T => exact (hc e he).2
  | dictionary_link T => exact hc.1 e he

/-- Only the entries of dictionaries have keys. -/
theorem Kind.Typed.no_key {ν : Type} {cls : ν → TableKey} {k : Kind} {c : Content Mixed ν}
    (hc : k.Typed cls c) (hk : k.shape ≠ .keyed) : ∀ e ∈ c, e.1 = "" := by
  intro e he
  cases k with
  | scalar =>
    obtain ⟨m, rfl⟩ := hc
    rw [List.mem_singleton.mp he]
  | list _ =>
    obtain ⟨m, rfl⟩ := hc e he
    rfl
  | set _ =>
    obtain ⟨m, rfl⟩ := hc.1 e he
    rfl
  | dictionary _ => exact absurd rfl hk
  | link T =>
    obtain ⟨s, rfl, -⟩ := hc
    rw [List.mem_singleton.mp he]
  | list_link T => exact (hc e he).1
  | set_link T => exact (hc e he).1
  | dictionary_link T => exact absurd rfl hk

/-- The keys of dictionaries do not repeat. -/
theorem Kind.Typed.keys_nodup {ν : Type} {cls : ν → TableKey} {k : Kind} {c : Content Mixed ν}
    (hc : k.Typed cls c) (hk : k.shape = .keyed) : (c.map Prod.fst).Nodup := by
  cases k with
  | dictionary _ => exact hc.2
  | dictionary_link T => exact hc.2
  | _ => cases hk

/-- **Reading what was asked for** gives the rows of the objects pointed to. -/
theorem view_asked {k : Kind} {c : Content Mixed Placed} (hc : k.Typed Placed.cls c) :
    k.view (asked c) = c.mapObjects Placed.row := by
  unfold Kind.view asked Content.mapObjects
  rw [List.map_map]
  apply List.map_congr_left
  intro e he
  have hslot := hc.slots e he
  obtain ⟨key, s⟩ := e
  show (key, k.slot (askedSlot s)) = (key, s.map Placed.row)
  cases htarget : k.target with
  | none =>
    rw [htarget] at hslot
    obtain ⟨m, rfl⟩ := hslot
    rw [slot_asked_of_target_none htarget]
    rfl
  | some T =>
    rw [htarget] at hslot
    cases s with
    | null =>
      show (key, k.slot .null) = _
      rw [slot_null htarget]
      rfl
    | scalar m => cases hslot
    | object C =>
      show (key, k.slot C.row.link) = _
      rw [slot_link htarget]
      rfl

/-! ## §3. What is written for it. -/

/-- **The cell that is written for a property**: with what is read from the text of each
decimal in its place. -/
def written (K : DecimalText) (c : Content Mixed Placed) : Cell :=
  (asked c).map fun e => (e.1, K.serialize e.2)

theorem mem_written {c : Content Mixed Placed} {e : String × Mixed} :
    e ∈ written K c ↔ ∃ m, (e.1, m) ∈ asked c ∧ K.serialize m = e.2 := by
  unfold written
  rw [List.mem_map]
  constructor
  · rintro ⟨b, hb, rfl⟩
    exact ⟨b.2, hb, rfl⟩
  · rintro ⟨m, hm, heq⟩
    exact ⟨(e.1, m), hm, Prod.ext rfl heq⟩

theorem written_of_asked {c : Content Mixed Placed} {e : String × Mixed} (he : e ∈ asked c) :
    (e.1, K.serialize e.2) ∈ written K c :=
  List.mem_map_of_mem (f := fun e : String × Mixed => (e.1, K.serialize e.2)) he

/-- Where no decimal changes, what is written is what was asked for. -/
theorem written_eq_asked {c : Content Mixed Placed}
    (h : ∀ e ∈ asked c, K.serialize e.2 = e.2) : written K c = asked c := by
  unfold written
  refine (List.map_congr_left fun e he => ?_).trans (List.map_id _)
  exact Prod.ext rfl (h e he)

/-- Nulls and links are no decimals. -/
theorem written_of_target {k : Kind} {T : TableKey} {c : Content Mixed Placed}
    (hc : k.Typed Placed.cls c) (hk : k.target = some T) : written K c = asked c := by
  refine written_eq_asked fun e he => ?_
  obtain ⟨s, hs, hm⟩ := mem_asked.mp he
  have hslot := hc.slots _ hs
  rw [hk] at hslot
  rw [← hm]
  cases s with
  | null => rfl
  | scalar m => cases hslot
  | object C => rfl

theorem written_eq_nil_iff {c : Content Mixed Placed} : written K c = [] ↔ c = [] := by
  unfold written asked
  rw [List.map_eq_nil_iff, List.map_eq_nil_iff]

theorem keys_written (K : DecimalText) (c : Content Mixed Placed) :
    (written K c).map Prod.fst = c.map Prod.fst := by
  unfold written asked
  rw [List.map_map, List.map_map]
  rfl

theorem length_written (K : DecimalText) (c : Content Mixed Placed) :
    (written K c).length = c.length := by
  unfold written asked
  rw [List.length_map, List.length_map]

/-- The lists that `set_list_values` adds to what is there. -/
def Element.appends (e : Element) : Bool :=
  match e.type, e.optional with
  | .bool, false => true
  | .mixed, _ | .string, true | .uuid, true | .object_id, true | .binary, true
  | .timestamp, true => true
  | _, _ => false

theorem set_list_values_of_not_appends {e : Element} (he : e.appends = false)
    (ms : List Mixed) : set_list_values e ms = [.set (ms.map fun m => ("", m))] := by
  obtain ⟨type, optional⟩ := e
  cases type <;> cases optional <;> first | rfl | cases he

/-- Those lists are written one element after the other. -/
theorem set_list_values_of_appends {e : Element} (he : e.appends = true) (ms : List Mixed) :
    set_list_values e ms = ms.map .add ∨
      set_list_values e ms = ms.zipIdx.map fun v => .insert v.2 v.1 := by
  obtain ⟨type, optional⟩ := e
  cases type <;> cases optional <;> first | exact .inl rfl | exact .inr rfl | cases he

/-- **The properties that are added to what is there.** -/
def Kind.Appends (σ : Schemas) : Kind → Prop
  | list e => e.appends = true
  | list_link _ => True
  | set_link T => (σ T).primary_key = none
  | _ => False

theorem Kind.Appends.not_keyed {σ : Schemas} {k : Kind} (hk : k.Appends σ) :
    k.shape ≠ .keyed := by
  intro hshape
  cases k with
  | dictionary _ => cases hk
  | dictionary_link _ => cases hk
  | _ => cases hshape

/-- The sets among them are sets of pointers. -/
theorem Kind.Appends.target_ne_none {σ : Schemas} {k : Kind} (hk : k.Appends σ)
    (hshape : k.shape = .bag) : k.target ≠ none := by
  cases k with
  | set_link T => exact Option.some_ne_none T
  | set _ => cases hk
  | _ => cases hshape

/-- The properties whose accessors skip null pointers. -/
def Kind.SkipsNull : Kind → Prop
  | list_link _ | set_link _ => True
  | _ => False

theorem asked_eq_scalars {c : Content Mixed Placed} (hc : ∀ e ∈ c, ∃ m, e.2 = .scalar m) :
    asked c = scalars c := by
  induction c with
  | nil => rfl
  | cons e c ih =>
    obtain ⟨key, s⟩ := e
    obtain ⟨m, hm⟩ := hc _ List.mem_cons_self
    subst hm
    show (key, m) :: asked c = (key, m) :: scalars c
    rw [ih fun e he => hc e (List.mem_cons_of_mem _ he)]

/-- Without pointers there is nothing to loop over. -/
theorem ownEntries_of_scalars (a : Accessor) {c : Content Mixed Placed}
    (hc : ∀ e ∈ c, ∃ m, e.2 = .scalar m) (i : Nat) : ownEntries a i c = [] := by
  induction c generalizing i with
  | nil => rfl
  | cons e c ih =>
    obtain ⟨key, s⟩ := e
    obtain ⟨m, hm⟩ := hc _ List.mem_cons_self
    subst hm
    exact ih (fun e he => hc e (List.mem_cons_of_mem _ he)) (i + 1)

/-- Without values there is nothing but the loop. -/
theorem scalars_of_pointers {T : TableKey} {c : Content Mixed Placed}
    (hc : ∀ e ∈ c, PointsTo Placed.cls T e.2) : scalars c = [] := by
  rw [List.eq_nil_iff_forall_not_mem]
  intro e he
  exact hc _ (mem_scalars.mp he)

theorem asked_without_keys {c : Content Mixed Placed} (hc : ∀ e ∈ c, e.1 = "") :
    asked c = ((asked c).map Prod.snd).map ("", ·) := by
  unfold asked
  rw [List.map_map, List.map_map]
  apply List.map_congr_left
  intro e he
  rw [hc e he]
  rfl

theorem written_without_keys {c : Content Mixed Placed} (hc : ∀ e ∈ c, e.1 = "") :
    written K c = ((written K c).map Prod.snd).map ("", ·) := by
  unfold written
  rw [asked_without_keys hc]
  simp only [List.map_map, Function.comp_def]

/-- What the loop over a vector of pointers writes, none of which is null. -/
theorem ownEntries_vector_link {T : TableKey} {c : Content Mixed Placed}
    (hc : ∀ e ∈ c, PointsTo Placed.cls T e.2) (hnull : ∀ key, (key, .null) ∉ c)
    (is_embedded : Bool) (i : Nat) :
    ownEntries (accessor_vector_link is_embedded) i c = if is_embedded
      then (((asked c).map Prod.snd).zipIdx i).map fun v => .insert v.2 v.1
      else ((asked c).map Prod.snd).map .add := by
  induction c generalizing i with
  | nil => cases is_embedded <;> rfl
  | cons e c ih =>
    have hrest := ih (fun e he => hc e (List.mem_cons_of_mem _ he))
      (fun key h => hnull key (List.mem_cons_of_mem _ h)) (i + 1)
    obtain ⟨key, s⟩ := e
    cases s with
    | null => exact absurd List.mem_cons_self (hnull key)
    | scalar m => exact (hc _ List.mem_cons_self).elim
    | object C =>
      show _ ++ _ ++ ownEntries _ (i + 1) c = _
      rw [hrest]
      cases is_embedded <;> rfl

/-- What the loop over a set of pointers writes, none of which is null. -/
theorem ownEntries_set_link {T : TableKey} {c : Content Mixed Placed}
    (hc : ∀ e ∈ c, PointsTo Placed.cls T e.2) (hnull : ∀ key, (key, .null) ∉ c) (i : Nat) :
    ownEntries (accessor_set_link false) i c = ((asked c).map Prod.snd).map .set_insert := by
  induction c generalizing i with
  | nil => rfl
  | cons e c ih =>
    have hrest := ih (fun e he => hc e (List.mem_cons_of_mem _ he))
      (fun key h => hnull key (List.mem_cons_of_mem _ h)) (i + 1)
    obtain ⟨key, s⟩ := e
    cases s with
    | null => exact absurd List.mem_cons_self (hnull key)
    | scalar m => exact (hc _ List.mem_cons_self).elim
    | object C =>
      show _ ++ _ ++ ownEntries _ (i + 1) c = _
      rw [hrest]
      rfl

/-- What the loop over a map of pointers writes: each entry, some twice. -/
theorem mem_ownEntries_map_link {T : TableKey} {c : Content Mixed Placed}
    (hc : ∀ e ∈ c, PointsTo Placed.cls T e.2) (i : Nat) (w : Write) :
    w ∈ ownEntries accessor_map_link i c ↔
      ∃ key m, (key, m) ∈ asked c ∧ w = .dictionary_insert key m := by
  induction c generalizing i with
  | nil => simp [ownEntries, asked]
  | cons e c ih =>
    have hrest := ih (fun e he => hc e (List.mem_cons_of_mem _ he)) (i + 1)
    obtain ⟨key, s⟩ := e
    have hcons : (∃ k m, (k, m) ∈ asked ((key, s) :: c) ∧ w = .dictionary_insert k m) ↔
        w = .dictionary_insert key (askedSlot s) ∨
          ∃ k m, (k, m) ∈ asked c ∧ w = .dictionary_insert k m := by
      show (∃ k m, (k, m) ∈ (key, askedSlot s) :: asked c ∧ _) ↔ _
      simp only [List.mem_cons, Prod.mk.injEq, or_and_right, exists_or, and_assoc,
        exists_eq_left, exists_and_left]
    rw [hcons, ← hrest]
    cases s with
    | null => exact List.mem_append.trans (or_congr List.mem_singleton Iff.rfl)
    | scalar m => exact (hc _ List.mem_cons_self).elim
    | object C =>
      -- before the object is written, and again after it
      show w ∈ [.dictionary_insert key C.row.link] ++ [.dictionary_insert key C.row.link] ++
        ownEntries _ (i + 1) c ↔ _
      rw [List.mem_append, List.mem_append, or_self, List.mem_singleton]
      exact Iff.rfl

section OwnWrites

variable {σ : Schemas} {k : Kind} {c : Content Mixed Placed}

/-- The values, as the accessors hand them on. -/
theorem written_values (K : DecimalText) (c : Content Mixed Placed) :
    (written K c).map Prod.snd = (asked c).map fun d => K.serialize d.2 := by
  unfold written
  rw [List.map_map]
  rfl

/-- A property without pointers writes its values. -/
theorem ownWrites_of_target_none (hc : k.Typed Placed.cls c) (hk : k.target = none) :
    ownWrites K σ k c = (k.accessor K σ).values (asked c) := by
  have hscalars : ∀ e ∈ c, ∃ m, e.2 = .scalar m := by
    intro e he
    have hslot := hc.slots e he
    rw [hk] at hslot
    exact hslot
  unfold ownWrites
  rw [ownEntries_of_scalars _ hscalars, List.append_nil, asked_eq_scalars hscalars]

/-- A property with pointers writes in its loop. -/
theorem ownWrites_of_target {T : TableKey} (hc : k.Typed Placed.cls c) (hk : k.target = some T) :
    ownWrites K σ k c = ownEntries (k.accessor K σ) 0 c := by
  have hpointers : ∀ e ∈ c, PointsTo Placed.cls T e.2 := by
    intro e he
    have hslot := hc.slots e he
    rw [hk] at hslot
    exact hslot
  unfold ownWrites
  rw [scalars_of_pointers hpointers]
  cases k with
  | link _ => rfl
  | list_link _ => rfl
  | set_link _ => rfl
  | dictionary_link _ => rfl
  | _ => cases hk

/-- But for dictionaries, the key of what is written is the empty one. -/
theorem written_no_key (hc : k.Typed Placed.cls c) (hshape : k.shape ≠ .keyed)
    {b : String × Mixed} (hb : b ∈ written K c) : ("", b.2) ∈ written K c := by
  obtain ⟨m, hm, -⟩ := mem_written.mp hb
  obtain ⟨s, hs, -⟩ := mem_asked.mp hm
  have hb1 : b.1 = "" := hc.no_key hshape _ hs
  rw [← hb1]
  exact hb

/-- The values are written as they are to be. -/
theorem written_of_value_puts (hc : k.Typed Placed.cls c) {w : Write}
    (hw : w ∈ (k.accessor K σ).values (scalars c)) {e : String × Mixed} (he : e ∈ w.puts) :
    e ∈ written K c := by
  have hvalue : ∀ b ∈ scalars c, (b.1, K.serialize b.2) ∈ written K c :=
    fun b hb => written_of_asked (mem_asked.mpr ⟨_, mem_scalars.mp hb, rfl⟩)
  cases k with
  | scalar _ =>
    obtain ⟨b, hb, rfl⟩ := List.mem_map.mp hw
    rw [List.mem_singleton.mp he]
    exact written_no_key hc (fun h => Shape.noConfusion h) (hvalue b hb)
  | list _ =>
    have hvalues : ∀ m ∈ (scalars c).map fun d => K.serialize d.2, ("", m) ∈ written K c := by
      intro m hm
      obtain ⟨b, hb, rfl⟩ := List.mem_map.mp hm
      exact written_no_key hc (fun h => Shape.noConfusion h) (hvalue b hb)
    rcases mem_set_list_values hw with ⟨m, hm, rfl⟩ | ⟨i, m, hm, rfl⟩ | rfl
    · rw [List.mem_singleton.mp he]
      exact hvalues m hm
    · rw [List.mem_singleton.mp he]
      exact hvalues m hm
    · obtain ⟨m, hm, rfl⟩ := List.mem_map.mp he
      exact hvalues m hm
  | set _ =>
    obtain ⟨b, hb, rfl⟩ := List.mem_map.mp hw
    rw [List.mem_singleton.mp he]
    exact written_no_key hc (fun h => Shape.noConfusion h) (hvalue b hb)
  | dictionary _ =>
    obtain ⟨b, hb, rfl⟩ := List.mem_map.mp hw
    rw [List.mem_singleton.mp he]
    exact hvalue b hb
  | _ => cases hw

/-- What is written for an object is its link, at the key it is asked for. -/
theorem written_of_object_puts (hc : k.Typed Placed.cls c) {i : Nat} {key : String} {C : Placed}
    (hmem : (key, .object C) ∈ c) {w : Write}
    (hw : w ∈ (k.accessor K σ).before i key C.row.link ∨ w ∈ (k.accessor K σ).after key C.row.link)
    {e : String × Mixed} (he : e ∈ w.puts) : e ∈ written K c := by
  have hC : (key, C.row.link) ∈ written K c := written_of_asked (mem_asked.mpr ⟨_, hmem, rfl⟩)
  cases k with
  | link T =>
    rcases hw with hw | hw
    · rw [List.mem_singleton.mp hw] at he
      rw [List.mem_singleton.mp he]
      exact written_no_key hc (fun h => Shape.noConfusion h) hC
    · cases hw
  | list_link T =>
    -- embedded objects are inserted before they are written, others added after it
    have hputs : w.puts = [("", C.row.link)] := by
      rcases hw with hw | hw <;> simp only [Kind.accessor, accessor_vector_link] at hw <;>
        split at hw
      · rw [List.mem_singleton.mp hw]
        rfl
      · cases hw
      · cases hw
      · rw [List.mem_singleton.mp hw]
        rfl
    rw [hputs] at he
    rw [List.mem_singleton.mp he]
    exact written_no_key hc (fun h => Shape.noConfusion h) hC
  | set_link T =>
    rcases hw with hw | hw
    · cases hw
    · simp only [Kind.accessor, accessor_set_link] at hw
      split at hw
      · cases hw
      · rw [List.mem_singleton.mp hw] at he
        rw [List.mem_singleton.mp he]
        exact written_no_key hc (fun h => Shape.noConfusion h) hC
  | dictionary_link T =>
    rcases hw with hw | hw
    · rw [List.mem_singleton.mp hw] at he
      rw [List.mem_singleton.mp he]
      exact hC
    · rw [List.mem_singleton.mp hw] at he
      rw [List.mem_singleton.mp he]
      exact hC
  | _ => rcases hw with hw | hw <;> cases hw

/-- **Nothing is written that is not asked for.** -/
theorem written_of_puts (hc : k.Typed Placed.cls c) {w : Write} (hw : w ∈ ownWrites K σ k c)
    {e : String × Mixed} (he : e ∈ w.puts) : e ∈ written K c := by
  rcases List.mem_append.mp hw with hw | hw
  · exact written_of_value_puts hc hw he
  · rcases mem_ownEntries hw with ⟨key, hmem, hw⟩ | ⟨j, key, C, hmem, hw⟩
    · -- only dictionaries write null pointers
      cases k with
      | dictionary_link T =>
        rw [List.mem_singleton.mp hw] at he
        rw [List.mem_singleton.mp he]
        exact written_of_asked (mem_asked.mpr ⟨_, hmem, rfl⟩)
      | _ => cases hw
    · exact written_of_object_puts hc hmem hw he

/-- **A property that is set as a whole**, unless it is a null link. -/
theorem ownWrites_set_eq (hc : k.Typed Placed.cls c) (hshape : k.shape = .sequence)
    (hk : ¬ k.Appends σ) :
    ownWrites K σ k c = [.set (written K c)] ∨ (c = [("", .null)] ∧ ownWrites K σ k c = []) := by
  cases k with
  | scalar =>
    obtain ⟨m, rfl⟩ := hc
    exact .inl rfl
  | list e =>
    left
    have happends : e.appends = false := by simpa [Kind.Appends] using hk
    rw [ownWrites_of_target_none hc rfl]
    show set_list_values e ((asked c).map fun d => K.serialize d.2) = _
    rw [set_list_values_of_not_appends happends, ← written_values,
      ← written_without_keys (hc.no_key (by simp [Kind.shape]))]
  | link T =>
    obtain ⟨s, rfl, hs⟩ := hc
    cases s with
    | null => exact .inr ⟨rfl, rfl⟩
    | scalar m => cases hs
    | object C => exact .inl rfl
  | list_link T => exact absurd trivial hk
  | _ => cases hshape

/-- **A list that is added to what is there**, one write for each of its elements. -/
theorem ownWrites_list_eq (hc : k.Typed Placed.cls c) (hshape : k.shape = .sequence)
    (hk : k.Appends σ) (hnull : k.SkipsNull → ∀ key, (key, .null) ∉ c) :
    ownWrites K σ k c = ((written K c).map Prod.snd).map .add ∨
      ownWrites K σ k c = ((written K c).map Prod.snd).zipIdx.map fun v => .insert v.2 v.1 := by
  cases k with
  | list e =>
    rw [ownWrites_of_target_none hc rfl]
    show set_list_values e ((asked c).map fun d => K.serialize d.2) = _ ∨
      set_list_values e ((asked c).map fun d => K.serialize d.2) = _
    rw [← written_values]
    exact set_list_values_of_appends hk _
  | list_link T =>
    rw [ownWrites_of_target hc rfl, written_of_target hc rfl]
    have heq := ownEntries_vector_link (fun e he => (hc e he).2) (hnull trivial)
      (σ T).is_embedded 0
    cases hembedded : (σ T).is_embedded with
    | false =>
      rw [hembedded] at heq
      left
      show ownEntries (accessor_vector_link (σ T).is_embedded) 0 c = _
      rw [hembedded]
      exact heq
    | true =>
      rw [hembedded] at heq
      right
      show ownEntries (accessor_vector_link (σ T).is_embedded) 0 c = _
      rw [hembedded]
      exact heq
  | scalar => cases hk
  | link _ => cases hk
  | _ => cases hshape

/-- **A set**: each of its elements is inserted. -/
theorem ownWrites_bag_eq (hc : k.Typed Placed.cls c) (hshape : k.shape = .bag)
    (hembedded : ∀ T, k = .set_link T → (σ T).is_embedded = false)
    (hnull : k.SkipsNull → ∀ key, (key, .null) ∉ c) :
    ownWrites K σ k c = ((written K c).map Prod.snd).map .set_insert := by
  cases k with
  | set o =>
    rw [ownWrites_of_target_none hc rfl, written_values, List.map_map]
    rfl
  | set_link T =>
    rw [ownWrites_of_target hc rfl, written_of_target hc rfl]
    show ownEntries (accessor_set_link (σ T).is_embedded) 0 c = _
    rw [hembedded T rfl]
    exact ownEntries_set_link (fun e he => (hc e he).2) (hnull trivial) 0
  | _ => cases hshape

/-- **A dictionary**: each of its entries is inserted, and nothing else. -/
theorem mem_ownWrites_keyed (hc : k.Typed Placed.cls c) (hshape : k.shape = .keyed) (w : Write) :
    w ∈ ownWrites K σ k c ↔ ∃ key m, (key, m) ∈ written K c ∧ w = .dictionary_insert key m := by
  cases k with
  | dictionary o =>
    rw [ownWrites_of_target_none hc rfl]
    show w ∈ (asked c).map _ ↔ _
    rw [List.mem_map]
    constructor
    · intro ⟨e, he, hw⟩
      exact ⟨e.1, _, written_of_asked he, hw.symm⟩
    · intro ⟨key, m, he, hw⟩
      obtain ⟨m', hm', rfl⟩ := mem_written.mp he
      exact ⟨(key, m'), hm', hw.symm⟩
  | dictionary_link T =>
    rw [ownWrites_of_target hc rfl, written_of_target hc rfl]
    exact mem_ownEntries_map_link hc.1 0 w
  | _ => cases hshape

/-- Added to nothing, an appended property gives what is written for it. -/
theorem run_ownWrites_of_appends (hc : k.Typed Placed.cls c) (hk : k.Appends σ)
    (hembedded : ∀ T, k = .set_link T → (σ T).is_embedded = false)
    (hnull : k.SkipsNull → ∀ key, (key, .null) ∉ c)
    (hnodup : k.shape = .bag → ((written K c).map Prod.snd).Nodup) :
    runWrites Write.apply (ownWrites K σ k c) [] = some (written K c) := by
  have hkeyed := hk.not_keyed
  have hwritten := written_without_keys (K := K) (hc.no_key hkeyed)
  cases hshape : k.shape with
  | sequence =>
    rcases ownWrites_list_eq hc hshape hk hnull with hws | hws
    · rw [hws, run_add, List.nil_append, ← hwritten]
    · rw [hws]
      show runWrites Write.apply ((((written K c).map Prod.snd).zipIdx ([] : Cell).length).map _) _ = _
      rw [run_insert, List.nil_append, ← hwritten]
  | bag =>
    rw [ownWrites_bag_eq hc hshape hembedded hnull,
      run_set_insert [] (hnodup hshape) (fun _ _ => List.not_mem_nil), List.nil_append, ← hwritten]
  | keyed => exact absurd hshape hkeyed

/-- Of nothing, nothing is written. -/
theorem ownWrites_nil_of_appends (hk : k.Appends σ) : ownWrites K σ k [] = [] := by
  cases k with
  | list e =>
    show set_list_values e [] ++ [] = []
    rcases set_list_values_of_appends hk [] with h | h
    · rw [h]
      rfl
    · rw [h]
      rfl
  | list_link T => rfl
  | set_link T => rfl
  | _ => cases hk

end OwnWrites

end RealmCpp.Accessors
