/-
  RealmCpp.Accessors.ManagedMap
  ─────────────────────────────
  **A MANAGED MAP OF OBJECTS, AND THE MAP OF POINTERS THAT IT IS MEANT TO BE.**

  `managed<std::map<std::string, T*>>` is a dictionary of links, of which some may be null.
  `m[key]` is a box: an assignment to it writes to the dictionary, where a pointer is given
  before the properties of its object are set.

    • `ManagedMap` — the methods, `PointerMap` — the meaning,
    • `MapCorresponds` — the dictionary has the pointers of the map,
    • `pointer_map_simulates` — programs observe the same, and the dictionary detaches to
      what was assigned exactly where no pointer in it is null.
-/
import RealmCpp.Accessors.ManagedVector

namespace RealmCpp.Accessors

open RealmCpp.Library
open RealmCpp.Core

variable {K : DecimalText}

/-! ## §1. Managed maps. -/

abbrev ManagedMap := PointerProperty

namespace ManagedMap

variable (K) (σ : Schemas) (l : ManagedMap) (S : Store)

/-- `m[key] = o` for a pointer: `create_and_insert_linked_object`, then the properties. -/
def assign (key : String) : Option Unmanaged → Option Store
  | some o => l.make K σ (fun m_obj => [.dictionary_insert key m_obj.link]) (fun _ => []) S o
  | none => S.writes (journal l.m_obj l.m_key [.dictionary_insert key .null])

/-- `m[key] = o` for a managed object. -/
def assign_managed (key : String) (o : Ref) : Option Store :=
  S.writes (journal l.m_obj l.m_key [.dictionary_insert key o.link])

/-- `*m[key]`; there is no valid object where the key or the link is missing. -/
def get_object (key : String) : Option Ref := ((l.cell S).lookup key).bind target

/-- `erase`, which raises where the key is not there. -/
def erase (key : String) : Option Store :=
  if key ∈ (l.cell S).map Prod.fst then
    some (S.setCell l.m_obj l.m_key (removeKey (l.cell S) key))
  else none

/-- `find_any_key(key) != size_t(-1)`. -/
def contains_key (key : String) : Bool :=
  ((l.cell S).findIdx? fun e => e.1 = key).isSome

/-- `detach`, to a depth of `n` calls; the properties of an object that is not valid cannot
be read. -/
def detach (n : Nat) : Option (List (String × Unmanaged)) :=
  (l.cell S).mapM fun e =>
    ((target e.2).bind (detachAs σ S n l.T)).map fun v => (e.1, v)

end ManagedMap

/-! ## §2. Calls. -/

/-- What a program does with a map, and with the objects that it has read, which it
numbers. -/
inductive MapCall where
  | assign (key : String) (o : Option Unmanaged)
  | assign_managed (key : String) (k : Nat)
  | get (key : String)
  | erase (key : String)
  | contains_key (key : String)
  | size

/-- What it observes: of an object whether there is one, and none where a call raises. -/
abbrev MapCall.Answer : MapCall → Type
  | assign _ _ | assign_managed _ _ | erase _ => Option Unit
  | get _ | contains_key _ => Bool
  | size => Nat

/-- `*m[key]`, of which the program keeps the object. -/
def ManagedMap.keep (l : ManagedMap) (s : PointerStore) (key : String) : Bool × PointerStore :=
  match l.get_object s.store key with
  | some y => (true, { s with kept := s.kept ++ [y] })
  | none => (false, s)

/-- The calls, on a managed map. -/
def ManagedMap.handle (K : DecimalText) (σ : Schemas) (l : ManagedMap) (s : PointerStore) :
    (c : MapCall) → c.Answer × PointerStore
  | .assign key o => s.modify (l.assign K σ s.store key o)
  | .assign_managed key k => s.modify (s.kept[k]?.bind (l.assign_managed s.store key))
  | .get key => l.keep s key
  | .erase key => s.modify (l.erase s.store key)
  | .contains_key key => (l.contains_key s.store key, s)
  | .size => ((l.cell s.store).length, s)

/-! ## §3. Maps of pointers. -/

/-- The objects that were made, and a map of pointers to them, of which some are null. -/
structure PointerMap where
  objects : List Unmanaged
  entries : List (String × Option Nat)
  kept : List Nat

namespace PointerMap

variable (t : PointerMap)

def empty : PointerMap := ⟨[], [], []⟩

def assign (key : String) : Option Unmanaged → PointerMap
  | some o =>
      { t with
        objects := t.objects ++ [o]
        entries := put t.entries key (some t.objects.length) }
  | none => { t with entries := put t.entries key none }

/-- A call that changes the entries, or raises. -/
def modify : Option (List (String × Option Nat)) → Option Unit × PointerMap
  | some entries => (some (), { t with entries := entries })
  | none => (none, t)

def keep (key : String) : Bool × PointerMap :=
  match (t.entries.lookup key).join with
  | some p => (true, { t with kept := t.kept ++ [p] })
  | none => (false, t)

def erase (key : String) : Option (List (String × Option Nat)) :=
  if key ∈ t.entries.map Prod.fst then some (removeKey t.entries key) else none

/-- The calls, as they are meant. -/
def handle : (c : MapCall) → c.Answer × PointerMap
  | .assign key o => (some (), t.assign key o)
  | .assign_managed key k => t.modify (t.kept[k]?.map fun p => put t.entries key (some p))
  | .get key => t.keep key
  | .erase key => t.modify (t.erase key)
  | .contains_key key => (decide (key ∈ t.entries.map Prod.fst), t)
  | .size => (t.entries.length, t)

/-- The object behind an entry. -/
def object (e : String × Option Nat) : Option Unmanaged := e.2.bind (t.objects[·]?)

end PointerMap

/-! ## §4. Maps that correspond. -/

/-- The link to an object in its row. -/
def rowLink (row : Nat → Ref) : Option Nat → Mixed
  | some p => (row p).link
  | none => .null

/-- The entries of a dictionary, from those of a map. -/
def rowEntries (row : Nat → Ref) (es : List (String × Option Nat)) : Cell :=
  es.map fun e => (e.1, rowLink row e.2)

section Corresponds

variable {σ : Schemas} {l : ManagedMap} {s : PointerStore} {t : PointerMap}
variable {row : Nat → Ref} {G : Ref → Prop} {es : List (String × Option Nat)}

theorem keys_rowEntries : (rowEntries row es).map Prod.fst = es.map Prod.fst := by
  unfold rowEntries
  rw [List.map_map]
  rfl

/-- The core's dictionary and the map replace and append at the same places. -/
theorem dictionaryInsert_rowEntries (key : String) (p : Option Nat) :
    dictionaryInsert key (rowLink row p) (rowEntries row es) = rowEntries row (put es key p) := by
  induction es with
  | nil => rfl
  | cons e es ih =>
    obtain ⟨j, q⟩ := e
    unfold put
    show dictionaryInsert key _ ((j, rowLink row q) :: rowEntries row es) = _
    unfold dictionaryInsert
    rw [ih]
    by_cases hj : j = key
    · rw [if_pos hj, if_pos hj.symm]
      rfl
    · rw [if_neg hj, if_neg (Ne.symm hj)]
      rfl

theorem removeKey_rowEntries (key : String) :
    removeKey (rowEntries row es) key = rowEntries row (removeKey es key) := by
  unfold removeKey rowEntries
  rw [List.filter_map]
  rfl

theorem lookup_rowEntries (key : String) :
    (rowEntries row es).lookup key = (es.lookup key).map (rowLink row) := by
  unfold rowEntries
  exact lookup_map_snd ..

theorem rowEntries_congr {row' : Nat → Ref}
    (h : ∀ key p, (key, some p) ∈ es → row p = row' p) :
    rowEntries row es = rowEntries row' es := by
  refine List.map_congr_left fun e he => ?_
  obtain ⟨key, p⟩ := e
  cases p with
  | none => rfl
  | some p =>
    show (key, (row p).link) = (key, (row' p).link)
    rw [h key p he]

theorem target_rowLink (p : Option Nat) : target (rowLink row p) = p.map row := by
  cases p <;> rfl

theorem stored_rowEntries {A : Objects} {n : Nat} (h : ∀ p, p < n → LinkTo A l.T (row p).link)
    (hes : ∀ key p, (key, some p) ∈ es → p < n) (hnodup : (es.map Prod.fst).Nodup) :
    (Kind.dictionary_link l.T).Stored A (rowEntries row es) := by
  refine ⟨fun e he => ?_, keys_rowEntries.symm ▸ hnodup⟩
  obtain ⟨⟨key, p⟩, hp, rfl⟩ := List.mem_map.mp he
  cases p with
  | none => exact .inl rfl
  | some p => exact .inr (h p (hes key p hp))

/-- **The dictionary has the pointers of the map**, by the rows of their objects. -/
structure MapCorrespondsAt (σ : Schemas) (l : ManagedMap) (s : PointerStore) (t : PointerMap)
    (row : Nat → Ref) (G : Ref → Prop) : Prop where
  populated : Populated σ l s.store t.objects row G
  contents : l.cell s.store = rowEntries row t.entries
  nodup : (t.entries.map Prod.fst).Nodup
  kept : s.kept = t.kept.map row
  bound : ∀ key p, (key, some p) ∈ t.entries → p < t.objects.length
  kept_bound : ∀ p ∈ t.kept, p < t.objects.length

/-- The maps correspond. -/
def MapCorresponds (σ : Schemas) (l : ManagedMap) (s : PointerStore) (t : PointerMap) : Prop :=
  ∃ row G, MapCorrespondsAt σ l s t row G

namespace MapCorrespondsAt

theorem keep_agrees (h : MapCorrespondsAt σ l s t row G) (key : String) :
    (l.keep s key).1 = (t.keep key).1 ∧ MapCorresponds σ l (l.keep s key).2 (t.keep key).2 := by
  have hobject : l.get_object s.store key = (t.entries.lookup key).join.map row := by
    unfold ManagedMap.get_object
    rw [h.contents, lookup_rowEntries]
    cases t.entries.lookup key with
    | none => rfl
    | some p => exact target_rowLink p
  unfold ManagedMap.keep PointerMap.keep
  rw [hobject]
  cases hp : (t.entries.lookup key).join with
  | none => exact ⟨rfl, row, G, h⟩
  | some p =>
    refine ⟨rfl, row, G, { h with kept := ?_, kept_bound := fun q hq => ?_ }⟩
    · show s.kept ++ [row p] = (t.kept ++ [p]).map row
      rw [h.kept, List.map_append]
      rfl
    · rcases List.mem_append.mp hq with hq | hq
      · exact h.kept_bound q hq
      · rw [List.mem_singleton.mp hq]
        exact h.bound key p (mem_of_lookup (Option.join_eq_some_iff.mp hp))

theorem contains_key_agrees (h : MapCorrespondsAt σ l s t row G) (key : String) :
    l.contains_key s.store key = decide (key ∈ t.entries.map Prod.fst) := by
  have hkeys : (rowEntries row t.entries).map Prod.fst = t.entries.map Prod.fst := keys_rowEntries
  unfold ManagedMap.contains_key
  rw [h.contents, List.findIdx?_isSome, ← hkeys, Bool.eq_iff_iff]
  simp

variable (hσ : σ.WellFormed) (hl : (l.m_key, .dictionary_link l.T) ∈ (σ l.m_obj.table).properties)
include hσ hl

/-- **Other pointers in the map**, and the same ones in the dictionary. -/
theorem setEntries (h : MapCorrespondsAt σ l s t row G) (hnodup : (es.map Prod.fst).Nodup)
    (hes : ∀ key p, (key, some p) ∈ es → p < t.objects.length) :
    MapCorrespondsAt σ l
      { s with store := s.store.setCell l.m_obj l.m_key (rowEntries row es) }
      { t with entries := es } row G where
  populated := h.populated.setCell hσ hl (fun e he => by cases he)
    (stored_rowEntries (fun p hp => h.populated.linkTo hp) hes hnodup)
  contents := Store.setCell_cell_self ..
  nodup := hnodup
  kept := h.kept
  bound := hes
  kept_bound := h.kept_bound

/-- What is written at a key. -/
theorem put_agrees (h : MapCorrespondsAt σ l s t row G) (key : String) (p : Option Nat)
    (hp : ∀ q, p = some q → q < t.objects.length) :
    (s.modify (s.store.writes
        (journal l.m_obj l.m_key [.dictionary_insert key (rowLink row p)]))).1 = some () ∧
      MapCorresponds σ l
        (s.modify (s.store.writes
          (journal l.m_obj l.m_key [.dictionary_insert key (rowLink row p)]))).2
        { t with entries := put t.entries key p } := by
  have hwrites : s.store.writes (journal l.m_obj l.m_key [.dictionary_insert key (rowLink row p)]) =
      some (s.store.setCell l.m_obj l.m_key (rowEntries row (put t.entries key p))) := by
    rw [← dictionaryInsert_rowEntries, ← h.contents]
    rfl
  rw [hwrites]
  refine ⟨rfl, row, G, h.setEntries hσ hl (nodup_put h.nodup key p) fun j q hq => ?_⟩
  rcases mem_put hq with hq | hq
  · exact h.bound j q hq
  · exact hp q (congrArg Prod.snd hq).symm

theorem assign_agrees (h : MapCorrespondsAt σ l s t row G) (key : String) {o : Unmanaged}
    (ho : o.Makes K σ l.T s.store) :
    (s.modify (l.assign K σ s.store key (some o))).1 = some () ∧
      MapCorresponds σ l (s.modify (l.assign K σ s.store key (some o))).2
        (t.assign key (some o)) := by
  have hwrites : ∀ y : Ref, runWrites Write.apply ([.dictionary_insert key y.link] ++ [])
      (l.cell s.store) = some (dictionaryInsert key y.link (rowEntries row t.entries)) := by
    intro y
    rw [h.contents]
    rfl
  obtain ⟨S', row', G', hmake, hpopulated, hold, hcell⟩ := h.populated.make hσ hl
    (fun e he => by cases he) ho hwrites fun A y hlinks hy => by
      have hstored := stored_rowEntries hlinks h.bound h.nodup
      refine ⟨fun e he => ?_, nodup_keys_dictionaryInsert hstored.2⟩
      rcases mem_dictionaryInsert he with he | he
      · exact hstored.1 e he
      · rw [he]
        exact .inr hy
  -- one object more, and its link at the key
  have hassign : l.assign K σ s.store key (some o) = some S' := hmake
  rw [hassign]
  refine ⟨rfl, row', G', hpopulated, ?_, nodup_put h.nodup key _, ?_, ?_, ?_⟩
  · show l.cell S' = rowEntries row' (put t.entries key (some t.objects.length))
    have hrows : rowEntries row t.entries = rowEntries row' t.entries :=
      rowEntries_congr fun j p hp => (hold p (h.bound j p hp)).symm
    rw [hcell, hrows]
    exact dictionaryInsert_rowEntries key (some t.objects.length)
  · refine h.kept.trans (List.map_congr_left fun p hp => ?_)
    exact (hold p (h.kept_bound p hp)).symm
  · intro j p hp
    refine lt_length_concat t.objects o ?_
    rcases mem_put hp with hp | hp
    · exact Nat.le_of_lt (h.bound j p hp)
    · cases hp
      exact Nat.le_refl _
  · intro p hp
    exact lt_length_concat t.objects o (Nat.le_of_lt (h.kept_bound p hp))

theorem assign_managed_agrees (h : MapCorrespondsAt σ l s t row G) (key : String) (k : Nat) :
    (s.modify (s.kept[k]?.bind (l.assign_managed s.store key))).1 =
        (t.modify (t.kept[k]?.map fun p => put t.entries key (some p))).1 ∧
      MapCorresponds σ l (s.modify (s.kept[k]?.bind (l.assign_managed s.store key))).2
        (t.modify (t.kept[k]?.map fun p => put t.entries key (some p))).2 := by
  rw [h.kept, List.getElem?_map]
  cases hp : t.kept[k]? with
  | none => exact ⟨rfl, row, G, h⟩
  | some p =>
    refine h.put_agrees hσ hl key (some p) fun q hq => ?_
    obtain rfl := Option.some.inj hq
    exact h.kept_bound p (List.mem_of_getElem? hp)

theorem erase_agrees (h : MapCorrespondsAt σ l s t row G) (key : String) :
    (s.modify (l.erase s.store key)).1 = (t.modify (t.erase key)).1 ∧
      MapCorresponds σ l (s.modify (l.erase s.store key)).2 (t.modify (t.erase key)).2 := by
  unfold ManagedMap.erase PointerMap.erase
  rw [h.contents, keys_rowEntries, removeKey_rowEntries]
  split
  · refine ⟨rfl, row, G, h.setEntries hσ hl (nodup_removeKey h.nodup key) fun j p hp => ?_⟩
    exact h.bound j p (List.mem_of_mem_filter hp)
  · exact ⟨rfl, row, G, h⟩

omit hl in
/-- **What the pointers point to comes back** from `detach`, if none of them is null. -/
theorem detach (h : MapCorrespondsAt σ l s t row G) :
    ∃ depth, ∀ n, depth ≤ n → (∀ e ∈ t.entries, e.2 ≠ none) →
      ∃ ds, l.detach σ s.store n = some ds ∧
        List.Forall₂ (fun d e => d.1 = e.1 ∧ ∃ v, t.object e = some v ∧ SameTree σ d.2 v) ds
          t.entries := by
  obtain ⟨depth, hdepth⟩ := h.populated.detach hσ
  refine ⟨depth, fun n hn hnull => ?_⟩
  unfold ManagedMap.detach
  rw [h.contents]
  have hbound := h.bound
  generalize t.entries = es at hbound hnull
  induction es with
  | nil => exact ⟨[], rfl, .nil⟩
  | cons e es ih =>
    obtain ⟨key, p⟩ := e
    obtain ⟨p, rfl⟩ := Option.ne_none_iff_exists'.mp (hnull _ List.mem_cons_self)
    obtain ⟨ds, hds, hsame⟩ := ih (fun j q hq => hbound j q (List.mem_cons_of_mem _ hq))
      fun e he => hnull e (List.mem_cons_of_mem _ he)
    have hv := List.getElem?_eq_getElem (hbound key p List.mem_cons_self)
    obtain ⟨d, hd, hdv⟩ := hdepth n hn p _ hv
    refine ⟨(key, d) :: ds, ?_, .cons ⟨rfl, _, hv, hdv⟩ hsame⟩
    unfold rowEntries at hds ⊢
    rw [List.map_cons, List.mapM_cons, hds]
    show (((detachAs σ s.store n l.T (row p)).map _).bind _) = _
    rw [hd]
    rfl

omit hσ hl in
/-- **A null pointer does not come back**, and nothing else with it. -/
theorem detach_null (h : MapCorrespondsAt σ l s t row G) {key : String}
    (hnull : (key, none) ∈ t.entries) (n : Nat) : l.detach σ s.store n = none := by
  unfold ManagedMap.detach
  rw [h.contents]
  -- the entry of the null link is among those that are read
  have hmem : (key, Mixed.null) ∈ rowEntries row t.entries :=
    List.mem_map_of_mem (f := fun e => (e.1, rowLink row e.2)) hnull
  rw [Option.eq_none_iff_forall_not_mem]
  intro ds hds
  obtain ⟨d, -, hd⟩ := exists_of_mem_forall₂ (mapM_eq_some_iff.mp hds) hmem
  cases hd

end MapCorrespondsAt

/-- **What a call needs**: to be assigned, an object that can be made; a managed one that is
not embedded, as it would then have two owners. -/
def MapMeets (K : DecimalText) (σ : Schemas) (l : ManagedMap) (st : PointerStore × PointerMap) : MapCall → Prop
  | .assign _ (some o) => o.Makes K σ l.T st.1.store
  | .assign_managed _ _ => (σ l.T).is_embedded = false
  | _ => True

variable (hσ : σ.WellFormed) (hl : (l.m_key, .dictionary_link l.T) ∈ (σ l.m_obj.table).properties)
include hσ hl

/-- A call that has what it needs does what it is meant to do. -/
theorem map_handle_spec (s : PointerStore) (t : PointerMap) (c : MapCall)
    (h : MapCorresponds σ l s t) (hc : MapMeets K σ l (s, t) c) :
    (l.handle K σ s c).1 = (t.handle c).1 ∧ MapCorresponds σ l (l.handle K σ s c).2 (t.handle c).2 := by
  obtain ⟨row, G, h⟩ := h
  cases c with
  | assign key o =>
    cases o with
    | some o => exact h.assign_agrees hσ hl key hc
    | none => exact h.put_agrees hσ hl key none fun q hq => by cases hq
  | assign_managed key k => exact h.assign_managed_agrees hσ hl key k
  | get key => exact h.keep_agrees key
  | erase key => exact h.erase_agrees hσ hl key
  | contains_key key => exact ⟨h.contains_key_agrees key, row, G, h⟩
  | size =>
    refine ⟨?_, row, G, h⟩
    show (l.cell s.store).length = t.entries.length
    rw [h.contents]
    exact List.length_map ..

/-- **A managed map of objects simulates a map of pointers.**  A program that starts with an
empty one, and assigns only objects that can be stored and read, with new primary keys,
observes what it would of a map of pointers.  Where it ends the dictionary detaches, to
objects that are equal to those the pointers point to, exactly if no pointer is null. -/
theorem pointer_map_simulates {S : Store} (hS : Store.WellFormed σ S)
    (howner : S.live l.m_obj = true) (hempty : l.cell S = []) {ρ : Type}
    (p : Client MapCall MapCall.Answer ρ)
    (hp : p.Along (Client.beside (l.handle K σ) PointerMap.handle) (MapMeets K σ l)
      (⟨S, []⟩, .empty)) :
    (p.run (l.handle K σ) ⟨S, []⟩).1 = (p.run PointerMap.handle .empty).1 ∧
      ((∃ key, (key, none) ∈ (p.run PointerMap.handle .empty).2.entries) →
        ∀ n, l.detach σ (p.run (l.handle K σ) ⟨S, []⟩).2.store n = none) ∧
      ((∀ key, (key, none) ∉ (p.run PointerMap.handle .empty).2.entries) →
        ∃ depth, ∀ n, depth ≤ n → ∃ ds,
          l.detach σ (p.run (l.handle K σ) ⟨S, []⟩).2.store n = some ds ∧
            List.Forall₂ (fun d e => d.1 = e.1 ∧
                ∃ v, (p.run PointerMap.handle .empty).2.object e = some v ∧ SameTree σ d.2 v)
              ds (p.run PointerMap.handle .empty).2.entries) := by
  have hstart : MapCorresponds σ l ⟨S, []⟩ .empty := by
    refine ⟨fun _ => l.m_obj, fun _ => False, .nil hS howner, hempty, List.nodup_nil, rfl, ?_, ?_⟩
    · intro key p hp
      cases hp
    · intro p hp
      cases hp
  obtain ⟨hresult, row, G, hend⟩ := Client.run_simulates_beside (R := MapCorresponds σ l)
    (P := MapMeets K σ l) (fun s t c => map_handle_spec hσ hl s t c) p hstart hp
  refine ⟨hresult, fun ⟨key, hkey⟩ => hend.detach_null hkey, fun hnull => ?_⟩
  obtain ⟨depth, hdepth⟩ := hend.detach hσ
  refine ⟨depth, fun n hn => hdepth n hn fun e he hnone => hnull e.1 ?_⟩
  rw [← hnone]
  exact he

end Corresponds

def namedDogs : ManagedMap := ⟨⟨⟨0⟩, ⟨0⟩⟩, "named", ⟨1⟩⟩

/-- A dog gets two names, and loses the first one. -/
def nameProgram : Client MapCall MapCall.Answer (Nat × Bool) :=
  .call (.assign "rex" (some (dog 1))) fun _ => .call (.get "rex") fun _ =>
    .call (.assign_managed "max" 0) fun _ => .call (.assign "rex" none) fun _ =>
      .call .size fun size => .call (.erase "rex") fun _ =>
        .call (.contains_key "max") fun contains => .ret (size, contains)

theorem pointer_map_simulates_names :
    (nameProgram.run (namedDogs.handle integer_text dogSchemas) ⟨dogStore, []⟩).1 =
        (nameProgram.run PointerMap.handle .empty).1 ∧
      ((∃ key, (key, none) ∈ (nameProgram.run PointerMap.handle .empty).2.entries) →
        ∀ n, namedDogs.detach dogSchemas
          (nameProgram.run (namedDogs.handle integer_text dogSchemas) ⟨dogStore, []⟩).2.store n = none) ∧
      ((∀ key, (key, none) ∉ (nameProgram.run PointerMap.handle .empty).2.entries) →
        ∃ depth, ∀ n, depth ≤ n → ∃ ds,
          namedDogs.detach dogSchemas
              (nameProgram.run (namedDogs.handle integer_text dogSchemas) ⟨dogStore, []⟩).2.store n =
            some ds ∧
          List.Forall₂ (fun d e => d.1 = e.1 ∧
              ∃ v, (nameProgram.run PointerMap.handle .empty).2.object e = some v ∧
                SameTree dogSchemas d.2 v)
            ds (nameProgram.run PointerMap.handle .empty).2.entries) :=
  pointer_map_simulates dogSchemas_wellFormed (l := namedDogs)
    (List.mem_cons_of_mem _ List.mem_cons_self) dogStore_wellFormed rfl rfl nameProgram
    ⟨dog_makes rfl, trivial, rfl, trivial, trivial, trivial, trivial, trivial⟩

example : (nameProgram.run (namedDogs.handle integer_text dogSchemas) ⟨dogStore, []⟩).1 = (2, true) := by
  decide

end RealmCpp.Accessors
