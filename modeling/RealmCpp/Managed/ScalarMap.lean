/-
  RealmCpp.Managed.ScalarMap
  ──────────────────────────
  **A MANAGED MAP OF SCALARS, AND THE MAP THAT IT IS MEANT TO BE.**

  `managed<std::map<std::string, T>>` gets a dictionary of the core for each call;
  `m[k]` is a box, which has a dictionary of its own and writes to it.  A program makes
  calls and keeps boxes; it is run side by side with one on a finite map.

    • `Enumeration` — the order of a dictionary, which the core may choose anew with each
      modification,
    • `ScalarMap` — the methods, `StdMap` — the meaning,
    • `MapCorresponds` — the same is found in both, and no other dictionary is touched,
    • `managed_map_simulates` — programs observe the same, for any conversions,
    • `scalar_map_simulates` — for the nine types of scalars.
-/
import RealmCpp.Managed.ScalarList

namespace RealmCpp.Managed

open RealmCpp.Library
open RealmCpp.Core

/-! ## §1. The dictionaries of the core. -/

/-- The order in which the core enumerates a dictionary. -/
structure Enumeration (C : Type) where
  arrange : List (String × C) → List (String × C)
  perm : ∀ l, (arrange l).Perm l

namespace DictionaryEntries

section Core

variable {C : Type} (E : Enumeration C)

/-- The entries after a modification, in the order that the core chooses. -/
def arranged (l : List (String × C)) (hl : (l.map Prod.fst).Nodup) : DictionaryEntries C :=
  ⟨E.arrange l, ((E.perm l).map Prod.fst).nodup_iff.mpr hl⟩

/-- `insert`. -/
def insert (d : DictionaryEntries C) (key : String) (value : C) : DictionaryEntries C :=
  arranged E (put d.entries key value) (nodup_put d.nodup key value)

/-- `get`; none where it raises. -/
def get (d : DictionaryEntries C) (key : String) : Option C := d.entries.lookup key

/-- `erase`, which raises where the key is not there. -/
def erase (d : DictionaryEntries C) (key : String) : Option (DictionaryEntries C) :=
  if key ∈ d.entries.map Prod.fst then
    some (arranged E (removeKey d.entries key) (nodup_removeKey d.nodup key))
  else none

/-- `find_any_key`; none is `size_t(-1)`. -/
def find_any_key (d : DictionaryEntries C) (value : String) : Option Nat :=
  d.entries.findIdx? fun e => e.1 == value

/-- `get_pair`. -/
def get_pair (d : DictionaryEntries C) (ndx : Nat) : Option (String × C) := d.entries[ndx]?

theorem get_insert (d : DictionaryEntries C) (key : String) (value : C) (k : String) :
    (d.insert E key value).get k = if k = key then some value else d.get k := by
  show (E.arrange (put d.entries key value)).lookup k = _
  rw [lookup_of_perm (E.perm _) (d.insert E key value).nodup, lookup_put]
  rfl

theorem get_eq_none_iff (d : DictionaryEntries C) (key : String) :
    d.get key = none ↔ key ∉ d.entries.map Prod.fst := by
  rw [← exists_lookup_iff, ← Option.ne_none_iff_exists', not_not]
  rfl

/-- An erasure of a key that is there. -/
theorem get_erase {d d' : DictionaryEntries C} {key : String} (h : d.erase E key = some d')
    (k : String) : d'.get k = if k = key then none else d.get k := by
  unfold erase at h
  split at h
  · rw [← Option.some.inj h]
    show (E.arrange (removeKey d.entries key)).lookup k = _
    rw [lookup_of_perm (E.perm _) (arranged E _ (nodup_removeKey d.nodup key)).nodup,
      lookup_removeKey]
    rfl
  · simp at h

/-- **The entry at the index that is found** has the key; none is found where there is
none. -/
theorem get_pair_find_any_key (d : DictionaryEntries C) (key : String) :
    (d.find_any_key key).map d.get_pair = (d.get key).map fun value => some (key, value) := by
  unfold find_any_key
  cases hfind : d.entries.findIdx? fun e => e.1 == key with
  | none =>
    have hnone : d.get key = none := by
      rw [get_eq_none_iff]
      intro hmem
      obtain ⟨e, he, hkey⟩ := List.mem_map.mp hmem
      have hno := List.findIdx?_eq_none_iff.mp hfind e he
      simp [hkey] at hno
    rw [hnone]
    rfl
  | some i =>
    obtain ⟨hi, hkey, -⟩ := List.findIdx?_eq_some_iff_getElem.mp hfind
    have hentry : (key, d.entries[i].2) = d.entries[i] := by
      rw [← eq_of_beq hkey]
    -- the entry at the index is the one with the key
    have hget : d.get key = some d.entries[i].2 := by
      apply lookup_of_mem d.nodup
      rw [hentry]
      exact List.getElem_mem hi
    rw [hget]
    show some d.entries[i]? = some (some (key, d.entries[i].2))
    rw [hentry, List.getElem?_eq_getElem hi]

/-- What is found is before `end()`. -/
theorem find_any_key_lt {d : DictionaryEntries C} {key : String} {i : Nat}
    (h : d.find_any_key key = some i) : i < d.entries.length :=
  (List.findIdx?_eq_some_iff_getElem.mp h).1

end Core

end DictionaryEntries

/-! ## §2. Calls. -/

/-- The calls.  `assign` is `m[k] = v` of a value, and `assign_move` of one that is moved;
`read` is `*m[k]`.  A program may also keep `m[k]`, as its box number `r`. -/
inductive MapCall (V : Type) where
  | assign (key : String) (o : V)
  | assign_move (key : String) (o : V)
  | read (key : String)
  | box (r : Nat) (key : String)
  | box_assign (r : Nat) (o : V)
  | box_read (r : Nat)
  | erase (key : String)
  | find (key : String)
  | contains_key (key : String)
  | size
  | iterate
  | detach

/-- What a program observes; none where a call raises, or where there is no such box.  Of
an iterator that is what it designates, unless it is `end()`; an iteration has no order. -/
abbrev MapCall.Answer {V : Type} : MapCall V → Type
  | assign _ _ | assign_move _ _ | box _ _ => Unit
  | box_assign _ _ | erase _ => Option Unit
  | read _ | box_read _ => Option V
  | find _ => Option (Option (String × V))
  | contains_key _ => Bool
  | size => Nat
  | iterate => Multiset (Option (String × V))
  | detach => Option (Multiset (String × V))

/-! ## §3. Managed maps. -/

/-- A dictionary of the core: that of an object, in a column. -/
abbrev DictionaryHandle := Nat × Nat

/-- `box<T>`. -/
structure ScalarBox where
  m_backing_map : DictionaryHandle
  m_key : String
  deriving DecidableEq

/-- The dictionaries, that of the property, and the boxes that the program keeps. -/
structure ScalarMap (C : Type) where
  store : DictionaryHandle → DictionaryEntries C
  handle : DictionaryHandle
  boxes : Nat → Option ScalarBox

namespace ScalarMap

section Methods

variable {V C : Type} (K : Conversions V C) (E : Enumeration C)

/-- `m_obj->get_dictionary(m_key)`, as it is now. -/
def dictionary (s : ScalarMap C) : DictionaryEntries C := s.store s.handle

/-- A dictionary is modified. -/
def write (s : ScalarMap C) (h : DictionaryHandle) (d : DictionaryEntries C) : ScalarMap C :=
  { s with store := Function.update s.store h d }

/-- `operator[]`. -/
def subscript (s : ScalarMap C) (key : String) : ScalarBox := ⟨s.handle, key⟩

/-- `box_base::operator=(const mapped_type&)`, with the `bridge::mixed` of the value, and
`box_base::operator=(mapped_type&&)`, with what `serialize` makes of it. -/
def set_box (s : ScalarMap C) (b : ScalarBox) (o : V) : ScalarMap C :=
  s.write b.m_backing_map ((s.store b.m_backing_map).insert E b.m_key (K.serialize o))

/-- `box<T>::operator*`. -/
def get_box (s : ScalarMap C) (b : ScalarBox) : Option V :=
  ((s.store b.m_backing_map).get b.m_key).bind K.deserialize

/-- `erase`. -/
def erase (s : ScalarMap C) (key : String) : Option Unit × ScalarMap C :=
  match s.dictionary.erase E key with
  | some d => (some (), s.write s.handle d)
  | none => (none, s)

/-- `iterator::operator*`. -/
def star (s : ScalarMap C) (it : Iterator) : Option (String × V) :=
  (map_iterator K.deserialize).star (fun _ => s.dictionary.entries) it

/-- `end`. -/
def «end» (s : ScalarMap C) : Iterator := ⟨s.dictionary.entries.length, 0⟩

/-- `find`. -/
def find (s : ScalarMap C) (key : String) : Iterator :=
  match s.dictionary.find_any_key key with
  | none => ⟨s.dictionary.entries.length, 0⟩
  | some i => ⟨i, 0⟩

/-- What a program sees of an iterator. -/
def observe (s : ScalarMap C) (it : Iterator) : Option (Option (String × V)) :=
  if it = s.«end» then none else some (s.star K it)

/-- `contains_key`. -/
def contains_key (s : ScalarMap C) (key : String) : Bool := (s.dictionary.find_any_key key).isSome

/-- What the loop from `begin()` to `end()` with `++it` visits; none where it does not
end. -/
def iterate (s : ScalarMap C) : List (Option (String × V)) :=
  match IteratorClass.loop (fun _ => s.dictionary.entries) 0 Iterator.increment
      s.dictionary.entries.length with
  | .returned its => its.map (s.star K)
  | _ => []

/-- `detach`: the loop, with `ret[k] = v` for each pair. -/
def detach (s : ScalarMap C) : Option (List (String × V)) :=
  ((s.iterate K).mapM id).map fun es => es.foldl (fun ret e => put ret e.1 e.2) []

/-- The calls, on a managed map. -/
def handle_call (s : ScalarMap C) : (c : MapCall V) → c.Answer × ScalarMap C
  | .assign key o => ((), s.set_box K E (s.subscript key) o)
  | .assign_move key o => ((), s.set_box K E (s.subscript key) o)
  | .read key => (s.get_box K (s.subscript key), s)
  | .box r key => ((), { s with boxes := Function.update s.boxes r (some (s.subscript key)) })
  | .box_assign r o =>
      match s.boxes r with
      | some b => (some (), s.set_box K E b o)
      | none => (none, s)
  | .box_read r => ((s.boxes r).bind (s.get_box K), s)
  | .erase key => s.erase E key
  | .find key => (s.observe K (s.find key), s)
  | .contains_key key => (s.contains_key key, s)
  | .size => (s.dictionary.entries.length, s)
  | .iterate => (s.iterate K, s)
  | .detach => ((s.detach K).map fun es => (es : Multiset (String × V)), s)

end Methods

end ScalarMap

/-! ## §4. What the calls are for. -/

/-- A finite map; a box is a key of it. -/
structure StdMap (V : Type) where
  map : DictionaryEntries V
  boxes : Nat → Option String

namespace StdMap

section Methods

variable {V : Type}

/-- The value at a key. -/
def set (t : StdMap V) (key : String) (o : V) : StdMap V :=
  { t with map := ⟨put t.map.entries key o, nodup_put t.map.nodup key o⟩ }

/-- An erasure, which raises where the key is not there. -/
def erase (t : StdMap V) (key : String) : Option Unit × StdMap V :=
  if key ∈ t.map.entries.map Prod.fst then
    (some (), { t with map := ⟨removeKey t.map.entries key, nodup_removeKey t.map.nodup key⟩ })
  else (none, t)

/-- The calls, as they are meant. -/
def handle_call (t : StdMap V) : (c : MapCall V) → c.Answer × StdMap V
  | .assign key o => ((), t.set key o)
  | .assign_move key o => ((), t.set key o)
  | .read key => (t.map.get key, t)
  | .box r key => ((), { t with boxes := Function.update t.boxes r (some key) })
  | .box_assign r o =>
      match t.boxes r with
      | some key => (some (), t.set key o)
      | none => (none, t)
  | .box_read r => ((t.boxes r).bind t.map.get, t)
  | .erase key => t.erase key
  | .find key => ((t.map.get key).map fun v => some (key, v), t)
  | .contains_key key => (decide (key ∈ t.map.entries.map Prod.fst), t)
  | .size => (t.map.entries.length, t)
  | .iterate => ((t.map.entries : Multiset (String × V)).map some, t)
  | .detach => (some (t.map.entries : Multiset (String × V)), t)

end Methods

end StdMap

/-! ## §5. Maps that correspond. -/

section Corresponds

variable {V C : Type}

/-- **The same is found in both maps**, as it is stored; boxes are of the dictionary of the
property, and the others, the `rest`, are as they were. -/
structure MapCorresponds (K : Conversions V C) (rest : DictionaryHandle → DictionaryEntries C)
    (s : ScalarMap C) (t : StdMap V) : Prop where
  contents : ∀ k, s.dictionary.get k = (t.map.get k).map K.serialize
  comesBack : ∀ k v, t.map.get k = some v → K.ComesBack v
  boxes : ∀ r, s.boxes r = (t.boxes r).map s.subscript
  others : ∀ h, h ≠ s.handle → s.store h = rest h

variable {K : Conversions V C} {rest : DictionaryHandle → DictionaryEntries C}
variable {s : ScalarMap C} {t : StdMap V}

/-- What is read of the value at a key. -/
theorem MapCorresponds.read (h : MapCorresponds K rest s t) (k : String) :
    (s.dictionary.get k).bind K.deserialize = t.map.get k := by
  rw [h.contents]
  cases hget : t.map.get k with
  | none => rfl
  | some v => exact h.comesBack k v hget

/-- **The entries are the same**, in whatever order. -/
theorem MapCorresponds.perm (h : MapCorresponds K rest s t) :
    s.dictionary.entries.Perm (t.map.entries.map fun e => (e.1, K.serialize e.2)) := by
  apply perm_of_lookup s.dictionary.nodup
  · rw [List.map_map]
    exact t.map.nodup
  · intro k
    rw [lookup_map_snd]
    exact h.contents k

theorem MapCorresponds.keys (h : MapCorresponds K rest s t) (k : String) :
    k ∈ s.dictionary.entries.map Prod.fst ↔ k ∈ t.map.entries.map Prod.fst := by
  have hperm := (h.perm.map Prod.fst).mem_iff (a := k)
  rw [List.map_map] at hperm
  exact hperm

/-- **A modification at one key** of the dictionary, and the same one of the map. -/
theorem corresponds_write (h : MapCorresponds K rest s t) {d : DictionaryEntries C}
    {m : DictionaryEntries V} (key : String) {o : Option V}
    (hd : ∀ k, d.get k = if k = key then o.map K.serialize else s.dictionary.get k)
    (hm : ∀ k, m.get k = if k = key then o else t.map.get k)
    (ho : ∀ v, o = some v → K.ComesBack v) :
    MapCorresponds K rest (s.write s.handle d) { t with map := m } where
  contents := by
    intro k
    show (Function.update s.store s.handle d s.handle).get k = (m.get k).map K.serialize
    rw [Function.update_self, hd, hm]
    by_cases hk : k = key
    · rw [if_pos hk, if_pos hk]
    · rw [if_neg hk, if_neg hk]
      exact h.contents k
  comesBack := by
    intro k v hv
    rw [hm] at hv
    by_cases hk : k = key
    · rw [if_pos hk] at hv
      exact ho v hv
    · rw [if_neg hk] at hv
      exact h.comesBack k v hv
  boxes := h.boxes
  others := by
    intro h' hne
    exact (Function.update_of_ne hne ..).trans (h.others h' hne)

variable (E : Enumeration C)

/-- **A write through a box** of the property: the maps correspond after it if the value
comes back. -/
theorem set_box_iff (h : MapCorresponds K rest s t) (key : String) (o : V) :
    MapCorresponds K rest (s.set_box K E (s.subscript key) o) (t.set key o) ↔ K.ComesBack o := by
  constructor
  · intro hafter
    refine hafter.comesBack key o ?_
    show (put t.map.entries key o).lookup key = some o
    rw [lookup_put, if_pos rfl]
  · intro ho
    apply corresponds_write h key (o := some o)
    · exact DictionaryEntries.get_insert E s.dictionary key (K.serialize o)
    · exact lookup_put t.map.entries key o
    · intro v hv
      rw [← Option.some.inj hv]
      exact ho

theorem erase_map_spec (h : MapCorresponds K rest s t) (key : String) :
    (s.erase E key).1 = (t.erase key).1 ∧
      MapCorresponds K rest (s.erase E key).2 (t.erase key).2 := by
  unfold ScalarMap.erase StdMap.erase
  by_cases hmem : key ∈ t.map.entries.map Prod.fst
  · obtain ⟨d, hd⟩ : ∃ d, s.dictionary.erase E key = some d :=
      ⟨_, if_pos ((h.keys key).mpr hmem)⟩
    rw [hd, if_pos hmem]
    refine ⟨rfl, corresponds_write h key (o := none) ?_ ?_ ?_⟩
    · exact DictionaryEntries.get_erase E hd
    · exact lookup_removeKey t.map.entries key
    · intro v hv
      simp at hv
  · -- the core raises, and the map is as it was
    have hd : s.dictionary.erase E key = none := if_neg (mt (h.keys key).mp hmem)
    rw [hd, if_neg hmem]
    exact ⟨rfl, h⟩

/-- **`find` designates the entry with the key**, and is `end()` where there is none. -/
theorem find_map_spec (h : MapCorresponds K rest s t) (key : String) :
    s.observe K (s.find key) = (t.map.get key).map fun v => some (key, v) := by
  have hpair := s.dictionary.get_pair_find_any_key key
  rw [h.contents] at hpair
  unfold ScalarMap.find
  cases hfind : s.dictionary.find_any_key key with
  | none =>
    rw [hfind] at hpair
    cases hget : t.map.get key with
    | none => exact if_pos rfl
    | some v => simp [hget] at hpair
  | some i =>
    rw [hfind] at hpair
    cases hget : t.map.get key with
    | none => simp [hget] at hpair
    | some v =>
      -- the index is before that of `end()`
      have hlt := DictionaryEntries.find_any_key_lt hfind
      have hend : Iterator.mk i 0 ≠ s.«end» := by
        intro heq
        injection heq with hindex
        omega
      rw [hget] at hpair
      have hentry : s.dictionary.entries[i]? = some (key, K.serialize v) := Option.some.inj hpair
      unfold ScalarMap.observe
      rw [if_neg hend]
      show some ((s.dictionary.entries[i]?).bind (map_iterator K.deserialize).element) = _
      rw [hentry]
      show some ((K.deserialize (K.serialize v)).map (key, ·)) = _
      rw [h.comesBack key v hget]
      rfl

theorem contains_key_spec (h : MapCorresponds K rest s t) (key : String) :
    s.contains_key key = decide (key ∈ t.map.entries.map Prod.fst) := by
  unfold ScalarMap.contains_key
  rw [Bool.eq_iff_iff, decide_eq_true_iff, ← h.keys key]
  have hpair := s.dictionary.get_pair_find_any_key key
  cases hfind : s.dictionary.find_any_key key with
  | none =>
    rw [hfind] at hpair
    have hnone : s.dictionary.get key = none := by simpa using hpair.symm
    simpa using (s.dictionary.get_eq_none_iff key).mp hnone
  | some i =>
    refine iff_of_true rfl ?_
    by_contra hno
    rw [hfind, (s.dictionary.get_eq_none_iff key).mpr hno] at hpair
    simp at hpair

/-- **The loop with `++it` visits every entry once.** -/
theorem iterate_map_eq (s : ScalarMap C) :
    s.iterate K = s.dictionary.entries.map (map_iterator K.deserialize).element := by
  unfold ScalarMap.iterate
  rw [IteratorClass.loop_increment (fun _ => s.dictionary.entries) 0
    (n := s.dictionary.entries.length) (Nat.le_refl _)]
  exact (map_iterator K.deserialize).elements_positions (fun _ => s.dictionary.entries) 0

/-- What is visited is the entries of the map, in some order. -/
theorem iterate_map_perm (h : MapCorresponds K rest s t) :
    (s.iterate K).Perm (t.map.entries.map some) := by
  rw [iterate_map_eq]
  apply (h.perm.map _).trans
  rw [List.map_map]
  apply List.Perm.of_eq
  apply List.map_congr_left
  intro e he
  show (K.deserialize (K.serialize e.2)).map (e.1, ·) = some e
  rw [h.comesBack e.1 e.2 (lookup_of_mem t.map.nodup he)]
  rfl

/-- **`detach` writes every entry once.** -/
theorem detach_map_spec (h : MapCorresponds K rest s t) :
    (s.detach K).map (fun es => (es : Multiset (String × V))) =
      some (t.map.entries : Multiset (String × V)) := by
  -- what is visited can be read, and so it is a list of entries
  obtain ⟨es, hes⟩ : ∃ es, (s.iterate K).mapM id = some es := by
    apply exists_mapM
    intro o ho
    obtain ⟨e, -, rfl⟩ := List.mem_map.mp ((iterate_map_perm h).mem_iff.mp ho)
    exact ⟨e, rfl⟩
  have hread : s.iterate K = es.map some := by
    rw [← List.forall₂_eq_eq_eq, List.forall₂_map_right_iff]
    exact mapM_eq_some_iff.mp hes
  have hperm : es.Perm t.map.entries := by
    have hmap := iterate_map_perm h
    rw [hread] at hmap
    exact (List.map_perm_map_iff (Option.some_injective _)).mp hmap
  have hnodup : (es.map Prod.fst).Nodup := (hperm.map Prod.fst).nodup_iff.mpr t.map.nodup
  unfold ScalarMap.detach
  rw [hes]
  show some (↑(es.foldl (fun ret e => put ret e.1 e.2) []) : Multiset (String × V)) = _
  rw [foldl_put (l := []) hnodup]
  exact congrArg some (Multiset.coe_eq_coe.mpr hperm)

/-! ## §6. Programs. -/

variable (K) in
/-- **What a call needs**: a value that is written has to come back. -/
def MapMeets : MapCall V → Prop
  | .assign _ o => K.ComesBack o
  | .assign_move _ o => K.ComesBack o
  | .box_assign _ o => K.ComesBack o
  | .read _ | .box _ _ | .box_read _ | .erase _ | .find _ | .contains_key _ | .size | .iterate
  | .detach => True

/-- A box that is written to is one that the program keeps. -/
def MapCall.Boxed (t : StdMap V) : MapCall V → Prop
  | .box_assign r _ => (t.boxes r).isSome = true
  | _ => True

/-- **A call does what it is for exactly where it has what it needs.** -/
theorem map_agreesAt_iff (h : MapCorresponds K rest s t) (c : MapCall V) (hc : c.Boxed t) :
    Client.AgreesAt (ScalarMap.handle_call K E) StdMap.handle_call (MapCorresponds K rest)
      (s, t) c ↔ MapMeets K c := by
  cases c with
  | assign key o | assign_move key o => exact (and_iff_right rfl).trans (set_box_iff E h key o)
  | read key => exact iff_of_true ⟨h.read key, h⟩ trivial
  | box r key =>
    refine iff_of_true ⟨rfl, h.contents, h.comesBack, ?_, h.others⟩ trivial
    intro r'
    show Function.update s.boxes r (some (s.subscript key)) r' =
      (Function.update t.boxes r (some key) r').map _
    by_cases hr : r' = r
    · rw [hr, Function.update_self, Function.update_self]
      rfl
    · rw [Function.update_of_ne hr, Function.update_of_ne hr]
      exact h.boxes r'
  | box_assign r o =>
    obtain ⟨key, hkey⟩ := Option.isSome_iff_exists.mp hc
    unfold Client.AgreesAt
    simp only [ScalarMap.handle_call, StdMap.handle_call, h.boxes r, hkey]
    exact (and_iff_right rfl).trans (set_box_iff E h key o)
  | box_read r =>
    refine iff_of_true ⟨?_, h⟩ trivial
    show (s.boxes r).bind (s.get_box K) = (t.boxes r).bind t.map.get
    rw [h.boxes r]
    cases t.boxes r with
    | none => rfl
    | some key => exact h.read key
  | erase key => exact iff_of_true (erase_map_spec E h key) trivial
  | find key => exact iff_of_true ⟨find_map_spec h key, h⟩ trivial
  | contains_key key => exact iff_of_true ⟨contains_key_spec h key, h⟩ trivial
  | size => exact iff_of_true ⟨h.perm.length_eq.trans (List.length_map _), h⟩ trivial
  | iterate => exact iff_of_true ⟨Multiset.coe_eq_coe.mpr (iterate_map_perm h), h⟩ trivial
  | detach => exact iff_of_true ⟨detach_map_spec h, h⟩ trivial

/-- An assignment to a box that is not there does nothing in either. -/
theorem map_handle_spec (h : MapCorresponds K rest s t) (c : MapCall V) (hc : MapMeets K c) :
    (s.handle_call K E c).1 = (t.handle_call c).1 ∧
      MapCorresponds K rest (s.handle_call K E c).2 (t.handle_call c).2 := by
  by_cases hboxed : c.Boxed t
  · exact (map_agreesAt_iff E h c hboxed).mpr hc
  cases c with
  | box_assign r o =>
    have hnone : t.boxes r = none := Option.not_isSome_iff_eq_none.mp hboxed
    simp only [ScalarMap.handle_call, StdMap.handle_call, h.boxes r, hnone]
    exact ⟨rfl, h⟩
  | _ => exact absurd trivial hboxed

/-- **A managed map simulates the map it is meant to be**, in every program whose calls
have what they need; of the programs that write to boxes that they keep, each call does the
same in no others. -/
theorem managed_map_simulates {ρ : Type} (p : Client (MapCall V) MapCall.Answer ρ)
    (h : MapCorresponds K rest s t) :
    let managed := ScalarMap.handle_call K E
    (p.Along (Client.beside managed StdMap.handle_call) (fun st c => c.Boxed st.2) (s, t) →
      (p.Along (Client.beside managed StdMap.handle_call)
          (Client.AgreesAt managed StdMap.handle_call (MapCorresponds K rest)) (s, t) ↔
        p.Along managed (fun _ c => MapMeets K c) s)) ∧
    (p.Along managed (fun _ c => MapMeets K c) s →
      (p.run managed s).1 = (p.run StdMap.handle_call t).1 ∧
        MapCorresponds K rest (p.run managed s).2 (p.run StdMap.handle_call t).2) := by
  intro managed
  constructor
  · intro hboxed
    rw [← Client.along_beside (h := managed) (P := fun _ c => MapMeets K c)
      StdMap.handle_call p s t]
    exact (Client.along_agreesAt_iff_of_along (R := MapCorresponds K rest)
      (P := fun _ c => MapMeets K c) (Q := fun st c => c.Boxed st.2)
      (fun _ _ c hR hc => map_agreesAt_iff E hR c hc) p h hboxed).1
  · exact Client.run_simulates (R := MapCorresponds K rest) (P := fun _ c => MapMeets K c)
      (fun _ _ c hR hc => map_handle_spec E hR c hc) p h

end Corresponds

/-- Dictionaries without entries. -/
def ScalarMap.start {C : Type} (handle : DictionaryHandle) : ScalarMap C :=
  ⟨fun _ => ⟨[], List.nodup_nil⟩, handle, fun _ => none⟩

def StdMap.start {V : Type} : StdMap V := ⟨⟨[], List.nodup_nil⟩, fun _ => none⟩

theorem mapCorresponds_start {V C : Type} (K : Conversions V C) (handle : DictionaryHandle) :
    MapCorresponds K (fun _ => ⟨[], List.nodup_nil⟩) (.start handle) .start :=
  ⟨fun _ => rfl, fun _ _ hv => absurd hv (by simp [StdMap.start, DictionaryEntries.get]),
    fun _ => rfl, fun _ _ => rfl⟩

/-! ## §7. Scalars. -/

/-- A map of scalars: `bridge::mixed` goes between. -/
def Alternative.map_conversions (m : Storage) (K : CoreConversions) (a : Alternative) :
    Conversions a.Value Mixed :=
  StorableType.conversions m K (.value (.alternative a))

/-- The decimals that are written are kept by their text. -/
def MapKeeps (K : CoreConversions) (a : Alternative) : MapCall a.Value → Prop
  | .assign _ o => a.Kept K o
  | .assign_move _ o => a.Kept K o
  | .box_assign _ o => a.Kept K o
  | .read _ | .box _ _ | .box_read _ | .erase _ | .find _ | .contains_key _ | .size | .iterate
  | .detach => True

theorem mapKeeps_iff (m : Storage) (K : CoreConversions) (a : Alternative) (c : MapCall a.Value) :
    MapKeeps K a c ↔ MapMeets (a.map_conversions m K) c := by
  have hkept : ∀ o, a.Kept K o ↔ (a.map_conversions m K).ComesBack o := fun o =>
    (StorableType.comesBack_iff m K (.value (.alternative a)) o).symm
  cases c with
  | assign key o | assign_move key o => exact hkept o
  | box_assign r o => exact hkept o
  | _ => exact Iff.rfl

/-- **A managed map of scalars simulates the map**, for each of the nine types and in every
program that writes decimals only that their text keeps.  In one that writes others (to
boxes that it keeps), not every call answers the same and leaves a map that is read as the
other. -/
theorem scalar_map_simulates {ρ : Type} (m : Storage) (K : CoreConversions) (a : Alternative)
    (E : Enumeration Mixed) (p : Client (MapCall a.Value) MapCall.Answer ρ)
    (rest : DictionaryHandle → DictionaryEntries Mixed) (s : ScalarMap Mixed) (t : StdMap a.Value)
    (h : MapCorresponds (a.map_conversions m K) rest s t) :
    let managed := ScalarMap.handle_call (a.map_conversions m K) E
    (p.Along (Client.beside managed StdMap.handle_call) (fun st c => c.Boxed st.2) (s, t) →
      (p.Along (Client.beside managed StdMap.handle_call)
          (Client.AgreesAt managed StdMap.handle_call
            (MapCorresponds (a.map_conversions m K) rest)) (s, t) ↔
        p.Along managed (fun _ c => MapKeeps K a c) s)) ∧
    (p.Along managed (fun _ c => MapKeeps K a c) s →
      (p.run managed s).1 = (p.run StdMap.handle_call t).1 ∧
        MapCorresponds (a.map_conversions m K) rest (p.run managed s).2
          (p.run StdMap.handle_call t).2) := by
  intro managed
  have hkeeps := Client.along_congr (h := managed) (fun _ c => mapKeeps_iff m K a c) p s
  rw [hkeeps]
  exact managed_map_simulates E p h

/-- New entries stand at the end. -/
def last_entry {C : Type} : Enumeration C := ⟨id, fun _ => .refl _⟩

/-- A value is written, found at its key, and erased; a second erasure raises. -/
theorem scalar_map_simulates_erase :
    let K := Alternative.bool.map_conversions .byValue plain_conversions
    let p : Client (MapCall Bool) MapCall.Answer (Option (Option (String × Bool)) × Option Unit) :=
      .call (.assign "a" true) fun _ => .call (.find "a") fun found =>
        .call (.erase "a") fun _ => .call (.erase "a") fun again => .ret (found, again)
    (p.run (ScalarMap.handle_call K last_entry) (.start (0, 0))).1 =
      (p.run StdMap.handle_call .start).1 := by
  intro K p
  exact ((scalar_map_simulates .byValue plain_conversions .bool last_entry p _ (.start (0, 0))
    .start (mapCorresponds_start K (0, 0))).2 ⟨trivial, trivial, trivial, trivial, trivial⟩).1

/-- `decimal128("-NaN")`. -/
def negative_NaN : Bid128 := (0, 0xFC00000000000000)

/-- Conversions in which every NaN has one text, as in the core. -/
def one_NaN : CoreConversions :=
  { plain_conversions with
    decimal_to_string := fun v =>
      if Bid128.unsigned v / 288230376151711744 = 31 then "NaN" else plain_conversions.decimal_to_string v
    decimal_of_string := fun text =>
      if text = "NaN" then (0, 0x7C00000000000000) else plain_conversions.decimal_of_string text }

/-- **`m["a"] = decimal128("-NaN")`**: what is read has other words. -/
theorem negative_NaN_changed :
    let K := Alternative.decimal128.map_conversions .byValue one_NaN
    let p : Client (MapCall Bid128) MapCall.Answer (Option Bid128) :=
      .call (.assign "a" negative_NaN) fun _ => .call (.read "a") fun v => .ret v
    (p.run (ScalarMap.handle_call K last_entry) (.start (0, 0))).1 ≠
      (p.run StdMap.handle_call .start).1 := by
  decide

end RealmCpp.Managed
