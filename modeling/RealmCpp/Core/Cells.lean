/-
  RealmCpp.Core.Cells
  ───────────────────
  **CELLS, AND RUNS OF WRITES TO ONE CELL.**

  A column of an object holds a cell: one entry for a plain value or a link, one
  entry an element for a list or a set, keyed entries for a dictionary.  Reading
  gives back what was written; an insertion past the end of a list raises.

    • `Write.apply` — the effect of one write, `mem_of_run` — what is in a cell
      was there or has been put there,
    • `length_of_appends` — what additions and insertions add up to,
    • `mem_of_set_inserts`, `lookup_of_dictionary_inserts` — what a set and a
      dictionary hold after insertions.
-/
import RealmCpp.Core.Data
import RealmCpp.Library.Assoc
import RealmCpp.Library.Journal

namespace RealmCpp.Core

open RealmCpp.Library

/-! ## §1. Cells. -/

/-- What a column of an object holds.  Only the entries of a dictionary have
keys of their own; the others have the empty one. -/
abbrev Cell := List (String × Mixed)

/-- The cell of a plain value or a link. -/
def Cell.one (m : Mixed) : Cell := [("", m)]

theorem Cell.one_inj {m m' : Mixed} : Cell.one m = Cell.one m' ↔ m = m' := by
  simp [Cell.one]

/-- A write to a column. -/
inductive Write where
  | set (c : Cell)
  | add (m : Mixed)
  | insert (i : Nat) (m : Mixed)
  | set_insert (m : Mixed)
  | dictionary_insert (key : String) (m : Mixed)
  deriving DecidableEq, Repr

/-- Insertion at a key: the value is replaced where the key is there. -/
def dictionaryInsert (key : String) (m : Mixed) : Cell → Cell
  | [] => [(key, m)]
  | (k, n) :: c => if k = key then (k, m) :: c else (k, n) :: dictionaryInsert key m c

/-- The cell after a write; none where it raises. -/
def Write.apply : Write → Cell → Option Cell
  | set c, _ => some c
  | add m, c => some (c ++ [("", m)])
  | insert i m, c => if i ≤ c.length then some (c.insertIdx i ("", m)) else none
  | set_insert m, c => some (if ("", m) ∈ c then c else c ++ [("", m)])
  | dictionary_insert key m, c => some (dictionaryInsert key m c)

/-- The entries that a write puts into a cell. -/
def Write.puts : Write → Cell
  | set c => c
  | add m | insert _ m | set_insert m => Cell.one m
  | dictionary_insert key m => [(key, m)]

theorem mem_dictionaryInsert {key : String} {m : Mixed} {c : Cell} {e : String × Mixed}
    (h : e ∈ dictionaryInsert key m c) : e ∈ c ∨ e = (key, m) := by
  induction c with
  | nil => exact .inr (List.mem_singleton.mp h)
  | cons e' c ih =>
    obtain ⟨j, n⟩ := e'
    unfold dictionaryInsert at h
    split at h
    · next hj =>
      rcases List.mem_cons.mp h with h | h
      · rw [h, hj]
        exact .inr rfl
      · exact .inl (List.mem_cons_of_mem _ h)
    · rcases List.mem_cons.mp h with h | h
      · rw [h]
        exact .inl List.mem_cons_self
      · exact (ih h).imp_left (List.mem_cons_of_mem _)

/-- A write puts nothing else into a cell. -/
theorem mem_of_apply {w : Write} {c c' : Cell} (h : w.apply c = some c') {e : String × Mixed}
    (he : e ∈ c') : e ∈ c ∨ e ∈ w.puts := by
  cases w with
  | set d =>
    cases h
    exact .inr he
  | add m =>
    cases h
    exact List.mem_append.mp he
  | insert i m =>
    obtain ⟨hi, h⟩ := Option.ite_none_right_eq_some.mp h
    cases h
    rcases (List.mem_insertIdx hi).mp he with rfl | he
    · exact .inr List.mem_cons_self
    · exact .inl he
  | set_insert m =>
    cases h
    split at he
    · exact .inl he
    · exact List.mem_append.mp he
  | dictionary_insert key m =>
    cases h
    exact (mem_dictionaryInsert he).imp_right List.mem_singleton.mpr

/-- **What is in a cell** was there, or one of the writes has put it there. -/
theorem mem_of_run {ws : List Write} {c c' : Cell} (h : runWrites Write.apply ws c = some c')
    {e : String × Mixed} (he : e ∈ c') : e ∈ c ∨ ∃ w ∈ ws, e ∈ w.puts := by
  have hall := runWrites_invariant
    (P := fun d => ∀ e ∈ d, e ∈ c ∨ ∃ w ∈ ws, e ∈ w.puts) ?_ h fun _ he => .inl he
  · exact hall e he
  · intro w hw d d' hd happly e he
    rcases mem_of_apply happly he with he | he
    · exact hd e he
    · exact .inr ⟨w, hw, he⟩

/-! ## §2. Additions and insertions. -/

/-- Writes that make a list longer by one. -/
def Write.Appends : Write → Prop
  | add _ | insert _ _ => True
  | _ => False

theorem length_of_append {w : Write} (hw : w.Appends) {c c' : Cell} (h : w.apply c = some c') :
    c'.length = c.length + 1 := by
  cases w with
  | add m =>
    cases h
    simp
  | insert i m =>
    obtain ⟨hi, h⟩ := Option.ite_none_right_eq_some.mp h
    cases h
    exact List.length_insertIdx_of_le_length hi _
  | set _ => cases hw
  | set_insert _ => cases hw
  | dictionary_insert _ _ => cases hw

/-- **What additions and insertions add up to.** -/
theorem length_of_appends {ws : List Write} (hws : ∀ w ∈ ws, w.Appends) {c c' : Cell}
    (h : runWrites Write.apply ws c = some c') : c'.length = c.length + ws.length := by
  induction ws generalizing c with
  | nil =>
    cases h
    rfl
  | cons w ws ih =>
    obtain ⟨c₁, hw, hrest⟩ := Option.bind_eq_some_iff.mp h
    have hlen := length_of_append (hws w List.mem_cons_self) hw
    have hlen' := ih (fun w' hw' => hws w' (List.mem_cons_of_mem w hw')) hrest
    rw [List.length_cons]
    omega

/-- Insertions at an index that the writes before them have made room for, where
there is room for `k` at the beginning. -/
def InRange : Nat → List Write → Prop
  | _, [] => True
  | k, .insert i _ :: ws => i ≤ k ∧ InRange (k + 1) ws
  | k, _ :: ws => InRange (k + 1) ws

theorem InRange.mono {ws : List Write} {j k : Nat} (hjk : j ≤ k) (h : InRange j ws) :
    InRange k ws := by
  induction ws generalizing j k with
  | nil => trivial
  | cons w ws ih =>
    have hnext : InRange (j + 1) ws → InRange (k + 1) ws := ih (Nat.succ_le_succ hjk)
    cases w with
    | insert i m => exact ⟨Nat.le_trans h.1 hjk, hnext h.2⟩
    | set c => exact hnext h
    | add m => exact hnext h
    | set_insert m => exact hnext h
    | dictionary_insert key m => exact hnext h

theorem InRange.append {ws ws' : List Write} {k : Nat} (h : InRange k ws) (h' : InRange 0 ws') :
    InRange k (ws ++ ws') := by
  induction ws generalizing k with
  | nil => exact h'.mono (Nat.zero_le k)
  | cons w ws ih =>
    cases w with
    | insert i m => exact ⟨h.1, ih h.2⟩
    | set c => exact ih (k := k + 1) h
    | add m => exact ih (k := k + 1) h
    | set_insert m => exact ih (k := k + 1) h
    | dictionary_insert key m => exact ih (k := k + 1) h

/-- Writes of which none is at an index. -/
theorem inRange_of_no_insert {ws : List Write} (h : ∀ i m, .insert i m ∉ ws) (k : Nat) :
    InRange k ws := by
  induction ws generalizing k with
  | nil => trivial
  | cons w ws ih =>
    have hrest := ih (fun i m hm => h i m (List.mem_cons_of_mem _ hm)) (k + 1)
    cases w with
    | insert i m => exact absurd List.mem_cons_self (h i m)
    | set c => exact hrest
    | add m => exact hrest
    | set_insert m => exact hrest
    | dictionary_insert key m => exact hrest

theorem inRange_insert (ms : List Mixed) (k : Nat) :
    InRange k ((ms.zipIdx k).map fun v => .insert v.2 v.1) := by
  induction ms generalizing k with
  | nil => trivial
  | cons m ms ih => exact ⟨Nat.le_refl k, ih (k + 1)⟩

/-- **Additions and insertions in range do not raise.** -/
theorem exists_run_of_inRange {ws : List Write} (hws : ∀ w ∈ ws, w.Appends) {c : Cell}
    (h : InRange c.length ws) : ∃ c', runWrites Write.apply ws c = some c' := by
  induction ws generalizing c with
  | nil => exact ⟨c, rfl⟩
  | cons w ws ih =>
    have hw := hws w List.mem_cons_self
    have hstep : ∃ c₁, w.apply c = some c₁ ∧ InRange (c.length + 1) ws := by
      cases w with
      | add m => exact ⟨_, rfl, h⟩
      | insert i m => exact ⟨_, if_pos h.1, h.2⟩
      | set _ => cases hw
      | set_insert _ => cases hw
      | dictionary_insert _ _ => cases hw
    obtain ⟨c₁, happly, hrange⟩ := hstep
    rw [← length_of_append hw happly] at hrange
    obtain ⟨c', hc'⟩ := ih (fun w' hw' => hws w' (List.mem_cons_of_mem _ hw')) hrange
    exact ⟨c', Option.bind_eq_some_iff.mpr ⟨c₁, happly, hc'⟩⟩

/-- Adding one after the other. -/
theorem run_add (ms : List Mixed) (c : Cell) :
    runWrites Write.apply (ms.map .add) c = some (c ++ ms.map ("", ·)) := by
  induction ms generalizing c with
  | nil => simp [runWrites]
  | cons m ms ih =>
    show runWrites Write.apply (ms.map .add) (c ++ [("", m)]) = _
    rw [ih, List.append_assoc]
    rfl

/-- Inserting at the index that each element has. -/
theorem run_insert (ms : List Mixed) (c : Cell) :
    runWrites Write.apply ((ms.zipIdx c.length).map fun v => .insert v.2 v.1) c
      = some (c ++ ms.map ("", ·)) := by
  induction ms generalizing c with
  | nil => simp [runWrites]
  | cons m ms ih =>
    have hstep : Write.apply (.insert c.length m) c = some (c ++ [("", m)]) := by
      show (if c.length ≤ c.length then _ else _) = _
      rw [if_pos (Nat.le_refl _), List.insertIdx_length_self]
    rw [List.zipIdx_cons, List.map_cons]
    show (Write.apply (.insert c.length m) c).bind _ = _
    rw [hstep]
    have hlength : c.length + 1 = (c ++ [("", m)]).length := by simp
    show runWrites Write.apply ((ms.zipIdx (c.length + 1)).map _) (c ++ [("", m)]) = _
    rw [hlength, ih, List.append_assoc]
    rfl

/-! ## §3. Sets. -/

theorem mem_of_set_insert {m : Mixed} {c c' : Cell}
    (h : Write.apply (.set_insert m) c = some c') (e : String × Mixed) :
    e ∈ c' ↔ e ∈ c ∨ e = ("", m) := by
  cases h
  split
  · next hmem =>
    constructor
    · exact .inl
    · rintro (h | rfl)
      · exact h
      · exact hmem
  · simp

/-- **What a set holds after insertions.** -/
theorem mem_of_set_inserts {ws : List Write} (hws : ∀ w ∈ ws, ∃ m, w = .set_insert m)
    {c c' : Cell} (h : runWrites Write.apply ws c = some c') (e : String × Mixed) :
    e ∈ c' ↔ e ∈ c ∨ ∃ m, .set_insert m ∈ ws ∧ e = ("", m) := by
  induction ws generalizing c with
  | nil =>
    cases h
    simp
  | cons w ws ih =>
    obtain ⟨m, rfl⟩ := hws w List.mem_cons_self
    obtain ⟨c₁, hw, hrest⟩ := Option.bind_eq_some_iff.mp h
    rw [ih (fun w' hw' => hws w' (List.mem_cons_of_mem _ hw')) hrest, mem_of_set_insert hw]
    simp only [List.mem_cons, Write.set_insert.injEq, or_and_right, exists_or, exists_eq_left,
      or_assoc]

theorem nodup_of_set_insert {m : Mixed} {c c' : Cell}
    (h : Write.apply (.set_insert m) c = some c') (hc : c.Nodup) : c'.Nodup := by
  cases h
  split
  · exact hc
  · next hmem =>
    rw [← List.concat_eq_append]
    exact List.Nodup.concat hmem hc

/-- Inserting elements that are not there yet. -/
theorem run_set_insert {ms : List Mixed} (c : Cell) (hms : ms.Nodup)
    (hc : ∀ m ∈ ms, ("", m) ∉ c) :
    runWrites Write.apply (ms.map .set_insert) c = some (c ++ ms.map ("", ·)) := by
  induction ms generalizing c with
  | nil => simp [runWrites]
  | cons m ms ih =>
    obtain ⟨hm, hms⟩ := List.nodup_cons.mp hms
    have hstep : Write.apply (.set_insert m) c = some (c ++ [("", m)]) := by
      show some (if _ then _ else _) = _
      rw [if_neg (hc m List.mem_cons_self)]
    show (Write.apply (.set_insert m) c).bind _ = _
    rw [hstep]
    show runWrites Write.apply (ms.map .set_insert) (c ++ [("", m)]) = _
    rw [ih _ hms, List.append_assoc]
    · rfl
    · intro m' hm' hmem
      rcases List.mem_append.mp hmem with hmem | hmem
      · exact hc m' (List.mem_cons_of_mem m hm') hmem
      · cases List.mem_singleton.mp hmem
        exact hm hm'

/-! ## §4. Dictionaries. -/

theorem lookup_dictionaryInsert (key : String) (m : Mixed) (c : Cell) (k : String) :
    (dictionaryInsert key m c).lookup k = if k = key then some m else c.lookup k := by
  induction c with
  | nil =>
    show [(key, m)].lookup k = _
    rw [lookup_cons_eq]
  | cons e c ih =>
    obtain ⟨j, n⟩ := e
    unfold dictionaryInsert
    by_cases hj : j = key
    · subst hj
      rw [if_pos rfl, lookup_cons_eq, lookup_cons_eq]
      split <;> rfl
    · rw [if_neg hj, lookup_cons_eq, lookup_cons_eq, ih]
      by_cases hkj : k = j
      · subst hkj
        rw [if_pos rfl, if_pos rfl, if_neg hj]
      · rw [if_neg hkj, if_neg hkj]

theorem keys_dictionaryInsert (key : String) (m : Mixed) (c : Cell) :
    (dictionaryInsert key m c).map Prod.fst
      = if key ∈ c.map Prod.fst then c.map Prod.fst else c.map Prod.fst ++ [key] := by
  induction c with
  | nil => rfl
  | cons e c ih =>
    obtain ⟨j, n⟩ := e
    unfold dictionaryInsert
    by_cases hj : j = key
    · simp [hj]
    · rw [if_neg hj, List.map_cons, ih]
      have hmem : key ∈ (j :: c.map Prod.fst) ↔ key ∈ c.map Prod.fst := by
        rw [List.mem_cons, or_iff_right (Ne.symm hj)]
      rw [List.map_cons]
      by_cases h : key ∈ c.map Prod.fst
      · rw [if_pos h, if_pos (hmem.mpr h)]
      · rw [if_neg h, if_neg (mt hmem.mp h)]
        rfl

theorem nodup_keys_dictionaryInsert {key : String} {m : Mixed} {c : Cell}
    (hc : (c.map Prod.fst).Nodup) : ((dictionaryInsert key m c).map Prod.fst).Nodup := by
  rw [keys_dictionaryInsert]
  split
  · exact hc
  · next hmem =>
    rw [← List.concat_eq_append]
    exact List.Nodup.concat hmem hc

/-- **What a dictionary holds after insertions**: at a key that was inserted, a
value that was inserted there; at any other, what was there before. -/
theorem lookup_of_dictionary_inserts {ws : List Write}
    (hws : ∀ w ∈ ws, ∃ k m, w = .dictionary_insert k m) {c c' : Cell}
    (h : runWrites Write.apply ws c = some c') (k : String) :
    (∃ m, .dictionary_insert k m ∈ ws ∧ c'.lookup k = some m) ∨
      ((∀ m, .dictionary_insert k m ∉ ws) ∧ c'.lookup k = c.lookup k) := by
  induction ws generalizing c with
  | nil =>
    cases h
    exact .inr ⟨fun m => List.not_mem_nil, rfl⟩
  | cons w ws ih =>
    obtain ⟨key, n, rfl⟩ := hws w List.mem_cons_self
    obtain ⟨c₁, hw, hrest⟩ := Option.bind_eq_some_iff.mp h
    cases hw
    rcases ih (fun w' hw' => hws w' (List.mem_cons_of_mem _ hw')) hrest with
      ⟨m, hm, hlookup⟩ | ⟨hnone, hlookup⟩
    · exact .inl ⟨m, List.mem_cons_of_mem _ hm, hlookup⟩
    · -- no later write has the key, so that this one may decide
      rw [lookup_dictionaryInsert] at hlookup
      by_cases hk : k = key
      · subst hk
        rw [if_pos rfl] at hlookup
        exact .inl ⟨n, List.mem_cons_self, hlookup⟩
      · rw [if_neg hk] at hlookup
        refine .inr ⟨fun m hm => ?_, hlookup⟩
        rcases List.mem_cons.mp hm with hm | hm
        · cases hm
          exact hk rfl
        · exact hnone m hm

/-! ## §5. Running again. -/

/-- **Setting again** changes nothing. -/
theorem run_set_again {ws : List Write} (hws : ∀ w ∈ ws, ∃ d, w = .set d) {c c' : Cell}
    (h : runWrites Write.apply ws c = some c') : runWrites Write.apply ws c' = some c' := by
  cases ws with
  | nil => rfl
  | cons w ws =>
    -- the first write forgets what was there
    obtain ⟨d, rfl⟩ := hws w List.mem_cons_self
    exact h

/-- **Inserting again** into a set changes nothing. -/
theorem run_set_insert_again {ws : List Write} (hws : ∀ w ∈ ws, ∃ m, w = .set_insert m)
    {c c' : Cell} (h : runWrites Write.apply ws c = some c') :
    runWrites Write.apply ws c' = some c' := by
  have hmem : ∀ w ∈ ws, ∃ m, w = .set_insert m ∧ ("", m) ∈ c' := by
    intro w hw
    obtain ⟨m, rfl⟩ := hws w hw
    exact ⟨m, rfl, (mem_of_set_inserts hws h _).mpr (.inr ⟨m, hw, rfl⟩)⟩
  clear h hws
  induction ws with
  | nil => rfl
  | cons w ws ih =>
    obtain ⟨m, rfl, hm⟩ := hmem w List.mem_cons_self
    have hstep : Write.apply (.set_insert m) c' = some c' := by
      show some (if _ then _ else _) = _
      rw [if_pos hm]
    show (Write.apply (.set_insert m) c').bind _ = _
    rw [hstep]
    exact ih fun w hw => hmem w (List.mem_cons_of_mem _ hw)

/-- Insertions into a dictionary decide its values by themselves, or leave them. -/
theorem exists_lookup_of_dictionary_inserts {ws : List Write}
    (hws : ∀ w ∈ ws, ∃ k m, w = .dictionary_insert k m) :
    ∃ f : String → Option Mixed, ∀ c c', runWrites Write.apply ws c = some c' →
      ∀ k, c'.lookup k = (f k).or (c.lookup k) := by
  induction ws with
  | nil =>
    refine ⟨fun _ => none, fun c c' h k => ?_⟩
    cases h
    rfl
  | cons w ws ih =>
    obtain ⟨key, m, rfl⟩ := hws w List.mem_cons_self
    obtain ⟨f, hf⟩ := ih fun w' hw' => hws w' (List.mem_cons_of_mem _ hw')
    refine ⟨fun k => (f k).or (if k = key then some m else none), fun c c' h k => ?_⟩
    obtain ⟨c₁, hw, hrest⟩ := Option.bind_eq_some_iff.mp h
    cases hw
    rw [hf _ _ hrest k, lookup_dictionaryInsert, Option.or_assoc]
    by_cases hk : k = key
    · rw [if_pos hk, if_pos hk]
      rfl
    · rw [if_neg hk, if_neg hk]
      rfl

/-- The keys of a dictionary after insertions: those that were there, and new ones. -/
theorem keys_of_dictionary_inserts {ws : List Write}
    (hws : ∀ w ∈ ws, ∃ k m, w = .dictionary_insert k m) {c c' : Cell}
    (h : runWrites Write.apply ws c = some c') :
    (∀ k ∈ c.map Prod.fst, k ∈ c'.map Prod.fst) ∧
      ∀ k m, .dictionary_insert k m ∈ ws → k ∈ c'.map Prod.fst := by
  induction ws generalizing c with
  | nil =>
    cases h
    refine ⟨fun _ hk => hk, ?_⟩
    intro k m hm
    cases hm
  | cons w ws ih =>
    obtain ⟨key, n, rfl⟩ := hws w List.mem_cons_self
    obtain ⟨c₁, hw, hrest⟩ := Option.bind_eq_some_iff.mp h
    cases hw
    obtain ⟨hold, hnew⟩ := ih (fun w' hw' => hws w' (List.mem_cons_of_mem _ hw')) hrest
    have hinsert : ∀ k, k ∈ c.map Prod.fst ∨ k = key →
        k ∈ (dictionaryInsert key n c).map Prod.fst := by
      intro k hk
      rw [keys_dictionaryInsert]
      split
      · next hkey =>
        rcases hk with hk | rfl
        · exact hk
        · exact hkey
      · rcases hk with hk | rfl
        · exact List.mem_append_left _ hk
        · exact List.mem_append_right _ (List.mem_singleton_self _)
    refine ⟨fun k hk => hold k (hinsert k (.inl hk)), fun k m hm => ?_⟩
    rcases List.mem_cons.mp hm with hm | hm
    · injection hm with hkey
      exact hold k (hinsert k (.inr hkey))
    · exact hnew k m hm

/-- Insertions at keys that are there keep the keys as they are. -/
theorem keys_of_dictionary_inserts_again {ws : List Write} {c c' : Cell}
    (hws : ∀ w ∈ ws, ∃ k m, w = .dictionary_insert k m ∧ k ∈ c.map Prod.fst)
    (h : runWrites Write.apply ws c = some c') : c'.map Prod.fst = c.map Prod.fst := by
  induction ws generalizing c with
  | nil =>
    cases h
    rfl
  | cons w ws ih =>
    obtain ⟨key, n, rfl, hkey⟩ := hws w List.mem_cons_self
    obtain ⟨c₁, hw, hrest⟩ := Option.bind_eq_some_iff.mp h
    cases hw
    have hsame : (dictionaryInsert key n c).map Prod.fst = c.map Prod.fst := by
      rw [keys_dictionaryInsert, if_pos hkey]
    rw [← hsame]
    apply ih _ hrest
    rw [hsame]
    exact fun w' hw' => hws w' (List.mem_cons_of_mem _ hw')

/-- **Inserting again** into a dictionary changes nothing. -/
theorem run_dictionary_insert_again {ws : List Write}
    (hws : ∀ w ∈ ws, ∃ k m, w = .dictionary_insert k m) {c c' : Cell}
    (hc' : (c'.map Prod.fst).Nodup) (h : runWrites Write.apply ws c = some c') :
    runWrites Write.apply ws c' = some c' := by
  obtain ⟨c'', hagain⟩ : ∃ c'', runWrites Write.apply ws c' = some c'' := by
    apply runWrites_total
    intro w hw d
    obtain ⟨k, m, rfl⟩ := hws w hw
    exact ⟨_, rfl⟩
  have hkeys : c''.map Prod.fst = c'.map Prod.fst := by
    apply keys_of_dictionary_inserts_again _ hagain
    intro w hw
    obtain ⟨k, m, rfl⟩ := hws w hw
    exact ⟨k, m, rfl, (keys_of_dictionary_inserts hws h).2 k m hw⟩
  obtain ⟨f, hf⟩ := exists_lookup_of_dictionary_inserts hws
  rw [hagain, ext_of_lookup hkeys (hkeys ▸ hc')]
  intro k
  rw [hf _ _ hagain k, hf _ _ h k, ← Option.or_assoc, Option.or_self]

end RealmCpp.Core
