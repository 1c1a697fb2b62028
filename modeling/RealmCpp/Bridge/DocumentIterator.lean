/-
  RealmCpp.Bridge.DocumentIterator
  ────────────────────────────────
  **`bsoncxx::document::iterator`.**

  The iterator keeps one of the core's in a `std::any`, and hands each of its four
  operators on to it.  The postfix ones put what the core returns, the position
  before, in its place.

    • `increment`, `decrement`, `post_increment`, `post_decrement`,
    • `entries_written` — what a document has after a program wrote to it,
    • `visits_increment` — what a loop with `++it` visits,
    • `bidirectional_iff` — when the operators are those of a bidirectional iterator.
-/
import Mathlib.Data.List.Dedup
import RealmCpp.Bridge.Document
import RealmCpp.Library.Traversal

namespace RealmCpp.Bridge

open RealmCpp.Library

variable {B : Type}

/-! ## §1. Iterators of the core. -/

namespace CoreDocument

variable (document : CoreDocument B)

/-- An entry is there: before the end. -/
def Dereferenceable (i : Nat) : Prop := i < document.entries.length

/-- After the first position, and not after the end. -/
def AfterFirst (i : Nat) : Prop := 0 < i ∧ i ≤ document.entries.length

instance (i : Nat) : Decidable (document.Dereferenceable i) :=
  inferInstanceAs (Decidable (i < _))

instance (i : Nat) : Decidable (document.AfterFirst i) :=
  inferInstanceAs (Decidable (0 < i ∧ i ≤ _))

/-- `++it`; there is nothing after the end. -/
def next (i : Nat) : Option Nat := if document.Dereferenceable i then some (i + 1) else none

/-- `--it`. -/
def prev (i : Nat) : Option Nat := if document.AfterFirst i then some (i - 1) else none

/-- `it++`: where the iterator is after it, and what is returned. -/
def next_post (i : Nat) : Option (Nat × Nat) := (document.next i).map (·, i)

/-- `it--`. -/
def prev_post (i : Nat) : Option (Nat × Nat) := (document.prev i).map (·, i)

end CoreDocument

/-! ## §2. Iterators of `bsoncxx`. -/

/-- The iterator of the core. -/
structure DocumentIterator where
  m_iterator : Nat
  deriving DecidableEq, Repr

namespace DocumentIterator

variable (document : CoreDocument B)

/-- `begin()`. -/
def begin : DocumentIterator := ⟨0⟩

/-- `end()`. -/
def «end» : DocumentIterator := ⟨document.entries.length⟩

/-- `operator*()`. -/
def star (it : DocumentIterator) : Option (String × B) := document.entries[it.m_iterator]?

/-- `operator++()`. -/
def increment (it : DocumentIterator) : Option DocumentIterator :=
  (document.next it.m_iterator).map DocumentIterator.mk

/-- `operator--()`, which calls `operator++()` of the core. -/
def decrement (it : DocumentIterator) : Option DocumentIterator :=
  (document.next it.m_iterator).map DocumentIterator.mk

/-- `operator++(int)`: what the core returns is assigned over its iterator. -/
def post_increment (it : DocumentIterator) : Option DocumentIterator := do
  let (_, returned) ← document.next_post it.m_iterator
  some ⟨returned⟩

/-- `operator--(int)`. -/
def post_decrement (it : DocumentIterator) : Option DocumentIterator := do
  let (_, returned) ← document.prev_post it.m_iterator
  some ⟨returned⟩

/-- The loop from `begin()` to `end()`: the positions at which its body is done. -/
def loop (next : DocumentIterator → Option DocumentIterator) (n : Nat) :
    Outcome (List DocumentIterator) :=
  run_loop next («end» document) n begin

/-- **The loop ends, and visits the pairs of `expected`**, each once. -/
def Visits (next : DocumentIterator → Option DocumentIterator)
    (expected : List (String × B)) : Prop :=
  ∃ its, (∃ n, loop document next n = .returned its) ∧
    its.map (star document) = expected.map some

theorem increment_eq {i : Nat} (hi : document.Dereferenceable i) :
    increment document ⟨i⟩ = some ⟨i + 1⟩ := by
  unfold increment CoreDocument.next
  rw [if_pos hi]
  rfl

theorem post_increment_eq {i : Nat} (hi : document.Dereferenceable i) :
    post_increment document ⟨i⟩ = some ⟨i⟩ := by
  unfold post_increment CoreDocument.next_post CoreDocument.next
  rw [if_pos hi]
  rfl

/-- **`++it` visits every entry once**, in the order of the document. -/
theorem visits_increment : Visits document (increment document) document.entries := by
  refine ⟨(List.range document.entries.length).map DocumentIterator.mk,
    ⟨document.entries.length, ?_⟩, ?_⟩
  · apply run_loop_indices (f := DocumentIterator.mk)
      (fun i hi => increment_eq document hi) ?_ (Nat.le_refl _)
    intro i hi heq
    injection heq with hindex
    omega
  · apply List.ext_getElem
    · simp
    · intro i hi hi'
      rw [List.length_map] at hi'
      simp [star, List.getElem?_eq_getElem hi']

/-- With `it++` the loop stays at the first entry, where there is one. -/
theorem loop_post_increment (h : document.Dereferenceable 0) (n : Nat) :
    loop document (post_increment document) n = .pending := by
  apply run_loop_fixed (post_increment_eq document h)
  intro heq
  have hindex : 0 = document.entries.length := congrArg m_iterator heq
  have hpos : 0 < document.entries.length := h
  omega

end DocumentIterator

/-! ## §3. What was written. -/

section Written

variable [Inhabited B]

/-- The pair that a method writes.  A key that is read and not there is written at
null. -/
def DocumentMethod.writes (method : DocumentMethod B) (document : CoreDocument B) :
    List (String × B) :=
  match method with
  | insert key b | index_set key b => [(key, b)]
  | index key =>
      match document.entries.lookup key with
      | some _ => []
      | none => [(key, default)]
  | _ => []

/-- The document after the calls of a program. -/
def CoreDocument.after (document : CoreDocument B) (methods : List (DocumentMethod B)) :
    CoreDocument B :=
  methods.foldl (fun document method => (method.apply document).1) document

/-- The pairs that the calls write, one after the other. -/
def written : CoreDocument B → List (DocumentMethod B) → List (String × B)
  | _, [] => []
  | document, method :: methods =>
      method.writes document ++ written (method.apply document).1 methods

theorem apply_eq_writes (method : DocumentMethod B) (document : CoreDocument B) :
    (method.apply document).1 =
      (method.writes document).foldl (fun document e => document.set e.1 e.2) document := by
  cases method with
  | index key =>
    unfold DocumentMethod.apply DocumentMethod.writes
    cases hlookup : document.entries.lookup key <;> simp [hlookup]
  | _ => rfl

/-- **A document is what was written to it**, from its initializer list on. -/
theorem after_eq (l : List (String × B)) (methods : List (DocumentMethod B)) :
    (CoreDocument.ofList l).after methods =
      .ofList (l ++ written (.ofList l) methods) := by
  -- the same from any document, by induction on the calls
  have hfrom : ∀ document : CoreDocument B, document.after methods =
      (written document methods).foldl (fun document e => document.set e.1 e.2) document := by
    induction methods with
    | nil => exact fun document => rfl
    | cons method methods ih =>
      intro document
      unfold written
      rw [List.foldl_append, ← apply_eq_writes]
      exact ih _
  rw [hfrom]
  unfold CoreDocument.ofList
  rw [List.foldl_append]

end Written

/-- The keys, in the order in which each was written first. -/
def first_written (ws : List (String × B)) : List String :=
  (ws.map Prod.fst).reverse.dedup.reverse

/-- The value that was written last at a key. -/
def last_written (ws : List (String × B)) (key : String) : Option B := ws.reverse.lookup key

theorem ofList_snoc (ws : List (String × B)) (e : String × B) :
    CoreDocument.ofList (ws ++ [e]) = (CoreDocument.ofList ws).set e.1 e.2 := by
  unfold CoreDocument.ofList
  rw [List.foldl_append]
  rfl

theorem keys_ofList (ws : List (String × B)) :
    (CoreDocument.ofList ws).entries.map Prod.fst = first_written ws := by
  induction ws using List.reverseRecOn with
  | nil => rfl
  | append_singleton ws e ih =>
    rw [ofList_snoc]
    show (put (CoreDocument.ofList ws).entries e.1 e.2).map Prod.fst = _
    rw [keys_put, ih]
    have hmem : e.1 ∈ first_written ws ↔ e.1 ∈ (ws.map Prod.fst).reverse := by
      unfold first_written
      rw [List.mem_reverse, List.mem_dedup]
    unfold first_written at hmem ⊢
    rw [List.map_append, List.reverse_append]
    by_cases h : e.1 ∈ (ws.map Prod.fst).reverse
    · -- a key that was written before keeps its place
      rw [if_pos (hmem.mpr h)]
      simp [List.dedup_cons_of_mem h]
    · rw [if_neg fun h' => h (hmem.mp h')]
      simp [List.dedup_cons_of_notMem h]

theorem lookup_ofList (ws : List (String × B)) (key : String) :
    (CoreDocument.ofList ws).entries.lookup key = last_written ws key := by
  induction ws using List.reverseRecOn with
  | nil => rfl
  | append_singleton ws e ih =>
    rw [ofList_snoc]
    show (put (CoreDocument.ofList ws).entries e.1 e.2).lookup key = _
    rw [lookup_put, ih]
    unfold last_written
    rw [List.reverse_append]
    exact (lookup_cons_eq key e.1 e.2 ws.reverse).symm

/-- The pairs are the keys in the order in which they were first written, each once
and with the value that was written last. -/
def InWrittenOrder (ws es : List (String × B)) : Prop :=
  es.map (fun e => (e.1, some e.2)) =
    (first_written ws).map fun key => (key, last_written ws key)

/-- **The entries of a document stand in the order in which they were written.** -/
theorem entries_written (ws : List (String × B)) :
    InWrittenOrder ws (CoreDocument.ofList ws).entries := by
  unfold InWrittenOrder
  rw [← keys_ofList, List.map_map]
  apply List.map_congr_left
  intro e he
  show (e.1, some e.2) = (e.1, last_written ws e.1)
  -- the key is there once, and so the entry is the one that is found
  rw [← lookup_ofList, lookup_of_mem (CoreDocument.ofList ws).nodup he]

/-! ## §4. Bidirectional iterators. -/

namespace DocumentIterator

/-- **The operators are those of a bidirectional iterator** of a document to which
the pairs were written. -/
structure Bidirectional (document : CoreDocument B) (ws : List (String × B)) : Prop where
  decrement_increment : ∀ i, document.Dereferenceable i →
    (increment document ⟨i⟩).bind (decrement document) = some ⟨i⟩
  increment_decrement : ∀ i, document.AfterFirst i →
    (decrement document ⟨i⟩).bind (increment document) = some ⟨i⟩
  post_increment : ∀ i, document.Dereferenceable i →
    post_increment document ⟨i⟩ = some ⟨i + 1⟩
  post_decrement : ∀ i, document.AfterFirst i → post_decrement document ⟨i⟩ = some ⟨i - 1⟩
  visits : ∃ es, InWrittenOrder ws es ∧ Visits document (increment document) es ∧
    Visits document (DocumentIterator.post_increment document) es

/-- Without entries there are no positions to go from. -/
theorem bidirectional_of_empty {document : CoreDocument B} {ws : List (String × B)}
    (hws : InWrittenOrder ws document.entries) (h : document.entries = []) :
    Bidirectional document ws := by
  have hlength : document.entries.length = 0 := by rw [h]; rfl
  have hend : «end» document = begin := by unfold «end» begin; rw [hlength]
  have hnone : ∀ i, ¬ document.Dereferenceable i := by
    intro i hi
    unfold CoreDocument.Dereferenceable at hi
    omega
  have hnone' : ∀ i, ¬ document.AfterFirst i := by
    intro i hi
    unfold CoreDocument.AfterFirst at hi
    omega
  have hvisits : ∀ next, Visits document next [] := by
    intro next
    refine ⟨[], ⟨0, ?_⟩, rfl⟩
    unfold loop run_loop
    rw [hend, if_pos rfl]
  rw [h] at hws
  exact ⟨fun i hi => absurd hi (hnone i), fun i hi => absurd hi (hnone' i),
    fun i hi => absurd hi (hnone i), fun i hi => absurd hi (hnone' i),
    ⟨[], hws, hvisits _, hvisits _⟩⟩

/-- **The loop with `++it` is the one it should be**, after every program. -/
theorem increment_visits_written [Inhabited B] (l : List (String × B))
    (methods : List (DocumentMethod B)) :
    ∃ es, InWrittenOrder (l ++ written (.ofList l) methods) es ∧
      Visits ((CoreDocument.ofList l).after methods)
        (increment ((CoreDocument.ofList l).after methods)) es := by
  refine ⟨_, ?_, visits_increment _⟩
  rw [after_eq]
  exact entries_written _

/-- **The iterator of a document is a bidirectional one just where the document is
empty**, whatever was written to it. -/
theorem bidirectional_iff [Inhabited B] (l : List (String × B))
    (methods : List (DocumentMethod B)) :
    Bidirectional ((CoreDocument.ofList l).after methods) (l ++ written (.ofList l) methods) ↔
      ((CoreDocument.ofList l).after methods).entries = [] := by
  constructor
  · intro h
    by_contra hne
    have hfirst : ((CoreDocument.ofList l).after methods).Dereferenceable 0 :=
      List.length_pos_of_ne_nil hne
    -- `it++` leaves the first position where it is
    have hstays := post_increment_eq _ hfirst
    rw [h.post_increment 0 hfirst] at hstays
    cases hstays
  · intro h
    refine bidirectional_of_empty ?_ h
    rw [after_eq]
    exact entries_written _

/-- A document with one key: `--` after `++` does not lead back. -/
theorem decrement_goes_on :
    ¬ Bidirectional (CoreDocument.ofList [("a", 1)]) [("a", 1)] := by
  intro h
  have hback := h.decrement_increment 0 (by decide)
  revert hback
  decide

end DocumentIterator

end RealmCpp.Bridge
