/-
  RealmCpp.Managed.Iterators
  ──────────────────────────
  **THE ITERATORS OF MANAGED COLLECTIONS AND OF RESULTS.**

  Each collection has an iterator class of its own, with an index and a pointer to
  the collection.  The classes differ in what they return, and from which iterators
  they let it be read.

    • `IteratorClass`, and the nine of them,
    • `loop` — from `begin()` to `end()`, with either form of the increment,
    • `visits_increment` — what `++it` visits,
    • `post_increment_traversal_iff` — when `it++` does the same.
-/
import RealmCpp.Library.Traversal

namespace RealmCpp.Managed

open RealmCpp.Library

/-! ## §1. Iterators. -/

/-- An iterator; `==` compares both fields.  The collections are told apart by their
addresses. -/
structure Iterator where
  m_i : Nat
  m_parent : Nat
  deriving DecidableEq, Repr

namespace Iterator

/-- `operator++()`. -/
def increment (it : Iterator) : Iterator := { it with m_i := it.m_i + 1 }

/-- `operator++(int i)`. -/
def increment_by (i : Nat) (it : Iterator) : Iterator := { it with m_i := it.m_i + i }

/-- `it++`, which passes 0 for the parameter. -/
def post_increment (it : Iterator) : Iterator := it.increment_by 0

theorem post_increment_eq (it : Iterator) : it.post_increment = it := rfl

end Iterator

/-- What the iterator classes do each in their own way. -/
structure IteratorClass (β α : Type) where
  /-- What `operator*` makes of an element of the core's collection; none where it
  raises or aborts. -/
  element : β → Option α
  /-- `operator*` is `const`. -/
  const_star : Bool
  /-- `operator++(int)` returns a `const iterator&`; otherwise a copy. -/
  const_post : Bool

section Classes

variable {β α : Type}

/-- `managed<std::vector<T>>::iterator`. -/
def list_iterator (deserialize : β → Option α) : IteratorClass β α := ⟨deserialize, true, true⟩

/-- `managed<std::vector<T*>>::iterator`. -/
def object_list_iterator (get_obj : β → Option α) : IteratorClass β α := ⟨get_obj, true, true⟩

/-- `managed<std::set<T>>::iterator`. -/
def set_iterator (deserialize : β → Option α) : IteratorClass β α := ⟨deserialize, true, true⟩

/-- `managed<std::set<T*>>::iterator`. -/
def object_set_iterator (get_obj : β → Option α) : IteratorClass β α := ⟨get_obj, true, true⟩

/-- `managed<std::map<std::string, T>>::iterator`: `operator*` is not `const`. -/
def map_iterator (deserialize : β → Option α) : IteratorClass (String × β) (String × α) :=
  ⟨fun pair => (deserialize pair.2).map (pair.1, ·), false, true⟩

/-- `results_base<T, Derived, results_is_primitive<T>>::iterator`. -/
def results_iterator (get : β → Option α) : IteratorClass β α := ⟨get, false, false⟩

/-- `results_base<T, Derived, results_is_mixed<T>>::iterator`. -/
def mixed_results_iterator (deserialize : β → Option α) : IteratorClass β α :=
  ⟨deserialize, false, false⟩

/-- `results_base<T, Derived, results_is_enum<T>>::iterator`. -/
def enum_results_iterator (static_cast : β → Option α) : IteratorClass β α :=
  ⟨static_cast, false, false⟩

/-- `results_base<T, Derived>::iterator` of objects. -/
def object_results_iterator (get_obj : β → Option α) : IteratorClass β α :=
  ⟨get_obj, false, false⟩

end Classes

/-! ## §2. Loops. -/

namespace IteratorClass

section Loops

variable {β α : Type} (C : IteratorClass β α) (contents : Nat → List β) (p : Nat)

/-- `begin()` of the collection at `p`. -/
def begin : Iterator := ⟨0, p⟩

/-- `end()`. -/
def «end» : Iterator := ⟨(contents p).length, p⟩

/-- `operator*`. -/
def star (it : Iterator) : Option α := (contents it.m_parent)[it.m_i]?.bind C.element

/-- `*it++`; there is no such expression where `*` is not `const` and the iterator
that it is applied to is. -/
def star_post_increment (it : Iterator) : Option α :=
  if C.const_post && !C.const_star then none else C.star contents it.post_increment

/-- The loop from `begin()` to `end()`: the positions at which its body is done. -/
def loop (next : Iterator → Iterator) (n : Nat) : Library.Outcome (List Iterator) :=
  run_loop (fun it => some (next it)) («end» contents p) n (begin p)

/-- **The loop ends, and visits the element at each index once**, at `its`. -/
structure Visits (next : Iterator → Iterator) (its : List Iterator) : Prop where
  ends : ∃ n, loop contents p next n = .returned its
  iterations : its.length = (contents p).length
  elements : its.map (C.star contents) = (contents p).map C.element

/-- **Traversal with `it++`**: it visits what the loop with `++it` does, and `*it++`
is the element at the position before. -/
structure PostIncrementTraversal : Prop where
  visits : ∃ its, C.Visits contents p Iterator.post_increment its ∧
    C.Visits contents p Iterator.increment its
  star : ∀ i (hi : i < (contents p).length),
    C.star_post_increment contents ⟨i, p⟩ = C.element ((contents p)[i])

/-- The positions of a collection. -/
def positions : List Iterator := (List.range (contents p).length).map fun i => ⟨i, p⟩

/-- Where there is an expression `*it++`, it is the element at the position before. -/
theorem star_post_increment_eq (hC : C.const_post = true → C.const_star = true) (it : Iterator) :
    C.star_post_increment contents it = C.star contents it := by
  unfold star_post_increment
  rw [if_neg, it.post_increment_eq]
  simpa using hC

theorem loop_increment {n : Nat} (hn : (contents p).length ≤ n) :
    loop contents p Iterator.increment n = .returned (positions contents p) := by
  apply run_loop_indices (f := fun i => Iterator.mk i p) (fun i _ => rfl) ?_ hn
  intro i hi heq
  injection heq with hindex
  omega

theorem elements_positions :
    (positions contents p).map (C.star contents) = (contents p).map C.element := by
  apply List.ext_getElem
  · simp [positions]
  · intro i hi hi'
    rw [List.length_map] at hi'
    simp [positions, star, List.getElem?_eq_getElem hi']

/-- **`++it` visits the element at each index once.** -/
theorem visits_increment : C.Visits contents p Iterator.increment (positions contents p) where
  ends := ⟨_, loop_increment contents p (Nat.le_refl _)⟩
  iterations := by simp [positions]
  elements := C.elements_positions contents p

/-- **With `it++` the loop stays at the first element**, where there is one. -/
theorem loop_post_increment (h : 0 < (contents p).length) (n : Nat) :
    loop contents p Iterator.post_increment n = .pending := by
  apply run_loop_fixed rfl
  intro heq
  injection heq with hindex
  omega

end Loops

end IteratorClass

/-! ## §3. The nine classes. -/

/-- The collections that are iterated over. -/
inductive Iterable where
  | list | object_list | set | object_set | map
  | results | mixed_results | enum_results | object_results
  deriving DecidableEq, Repr

namespace Iterable

/-- An element of the core's collection: of a map, with its key. -/
def Core (β : Type) : Iterable → Type
  | map => String × β
  | _ => β

/-- What is read of it. -/
def Element (α : Type) : Iterable → Type
  | map => String × α
  | _ => α

/-- The iterator class of each; `get` is what it makes of an element. -/
def iterator {β α : Type} (get : β → Option α) :
    (c : Iterable) → IteratorClass (c.Core β) (c.Element α)
  | list => list_iterator get
  | object_list => object_list_iterator get
  | set => set_iterator get
  | object_set => object_set_iterator get
  | map => map_iterator get
  | results => results_iterator get
  | mixed_results => mixed_results_iterator get
  | enum_results => enum_results_iterator get
  | object_results => object_results_iterator get

/-- **Traversal with `it++` is that with `++it` just for an empty collection**, of
any of the nine classes. -/
theorem post_increment_traversal_iff {β α : Type} (get : β → Option α) (c : Iterable)
    (contents : Nat → List (c.Core β)) (p : Nat) :
    (c.iterator get).PostIncrementTraversal contents p ↔ contents p = [] := by
  constructor
  · intro h
    obtain ⟨its, hpost, -⟩ := h.visits
    obtain ⟨n, hn⟩ := hpost.ends
    -- the loop over a collection with elements is pending, however long it runs
    by_contra hne
    rw [IteratorClass.loop_post_increment contents p (List.length_pos_of_ne_nil hne)] at hn
    cases hn
  · intro h
    have hlength : (contents p).length = 0 := by rw [h]; rfl
    refine ⟨⟨[], ⟨⟨0, ?_⟩, ?_, ?_⟩, ⟨⟨0, ?_⟩, ?_, ?_⟩⟩, fun i hi => absurd hi (by omega)⟩ <;>
      simp [IteratorClass.loop, IteratorClass.begin, IteratorClass.«end», run_loop, h]

/-- A list of one element: the loop is at that element for ever. -/
theorem post_increment_stays :
    ¬ (list_iterator (some : Nat → Option Nat)).PostIncrementTraversal (fun _ => [7]) 0 := by
  intro h
  obtain ⟨its, hpost, -⟩ := h.visits
  obtain ⟨n, hn⟩ := hpost.ends
  rw [IteratorClass.loop_post_increment (β := Nat) (fun _ => [7]) 0 (by decide)] at hn
  cases hn

end Iterable

end RealmCpp.Managed
