/-
  RealmCpp.Observation.IndexIterator
  ──────────────────────────────────
  **THE ITERATORS OF AN `index_set`.**

  The core's iterator is in the bridge's one, or in a `std::any` behind a `shared_ptr`.
  There a copy is made with `make_shared<std::any>(other.m_iterator)`: the new `any` holds
  the pointer, and no iterator that a cast could find.

    • `IndexIterators.handle` — the operators, in either build,
    • `to_vector_loop` — the range-based `for` of `to_vector`,
    • `Alike`, `IteratorMeets` — where both builds do the same,
    • `iterator_program_iff` — the programs in which they do, that loop among them.
-/
import RealmCpp.Library.Client
import RealmCpp.Library.Handles
import RealmCpp.Observation.CollectionChange

namespace RealmCpp.Observation

open RealmCpp.Library
open RealmCpp.Core

/-! ## §1. Iterators. -/

/-- What is behind `m_iterator`: nothing, an `any` with a pointer in it, or one with the
core's iterator, which counts the indexes before it. -/
inductive SharedIterator where
  | null
  | pointer
  | core (p : Nat)
  deriving DecidableEq

/-- `index_set::index_iterator`. -/
def IndexIterator : Storage → Type
  | .byValue => Nat
  | .shared => SharedIterator

/-- Why an operator fails: there is no such iterator, it is at the end, a cast in a
`noexcept` function throws, or a null pointer is dereferenced. -/
inductive IteratorFault where
  | no_object
  | at_end
  | terminate
  | null_pointer
  deriving DecidableEq

namespace IndexIterator

/-- What `begin` and `end` return, which the compiler constructs in its place. -/
def made : {m : Storage} → Nat → IndexIterator m
  | .byValue, p => p
  | .shared, p => .core p

/-- A copy, -/
def copied : {m : Storage} → IndexIterator m → IndexIterator m
  | .byValue, it => it
  | .shared, _ => .pointer

/-- and what is left where it was made by a move. -/
def left : {m : Storage} → IndexIterator m → IndexIterator m
  | .byValue, it => it
  | .shared, _ => .null

/-- `any_cast<IndexIterator>(*m_iterator)`. -/
def cast : {m : Storage} → IndexIterator m → Except IteratorFault Nat
  | .byValue, p => .ok p
  | .shared, .core p => .ok p
  | .shared, .pointer => .error .terminate
  | .shared, .null => .error .null_pointer

/-- `any_cast<IndexIterator>(m_iterator.get())`, which is null where the cast fails. -/
def castPointer : {m : Storage} → IndexIterator m → Except IteratorFault Nat
  | .byValue, p => .ok p
  | .shared, .core p => .ok p
  | .shared, _ => .error .null_pointer

end IndexIterator

/-- What a program does with iterators of one set of indexes; it numbers them as it makes
them. -/
inductive IteratorCall where
  | begin
  | end_
  | copy (j : Nat)
  | move (j : Nat)
  | assign (i j : Nat)
  | move_assign (i j : Nat)
  | star (i : Nat)
  | equal (i j : Nat)
  | not_equal (i j : Nat)
  | increment (i : Nat)

abbrev IteratorCall.Answer : IteratorCall → Type
  | star _ => Except IteratorFault Nat
  | equal _ _ | not_equal _ _ => Except IteratorFault Bool
  | _ => Except IteratorFault Unit

abbrev IndexIterators (m : Storage) := List (IndexIterator m)

namespace IndexIterators

variable {m : Storage} (xs : IndexSet) (s : IndexIterators m)

def get (i : Nat) : Except IteratorFault (IndexIterator m) :=
  match s[i]? with
  | some it => .ok it
  | none => .error .no_object

/-- A call that changes the iterators; one that fails leaves them. -/
def answer (r : Except IteratorFault (IndexIterators m)) :
    Except IteratorFault Unit × IndexIterators m :=
  match r with
  | .ok s' => (.ok (), s')
  | .error e => (.error e, s)

def copy (j : Nat) : Except IteratorFault (IndexIterators m) := do
  let other ← s.get j
  pure (s ++ [other.copied])

def move (j : Nat) : Except IteratorFault (IndexIterators m) := do
  let other ← s.get j
  pure (List.set s j other.left ++ [other.copied])

/-- The assignments of iterators in place look for themselves, the others do not. -/
def assign (i j : Nat) : Except IteratorFault (IndexIterators m) := do
  let _ ← s.get i
  let other ← s.get j
  pure (List.set s i other.copied)

def move_assign (i j : Nat) : Except IteratorFault (IndexIterators m) := do
  let _ ← s.get i
  let other ← s.get j
  pure (List.set (List.set s j other.left) i other.copied)

def star (i : Nat) : Except IteratorFault Nat := do
  let it ← s.get i
  let p ← it.cast
  match xs.indexes[p]? with
  | some index => .ok index
  | none => .error .at_end

def equal (i j : Nat) : Except IteratorFault Bool := do
  let it ← s.get i
  let other ← s.get j
  let p ← it.cast
  let q ← other.cast
  pure (p == q)

def increment (i : Nat) : Except IteratorFault (IndexIterators m) := do
  let it ← s.get i
  let p ← it.castPointer
  pure (List.set s i (.made (p + 1)))

def handle : (c : IteratorCall) → c.Answer × IndexIterators m
  | .begin => (.ok (), s ++ [.made 0])
  | .end_ => (.ok (), s ++ [.made xs.indexes.length])
  | .copy j => s.answer (s.copy j)
  | .move j => s.answer (s.move j)
  | .assign i j => s.answer (s.assign i j)
  | .move_assign i j => s.answer (s.move_assign i j)
  | .star i => (s.star xs i, s)
  | .equal i j => (s.equal i j, s)
  | .not_equal i j => ((s.equal i j).map (!·), s)
  | .increment i => s.answer (s.increment i)

end IndexIterators

/-! ## §2. The loop. -/

/-- What a program is told. -/
abbrev Loop := Client IteratorCall IteratorCall.Answer (Except IteratorFault (Option (List Nat)))

/-- A call in the loop, which ends where it fails. -/
def Loop.bind {α : Type} (answer : Except IteratorFault α) (k : α → Loop) : Loop :=
  match answer with
  | .ok a => k a
  | .error e => .ret (.error e)

/-- The loop of `to_vector`, whose iterators have the numbers 0 and 1; it is told to stop
after `n` iterations. -/
def to_vector_iterations (vector : List Nat) : Nat → Loop
  | 0 => .ret (.ok none)
  | n + 1 => .call (.not_equal 0 1) fun answer => Loop.bind answer fun goOn =>
      if goOn then
        .call (.star 0) fun answer => Loop.bind answer fun index =>
          .call (.increment 0) fun answer => Loop.bind answer fun _ =>
            to_vector_iterations (vector ++ [index]) n
      else .ret (.ok (some vector))

/-- `for (auto index : index_set.as_indexes())`. -/
def to_vector_loop (n : Nat) : Loop :=
  .call .begin fun _ => .call .end_ fun _ => to_vector_iterations [] n

/-! ## §3. Both builds. -/

namespace IndexIterator

@[simp] theorem cast_made {m : Storage} (p : Nat) : (made p : IndexIterator m).cast = .ok p := by
  cases m <;> rfl

/-- The `any` has the core's iterator in it. -/
def HasCore (it : IndexIterator .shared) : Prop := ∃ p, it = made p

/-- Where it has not, neither cast gives one. -/
theorem cast_of_not_hasCore {it : IndexIterator .shared} (h : ¬ it.HasCore) :
    (∃ e, it.cast = .error e ∧ e ≠ .at_end) ∧ it.castPointer = .error .null_pointer := by
  cases it with
  | null => exact ⟨⟨.null_pointer, rfl, by decide⟩, rfl⟩
  | pointer => exact ⟨⟨.terminate, rfl, by decide⟩, rfl⟩
  | core p => exact absurd ⟨p, rfl⟩ h

end IndexIterator

namespace IndexIterators

/-- **The builds are alike**: as many iterators, and those in an `any` at the same place. -/
structure Alike (s : IndexIterators .byValue) (t : IndexIterators .shared) : Prop where
  length : s.length = t.length
  core : ∀ i p : Nat, t[i]? = some (.made p) → s[i]? = some (.made p)

/-- What a call needs: that the iterators it reads, increments or compares were not made or
assigned by a copy or a move, or moved from.  The source of a copy still has the core's
iterator.  (`begin()` and `end()` make one that is not copied: the copy of the returned
value is elided.) -/
def IteratorMeets (st : IndexIterators .byValue × IndexIterators .shared) : IteratorCall → Prop
  | .star i | .increment i => ∀ it, st.2[i]? = some it → it.HasCore
  | .equal i j | .not_equal i j =>
      ∀ it other, st.2[i]? = some it → st.2[j]? = some other → it.HasCore ∧ other.HasCore
  | _ => True

variable {xs : IndexSet} {s : IndexIterators .byValue} {t : IndexIterators .shared}

namespace Alike

theorem nil : Alike [] [] := ⟨rfl, fun _ _ h => by cases h⟩

theorem append (h : Alike s t) {a : IndexIterator .byValue} {b : IndexIterator .shared}
    (hab : ∀ p, b = .made p → a = .made p) : Alike (s ++ [a]) (t ++ [b]) where
  length := by
    rw [List.length_append, List.length_append, h.length]
    rfl
  core i p hi := by
    rcases Nat.lt_trichotomy i t.length with hlt | heq | hgt
    · rw [List.getElem?_append_left hlt] at hi
      rw [List.getElem?_append_left (h.length ▸ hlt)]
      exact h.core i p hi
    · -- the iterator that was made
      subst heq
      rw [List.getElem?_concat_length] at hi
      rw [← h.length, List.getElem?_concat_length]
      exact congrArg some (hab p (Option.some.inj hi))
    · rw [List.getElem?_eq_none (by simp; omega)] at hi
      cases hi

theorem set (h : Alike s t) (i : Nat) {a : IndexIterator .byValue} {b : IndexIterator .shared}
    (hab : ∀ p, b = .made p → a = .made p) : Alike (List.set s i a) (List.set t i b) where
  length := by
    rw [List.length_set, List.length_set]
    exact h.length
  core k p hk := by
    rw [List.getElem?_set] at hk ⊢
    rw [h.length]
    split at hk
    · split at hk
      · rename_i hik hi
        rw [if_pos hik, if_pos hi]
        exact congrArg some (hab p (Option.some.inj hk))
      · cases hk
    · rename_i hik
      rw [if_neg hik]
      exact h.core k p hk

/-- There is an iterator in both builds, or in neither. -/
theorem get (h : Alike s t) (i : Nat) :
    (t[i]? = none ∧ s.get i = .error .no_object ∧ t.get i = .error .no_object) ∨
      ∃ a b, t[i]? = some b ∧ s.get i = .ok a ∧ t.get i = .ok b ∧
        ∀ p, b = .made p → a = .made p := by
  unfold IndexIterators.get
  cases hi : t[i]? with
  | none =>
    have hlength := List.getElem?_eq_none_iff.mp hi
    have hs : s[i]? = none := List.getElem?_eq_none (h.length ▸ hlength)
    rw [hs]
    exact .inl ⟨rfl, rfl, rfl⟩
  | some b =>
    obtain ⟨hlength, -⟩ := List.getElem?_eq_some_iff.mp hi
    have hs := List.getElem?_eq_getElem (h.length ▸ hlength)
    rw [hs]
    refine .inr ⟨_, b, rfl, rfl, rfl, fun p hb => ?_⟩
    have hcore := h.core i p (hb ▸ hi)
    exact (List.getElem?_eq_some_iff.mp hcore).2

end Alike

/-- A copy has not the core's iterator in it, nor has what a move leaves. -/
theorem copied_ne_made (b : IndexIterator .shared) (p : Nat) : b.copied ≠ .made p := by
  intro h
  cases h

theorem left_ne_made (b : IndexIterator .shared) (p : Nat) : b.left ≠ .made p := by
  intro h
  cases h

theorem made_of_made (q p : Nat) :
    (.made q : IndexIterator .shared) = .made p → (.made q : IndexIterator .byValue) = .made p := by
  intro h
  cases h
  rfl

theorem copy_agrees (h : Alike s t) (j : Nat) :
    Client.AgreesAt (handle xs) (handle xs) Alike (s, t) (.copy j) := by
  show (s.answer (s.copy j)).1 = (t.answer (t.copy j)).1 ∧
    Alike (s.answer (s.copy j)).2 (t.answer (t.copy j)).2
  unfold copy
  rcases h.get j with ⟨-, hs, ht⟩ | ⟨a, b, -, hs, ht, -⟩
  · rw [hs, ht]
    exact ⟨rfl, h⟩
  · rw [hs, ht]
    exact ⟨rfl, h.append fun p hb => absurd hb (copied_ne_made b p)⟩

theorem move_agrees (h : Alike s t) (j : Nat) :
    Client.AgreesAt (handle xs) (handle xs) Alike (s, t) (.move j) := by
  show (s.answer (s.move j)).1 = (t.answer (t.move j)).1 ∧
    Alike (s.answer (s.move j)).2 (t.answer (t.move j)).2
  unfold move
  rcases h.get j with ⟨-, hs, ht⟩ | ⟨a, b, -, hs, ht, -⟩
  · rw [hs, ht]
    exact ⟨rfl, h⟩
  · rw [hs, ht]
    have hleft := h.set (a := a.left) j fun p hb => absurd hb (left_ne_made b p)
    exact ⟨rfl, hleft.append fun p hb => absurd hb (copied_ne_made b p)⟩

theorem assign_agrees (h : Alike s t) (i j : Nat) :
    Client.AgreesAt (handle xs) (handle xs) Alike (s, t) (.assign i j) := by
  show (s.answer (s.assign i j)).1 = (t.answer (t.assign i j)).1 ∧
    Alike (s.answer (s.assign i j)).2 (t.answer (t.assign i j)).2
  unfold assign
  rcases h.get i with ⟨-, hs, ht⟩ | ⟨_, _, -, hs, ht, -⟩
  · rw [hs, ht]
    exact ⟨rfl, h⟩
  rw [hs, ht]
  rcases h.get j with ⟨-, hs, ht⟩ | ⟨a, b, -, hs, ht, -⟩
  · rw [hs, ht]
    exact ⟨rfl, h⟩
  · rw [hs, ht]
    exact ⟨rfl, h.set i fun p hb => absurd hb (copied_ne_made b p)⟩

theorem move_assign_agrees (h : Alike s t) (i j : Nat) :
    Client.AgreesAt (handle xs) (handle xs) Alike (s, t) (.move_assign i j) := by
  show (s.answer (s.move_assign i j)).1 = (t.answer (t.move_assign i j)).1 ∧
    Alike (s.answer (s.move_assign i j)).2 (t.answer (t.move_assign i j)).2
  unfold move_assign
  rcases h.get i with ⟨-, hs, ht⟩ | ⟨_, _, -, hs, ht, -⟩
  · rw [hs, ht]
    exact ⟨rfl, h⟩
  rw [hs, ht]
  rcases h.get j with ⟨-, hs, ht⟩ | ⟨a, b, -, hs, ht, -⟩
  · rw [hs, ht]
    exact ⟨rfl, h⟩
  · rw [hs, ht]
    have hleft := h.set (a := a.left) j fun p hb => absurd hb (left_ne_made b p)
    exact ⟨rfl, hleft.set i fun p hb => absurd hb (copied_ne_made b p)⟩

/-- An operator on one iterator: it is the same in both builds where the `any` has the
core's iterator in it. -/
theorem star_agrees_iff (h : Alike s t) (i : Nat) :
    Client.AgreesAt (handle xs) (handle xs) Alike (s, t) (.star i) ↔
      IteratorMeets (s, t) (.star i) := by
  show s.star xs i = t.star xs i ∧ Alike s t ↔ ∀ it, t[i]? = some it → it.HasCore
  unfold star
  rcases h.get i with ⟨hi, hs, ht⟩ | ⟨a, b, hi, hs, ht, hab⟩
  · rw [hs, ht, hi]
    exact iff_of_true ⟨rfl, h⟩ fun it hit => by cases hit
  rw [hs, ht, hi]
  by_cases hcore : b.HasCore
  · obtain ⟨p, rfl⟩ := hcore
    rw [hab p rfl]
    exact iff_of_true ⟨rfl, h⟩ fun it hit => ⟨p, (Option.some.inj hit).symm⟩
  · refine iff_of_false (fun hagree => ?_) fun hmeets => hcore (hmeets b rfl)
    -- by value it fails at the end only, and here in the cast
    obtain ⟨⟨e, he, hne⟩, -⟩ := IndexIterator.cast_of_not_hasCore hcore
    have hstar := hagree.1
    simp only [bind, Except.bind, he] at hstar
    split at hstar
    · rename_i hcast
      cases hcast
    · split at hstar
      · cases hstar
      · exact hne (Except.error.inj hstar).symm

/-- The same of two iterators that are compared. -/
theorem equal_agrees_iff (h : Alike s t) (i j : Nat) :
    s.equal i j = t.equal i j ↔ IteratorMeets (s, t) (.equal i j) := by
  show s.equal i j = t.equal i j ↔
    ∀ it other, t[i]? = some it → t[j]? = some other → it.HasCore ∧ other.HasCore
  unfold equal
  rcases h.get i with ⟨hi, hs, ht⟩ | ⟨a, b, hi, hs, ht, hab⟩
  · rw [hs, ht, hi]
    exact iff_of_true rfl fun it other hit => by cases hit
  rw [hs, ht, hi]
  rcases h.get j with ⟨hj, hs, ht⟩ | ⟨a', b', hj, hs, ht, hab'⟩
  · rw [hs, ht, hj]
    exact iff_of_true rfl fun it other _ hother => by cases hother
  rw [hs, ht, hj]
  by_cases hcore : b.HasCore ∧ b'.HasCore
  · obtain ⟨⟨p, rfl⟩, ⟨q, rfl⟩⟩ := hcore
    rw [hab p rfl, hab' q rfl]
    refine iff_of_true rfl fun it other hit hother => ?_
    exact ⟨⟨p, (Option.some.inj hit).symm⟩, ⟨q, (Option.some.inj hother).symm⟩⟩
  · refine iff_of_false (fun hagree => ?_) fun hmeets => hcore (hmeets b b' rfl rfl)
    -- by value no comparison fails; here one of the casts does
    have hfault : ∃ e, (do let p ← b.cast; let q ← b'.cast; pure (p == q)) =
        (.error e : Except IteratorFault Bool) := by
      by_cases hb : b.HasCore
      · obtain ⟨p, rfl⟩ := hb
        have hb' : ¬ b'.HasCore := fun hb' => hcore ⟨⟨p, rfl⟩, hb'⟩
        obtain ⟨⟨e, he, -⟩, -⟩ := IndexIterator.cast_of_not_hasCore hb'
        rw [IndexIterator.cast_made, he]
        exact ⟨e, rfl⟩
      · obtain ⟨⟨e, he, -⟩, -⟩ := IndexIterator.cast_of_not_hasCore hb
        rw [he]
        exact ⟨e, rfl⟩
    obtain ⟨e, he⟩ := hfault
    cases hagree.trans he

theorem increment_agrees_iff (h : Alike s t) (i : Nat) :
    Client.AgreesAt (handle xs) (handle xs) Alike (s, t) (.increment i) ↔
      IteratorMeets (s, t) (.increment i) := by
  show (s.answer (s.increment i)).1 = (t.answer (t.increment i)).1 ∧
      Alike (s.answer (s.increment i)).2 (t.answer (t.increment i)).2 ↔
    ∀ it, t[i]? = some it → it.HasCore
  unfold increment
  rcases h.get i with ⟨hi, hs, ht⟩ | ⟨a, b, hi, hs, ht, hab⟩
  · rw [hs, ht, hi]
    exact iff_of_true ⟨rfl, h⟩ fun it hit => by cases hit
  rw [hs, ht, hi]
  by_cases hcore : b.HasCore
  · obtain ⟨p, rfl⟩ := hcore
    rw [hab p rfl]
    refine iff_of_true ⟨rfl, ?_⟩ fun it hit => ⟨p, (Option.some.inj hit).symm⟩
    exact h.set i (made_of_made (p + 1))
  · refine iff_of_false (fun hagree => ?_) fun hmeets => hcore (hmeets b rfl)
    -- by value it does not fail
    have hnull := (IndexIterator.cast_of_not_hasCore hcore).2
    have hanswer := hagree.1
    simp only [bind, Except.bind, hnull] at hanswer
    cases hanswer

theorem not_map_injective :
    Function.Injective fun r : Except IteratorFault Bool => r.map (!·) := by
  intro r r' h
  cases r <;> cases r' <;> simp_all [Except.map]

theorem call_agrees_iff (s : IndexIterators .byValue) (t : IndexIterators .shared)
    (c : IteratorCall) (h : Alike s t) :
    Client.AgreesAt (handle xs) (handle xs) Alike (s, t) c ↔ IteratorMeets (s, t) c := by
  cases c with
  | begin => exact iff_of_true ⟨rfl, h.append (made_of_made 0)⟩ trivial
  | end_ => exact iff_of_true ⟨rfl, h.append (made_of_made xs.indexes.length)⟩ trivial
  | copy j => exact iff_of_true (copy_agrees h j) trivial
  | move j => exact iff_of_true (move_agrees h j) trivial
  | assign i j => exact iff_of_true (assign_agrees h i j) trivial
  | move_assign i j => exact iff_of_true (move_assign_agrees h i j) trivial
  | star i => exact star_agrees_iff h i
  | equal i j =>
    refine Iff.trans ?_ (equal_agrees_iff h i j)
    exact ⟨fun hagree => hagree.1, fun hequal => ⟨hequal, h⟩⟩
  | not_equal i j =>
    refine Iff.trans ?_ (equal_agrees_iff h i j)
    refine ⟨fun hagree => ?_, fun hequal => ⟨congrArg (Except.map (!·)) hequal, h⟩⟩
    exact not_map_injective hagree.1
  | increment i => exact increment_agrees_iff h i

/-! ## §4. The loop in both builds. -/

section Loop

variable {m : Storage} (vector : List Nat) (xs : IndexSet)

/-- The iterators of the loop, of which the first one is at `p`. -/
def ofLoop (m : Storage) (p : Nat) : IndexIterators m := [.made p, .made xs.indexes.length]

theorem handle_not_equal (p : Nat) :
    handle xs (ofLoop xs m p) (.not_equal 0 1) =
      (.ok (p != xs.indexes.length), ofLoop xs m p) := by
  cases m <;> rfl

theorem handle_star {p : Nat} (hp : p < xs.indexes.length) :
    handle xs (ofLoop xs m p) (.star 0) = (.ok xs.indexes[p], ofLoop xs m p) := by
  have hstar : (ofLoop xs m p).star xs 0 = match xs.indexes[p]? with
      | some index => .ok index
      | none => .error .at_end := by
    cases m <;> rfl
  rw [List.getElem?_eq_getElem hp] at hstar
  exact congrArg (·, ofLoop xs m p) hstar

theorem handle_increment (p : Nat) :
    handle xs (ofLoop xs m p) (.increment 0) = (.ok (), ofLoop xs m (p + 1)) := by
  cases m <;> rfl

/-- **The loop from the index at `p` on**: it goes through the indexes that are left, and
ends where there are fewer of them than iterations. -/
theorem run_to_vector_iterations (n p : Nat) (hp : p ≤ xs.indexes.length) :
    ((to_vector_iterations vector n).run (handle xs) (ofLoop xs m p)).1 =
      .ok (if xs.indexes.length - p < n then some (vector ++ xs.indexes.drop p) else none) := by
  induction n generalizing p vector with
  | zero => rfl
  | succ n ih =>
    unfold to_vector_iterations Client.run
    rw [handle_not_equal]
    by_cases hend : p = xs.indexes.length
    · subst hend
      simp [Loop.bind, Client.run]
    · have hlt : p < xs.indexes.length := by omega
      have hne : (p != xs.indexes.length) = true := by simpa using hend
      rw [hne]
      show ((Client.call (.star 0) _).run (handle xs) _).1 = _
      unfold Client.run
      rw [handle_star xs hlt]
      show ((Client.call (.increment 0) _).run (handle xs) _).1 = _
      unfold Client.run
      rw [handle_increment]
      -- the rest is the loop from the next index on
      refine (ih (vector ++ [xs.indexes[p]]) (p + 1) hlt).trans ?_
      have hdrop : vector ++ [xs.indexes[p]] ++ xs.indexes.drop (p + 1) =
          vector ++ xs.indexes.drop p := by
        rw [List.append_assoc, List.drop_eq_getElem_cons hlt]
        rfl
      have hcount : xs.indexes.length - (p + 1) < n ↔ xs.indexes.length - p < n + 1 := by
        omega
      rw [hdrop]
      simp only [hcount]

theorem hasCore_ofLoop {p i : Nat} {it : IndexIterator .shared}
    (hit : (ofLoop xs .shared p)[i]? = some it) : it.HasCore := by
  obtain ⟨hi, hget⟩ := List.getElem?_eq_some_iff.mp hit
  have hmem : it ∈ ofLoop xs .shared p := hget ▸ List.getElem_mem hi
  rcases List.mem_cons.mp hmem with rfl | hmem
  · exact ⟨p, rfl⟩
  · exact ⟨xs.indexes.length, List.mem_singleton.mp hmem⟩

/-- None of its calls meets an iterator that was copied. -/
theorem along_to_vector_iterations (n p : Nat) (hp : p ≤ xs.indexes.length) :
    (to_vector_iterations vector n).Along (Client.beside (handle xs) (handle xs)) IteratorMeets
      (ofLoop xs .byValue p, ofLoop xs .shared p) := by
  induction n generalizing p vector with
  | zero => trivial
  | succ n ih =>
    unfold to_vector_iterations
    -- each call is on the iterators of `begin` and `end`
    refine ⟨fun it other hi hj => ⟨hasCore_ofLoop xs hi, hasCore_ofLoop xs hj⟩, ?_⟩
    unfold Client.beside
    rw [handle_not_equal, handle_not_equal]
    by_cases hend : p = xs.indexes.length
    · subst hend
      simp [Loop.bind, Client.Along]
    · have hlt : p < xs.indexes.length := by omega
      have hne : (p != xs.indexes.length) = true := by simpa using hend
      rw [hne]
      refine ⟨fun it hi => hasCore_ofLoop xs hi, ?_⟩
      dsimp only
      rw [handle_star xs hlt, handle_star xs hlt]
      refine ⟨fun it hi => hasCore_ofLoop xs hi, ?_⟩
      dsimp only
      rw [handle_increment, handle_increment]
      exact ih (vector ++ [xs.indexes[p]]) (p + 1) hlt

end Loop

/-- **Programs with the iterators of an `index_set`.**  The builds do the same, call by
call, exactly in the programs that read, increment or compare no iterator that was made or
assigned by a copy or a move, or moved from.  The loop of `to_vector` is such a program: in
both builds it ends with the indexes of the set, one iteration for each. -/
theorem iterator_program_iff (xs : IndexSet) (p : Loop) :
    ((p.Along (Client.beside (handle xs) (handle xs))
          (Client.AgreesAt (handle xs) (handle xs) Alike) ([], []) ↔
        p.Along (Client.beside (handle xs) (handle xs)) IteratorMeets ([], [])) ∧
      (p.Along (Client.beside (handle xs) (handle xs)) IteratorMeets ([], []) →
        (p.run (handle xs) ([] : IndexIterators .byValue)).1 =
            (p.run (handle xs) ([] : IndexIterators .shared)).1 ∧
          Alike (p.run (handle xs) []).2 (p.run (handle xs) []).2)) ∧
    ∀ n,
      (to_vector_loop n).Along (Client.beside (handle xs) (handle xs)) IteratorMeets ([], []) ∧
      ∀ m, ((to_vector_loop n).run (handle xs) ([] : IndexIterators m)).1 =
        .ok (if xs.indexes.length < n then some (to_vector xs) else none) := by
  refine ⟨Client.along_agreesAt_iff call_agrees_iff p Alike.nil, fun n => ⟨?_, fun m => ?_⟩⟩
  · refine ⟨trivial, trivial, ?_⟩
    exact along_to_vector_iterations [] xs n 0 (Nat.zero_le _)
  · have hrun := run_to_vector_iterations (m := m) [] xs n 0 (Nat.zero_le _)
    rw [Nat.sub_zero, List.drop_zero, List.nil_append] at hrun
    exact hrun

end IndexIterators

end RealmCpp.Observation
