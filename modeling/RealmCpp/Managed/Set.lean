/-
  RealmCpp.Managed.Set
  ────────────────────
  **A MANAGED SET, AND THE SET THAT IT IS MEANT TO BE.**

  `managed<std::set<T>>` and `managed<std::set<T*>>` hand their calls on to a set of
  the core.  A program makes calls and keeps iterators, which are indices; it is run
  side by side with one on a mathematical set, whose iterators are elements.

    • `ManagedSet` — the methods of the two templates, `ElementSet` — the meaning,
    • `Corresponds` — both have the same elements,
    • `Meets` — what a call needs for the same answer,
    • `managed_set_simulates` — where all calls do, and only there, programs observe the same.
-/
import Mathlib.Data.Finset.Insert
import Mathlib.Data.Multiset.MapFold
import RealmCpp.Core.Set
import RealmCpp.Library.Client
import RealmCpp.Managed.Iterators
import RealmCpp.Managed.StorableValues

namespace RealmCpp.Managed

open RealmCpp.Library
open RealmCpp.Core

/-! ## §1. Elements. -/

/-- An element as the core has it, and read back: `serialize` and `deserialize` for a
set of scalars, `get_key` and `get_obj` for one of objects.  Elements are equal if they are
word for word: the decimals 1.0 and 1.00 are two elements, as the doubles 0.0 and -0.0 are,
and a NaN is equal to itself.  (`Library.StdSet` has the order of a `std::set` instead.) -/
structure Conversions (E C : Type) where
  serialize : E → C
  deserialize : C → Option E

/-- The value is read back as it was stored. -/
def Conversions.ComesBack {E C : Type} (K : Conversions E C) (v : E) : Prop :=
  K.deserialize (K.serialize v) = some v

theorem Conversions.ComesBack.inj {E C : Type} {K : Conversions E C} {v w : E}
    (hv : K.ComesBack v) (hw : K.ComesBack w) (h : K.serialize v = K.serialize w) : v = w := by
  unfold ComesBack at hv hw
  rw [h, hw] at hv
  exact (Option.some.inj hv).symm

/-- **The class of a set's objects**: what is known of it, and what its table and its
accessors do in a store.  A `V` is what a pointer points to, a `P` a primary key. -/
structure ObjectClass (E V P σ : Type) where
  HasPrimaryKeyProperty : Bool
  is_embedded : Bool
  primary_key : V → P
  create_object : σ → E × σ
  create_object_with_primary_key : P → σ → E × σ
  set_properties : V → E → σ → σ

/-- The object that is made of what a pointer points to. -/
def ObjectClass.create {E V P σ : Type} (T : ObjectClass E V P σ) (value : V) (store : σ) :
    E × σ :=
  let (m_obj, store) :=
    if T.HasPrimaryKeyProperty then T.create_object_with_primary_key (T.primary_key value) store
    else T.create_object store
  (m_obj, T.set_properties value m_obj store)

/-- A `managed<T*>`: the key of `m_obj`, the object that has the link, and the object
that it links to. -/
structure ManagedPointer (E C : Type) where
  key : C
  target : Option E

/-! ## §2. Calls. -/

/-- The calls; those with pointers are of a set of objects.  Where one returns an
iterator, the program keeps it as number `r`.  There is no call for
`insert(const managed<T*>&)`: it asks a pointer for `get_key` with a dot, which is no
C++. -/
inductive SetCall (E C V : Type) where
  | insert (r : Nat) (v : E)
  | insert_hint (r : Nat) (v : E)
  | insert_pointer (r : Nat) (value : V)
  | insert_pointer_hint (r : Nat) (value : V)
  | find (r : Nat) (v : E)
  | find_pointer (r : Nat) (v : ManagedPointer E C)
  | erase (r : Nat)
  | clear
  | size
  | iterate
  | detach

/-- What a program observes: of an iterator the element it designates, none at
`end()`, and of an iteration what it visits and how often. -/
abbrev SetCall.Answer {E C V : Type} : SetCall E C V → Type
  | insert _ _ | insert_pointer _ _ => Bool × Option E
  | insert_hint _ _ | insert_pointer_hint _ _ | find _ _ | find_pointer _ _ => Option E
  | erase _ | clear => Unit
  | size => Nat
  | iterate => Multiset (Option E)
  | detach => Option (Finset E)

/-! ## §3. Managed sets. -/

/-- The core's set, the store with the objects, and the `m_i` of the iterators that
the program keeps. -/
structure ManagedSet (C σ : Type) where
  set : CoreSet C
  store : σ
  m_i : Nat → Nat

namespace ManagedSet

section Methods

variable {E C V P σ : Type} [DecidableEq E] [DecidableEq C]
variable (K : Conversions E C) (T : ObjectClass E V P σ) (place : List C → C → Nat)

/-- The program keeps an iterator. -/
def keep (s : ManagedSet C σ) (r i : Nat) : ManagedSet C σ :=
  { s with m_i := Function.update s.m_i r i }

/-- `*it` of the iterator at an index. -/
def star (s : ManagedSet C σ) (i : Nat) : Option E :=
  (set_iterator K.deserialize).star (fun _ => s.set.elements) ⟨i, 0⟩

/-- `insert(const T&)` and `insert(const managed<T>&)`. -/
def insert (s : ManagedSet C σ) (r : Nat) (v : E) : (Bool × Option E) × ManagedSet C σ :=
  let (set, idx, inserted) := s.set.insert place (K.serialize v)
  let s := { s with set := set }
  ((inserted, s.star K idx), s.keep r idx)

/-- `insert(const iterator&, const T&)` and `insert(const iterator&, const managed<T>&)`. -/
def insert_hint (s : ManagedSet C σ) (r : Nat) (v : E) : Option E × ManagedSet C σ :=
  let (set, idx, _) := s.set.insert place (K.serialize v)
  let s := { s with set := set }
  (s.star K idx, s.keep r idx)

/-- `insert(T*)`. -/
def insert_pointer (s : ManagedSet C σ) (r : Nat) (value : V) :
    (Bool × Option E) × ManagedSet C σ :=
  let (m_obj, store) := T.create value s.store
  let s := { s with store := store }
  -- this result is not used; the one that is returned comes from a second insertion
  let s :=
    if !T.is_embedded then { s with set := (s.set.insert place (K.serialize m_obj)).1 } else s
  s.insert K place r m_obj

/-- `insert(const iterator&, T*)`. -/
def insert_pointer_hint (s : ManagedSet C σ) (r : Nat) (value : V) :
    Option E × ManagedSet C σ :=
  let (m_obj, store) := T.create value s.store
  insert_hint K place { s with store := store } r m_obj

/-- The iterator for what the core finds: `end()` where that is nothing. -/
def find_key (s : ManagedSet C σ) (r : Nat) (c : C) : Option E × ManagedSet C σ :=
  let idx :=
    match s.set.find c with
    | some idx => idx
    | none => s.set.size
  (s.star K idx, s.keep r idx)

/-- `find(const T&)` and `find(const managed<T>&)`. -/
def find (s : ManagedSet C σ) (r : Nat) (v : E) : Option E × ManagedSet C σ :=
  s.find_key K r (K.serialize v)

/-- `find(const managed<T*>&)`, which looks for the object that has the link. -/
def find_pointer (s : ManagedSet C σ) (r : Nat) (v : ManagedPointer E C) :
    Option E × ManagedSet C σ :=
  s.find_key K r v.key

/-- `erase`; where `*it` raises, nothing is removed. -/
def erase (s : ManagedSet C σ) (i : Nat) : ManagedSet C σ :=
  match s.star K i with
  | some v => { s with set := s.set.remove (K.serialize v) }
  | none => s

/-- `clear`. -/
def clear (s : ManagedSet C σ) : ManagedSet C σ := { s with set := .empty }

/-- What the loop from `begin()` to `end()` with `++it` visits; none where it does not
end. -/
def iterate (s : ManagedSet C σ) : List (Option E) :=
  match IteratorClass.loop (fun _ => s.set.elements) 0 Iterator.increment s.set.size with
  | .returned its => its.map fun it => s.star K it.m_i
  | _ => []

/-- `detach`. -/
def detach (s : ManagedSet C σ) : Option (Finset E) :=
  (s.set.elements.mapM K.deserialize).map List.toFinset

/-- The calls, on a managed set. -/
def handle (s : ManagedSet C σ) :
    (c : SetCall E C V) → c.Answer × ManagedSet C σ
  | .insert r v => s.insert K place r v
  | .insert_hint r v => s.insert_hint K place r v
  | .insert_pointer r value => s.insert_pointer K T place r value
  | .insert_pointer_hint r value => s.insert_pointer_hint K T place r value
  | .find r v => s.find K r v
  | .find_pointer r v => s.find_pointer K r v
  | .erase r => ((), s.erase K (s.m_i r))
  | .clear => ((), s.clear)
  | .size => (s.set.size, s)
  | .iterate => (s.iterate K, s)
  | .detach => (s.detach K, s)

end Methods

end ManagedSet

/-! ## §4. What the calls are for. -/

/-- A set of elements, equal as in `Conversions`; an iterator is at an element, or at
`end()`. -/
structure ElementSet (E σ : Type) where
  elements : Finset E
  store : σ
  it : Nat → Option E

namespace ElementSet

section Methods

variable {E C V P σ : Type} [DecidableEq E] (T : ObjectClass E V P σ)

/-- The program keeps an iterator. -/
def keep (t : ElementSet E σ) (r : Nat) (it : Option E) : ElementSet E σ :=
  { t with it := Function.update t.it r it }

/-- The element is in the set afterwards; the flag is whether it was not before. -/
def insert (t : ElementSet E σ) (r : Nat) (v : E) : (Bool × Option E) × ElementSet E σ :=
  ((decide (v ∉ t.elements), some v),
    { t with elements := Insert.insert v t.elements }.keep r (some v))

/-- The same for the object that is made of what a pointer points to. -/
def insert_pointer (t : ElementSet E σ) (r : Nat) (value : V) :
    (Bool × Option E) × ElementSet E σ :=
  let (m_obj, store) := T.create value t.store
  { t with store := store }.insert r m_obj

/-- The element if it is in the set, and `end()` otherwise. -/
def find (t : ElementSet E σ) (r : Nat) (v : Option E) : Option E × ElementSet E σ :=
  let it := v.filter fun v => decide (v ∈ t.elements)
  (it, t.keep r it)

/-- The element of an iterator is removed. -/
def erase (t : ElementSet E σ) (it : Option E) : ElementSet E σ :=
  match it with
  | some v => { t with elements := t.elements.erase v }
  | none => t

/-- The calls, as they are meant. -/
def handle (t : ElementSet E σ) :
    (c : SetCall E C V) → c.Answer × ElementSet E σ
  | .insert r v => t.insert r v
  | .insert_hint r v => ((t.insert r v).1.2, (t.insert r v).2)
  | .insert_pointer r value => t.insert_pointer T r value
  | .insert_pointer_hint r value =>
      ((t.insert_pointer T r value).1.2, (t.insert_pointer T r value).2)
  | .find r v => t.find r (some v)
  | .find_pointer r v => t.find r v.target
  | .erase r => ((), t.erase (t.it r))
  | .clear => ((), { t with elements := ∅ })
  | .size => (t.elements.card, t)
  | .iterate => (t.elements.val.map some, t)
  | .detach => (some t.elements, t)

end Methods

end ElementSet

/-! ## §5. Sets that correspond. -/

section Corresponds

variable {E C V P σ : Type}
variable {K : Conversions E C} {T : ObjectClass E V P σ}

/-- **The managed set has the elements it is meant to have**, each once, in whatever
order, and they are read back. -/
structure Corresponds (K : Conversions E C) (s : ManagedSet C σ) (t : ElementSet E σ) : Prop where
  contents : (s.set.elements : Multiset C) = t.elements.val.map K.serialize
  comesBack : ∀ v ∈ t.elements, K.ComesBack v
  store : s.store = t.store

variable {s : ManagedSet C σ} {t : ElementSet E σ}

theorem Corresponds.mem_iff (h : Corresponds K s t) {c : C} :
    c ∈ s.set.elements ↔ ∃ v ∈ t.elements, K.serialize v = c := by
  rw [← Multiset.mem_coe, h.contents, Multiset.mem_map]
  rfl

section Indices

variable [DecidableEq C]

end Indices

variable [DecidableEq E] [DecidableEq C] (place : List C → C → Nat)

end Corresponds

/-- A set without elements, and iterators at `end()`. -/
def ManagedSet.start {C σ : Type} (store : σ) : ManagedSet C σ := ⟨.empty, store, fun _ => 0⟩

def ElementSet.start {E σ : Type} (store : σ) : ElementSet E σ := ⟨∅, store, fun _ => none⟩

/-- A managed set of a storable type: `bridge::mixed` goes between. -/
def StorableType.conversions (m : Storage) (K : CoreConversions) (T : StorableType) :
    Conversions T.Value Mixed := ⟨T.serialize K, T.read m K⟩

/-- **A storable value comes back just when it is kept.** -/
theorem StorableType.comesBack_iff (m : Storage) (K : CoreConversions) (T : StorableType)
    (v : T.Value) : (T.conversions m K).ComesBack v ↔ T.Kept K v :=
  T.read_iff m K v

end RealmCpp.Managed
