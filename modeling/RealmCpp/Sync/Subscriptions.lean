/-
  RealmCpp.Sync.Subscriptions
  ───────────────────────────
  **THE SUBSCRIPTIONS OF A FLEXIBLE SYNC SESSION.**

  `sync_subscription_set::update` hands a mutable copy of the stored set to a
  callback and stores what the callback made of it, once that is committed.  The
  callback is a program over the methods of the mutable set: it may look
  subscriptions up, decide by what it finds, and catch what a method throws.

    • `SubscriptionSet` — the core's set, as far as the methods rely on it,
    • `MutableSet.handle` — the methods of `mutable_sync_subscription_set`,
    • `update` — `sync_subscription_set::update` in both storages,
    • `Contents.handle` — what the methods are for, subscription by subscription.
-/
import RealmCpp.Library.Handles
import RealmCpp.Library.Client
import Mathlib.Data.List.Nodup
import Mathlib.Logic.Function.Basic

namespace RealmCpp.Sync

open RealmCpp.Library

/-! ## §1. The core's sets. -/

/-- A query over the objects of a class, by its description. -/
structure Query where
  object_class_name : String
  query_string : String
  deriving DecidableEq, Repr

/-- `sync_subscription`. -/
structure Subscription where
  identifier : Nat
  name : Option String
  created_at : Nat
  updated_at : Nat
  query_string : String
  object_class_name : String
  deriving DecidableEq, Repr

namespace Subscription

/-- A new subscription. -/
def create (identifier : Nat) (name : String) (q : Query) (now : Nat) : Subscription :=
  ⟨identifier, some name, now, now, q.query_string, q.object_class_name⟩

/-- The subscription with another query; its identity stays. -/
def assign (x : Subscription) (q : Query) (now : Nat) : Subscription :=
  { x with updated_at := now, query_string := q.query_string,
           object_class_name := q.object_class_name }

/-- Is this the subscription of that name. -/
def Named (name : String) (x : Subscription) : Bool := x.name == some name

@[simp] theorem named_iff {name : String} {x : Subscription} :
    x.Named name = true ↔ x.name = some name := by
  simp [Named]

end Subscription

/-- A set of subscriptions: no two of one name, and each with an identifier below
the next one. -/
structure SubscriptionSet where
  subs : List Subscription
  next_id : Nat
  names : (subs.filterMap Subscription.name).Nodup
  fresh : ∀ x ∈ subs, x.identifier < next_id

namespace SubscriptionSet

@[ext] theorem ext {s t : SubscriptionSet} (hsubs : s.subs = t.subs)
    (hnext : s.next_id = t.next_id) : s = t := by
  cases s
  cases t
  cases hsubs
  cases hnext
  rfl

/-- `find`. -/
def find (s : SubscriptionSet) (name : String) : Option Subscription :=
  s.subs.find? (Subscription.Named name)

theorem find_eq_none_iff {s : SubscriptionSet} {name : String} :
    s.find name = none ↔ name ∉ s.subs.filterMap Subscription.name := by
  simp [find, List.find?_eq_none]

theorem find_mem {s : SubscriptionSet} {name : String} {x : Subscription}
    (h : s.find name = some x) : x ∈ s.subs ∧ x.name = some name :=
  ⟨List.mem_of_find?_eq_some h, Subscription.named_iff.mp (List.find?_some h)⟩

/-- A subscription of a name that has none. -/
def append (s : SubscriptionSet) (name : String) (q : Query) (now : Nat)
    (h : s.find name = none) : SubscriptionSet where
  subs := s.subs ++ [Subscription.create s.next_id name q now]
  next_id := s.next_id + 1
  names := by
    have hnew := find_eq_none_iff.mp h
    rw [List.filterMap_append, List.nodup_append]
    refine ⟨s.names, List.nodup_singleton name, fun a ha b hb hab => ?_⟩
    rw [List.mem_singleton.mp hb] at hab
    exact hnew (hab ▸ ha)
  fresh := fun y hy => by
    rcases List.mem_append.mp hy with hy | hy
    · have hlt := s.fresh y hy
      omega
    · rw [List.mem_singleton.mp hy]
      exact Nat.lt_succ_self _

/-- The same subscriptions, those of a name with another query. -/
def assign (s : SubscriptionSet) (name : String) (q : Query) (now : Nat) : SubscriptionSet :=
  { s with
    subs := s.subs.map fun x => if x.Named name then x.assign q now else x
    names := by
      have hname : Subscription.name ∘ (fun x => if x.Named name then x.assign q now else x)
          = Subscription.name := by
        funext x
        simp only [Function.comp]
        split <;> rfl
      rw [List.filterMap_map, hname]
      exact s.names
    fresh := fun y hy => by
      obtain ⟨x, hx, rfl⟩ := List.mem_map.mp hy
      have hlt := s.fresh x hx
      split <;> exact hlt }

/-- `insert_or_assign`: a subscription of that name keeps its identity. -/
def insert_or_assign (s : SubscriptionSet) (name : String) (q : Query) (now : Nat) :
    SubscriptionSet :=
  match h : s.find name with
  | some _ => s.assign name q now
  | none => s.append name q now h

/-- The set without the subscriptions that `p` holds of. -/
def without (s : SubscriptionSet) (p : Subscription → Bool) : SubscriptionSet :=
  { s with
    subs := s.subs.filter fun x => !p x
    names := s.names.sublist (List.filter_sublist.filterMap _)
    fresh := fun x hx => s.fresh x (List.mem_filter.mp hx).1 }

/-- `erase`: none where there is no subscription of that name. -/
def erase (s : SubscriptionSet) (name : String) : Option SubscriptionSet :=
  match s.find name with
  | some _ => some (s.without (Subscription.Named name))
  | none => none

/-- `clear`. -/
def clear (s : SubscriptionSet) : SubscriptionSet := s.without fun _ => true

end SubscriptionSet

/-! ## §2. The methods of the mutable set. -/

/-- How a call or a callback ends. -/
inductive Ending where
  | returned
  | raised
  deriving DecidableEq, Repr

/-- What `add` and `update_subscription` are given: the class, and a function on
the query without conditions, which may throw. -/
structure QueryFn where
  T : String
  query_fn : Option (Query → Option Query)

/-- The query that is added: `*query_fn` of the root query, or the root query. -/
def QueryFn.full_query (f : QueryFn) : Option Query :=
  let root_query : Query := ⟨f.T, "TRUEPREDICATE"⟩
  match f.query_fn with
  | some query_fn => query_fn root_query
  | none => some root_query

/-- A call on the mutable set; the two that write a time are made `now`. -/
inductive Call where
  | find (name : String)
  | add (name : String) (f : QueryFn) (now : Nat)
  | remove (name : String)
  | update_subscription (name : String) (f : QueryFn) (now : Nat)
  | clear

/-- What a call answers: `find` a subscription, the others how they end. -/
def Call.Answer : Call → Type
  | find _ => Option Subscription
  | add .. | remove _ | update_subscription .. | clear => Ending

namespace MutableSet

variable (s : SubscriptionSet) (name : String) (f : QueryFn) (now : Nat)

/-- `mutable_sync_subscription_set::add`: where building the query throws,
nothing has been written yet. -/
def add : Ending × SubscriptionSet :=
  match f.full_query with
  | some q => (.returned, s.insert_or_assign name q now)
  | none => (.raised, s)

/-- `mutable_sync_subscription_set::remove`. -/
def remove : Ending × SubscriptionSet :=
  match s.erase name with
  | some s' => (.returned, s')
  | none => (.raised, s)

/-- `mutable_sync_subscription_set::update_subscription`: `remove`, then `add`. -/
def update_subscription : Ending × SubscriptionSet :=
  match remove s name with
  | (.returned, s') => add s' name f now
  | (.raised, s') => (.raised, s')

/-- The methods, on the core's set. -/
def handle (s : SubscriptionSet) : (c : Call) → c.Answer × SubscriptionSet
  | .find name => (s.find name, s)
  | .add name f now => add s name f now
  | .remove name => remove s name
  | .update_subscription name f now => update_subscription s name f now
  | .clear => (.returned, s.clear)

end MutableSet

/-- An update callback. -/
abbrev Callback := Client Call Call.Answer Ending

/-! ## §3. `sync_subscription_set`. -/

/-- One `update`: its callback, and whether the core's `commit` goes through. -/
structure Attempt where
  fn : Callback
  commits : Bool

/-- `commit` of the core: the new set, or none where it throws. -/
def commit (a : Attempt) (mutable_set : SubscriptionSet) : Option SubscriptionSet :=
  if a.commits then some mutable_set else none

/-- `sync_subscription_set::update`, on the stored set.  In place, the stored set
is destroyed before `commit` is called; the state is then no set at all. -/
def update (m : Storage) (s : SubscriptionSet) (a : Attempt) : Ending × Option SubscriptionSet :=
  match a.fn.run MutableSet.handle s with
  | (.raised, _) => (.raised, some s)
  | (.returned, mutable_set) =>
    match m with
    | .byValue =>
      -- the destructor has run when the argument of the new one is evaluated
      match commit a mutable_set with
      | some s' => (.returned, some s')
      | none => (.raised, none)
    | .shared =>
      match commit a mutable_set with
      | some s' => (.returned, some s')
      | none => (.raised, some s)

/-! ## §4. What the methods are for. -/

/-- The subscriptions by name, those without a name, and the next identifier. -/
@[ext] structure Contents where
  named : String → Option Subscription
  unnamed : List Subscription
  next_id : Nat

/-- The contents of a set. -/
def SubscriptionSet.contents (s : SubscriptionSet) : Contents where
  named := s.find
  unnamed := s.subs.filter fun x => x.name.isNone
  next_id := s.next_id

namespace Contents

variable (A : Contents) (name : String) (f : QueryFn) (now : Nat)

/-- A query for a name: an existing subscription of the name stays the same one. -/
def put (q : Query) : Contents :=
  match A.named name with
  | some x => { A with named := Function.update A.named name (some (x.assign q now)) }
  | none =>
      { A with
        named := Function.update A.named name (some (.create A.next_id name q now))
        next_id := A.next_id + 1 }

/-- Add or overwrite. -/
def add : Ending × Contents :=
  match f.full_query with
  | some q => (.returned, A.put name now q)
  | none => (.raised, A)

/-- Remove the subscription of a name, which must be there. -/
def remove : Ending × Contents :=
  match A.named name with
  | some _ => (.returned, { A with named := Function.update A.named name none })
  | none => (.raised, A)

/-- Give the subscription of a name another query; it must be there, and it
stays the same one. -/
def update_subscription : Ending × Contents :=
  match A.named name with
  | some _ => add A name f now
  | none => (.raised, A)

/-- Remove them all. -/
def clear : Contents := ⟨fun _ => none, [], A.next_id⟩

/-- The calls, as they are meant. -/
def handle (A : Contents) : (c : Call) → c.Answer × Contents
  | .find name => (A.named name, A)
  | .add name f now => add A name f now
  | .remove name => remove A name
  | .update_subscription name f now => update_subscription A name f now
  | .clear => (.returned, A.clear)

end Contents

end RealmCpp.Sync
