/-
  RealmCpp.Observation.CollectionChange
  ─────────────────────────────────────
  **OBSERVING A COLLECTION.**

  The core delivers change sets to a wrapper, which calls the handler of the
  user.  Lists, sets and results are given indexes, dictionaries keys.  That the
  owner of the collection was deleted is a flag of the change set: the wrappers
  for indexes never pass it on, and that for keys drops it where there are no
  keys.

    • `collection_callback_wrapper`, `results_callback_wrapper` — indexes,
    • `dictionary_callback_wrapper` — keys,
    • `faithful` — what is to be delivered,
    • `indexDeliveries_iff`, `dictionaryDeliveries_iff` — where a run is faithful,
    • `collection_changes_iff` — for each of the wrappers.
-/
import RealmCpp.Core.ChangeSet

namespace RealmCpp.Observation

open RealmCpp.Core

/-! ## §1. The wrappers. -/

/-- `collection_change`. -/
structure CollectionChange where
  deletions : List Nat
  insertions : List Nat
  modifications : List Nat
  collection_root_was_deleted : Bool := false
  deriving DecidableEq, Repr

/-- `results_change`, with the observed results. -/
structure ResultsChange (R : Type) where
  collection : R
  deletions : List Nat
  insertions : List Nat
  modifications : List Nat
  collection_root_was_deleted : Bool := false
  deriving DecidableEq, Repr

/-- `to_vector`. -/
def to_vector (index_set : IndexSet) : List Nat := index_set.indexes

/-- The callback of a wrapper for indexes: its flag for the initial notification,
and the calls of the handler. -/
def indexAfter {X : Type} (change : List Nat → List Nat → List Nat → X) (ignore : Bool)
    (changes : CollectionChangeSet) : Bool × List X :=
  if ignore then (false, [change [] [] []])
  else if changes.empty then (ignore, [change [] [] []])
  else if !changes.collection_root_was_deleted || !changes.deletions.empty then
    (ignore, [change (to_vector changes.deletions) (to_vector changes.insertions)
      (to_vector changes.modifications)])
  else (ignore, [])

/-- `collection_callback_wrapper::after`. -/
def collection_callback_wrapper : Bool → CollectionChangeSet → Bool × List CollectionChange :=
  indexAfter fun deletions insertions modifications => { deletions, insertions, modifications }

/-- `results_callback_wrapper::after`. -/
def results_callback_wrapper {R : Type} (collection : R) :
    Bool → CollectionChangeSet → Bool × List (ResultsChange R) :=
  indexAfter fun deletions insertions modifications =>
    { collection, deletions, insertions, modifications }

/-- A change of a dictionary, as the core delivers it. -/
structure DictionaryChangeSet where
  deletions : List String
  insertions : List String
  modifications : List String
  collection_root_was_deleted : Bool := false
  deriving DecidableEq, Repr

/-- No keys in a change. -/
def DictionaryChangeSet.noKeys (changes : DictionaryChangeSet) : Bool :=
  changes.deletions.isEmpty && changes.insertions.isEmpty && changes.modifications.isEmpty

/-- `dictionary_collection_change`. -/
structure DictionaryCollectionChange where
  insertions : List String := []
  modifications : List String := []
  deletions : List String := []
  collection_root_was_deleted : Bool := false
  deriving DecidableEq, Repr

/-- The callback of `dictionary::add_key_based_notification_callback`.  It does not
look at the flag of `dictionary_callback_wrapper`. -/
def dictionary_callback_wrapper (ignore : Bool) (changes : DictionaryChangeSet) :
    Bool × List DictionaryCollectionChange :=
  if changes.noKeys then (ignore, [{}])
  else
    (ignore, [{
      insertions := changes.insertions
      modifications := changes.modifications
      deletions := changes.deletions
      collection_root_was_deleted := changes.collection_root_was_deleted }])

/-! ## §2. Runs. -/

section Runs

variable {C X : Type}

/-- The calls of the handler for each change set that is delivered. -/
def deliveries (after : Bool → C → Bool × List X) : Bool → List C → List (List X)
  | _, [] => []
  | ignore, c :: cs => (after ignore c).2 :: deliveries after (after ignore c).1 cs

/-- **What is to be delivered**: each change set once and as it is, but an empty
change first if the initial notification is to be ignored. -/
def faithful (empty : X) (pass : C → X) : Bool → List C → List (List X)
  | _, [] => []
  | ignore, c :: cs => [if ignore then empty else pass c] :: cs.map fun c => [pass c]

/-- The change sets after the one that is to be ignored. -/
def later (ignore : Bool) (cs : List C) : List C := if ignore then cs.tail else cs

variable {after : Bool → C → Bool × List X} {empty : X} {pass : C → X}

/-- A wrapper that ignores nothing passes on what it passes on by itself. -/
theorem deliveries_eq_map_iff {P : C → Prop} (hstate : ∀ c, (after false c).1 = false)
    (hpass : ∀ c, (after false c).2 = [pass c] ↔ P c) (cs : List C) :
    deliveries after false cs = (cs.map fun c => [pass c]) ↔ ∀ c ∈ cs, P c := by
  induction cs with
  | nil => simp [deliveries]
  | cons c cs ih =>
    simp only [deliveries, hstate, List.map_cons, List.cons.injEq, List.forall_mem_cons]
    rw [hpass, ih]

end Runs

/-! ## §3. Indexes. -/

section Indexes

variable {X : Type} {change : List Nat → List Nat → List Nat → Bool → X}

/-- The change set as it is. -/
def passed (change : List Nat → List Nat → List Nat → Bool → X) (c : CollectionChangeSet) : X :=
  change c.deletions.indexes c.insertions.indexes c.modifications.indexes
    c.collection_root_was_deleted

theorem indexAfter_state (f : List Nat → List Nat → List Nat → X) (c : CollectionChangeSet) :
    (indexAfter f false c).1 = false := by
  unfold indexAfter
  split
  · rfl
  · split
    · rfl
    · split <;> rfl

/-- **A change is passed on as it is exactly if the owner was not deleted.** -/
theorem indexAfter_iff (hchange : ∀ d i m, change d i m false ≠ change d i m true)
    (c : CollectionChangeSet) :
    (indexAfter (fun d i m => change d i m false) false c).2 = [passed change c] ↔
      c.collection_root_was_deleted = false := by
  unfold indexAfter passed to_vector
  cases hempty : c.empty with
  | true =>
    obtain ⟨hdeletions, hinsertions, hmodifications, hroot⟩ := c.of_empty hempty
    rw [IndexSet.empty_iff] at hdeletions hinsertions hmodifications
    simp [hdeletions, hinsertions, hmodifications, hroot]
  | false =>
    cases hroot : c.collection_root_was_deleted with
    | false => simp
    | true =>
      -- either the handler is not called, or the flag is lost
      cases c.deletions.empty with
      | true => simp
      | false => simpa using hchange _ _ _

theorem indexDeliveries_iff (hchange : ∀ d i m, change d i m false ≠ change d i m true)
    (ignore : Bool) (cs : List CollectionChangeSet) :
    deliveries (indexAfter fun d i m => change d i m false) ignore cs =
        faithful (change [] [] [] false) (passed change) ignore cs ↔
      ∀ c ∈ later ignore cs, c.collection_root_was_deleted = false := by
  have hall := deliveries_eq_map_iff (indexAfter_state fun d i m => change d i m false)
    (indexAfter_iff hchange)
  cases cs with
  | nil => cases ignore <;> simp [deliveries, faithful, later]
  | cons c cs =>
    cases ignore with
    | true =>
      show [change [] [] [] false] :: deliveries _ false cs = [change [] [] [] false] :: _ ↔ _
      rw [List.cons_eq_cons, hall cs]
      simp [later]
    | false => exact hall (c :: cs)

end Indexes

/-! ## §4. Keys. -/

/-- The change set of a dictionary as it is. -/
def passedKeys (c : DictionaryChangeSet) : DictionaryCollectionChange where
  insertions := c.insertions
  modifications := c.modifications
  deletions := c.deletions
  collection_root_was_deleted := c.collection_root_was_deleted

theorem noKeys_iff {c : DictionaryChangeSet} :
    c.noKeys = true ↔ c.deletions = [] ∧ c.insertions = [] ∧ c.modifications = [] := by
  simp [DictionaryChangeSet.noKeys, and_assoc]

/-- **A change of keys is passed on as it is**, unless the owner was deleted and
there were no keys. -/
theorem dictionary_callback_wrapper_iff (ignore : Bool) (c : DictionaryChangeSet) :
    (dictionary_callback_wrapper ignore c).2 = [passedKeys c] ↔
      ¬ (c.collection_root_was_deleted = true ∧ c.noKeys = true) := by
  unfold dictionary_callback_wrapper
  cases hkeys : c.noKeys with
  | false => simp [passedKeys]
  | true =>
    obtain ⟨hdeletions, hinsertions, hmodifications⟩ := noKeys_iff.mp hkeys
    simp [passedKeys, hdeletions, hinsertions, hmodifications]

/-- An empty change is passed on only where there are no keys. -/
theorem dictionary_callback_wrapper_empty_iff (ignore : Bool) (c : DictionaryChangeSet) :
    (dictionary_callback_wrapper ignore c).2 = [{}] ↔ c.noKeys = true := by
  unfold dictionary_callback_wrapper
  cases hkeys : c.noKeys with
  | true => simp
  | false =>
    have hne : ¬ (c.insertions = [] ∧ c.modifications = [] ∧ c.deletions = []) := by
      rintro ⟨hinsertions, hmodifications, hdeletions⟩
      have := noKeys_iff.mpr ⟨hdeletions, hinsertions, hmodifications⟩
      rw [hkeys] at this
      cases this
    simp only [if_false, List.cons.injEq, and_true, Bool.false_eq_true, iff_false,
      DictionaryCollectionChange.mk.injEq]
    intro h
    exact hne ⟨h.1, h.2.1, h.2.2.1⟩

/-- The flag of the wrapper is never changed. -/
theorem deliveries_dictionary (ignore : Bool) (cs : List DictionaryChangeSet) :
    deliveries dictionary_callback_wrapper ignore cs =
      deliveries dictionary_callback_wrapper false cs := by
  have hstate : ∀ ignore c, (dictionary_callback_wrapper ignore c).1 = ignore := by
    intro ignore c
    unfold dictionary_callback_wrapper
    split <;> rfl
  have hcalls : ∀ c, (dictionary_callback_wrapper ignore c).2 =
      (dictionary_callback_wrapper false c).2 := by
    intro c
    unfold dictionary_callback_wrapper
    split <;> rfl
  induction cs with
  | nil => rfl
  | cons c cs ih => rw [deliveries, deliveries, hstate, hstate, hcalls, ih]

theorem dictionaryDeliveries_iff (ignore : Bool) (ds : List DictionaryChangeSet) :
    deliveries dictionary_callback_wrapper ignore ds = faithful {} passedKeys ignore ds ↔
      (∀ d ∈ later ignore ds, ¬ (d.collection_root_was_deleted = true ∧ d.noKeys = true)) ∧
        (ignore = true → ∀ d ∈ ds.head?, d.noKeys = true) := by
  have hstate : ∀ c, (dictionary_callback_wrapper false c).1 = false := by
    intro c
    unfold dictionary_callback_wrapper
    split <;> rfl
  have hall := deliveries_eq_map_iff hstate (dictionary_callback_wrapper_iff false)
  cases ds with
  | nil => cases ignore <;> simp [deliveries, faithful, later]
  | cons d ds =>
    rw [deliveries_dictionary]
    cases ignore with
    | true =>
      show (dictionary_callback_wrapper false d).2 :: deliveries _ _ ds = [{}] :: _ ↔ _
      rw [List.cons_eq_cons, hstate, hall ds, dictionary_callback_wrapper_empty_iff]
      simp [later, and_comm]
    | false =>
      have hdeliveries := hall (d :: ds)
      simpa [later, faithful] using hdeliveries

/-! ## §5. All wrappers. -/

/-- **Where changes of collections are delivered as they are.**  For indexes,
exactly if the owner was deleted in none of them; for keys, exactly if it was
not deleted in one without keys.  Keys of an initial notification are delivered
even if it is to be ignored. -/
theorem collection_changes_iff {R : Type} (collection : R) (ignore : Bool)
    (cs : List CollectionChangeSet) (ds : List DictionaryChangeSet) :
    (deliveries collection_callback_wrapper ignore cs =
        faithful ⟨[], [], [], false⟩ (passed CollectionChange.mk) ignore cs ↔
      ∀ c ∈ later ignore cs, c.collection_root_was_deleted = false) ∧
    (deliveries (results_callback_wrapper collection) ignore cs =
        faithful ⟨collection, [], [], [], false⟩ (passed (ResultsChange.mk collection)) ignore cs ↔
      ∀ c ∈ later ignore cs, c.collection_root_was_deleted = false) ∧
    (deliveries dictionary_callback_wrapper ignore ds = faithful {} passedKeys ignore ds ↔
      (∀ d ∈ later ignore ds, ¬ (d.collection_root_was_deleted = true ∧ d.noKeys = true)) ∧
        (ignore = true → ∀ d ∈ ds.head?, d.noKeys = true)) := by
  refine ⟨?_, ?_, ?_⟩
  · exact @indexDeliveries_iff _ CollectionChange.mk (by simp) ignore cs
  · exact @indexDeliveries_iff _ (ResultsChange.mk collection) (by simp) ignore cs
  · exact dictionaryDeliveries_iff ignore ds

/-- The owner of an empty list is deleted. -/
def ownerDeleted : CollectionChangeSet where
  deletions := .none
  insertions := .none
  modifications := .none
  columns := []
  collection_root_was_deleted := true
  empty := false
  of_empty h := by cases h

/-- **The deletion of the owner of an empty collection gets lost.** -/
theorem owner_deletion_lost :
    deliveries collection_callback_wrapper false [ownerDeleted] = [[]] ∧
      deliveries (results_callback_wrapper ()) false [ownerDeleted] = [[]] ∧
      deliveries dictionary_callback_wrapper false [⟨[], [], [], true⟩] = [[{}]] ∧
      ¬ (deliveries collection_callback_wrapper false [ownerDeleted] =
          faithful ⟨[], [], [], false⟩ (passed CollectionChange.mk) false [ownerDeleted] ∧
        deliveries (results_callback_wrapper ()) false [ownerDeleted] =
          faithful ⟨(), [], [], [], false⟩ (passed (ResultsChange.mk ())) false [ownerDeleted] ∧
        deliveries dictionary_callback_wrapper false [⟨[], [], [], true⟩] =
          faithful {} passedKeys false [⟨[], [], [], true⟩]) := by
  decide

end RealmCpp.Observation
