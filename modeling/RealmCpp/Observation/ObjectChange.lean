/-
  RealmCpp.Observation.ObjectChange
  ─────────────────────────────────
  **OBSERVING AN OBJECT.**

  The core calls `before` and `after` around a change.  The wrapper keeps the
  names of the properties in the change and their old values from the one call
  to the other, and its block is given them together with the new values.

    • `before`, `after`, `error` — the callbacks,
    • `Aligned` — what the wrapper keeps between calls,
    • `exists_run` — any sequence of calls keeps it,
    • `rounds_report` — what is reported in a run of the core,
    • `object_changes_faithful` — both.
-/
import RealmCpp.Core.ChangeSet

namespace RealmCpp.Observation

open RealmCpp.Core

/-- An observed class: the names of its properties, and their columns. -/
structure ObservedClass where
  names : List String
  nodup : names.Nodup
  get_column_key : String → Int

/-- One property of an object has changed. -/
structure PropertyChange (V : Type) where
  name : String
  old_value : Option V
  new_value : Option V
  deriving DecidableEq, Repr

/-- `object_change<T>`. -/
structure ObjectChange (O V E : Type) where
  object : Option O := none
  is_deleted : Bool := false
  error : Option E := none
  property_changes : List (PropertyChange V) := []
  deriving DecidableEq, Repr

/-- What `object_change_callback_wrapper` keeps. -/
structure ObjectChangeCallbackWrapper (O V : Type) where
  object : O
  property_names : Option (List String) := none
  old_values : Option (List V) := none
  deleted : Bool := false
  deriving DecidableEq, Repr

namespace ObjectChangeCallbackWrapper

variable {O V E St : Type}

/-! ## §1. The callbacks. -/

section Callbacks

variable (T : ObservedClass) (property_value_for_name : St → String → V)

/-- The properties in the change, in the order of the schema. -/
def changed (c : CollectionChangeSet) : List String :=
  T.names.filter fun name => c.columns.contains (T.get_column_key name)

/-- Find the properties in the change, unless they are known. -/
def populate_properties (c : CollectionChangeSet) (w : ObjectChangeCallbackWrapper O V) :
    ObjectChangeCallbackWrapper O V :=
  if w.property_names.isSome then w
  else if !c.deletions.empty then { w with deleted := true }
  else if c.columns.isEmpty then w
  else
    let properties := changed T c
    if !properties.isEmpty then { w with property_names := some properties } else w

/-- The values of the properties in the change, in the store `s`. -/
def read_values (s : St) (c : CollectionChangeSet) (w : ObjectChangeCallbackWrapper O V) :
    ObjectChangeCallbackWrapper O V × Option (List V) :=
  if c.empty then (w, none)
  else
    let w := populate_properties T c w
    match w.property_names with
    | none => (w, none)
    | some names => (w, some (names.map (property_value_for_name s)))

/-- The callback before a change. -/
def before (s : St) (c : CollectionChangeSet) (w : ObjectChangeCallbackWrapper O V) :
    ObjectChangeCallbackWrapper O V :=
  let (w, old_values) := read_values T property_value_for_name s c w
  { w with old_values := old_values }

/-- The value at an index, where there are values; none out of bounds. -/
def valueAt (values : List V) (i : Nat) : Option (Option V) :=
  if values.isEmpty then some none else values[i]?.map some

/-- The loop of `forward_change` over the names, from the index `i` on. -/
def propertyChanges (old_values new_values : List V) :
    Nat → List String → Option (List (PropertyChange V))
  | _, [] => some []
  | i, name :: names => do
      let old_value ← valueAt old_values i
      let new_value ← valueAt new_values i
      let changes ← propertyChanges old_values new_values (i + 1) names
      some ({ name, old_value, new_value } :: changes)

/-- What the block is called with; none where an index is out of bounds. -/
def forward_change (ptr : Option O) (property_names : List String) (old_values new_values : List V)
    (error : Option E) : Option (ObjectChange O V E) :=
  match ptr, error with
  | none, some err => some { error := some err }
  | none, none => some { is_deleted := true }
  | some object, _ => do
      let property_changes ← propertyChanges old_values new_values 0 property_names
      some { object := some object, property_changes }

/-- What `after` calls the block with: a deletion, or new values. -/
def notify (w : ObjectChangeCallbackWrapper O V) (new_values : Option (List V)) :
    Option (List (ObjectChange O V E)) :=
  if w.deleted then (forward_change none [] [] [] none).map ([·])
  else
    match new_values with
    | none => some []
    | some new_values => do
        let property_names ← w.property_names
        (forward_change (some w.object) property_names (w.old_values.getD []) new_values none).map
          ([·])

/-- The callback after a change, with the calls of the block; none where it goes
out of bounds. -/
def after (s : St) (c : CollectionChangeSet) (w : ObjectChangeCallbackWrapper O V) :
    Option (ObjectChangeCallbackWrapper O V × List (ObjectChange O V E)) := do
  let (w, new_values) := read_values T property_value_for_name s c w
  let calls ← notify w new_values
  some ({ w with property_names := none, old_values := none }, calls)

/-- The callback for an error. -/
def error (err : E) : Option (ObjectChange O V E) :=
  forward_change none [] [] [] (some err)

/-- A call of the core, in the store of that moment. -/
inductive Call (St E : Type) where
  | before (s : St) (c : CollectionChangeSet)
  | after (s : St) (c : CollectionChangeSet)
  | error (err : E)

/-- A callback, with the calls of the block. -/
def call (w : ObjectChangeCallbackWrapper O V) :
    Call St E → Option (ObjectChangeCallbackWrapper O V × List (ObjectChange O V E))
  | .before s c => some (before T property_value_for_name s c w, [])
  | .after s c => after T property_value_for_name s c w
  | .error err => (error err).map fun oc => (w, [oc])

/-- Call after call, with the calls of the block for each. -/
def run (w : ObjectChangeCallbackWrapper O V) : List (Call St E) →
    Option (ObjectChangeCallbackWrapper O V × List (List (ObjectChange O V E)))
  | [] => some (w, [])
  | x :: xs => do
      let (w, out) ← call T property_value_for_name w x
      let (w, outs) ← run w xs
      some (w, out :: outs)

end Callbacks

/-! ## §2. Any calls. -/

/-- **The old values belong to the names.** -/
def Aligned (w : ObjectChangeCallbackWrapper O V) : Prop :=
  ∀ values, w.old_values = some values →
    ∃ names, w.property_names = some names ∧ values.length = names.length

section Any

variable {T : ObservedClass} {property_value_for_name : St → String → V}
  {w : ObjectChangeCallbackWrapper O V} {c : CollectionChangeSet} {s : St}

theorem aligned_start (object : O) : Aligned ({ object } : ObjectChangeCallbackWrapper O V) := by
  intro values h
  cases h

/-- **What `populate_properties` does**: nothing, or it notes a deletion, or the
names of the properties in the change. -/
theorem populate_properties_cases (T : ObservedClass) (c : CollectionChangeSet)
    (w : ObjectChangeCallbackWrapper O V) :
    populate_properties T c w = w ∨
      (w.property_names = none ∧ populate_properties T c w = { w with deleted := true }) ∨
      (w.property_names = none ∧
        populate_properties T c w = { w with property_names := some (changed T c) }) := by
  unfold populate_properties
  cases hnames : w.property_names with
  | some names => simp
  | none =>
    simp only [Option.isSome_none, Bool.false_eq_true, if_false]
    split
    · exact .inr (.inl ⟨trivial, rfl⟩)
    · split
      · exact .inl rfl
      · split
        · exact .inr (.inr ⟨trivial, rfl⟩)
        · exact .inl rfl

/-- Names that are known stay. -/
theorem populate_properties_of_some {names : List String} (h : w.property_names = some names) :
    populate_properties T c w = w := by
  simp [populate_properties, h]

theorem aligned_populate_properties (h : w.Aligned) : (populate_properties T c w).Aligned := by
  rcases populate_properties_cases T c w with heq | ⟨-, heq⟩ | ⟨hnames, heq⟩
  · rw [heq]
    exact h
  · rw [heq]
    exact h
  · rw [heq]
    intro values hvalues
    -- without names there were no old values
    obtain ⟨names, hnames', -⟩ := h values hvalues
    rw [hnames] at hnames'
    cases hnames'

/-- **What `read_values` does**: it reads the values of the names that the wrapper
then has, or none. -/
theorem read_values_cases (T : ObservedClass) (property_value_for_name : St → String → V) (s : St)
    (c : CollectionChangeSet) (w : ObjectChangeCallbackWrapper O V) :
    ((read_values T property_value_for_name s c w).1 = w ∨
        (read_values T property_value_for_name s c w).1 = populate_properties T c w) ∧
      ∀ values, (read_values T property_value_for_name s c w).2 = some values →
        ∃ names, (read_values T property_value_for_name s c w).1.property_names = some names ∧
          values = names.map (property_value_for_name s) := by
  unfold read_values
  split
  · simp
  · simp only []
    split
    · simp
    · next names hnames =>
      refine ⟨.inr rfl, fun values hvalues => ⟨names, hnames, ?_⟩⟩
      exact (Option.some.inj hvalues).symm

theorem aligned_read_values (h : w.Aligned) :
    (read_values T property_value_for_name s c w).1.Aligned := by
  rcases (read_values_cases T property_value_for_name s c w).1 with heq | heq
  · rw [heq]
    exact h
  · rw [heq]
    exact aligned_populate_properties h

theorem aligned_before (w : ObjectChangeCallbackWrapper O V) :
    (before T property_value_for_name s c w).Aligned := by
  intro values hvalues
  obtain ⟨names, hnames, rfl⟩ :=
    (read_values_cases T property_value_for_name s c w).2 values hvalues
  exact ⟨names, hnames, List.length_map ..⟩

/-- Values for all names are in bounds, and so are no values at all. -/
theorem exists_valueAt {values : List V} {i n : Nat} (h : values = [] ∨ values.length = n)
    (hi : i < n) : ∃ v, valueAt values i = some v := by
  unfold valueAt
  rcases h with rfl | h
  · exact ⟨none, rfl⟩
  · have hlt : i < values.length := by omega
    split
    · exact ⟨none, rfl⟩
    · exact ⟨some values[i], by simp [hlt]⟩

/-- **Aligned lists stay in bounds.** -/
theorem exists_propertyChanges {old_values new_values : List V} {n : Nat}
    (hold : old_values = [] ∨ old_values.length = n)
    (hnew : new_values = [] ∨ new_values.length = n) {i : Nat} {names : List String}
    (hi : i + names.length ≤ n) :
    ∃ changes, propertyChanges old_values new_values i names = some changes := by
  induction names generalizing i with
  | nil => exact ⟨[], rfl⟩
  | cons name names ih =>
    rw [List.length_cons] at hi
    obtain ⟨old_value, hold_value⟩ := exists_valueAt hold (i := i) (by omega)
    obtain ⟨new_value, hnew_value⟩ := exists_valueAt hnew (i := i) (by omega)
    obtain ⟨changes, hchanges⟩ := ih (i := i + 1) (by omega)
    exact ⟨_, by simp only [propertyChanges, hold_value, hnew_value, hchanges]; rfl⟩

theorem exists_forward_change {object : O} {names : List String} {old_values new_values : List V}
    (hold : old_values = [] ∨ old_values.length = names.length)
    (hnew : new_values = [] ∨ new_values.length = names.length) :
    ∃ oc : ObjectChange O V E,
      forward_change (some object) names old_values new_values none = some oc := by
  have hbounds : 0 + names.length ≤ names.length := by omega
  obtain ⟨changes, hchanges⟩ := exists_propertyChanges hold hnew hbounds
  exact ⟨_, by simp only [forward_change, hchanges]; rfl⟩

theorem exists_notify {new_values : Option (List V)} (h : w.Aligned)
    (hnew : ∀ values, new_values = some values →
      ∃ names, w.property_names = some names ∧ values.length = names.length) :
    ∃ calls : List (ObjectChange O V E), notify w new_values = some calls := by
  unfold notify
  split
  · exact ⟨_, rfl⟩
  · cases new_values with
    | none => exact ⟨[], rfl⟩
    | some values =>
      obtain ⟨names, hnames, hlength⟩ := hnew values rfl
      -- without old values the loop takes nulls for them
      have hold : w.old_values.getD [] = [] ∨ (w.old_values.getD []).length = names.length := by
        cases hvalues : w.old_values with
        | none => exact .inl rfl
        | some old =>
          obtain ⟨names', hnames', hlength'⟩ := h old hvalues
          rw [hnames] at hnames'
          cases hnames'
          exact .inr hlength'
      obtain ⟨oc, hoc⟩ : ∃ oc : ObjectChange O V E,
          forward_change (some w.object) names (w.old_values.getD []) values none = some oc :=
        exists_forward_change hold (.inr hlength)
      exact ⟨[oc], by simp [hnames, hoc]⟩

/-- `after` stays in bounds, and leaves no values behind. -/
theorem exists_after (h : w.Aligned) : ∃ w' calls,
    after (E := E) T property_value_for_name s c w = some (w', calls) ∧ w'.Aligned := by
  have haligned : (read_values T property_value_for_name s c w).1.Aligned := aligned_read_values h
  have hcases := (read_values_cases T property_value_for_name s c w).2
  unfold after
  cases hread : read_values T property_value_for_name s c w with
  | mk w₁ new_values =>
    rw [hread] at haligned hcases
    have hnew : ∀ values, new_values = some values →
        ∃ names, w₁.property_names = some names ∧ values.length = names.length := by
      intro values hvalues
      obtain ⟨names, hnames, rfl⟩ := hcases values hvalues
      exact ⟨names, hnames, List.length_map ..⟩
    obtain ⟨calls, hcalls⟩ := exists_notify (E := E) haligned hnew
    refine ⟨_, calls, by simp only [hcalls]; rfl, ?_⟩
    intro values hvalues
    cases hvalues

theorem exists_call (h : w.Aligned) (x : Call St E) : ∃ w' calls,
    call T property_value_for_name w x = some (w', calls) ∧ w'.Aligned := by
  cases x with
  | before s c => exact ⟨_, [], rfl, aligned_before w⟩
  | after s c => exact exists_after h
  | error err => exact ⟨w, _, rfl, h⟩

/-- **Any sequence of calls stays in bounds.** -/
theorem exists_run (xs : List (Call St E)) (h : w.Aligned) : ∃ w' outs,
    run T property_value_for_name w xs = some (w', outs) ∧ w'.Aligned := by
  induction xs generalizing w with
  | nil => exact ⟨w, [], rfl, h⟩
  | cons x xs ih =>
    obtain ⟨w₁, out, hx, h₁⟩ :
        ∃ w₁ out, call T property_value_for_name w x = some (w₁, out) ∧ w₁.Aligned :=
      exists_call h x
    obtain ⟨w₂, outs, hxs, h₂⟩ := ih h₁
    refine ⟨w₂, out :: outs, ?_, h₂⟩
    simp only [run, hx]
    show (run T property_value_for_name w₁ xs).bind _ = _
    rw [hxs]
    rfl

theorem run_append (xs ys : List (Call St E)) (w : ObjectChangeCallbackWrapper O V) :
    run T property_value_for_name w (xs ++ ys) =
      (run T property_value_for_name w xs).bind fun (w, outs) =>
        (run T property_value_for_name w ys).map fun (w, outs') => (w, outs ++ outs') := by
  induction xs generalizing w with
  | nil =>
    show run T property_value_for_name w ys = (run T property_value_for_name w ys).map fun y => y
    simp
  | cons x xs ih =>
    simp only [List.cons_append, run]
    cases call T property_value_for_name w x with
    | none => rfl
    | some y =>
      show (run T property_value_for_name y.1 (xs ++ ys)).bind _ =
        ((run T property_value_for_name y.1 xs).bind _).bind _
      rw [ih]
      cases run T property_value_for_name y.1 xs with
      | none => rfl
      | some z =>
        show ((run T property_value_for_name z.1 ys).map _).bind _ =
          (run T property_value_for_name z.1 ys).map _
        cases run T property_value_for_name z.1 ys <;> rfl

end Any

/-! ## §3. Runs of the core. -/

/-- A change as the core announces it: in the store `old` before it, and in `new`
after it. -/
structure Round (St : Type) where
  old : St
  new : St
  change : CollectionChangeSet

def Round.calls (r : Round St) : List (Call St E) := [.before r.old r.change, .after r.new r.change]

/-- **The protocol of the core**: changes are not empty, and nothing follows a
deletion. -/
def Protocol : List (Round St) → Prop
  | [] => True
  | r :: rs => r.change.empty = false ∧ (r.change.deletions.empty = false → rs = []) ∧ Protocol rs

section Rounds

variable (T : ObservedClass) (property_value_for_name : St → String → V)

/-- **What is to be reported of a change**: the deletion, or the properties in it
with their values before and after it. -/
def report (object : O) (r : Round St) : List (ObjectChange O V E) :=
  if r.change.deletions.empty = false then [{ is_deleted := true }]
  else
    match changed T r.change with
    | [] => []
    | names => [{
        object := some object
        property_changes := names.map fun name =>
          { name
            old_value := some (property_value_for_name r.old name)
            new_value := some (property_value_for_name r.new name) } }]

end Rounds

section Report

variable {T : ObservedClass} {property_value_for_name : St → String → V}
  {w : ObjectChangeCallbackWrapper O V}

/-- Between changes the wrapper keeps nothing. -/
structure Idle (w : ObjectChangeCallbackWrapper O V) : Prop where
  property_names : w.property_names = none
  old_values : w.old_values = none
  deleted : w.deleted = false

/-- A wrapper without names finds those of the change, unless there is a
deletion. -/
theorem populate_properties_of_none (c : CollectionChangeSet) (h : w.property_names = none) :
    populate_properties T c w =
      if c.deletions.empty = false then { w with deleted := true }
      else if changed T c = [] then w
      else { w with property_names := some (changed T c) } := by
  unfold populate_properties
  rw [h]
  simp only [Option.isSome_none, Bool.false_eq_true, if_false]
  cases hdel : c.deletions.empty with
  | false => rfl
  | true =>
    simp only [Bool.not_true, Bool.false_eq_true, if_false, Bool.true_eq_false]
    cases hcol : c.columns with
    | nil => simp [changed, hcol]
    | cons col cols => cases hchanged : changed T c <;> simp

/-- Where the change is not empty, the values of the names are read. -/
theorem read_values_of_change {c : CollectionChangeSet} (hc : c.empty = false) (s : St)
    (w : ObjectChangeCallbackWrapper O V) :
    read_values T property_value_for_name s c w = (populate_properties T c w,
      (populate_properties T c w).property_names.map (List.map (property_value_for_name s))) := by
  simp only [read_values, hc, Bool.false_eq_true, if_false]
  cases (populate_properties T c w).property_names <;> rfl

/-- The values of the names, name by name. -/
theorem propertyChanges_map (f g : String → V) (pre names : List String) :
    propertyChanges ((pre ++ names).map f) ((pre ++ names).map g) pre.length names =
      some (names.map fun name => ⟨name, some (f name), some (g name)⟩) := by
  induction names generalizing pre with
  | nil => rfl
  | cons name names ih =>
    have hvalue : ∀ h : String → V,
        valueAt ((pre ++ name :: names).map h) pre.length = some (some (h name)) := by
      intro h
      unfold valueAt
      simp
    have ih := ih (pre ++ [name])
    rw [List.append_assoc, List.singleton_append, List.length_append, List.length_singleton] at ih
    unfold propertyChanges
    rw [hvalue, hvalue, ih]
    rfl

/-- **One change**, and what the block is called with. -/
theorem run_round (h : w.Idle) {r : Round St} (hr : r.change.empty = false) :
    run (E := E) T property_value_for_name w r.calls =
      some ({ w with deleted := !r.change.deletions.empty },
        [[], report T property_value_for_name w.object r]) := by
  have hafter : after (E := E) T property_value_for_name r.new r.change
      (before T property_value_for_name r.old r.change w) =
        some ({ w with deleted := !r.change.deletions.empty },
          report T property_value_for_name w.object r) := by
    obtain ⟨object, names, old, deleted⟩ := w
    obtain ⟨hnames, hold, hdeleted⟩ := h
    dsimp only at hnames hold hdeleted
    subst hnames hold hdeleted
    unfold after before report
    simp only [read_values_of_change hr]
    rw [populate_properties_of_none (w := { object }) r.change rfl]
    cases hdel : r.change.deletions.empty with
    | false =>
      -- the deletion is noted twice
      simp only [if_true, Option.map_none]
      rw [populate_properties_of_none r.change rfl]
      simp [hdel, notify, forward_change]
    | true =>
      cases hchanged : changed T r.change with
      | nil =>
        simp only [Bool.true_eq_false, if_false, if_true, Option.map_none]
        rw [populate_properties_of_none r.change rfl]
        simp [hdel, hchanged, notify]
      | cons name names =>
        -- the names are found before the change, and known after it
        simp only [Bool.true_eq_false, if_false, reduceCtorEq, Option.map_some]
        rw [populate_properties_of_some rfl]
        have hchanges := propertyChanges_map (property_value_for_name r.old)
          (property_value_for_name r.new) [] (name :: names)
        rw [List.nil_append, List.length_nil, List.map_cons, List.map_cons] at hchanges
        simp [notify, forward_change, hchanges]
  show (after T property_value_for_name r.new r.change
    (before T property_value_for_name r.old r.change w)).bind _ >>= _ = _
  rw [hafter]
  rfl

/-- **What is reported in a run of the core**, change by change. -/
theorem rounds_report (rs : List (Round St)) (h : w.Idle) (hrs : Protocol rs) : ∃ w',
    run (E := E) T property_value_for_name w (rs.flatMap Round.calls) =
      some (w', rs.flatMap fun r => [[], report T property_value_for_name w.object r]) := by
  induction rs generalizing w with
  | nil => exact ⟨w, rfl⟩
  | cons r rs ih =>
    obtain ⟨hchange, hlast, hrest⟩ := hrs
    have hrun : ∃ w', run (E := E) T property_value_for_name
        { w with deleted := !r.change.deletions.empty } (rs.flatMap Round.calls) =
          some (w', rs.flatMap fun r => [[], report T property_value_for_name w.object r]) := by
      cases hdel : r.change.deletions.empty with
      | true => exact ih ⟨h.property_names, h.old_values, rfl⟩ hrest
      | false =>
        -- nothing follows a deletion
        rw [hlast hdel]
        exact ⟨_, rfl⟩
    obtain ⟨w', hw'⟩ := hrun
    refine ⟨w', ?_⟩
    rw [List.flatMap_cons, List.flatMap_cons, run_append, run_round h hchange]
    simp only [Option.bind_some]
    rw [hw']
    rfl

end Report

/-- **Object changes are reported as they are.**  No sequence of calls goes out of
bounds, and in a run of the core each change is reported by itself. -/
theorem object_changes_faithful (T : ObservedClass) (property_value_for_name : St → String → V)
    (object : O) :
    (∀ xs : List (Call St E), ∃ w outs,
      run T property_value_for_name { object } xs = some (w, outs)) ∧
    ∀ (s₀ : St) (c₀ : CollectionChangeSet) (rs : List (Round St)), c₀.empty = true →
      Protocol rs → ∃ w, run (E := E) T property_value_for_name { object }
          (.after s₀ c₀ :: rs.flatMap Round.calls) =
        some (w, [] :: rs.flatMap fun r => [[], report T property_value_for_name object r]) := by
  constructor
  · intro xs
    obtain ⟨w, outs, hrun, -⟩ := exists_run xs (aligned_start object)
    exact ⟨w, outs, hrun⟩
  · intro s₀ c₀ rs hc₀ hrs
    have hidle : ({ object } : ObjectChangeCallbackWrapper O V).Idle := ⟨rfl, rfl, rfl⟩
    obtain ⟨w, hw⟩ : ∃ w, run (E := E) T property_value_for_name { object }
        (rs.flatMap Round.calls) =
          some (w, rs.flatMap fun r => [[], report T property_value_for_name object r]) :=
      rounds_report rs hidle hrs
    -- the first delivery is that of the registration
    have hfirst : after (E := E) T property_value_for_name s₀ c₀ ({ object } :
        ObjectChangeCallbackWrapper O V) = some ({ object }, []) := by
      simp [after, read_values, notify, hc₀]
    refine ⟨w, ?_⟩
    simp only [run, call, hfirst]
    show (run T property_value_for_name { object } _).bind _ = _
    rw [hw]
    rfl

/-- A person with a name and an age. -/
def personClass : ObservedClass where
  names := ["name", "age"]
  nodup := by decide
  get_column_key name := if name = "name" then 0 else 1

/-- A change of one column. -/
def columnChange (col : Int) : CollectionChangeSet where
  deletions := .none
  insertions := .none
  modifications := .single 0
  columns := [col]
  collection_root_was_deleted := false
  empty := false
  of_empty h := by cases h

/-- A birthday, and a change of a column that is not in the schema. -/
theorem object_changes_birthday : ∃ w, run (O := Unit) (E := Unit) personClass
    (fun (s : Nat) _ => s) { object := () }
      [.after 17 .none, .before 17 (columnChange 1), .after 18 (columnChange 1),
        .before 18 (columnChange 7), .after 18 (columnChange 7)] =
      some (w, [[], [], [{ object := some (), property_changes := [⟨"age", some 17, some 18⟩] }],
        [], []]) :=
  (object_changes_faithful personClass (fun (s : Nat) _ => s) ()).2 17 .none
    [⟨17, 18, columnChange 1⟩, ⟨18, 18, columnChange 7⟩] rfl
    ⟨rfl, fun h => Bool.noConfusion h, rfl, fun _ => rfl, trivial⟩

end ObjectChangeCallbackWrapper

end RealmCpp.Observation
