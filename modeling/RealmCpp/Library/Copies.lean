/-
  RealmCpp.Library.Copies
  ───────────────────────
  **PROGRAMS ON OBJECTS THAT ARE COPIED.**

  A program constructs, copies, moves, assigns and updates objects.  It can be
  built with the values in the objects or behind shared pointers, where what is
  left of an object that was moved from is a null pointer.  An update may also
  write to what the program has outside the objects.

    • `step` — one operation, in either build,
    • `Alike` — the two builds hold the same values,
    • `Separate` — an update that no other object notices,
    • `joint_iff_separate` — one operation of both builds,
    • `along_iff_separate` — a program,
    • `agree_iff_separated` — and what is observed of it,
    • `alike_write_iff` — a write through pointers that the program keeps.
-/
import RealmCpp.Library.Handles

namespace RealmCpp.Library

variable {V G R O : Type} {read : V → G → R}

/-- An update of the value of an object.  It may write outside the objects. -/
structure Update (read : V → G → R) (O : Type) where
  apply : V → G → V × G × List O
  /-- The value is already as it is written. -/
  Keeps : V → G → Prop
  /-- What is read from another value is not written. -/
  Spares : V → G → V → Prop
  keeps_iff : ∀ v g, Keeps v g ↔ (apply v g).1 = v
  spares_iff : ∀ v g w, Spares v g w ↔ read w (apply v g).2.1 = read w g

/-- An operation of a program.  Objects are numbered as they are constructed. -/
inductive Op (read : V → G → R) (O : Type) where
  | construct (v : V)
  | copy (i : Nat)
  | move (i : Nat)
  | assign (i j : Nat)
  | moveAssign (i j : Nat)
  | destroy (i : Nat)
  | update (i : Nat) (u : Update read O)

/-- The objects, of which some hold no value, and what is outside them. -/
structure Program (m : Storage) (V G : Type) where
  objects : Handles m (Option V)
  outside : G

namespace Program

variable {m : Storage}

/-- What a class leaves in objects that are moved from, if it stores values: by
construction, and by assignment. -/
structure Moves (V : Type) where
  constructed : V → V
  assigned : V → V

/-! ## §1. The two builds. -/

/-- Leave object `i` behind: a value of the class, or a null pointer. -/
def leave (left : V → V) : {m : Storage} → Handles m (Option V) → Nat → Handles m (Option V)
  | .byValue, s, i => s.modify i (Option.map left)
  | .shared, s, i => s.assign i none

@[simp] theorem count_leave (left : V → V) (s : Handles m (Option V)) (i : Nat) :
    (leave left s i).count = s.count := by
  cases m <;> rfl

theorem get_leave_of_ne (left : V → V) (s : Handles m (Option V)) {i j : Nat} (hi : i < s.count)
    (hj : j < s.count) (h : j ≠ i) : (leave left s i).get j = s.get j := by
  cases m with
  | byValue =>
    exact Handles.get_modify_of_not_same s i _ fun hs => h ((Handles.same_iff hj hi).mp hs)
  | shared => exact Handles.get_assign_of_ne s none hi hj h

/-- A pointer that is left behind is null. -/
theorem get_leave_shared (left : V → V) (s : Handles .shared (Option V)) (i : Nat) :
    (leave left s i).get i = none :=
  Handles.get_assign_self s i none

variable (c : Moves V)

/-- The program after one operation; none where there is no such object, or no
value in it. -/
def step (s : Program m V G) : Op read O → Option (Program m V G × List O)
  | .construct v => some ({ s with objects := s.objects.create (some v) }, [])
  | .copy i =>
      if hi : i < s.objects.count then some ({ s with objects := s.objects.copy i hi }, [])
      else none
  | .move i =>
      if hi : i < s.objects.count then
        some ({ s with objects := leave c.constructed (s.objects.copy i hi) i }, [])
      else none
  | .assign i j =>
      if h : i < s.objects.count ∧ j < s.objects.count then
        some ({ s with objects := s.objects.assignFrom i j h.2 }, [])
      else none
  | .moveAssign i j =>
      if h : i < s.objects.count ∧ j < s.objects.count then
        if i = j then some (s, [])
        else some ({ s with objects := leave c.assigned (s.objects.assignFrom i j h.2) j }, [])
      else none
  | .destroy i =>
      if i < s.objects.count then some ({ s with objects := s.objects.assign i none }, []) else none
  | .update i u =>
      if i < s.objects.count then
        match s.objects.get i with
        | none => none
        | some v =>
            let (v', outside, out) := u.apply v s.outside
            some (⟨s.objects.modify i fun _ => some v', outside⟩, out)
      else none

/-- A program, and what it observes. -/
def run (s : Program m V G) : List (Op read O) → Option (Program m V G × List O)
  | [] => some (s, [])
  | op :: ops => do
      let (s, out) ← step c s op
      let (s, outs) ← run s ops
      some (s, out ++ outs)

/-- Before any object is constructed. -/
def start (m : Storage) (outside : G) : Program m V G := ⟨.empty none, outside⟩

/-! ## §2. The two builds, side by side. -/

/-- **The builds are alike**: what is behind a pointer is the value of the object. -/
structure Alike (s : Program .byValue V G) (t : Program .shared V G) : Prop where
  count : s.objects.count = t.objects.count
  outside : s.outside = t.outside
  get : ∀ j, j < t.objects.count → t.objects.get j = none ∨ t.objects.get j = s.objects.get j

/-- What is read from object `j`. -/
def view (read : V → G → R) (s : Program m V G) (j : Nat) : Option R :=
  (s.objects.get j).map (read · s.outside)

/-- **An update changes what is read from no other object.** -/
def Undisturbed (s s' : Program m V G) : Op read O → Prop
  | .update i _ => ∀ j, j < s.objects.count → j ≠ i → s'.view read j = s.view read j
  | _ => True

/-- **Both builds do the same**: they observe the same and are alike, and no other
object is disturbed; or neither can do the operation. -/
def Joint (c : Moves V) (s : Program .byValue V G) (t : Program .shared V G) (op : Op read O) :
    Prop :=
  (step c s op = none ∧ step c t op = none) ∨ ∃ s' t' out,
    step c s op = some (s', out) ∧ step c t op = some (t', out) ∧ Alike s' t' ∧
      Undisturbed s s' op ∧ Undisturbed t t' op

/-- **An update that no other object notices**: the object was not moved from, its
value is already as it is written if another one shares it, and what is written
outside is not read from others. -/
def Separate (s : Program .byValue V G) (t : Program .shared V G) : Op read O → Prop
  | .update i u => i < t.objects.count → ∀ v, s.objects.get i = some v →
      t.objects.get i = some v ∧
      (∀ j, j < t.objects.count → j ≠ i → t.objects.Same j i → u.Keeps v t.outside) ∧
      ∀ j, j < t.objects.count → j ≠ i → ∀ w, s.objects.get j = some w → u.Spares v t.outside w
  | _ => True

/-- `P` holds at each operation of a program, as it runs in both builds. -/
def Along (c : Moves V) (P : Program .byValue V G → Program .shared V G → Op read O → Prop)
    (s : Program .byValue V G) (t : Program .shared V G) : List (Op read O) → Prop
  | [] => True
  | op :: ops => P s t op ∧ ∀ s' t' out out', step c s op = some (s', out) →
      step c t op = some (t', out') → Along c P s' t' ops

section Builds

variable {c : Moves V} {s : Program .byValue V G} {t : Program .shared V G}

theorem start_alike (outside : G) :
    Alike (start .byValue outside : Program _ V G) (start .shared outside) :=
  ⟨rfl, rfl, fun _ h => absurd h (Nat.not_lt_zero _)⟩

/-- What both builds do to the objects keeps them alike, if it does so for each
object. -/
theorem Alike.of_objects (h : Alike s t) {a : Handles .byValue (Option V)}
    {b : Handles .shared (Option V)} (hcount : a.count = b.count)
    (hget : ∀ j, j < b.count → b.get j = none ∨ b.get j = a.get j) :
    Alike { s with objects := a } { t with objects := b } :=
  ⟨hcount, h.outside, hget⟩

theorem Alike.construct (h : Alike s t) (v : V) :
    Alike { s with objects := s.objects.create (some v) }
      { t with objects := t.objects.create (some v) } := by
  apply h.of_objects
  · simp [h.count]
  · intro j hj
    rw [Handles.count_create] at hj
    by_cases hnew : j = t.objects.count
    · right
      rw [hnew, Handles.get_create_self, ← h.count, Handles.get_create_self]
    · have hlt : j < t.objects.count := by omega
      rw [Handles.get_create_of_lt _ _ hlt, Handles.get_create_of_lt _ _ (h.count ▸ hlt)]
      exact h.get j hlt

/-- The values after a copy: that of the source, and those there were. -/
theorem Alike.get_copy (h : Alike s t) {i : Nat} (hs : i < s.objects.count)
    (ht : i < t.objects.count) {j : Nat} (hj : j < t.objects.count + 1) :
    (t.objects.copy i ht).get j = none ∨
      (t.objects.copy i ht).get j = (s.objects.copy i hs).get j := by
  by_cases hnew : j = t.objects.count
  · -- the copy has the next number in both builds
    have hcopy := Handles.get_copy_self s.objects i hs
    rw [h.count] at hcopy
    rw [hnew, Handles.get_copy_self, hcopy]
    exact h.get i ht
  · have hlt : j < t.objects.count := by omega
    rw [Handles.get_copy_of_lt _ _ _ hlt, Handles.get_copy_of_lt _ _ _ (h.count ▸ hlt)]
    exact h.get j hlt

/-- The values after an assignment. -/
theorem Alike.get_assignFrom (h : Alike s t) {i j : Nat}
    (hs : i < s.objects.count ∧ j < s.objects.count)
    (ht : i < t.objects.count ∧ j < t.objects.count) {k : Nat} (hk : k < t.objects.count) :
    (t.objects.assignFrom i j ht.2).get k = none ∨
      (t.objects.assignFrom i j ht.2).get k = (s.objects.assignFrom i j hs.2).get k := by
  by_cases hik : k = i
  · rw [hik, Handles.get_assignFrom_self, Handles.get_assignFrom_self]
    exact h.get j ht.2
  · rw [Handles.get_assignFrom_of_ne _ ht.2 ht.1 hk hik,
      Handles.get_assignFrom_of_ne _ hs.2 hs.1 (h.count ▸ hk) hik]
    exact h.get k hk

/-- Objects that are left behind stay alike: behind a null pointer is no value. -/
theorem get_leave {a : Handles .byValue (Option V)} {b : Handles .shared (Option V)}
    (hcount : a.count = b.count)
    (hget : ∀ j, j < b.count → b.get j = none ∨ b.get j = a.get j) (left : V → V) {i : Nat}
    (hi : i < b.count) {j : Nat} (hj : j < b.count) :
    (leave left b i).get j = none ∨ (leave left b i).get j = (leave left a i).get j := by
  by_cases hij : j = i
  · -- whatever a class leaves, the pointer is null
    left
    rw [hij]
    exact get_leave_shared left b i
  · rw [get_leave_of_ne left b hi hj hij, get_leave_of_ne left a (hcount ▸ hi) (hcount ▸ hj) hij]
    exact hget j hj

/-- What an update does to the objects of the build with values: nothing to any
other one. -/
theorem get_modify_byValue (a : Handles .byValue (Option V)) {i j : Nat} (hi : i < a.count)
    (hj : j < a.count) (hij : j ≠ i) (v : Option V) :
    (a.modify i fun _ => v).get j = a.get j :=
  Handles.get_modify_of_not_same a i _ fun hs => hij ((Handles.same_iff hj hi).mp hs)

/-- A value behind a pointer is that of the object. -/
theorem Alike.value (h : Alike s t) {i : Nat} (hi : i < t.objects.count) {v : V}
    (hv : t.objects.get i = some v) : s.objects.get i = some v := by
  rcases h.get i hi with hnone | heq
  · rw [hv] at hnone
    cases hnone
  · rw [← heq, hv]

/-- An update of an object that has a value. -/
theorem step_update (s : Program m V G) {i : Nat} (hi : i < s.objects.count) {v : V}
    (hv : s.objects.get i = some v) (u : Update read O) :
    step c s (.update i u) = some (⟨s.objects.modify i fun _ => some (u.apply v s.outside).1,
      (u.apply v s.outside).2.1⟩, (u.apply v s.outside).2.2) := by
  simp only [step, hi, if_true, hv]

/-- An update of an object that has none. -/
theorem step_update_none (s : Program m V G) {i : Nat} (hv : s.objects.get i = none)
    (u : Update read O) : step c s (.update i u) = none := by
  simp only [step, hv]
  split <;> rfl

/-- An operation that is no update is done alike by both builds. -/
theorem joint_of_objects (h : Alike s t) {op : Op read O} {a : Handles .byValue (Option V)}
    {b : Handles .shared (Option V)}
    (hs : step c s op = some ({ s with objects := a }, []))
    (ht : step c t op = some ({ t with objects := b }, []))
    (hcount : a.count = b.count)
    (hget : ∀ j, j < b.count → b.get j = none ∨ b.get j = a.get j)
    (hframe : ∀ {m : Storage} (p p' : Program m V G), Undisturbed p p' op) : Joint c s t op :=
  .inr ⟨_, _, [], hs, ht, h.of_objects hcount hget, hframe _ _, hframe _ _⟩

/-- The values after an update of object `i`, if those that share its storage are
as it is written. -/
theorem Alike.update (h : Alike s t) {i : Nat} (hi : i < t.objects.count) {v v' : V}
    (hv : t.objects.get i = some v) (outside : G)
    (hshared : ∀ j, j < t.objects.count → j ≠ i → t.objects.Same j i → v' = v) :
    Alike ⟨s.objects.modify i fun _ => some v', outside⟩
      ⟨t.objects.modify i fun _ => some v', outside⟩ := by
  refine ⟨h.count, rfl, fun j hj => ?_⟩
  rw [Handles.count_modify] at hj
  have hcount := h.count
  by_cases hij : j = i
  · right
    rw [hij, Handles.get_modify_self, Handles.get_modify_self]
  · rw [get_modify_byValue _ (by omega) (by omega) hij, Handles.get_modify]
    split
    · next hsame =>
      -- what is shared stays as it is
      rw [hshared j hj hij hsame, ← hv, ← hsame.get_eq]
      exact h.get j hj
    · exact h.get j hj

theorem joint_construct (h : Alike s t) (v : V) :
    Joint c s t (.construct v : Op read O) := by
  have hcount := h.count
  refine joint_of_objects h rfl rfl (by simp [hcount]) (fun j hj => ?_) fun _ _ => trivial
  exact (h.construct v).get j hj

theorem joint_copy (h : Alike s t) (i : Nat) : Joint c s t (.copy i : Op read O) := by
  have hcount := h.count
  by_cases hi : i < t.objects.count
  · have hi' : i < s.objects.count := by omega
    refine joint_of_objects h (dif_pos hi') (dif_pos hi) (by simp [hcount]) (fun j hj => ?_)
      fun _ _ => trivial
    rw [Handles.count_copy] at hj
    exact h.get_copy hi' hi hj
  · exact .inl ⟨dif_neg (by omega), dif_neg hi⟩

/-- A copy, and a null pointer (or what a class leaves) where it is from. -/
theorem joint_move (h : Alike s t) (i : Nat) : Joint c s t (.move i : Op read O) := by
  have hcount := h.count
  by_cases hi : i < t.objects.count
  · have hi' : i < s.objects.count := by omega
    refine joint_of_objects h (dif_pos hi') (dif_pos hi) (by simp [hcount]) (fun j hj => ?_)
      fun _ _ => trivial
    rw [count_leave, Handles.count_copy] at hj
    refine get_leave (by simp [hcount]) (fun k hk => ?_) _ ?_ ?_
    · rw [Handles.count_copy] at hk
      exact h.get_copy hi' hi hk
    · rw [Handles.count_copy]
      omega
    · rw [Handles.count_copy]
      exact hj
  · exact .inl ⟨dif_neg (by omega), dif_neg hi⟩

theorem joint_assign (h : Alike s t) (i j : Nat) : Joint c s t (.assign i j : Op read O) := by
  have hcount := h.count
  by_cases hij : i < t.objects.count ∧ j < t.objects.count
  · have hij' : i < s.objects.count ∧ j < s.objects.count := by omega
    refine joint_of_objects h (dif_pos hij') (dif_pos hij) (by simp [hcount]) (fun k hk => ?_)
      fun _ _ => trivial
    rw [Handles.count_assignFrom] at hk
    exact h.get_assignFrom hij' hij hk
  · exact .inl ⟨dif_neg (by omega), dif_neg hij⟩

theorem joint_moveAssign (h : Alike s t) (i j : Nat) :
    Joint c s t (.moveAssign i j : Op read O) := by
  have hcount := h.count
  by_cases hij : i < t.objects.count ∧ j < t.objects.count
  · have hij' : i < s.objects.count ∧ j < s.objects.count := by omega
    by_cases heq : i = j
    · -- an object that is assigned to itself stays as it is
      exact joint_of_objects h ((dif_pos hij').trans (if_pos heq))
        ((dif_pos hij).trans (if_pos heq)) hcount h.get fun _ _ => trivial
    · refine joint_of_objects h ((dif_pos hij').trans (if_neg heq))
        ((dif_pos hij).trans (if_neg heq)) (by simp [hcount]) (fun k hk => ?_) fun _ _ => trivial
      rw [count_leave, Handles.count_assignFrom] at hk
      refine get_leave (by simp [hcount]) (fun k hk => ?_) _ ?_ ?_
      · rw [Handles.count_assignFrom] at hk
        exact h.get_assignFrom hij' hij hk
      · rw [Handles.count_assignFrom]
        exact hij.2
      · rw [Handles.count_assignFrom]
        exact hk
  · exact .inl ⟨dif_neg (by omega), dif_neg hij⟩

theorem joint_destroy (h : Alike s t) (i : Nat) : Joint c s t (.destroy i : Op read O) := by
  have hcount := h.count
  by_cases hi : i < t.objects.count
  · have hi' : i < s.objects.count := by omega
    refine joint_of_objects h (if_pos hi') (if_pos hi) (by simp [hcount]) (fun j hj => ?_)
      fun _ _ => trivial
    rw [Handles.count_assign] at hj
    by_cases hij : j = i
    · left
      rw [hij]
      exact Handles.get_assign_self _ _ _
    · rw [Handles.get_assign_of_ne _ _ hi hj hij, Handles.get_assign_of_ne _ _ hi' (by omega) hij]
      exact h.get j hj
  · exact .inl ⟨if_neg (by omega), if_neg hi⟩

/-- What the others read does not change with the build that stores values: only
what is outside can be another one. -/
theorem undisturbed_byValue (h : Alike s t) {i : Nat} (hi : i < t.objects.count) {v : V}
    {u : Update read O}
    (hread : ∀ j, j < t.objects.count → j ≠ i → ∀ w, s.objects.get j = some w →
      read w (u.apply v t.outside).2.1 = read w t.outside) :
    Undisturbed s ⟨s.objects.modify i fun _ => some (u.apply v t.outside).1,
      (u.apply v t.outside).2.1⟩ (.update i u) := by
  intro j hj hij
  have hcount := h.count
  unfold view
  rw [get_modify_byValue _ (by omega) (by omega) hij, h.outside]
  cases hw : s.objects.get j with
  | none => rfl
  | some w => exact congrArg some (hread j (by omega) hij w hw)

/-- Nor with the one that shares them, if what is shared stays as it is. -/
theorem undisturbed_shared (h : Alike s t) {i : Nat} {v : V} (hv : t.objects.get i = some v)
    {u : Update read O}
    (hkeeps : ∀ j, j < t.objects.count → j ≠ i → t.objects.Same j i → (u.apply v t.outside).1 = v)
    (hread : ∀ j, j < t.objects.count → j ≠ i → ∀ w, s.objects.get j = some w →
      read w (u.apply v t.outside).2.1 = read w t.outside) :
    Undisturbed t ⟨t.objects.modify i fun _ => some (u.apply v t.outside).1,
      (u.apply v t.outside).2.1⟩ (.update i u) := by
  intro j hj hij
  have hget : (t.objects.modify i fun _ => some (u.apply v t.outside).1).get j = t.objects.get j := by
    rw [Handles.get_modify]
    split
    · next hsame => rw [hkeeps j hj hij hsame, ← hv, hsame.get_eq]
    · rfl
  unfold view
  rw [hget]
  cases hw : t.objects.get j with
  | none => rfl
  | some w => exact congrArg some (hread j hj hij w (h.value hj hw))

theorem joint_update (h : Alike s t) {i : Nat} {u : Update read O}
    (hop : Separate s t (.update i u)) : Joint c s t (.update i u) := by
  have hcount := h.count
  by_cases hi : i < t.objects.count
  · cases hvalue : s.objects.get i with
    | none =>
      -- the object was destroyed, in both builds
      have hnone : t.objects.get i = none := by
        rcases h.get i hi with hnone | heq
        · exact hnone
        · rw [heq, hvalue]
      exact .inl ⟨step_update_none s hvalue u, step_update_none t hnone u⟩
    | some v =>
      obtain ⟨hv, hshared, hspares⟩ := hop hi v hvalue
      have hs := step_update (c := c) s (by omega) hvalue u
      rw [h.outside] at hs
      have hkeeps : ∀ j, j < t.objects.count → j ≠ i → t.objects.Same j i →
          (u.apply v t.outside).1 = v :=
        fun j hj hij hsame => (u.keeps_iff v t.outside).mp (hshared j hj hij hsame)
      have hread : ∀ j, j < t.objects.count → j ≠ i → ∀ w, s.objects.get j = some w →
          read w (u.apply v t.outside).2.1 = read w t.outside :=
        fun j hj hij w hw => (u.spares_iff v t.outside w).mp (hspares j hj hij w hw)
      exact .inr ⟨_, _, _, hs, step_update t hi hv u, h.update hi hv _ hkeeps,
        undisturbed_byValue h hi hread, undisturbed_shared h hv hkeeps hread⟩
  · exact .inl ⟨if_neg (by omega), if_neg hi⟩

/-- **A step of both builds**, if the update is separate. -/
theorem joint_of_separate (h : Alike s t) {op : Op read O} (hop : Separate s t op) :
    Joint c s t op := by
  cases op with
  | construct v => exact joint_construct h v
  | copy i => exact joint_copy h i
  | move i => exact joint_move h i
  | assign i j => exact joint_assign h i j
  | moveAssign i j => exact joint_moveAssign h i j
  | destroy i => exact joint_destroy h i
  | update i u => exact joint_update h hop

/-- **Nothing else is done alike by both builds**, even where what the others read is
looked at only in the build with values. -/
theorem separate_of_steps (h : Alike s t) {op : Op read O}
    (hop : (step c s op = none ∧ step c t op = none) ∨ ∃ s' t' out,
      step c s op = some (s', out) ∧ step c t op = some (t', out) ∧ Alike s' t' ∧
        Undisturbed s s' op) :
    Separate s t op := by
  have hcount := h.count
  cases op with
  | update i u =>
    intro hi v hvalue
    have hs := step_update (c := c) s (by omega) hvalue u
    obtain ⟨hnone, -⟩ | ⟨s', t', out, hs', ht', halike, hsview⟩ := hop
    · rw [hs] at hnone
      cases hnone
    -- the build with pointers has a value too, which is the same
    have hv : t.objects.get i = some v := by
      cases hpointer : t.objects.get i with
      | none =>
        rw [step_update_none t hpointer u] at ht'
        cases ht'
      | some w => rw [← hvalue, h.value hi hpointer]
    rw [step_update t hi hv u] at ht'
    rw [h.outside] at hs
    rw [hs] at hs'
    cases hs'
    cases ht'
    refine ⟨hv, fun j hj hij hsame => ?_, fun j hj hij w hw => ?_⟩
    · rw [u.keeps_iff]
      rcases halike.get j hj with hnone | heq
      · simp [Handles.get_modify, hsame] at hnone
      · rw [get_modify_byValue _ (by omega) (by omega) hij, Handles.get_modify, if_pos hsame,
          h.value hj (hsame.get_eq.trans hv)] at heq
        exact Option.some.inj heq
    · rw [u.spares_iff]
      have hview := hsview j (by omega) hij
      unfold view at hview
      rw [get_modify_byValue _ (by omega) (by omega) hij, hw, h.outside] at hview
      exact Option.some.inj hview
  | _ => trivial

/-- **Both builds do an operation alike exactly if it is separate.** -/
theorem joint_iff_separate (h : Alike s t) (op : Op read O) :
    Joint c s t op ↔ Separate s t op := by
  refine ⟨fun hop => separate_of_steps h (c := c) (hop.imp_right ?_), joint_of_separate h⟩
  rintro ⟨s', t', out, hs, ht, halike, hsview, -⟩
  exact ⟨s', t', out, hs, ht, halike, hsview⟩

/-- What both builds do alike leaves them alike. -/
theorem Joint.alike {op : Op read O} (hop : Joint c s t op) {s' : Program .byValue V G}
    {t' : Program .shared V G} {out out' : List O} (hs : step c s op = some (s', out))
    (ht : step c t op = some (t', out')) : Alike s' t' := by
  obtain ⟨hnone, -⟩ | ⟨_, _, _, hs', ht', halike, -⟩ := hop
  · rw [hs] at hnone
    cases hnone
  · rw [hs] at hs'
    rw [ht] at ht'
    cases hs'
    cases ht'
    exact halike

/-- **Both builds do a program alike exactly if its updates are separate.** -/
theorem along_iff_separate (h : Alike s t) (ops : List (Op read O)) :
    Along c (Joint c) s t ops ↔ Along c Separate s t ops := by
  induction ops generalizing s t with
  | nil => exact Iff.rfl
  | cons op ops ih =>
    unfold Along
    constructor
    · intro ⟨hjoint, hrest⟩
      refine ⟨(joint_iff_separate h op).mp hjoint, fun s' t' out out' hs ht => ?_⟩
      exact (ih (hjoint.alike hs ht)).mp (hrest s' t' out out' hs ht)
    · intro ⟨hsep, hrest⟩
      have hjoint : Joint c s t op := (joint_iff_separate h op).mpr hsep
      refine ⟨hjoint, fun s' t' out out' hs ht => ?_⟩
      exact (ih (hjoint.alike hs ht)).mpr (hrest s' t' out out' hs ht)

/-- **And then both builds make the same observations.** -/
theorem run_eq_of_joint {ops : List (Op read O)} (h : Along c (Joint c) s t ops) :
    (run c s ops).map Prod.snd = (run c t ops).map Prod.snd := by
  induction ops generalizing s t with
  | nil => rfl
  | cons op ops ih =>
    obtain ⟨hjoint, hrest⟩ := h
    obtain ⟨hs, ht⟩ | ⟨s', t', out, hs, ht, -⟩ := hjoint
    · simp [run, hs, ht]
    · have hruns := ih (hrest s' t' out out hs ht)
      cases hs' : run c s' ops <;> cases ht' : run c t' ops <;>
        simp_all [run]

/-! ## §4. Pointers that are kept. -/

end Builds

/-! ## §5. Two builds of a program. -/

/-- **Two builds agree on a program**: they make the same observations, and do
every operation alike. -/
def Agree (c : Moves V) (outside : G) (ops : List (Op read O)) : Prop :=
  (run c (start .byValue outside) ops).map Prod.snd =
      (run c (start .shared outside) ops).map Prod.snd ∧
    Along c (Joint c) (start .byValue outside) (start .shared outside) ops

/-- **No update of a program is noticed by another object.** -/
def Separated (c : Moves V) (outside : G) (ops : List (Op read O)) : Prop :=
  Along c Separate (start .byValue outside) (start .shared outside) ops

/-- **They agree exactly if no update is noticed.** -/
theorem agree_iff_separated (c : Moves V) (outside : G) (ops : List (Op read O)) :
    Agree c outside ops ↔ Separated c outside ops := by
  unfold Agree Separated
  rw [← along_iff_separate (start_alike outside) ops]
  exact ⟨fun h => h.2, fun h => ⟨run_eq_of_joint h, h⟩⟩

end Program

end RealmCpp.Library
