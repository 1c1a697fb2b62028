/-
  RealmCpp.Library.OneShot
  ────────────────────────
  **ONE-SHOT CALLABLES BEHIND COPYABLE FUNCTIONS — library layer.**

  A callable that owns itself and may be called once is released into a raw
  pointer, and a copyable function object is made around the pointer.  A call of
  the object takes the ownership back for as long as the body runs, and then frees
  the callable.  Nothing keeps the object, or a copy of it, from being called again.

    • `Functions` — the function objects and the calls under way, without a heap,
    • `OneShot.step` — the same with the heap; none where freed memory is used,
    • `Balanced` — what every operation keeps,
    • `run_isSome_iff` — which programs use no freed memory,
    • `run_spec` — what they have called, and what they have freed.
-/
import Mathlib.Data.List.Nodup

namespace RealmCpp.Library

variable {A B : Type}

/-! ## §1. The function objects. -/

/-- What a program does: it is handed a new callable in a new function object, it
copies, destroys or calls an object, or the body of the innermost call ends. -/
inductive OneShotOp (A : Type) where
  | hand
  | copy (f : Nat)
  | destroy (f : Nat)
  | call (f : Nat) (a : A)
  | finish
  deriving DecidableEq, Repr

/-- The number of callables handed over, the callable in each function object
that was not destroyed, and those of the calls under way, the innermost first. -/
structure Functions where
  handed : Nat
  objects : List (Option Nat)
  active : List Nat
  deriving DecidableEq, Repr

namespace Functions

def start : Functions := ⟨0, [], []⟩

/-- The callable in a function object. -/
def target (s : Functions) (f : Nat) : Option Nat := s.objects[f]?.join

theorem target_append_of_some {s : Functions} {f p : Nat} (h : s.target f = some p)
    (t : List (Option Nat)) : (s.objects ++ t)[f]?.join = some p := by
  have hf : s.objects[f]? = some (some p) := Option.join_eq_some_iff.mp h
  rw [List.getElem?_append_left (List.getElem?_eq_some_iff.mp hf).1, hf]
  rfl

theorem target_set_of_ne {s : Functions} {f g p : Nat} (h : s.target f = some p) (hfg : f ≠ g) :
    (s.objects.set g none)[f]?.join = some p := by
  rw [List.getElem?_set_ne (Ne.symm hfg)]
  exact h

/-- One operation; none where there is no such object, or no call is under way. -/
def next (s : Functions) : OneShotOp A → Option Functions
  | .hand => some { s with handed := s.handed + 1, objects := s.objects ++ [some s.handed] }
  -- a copy has the same callable in it
  | .copy f => (s.target f).map fun p => { s with objects := s.objects ++ [some p] }
  | .destroy f => (s.target f).map fun _ => { s with objects := s.objects.set f none }
  | .call f _ => (s.target f).map fun p => { s with active := p :: s.active }
  | .finish =>
      match s.active with
      | [] => none
      | _ :: active => some { s with active := active }

def follow (s : Functions) : List (OneShotOp A) → Option Functions
  | [] => some s
  | op :: ops => (s.next op).bind fun s' => s'.follow ops

/-- The callable that an operation calls, and with what. -/
def called (s : Functions) : OneShotOp A → List (Nat × A)
  | .call f a => (s.target f).toList.map (·, a)
  | _ => []

/-- The calls of a program, in order. -/
def calls (s : Functions) : List (OneShotOp A) → List (Nat × A)
  | [] => []
  | op :: ops => s.called op ++ ((s.next op).map fun s' => s'.calls ops).getD []

end Functions

/-! ## §2. The heap. -/

/-- The function objects, the callables that were freed, and the bodies that ran. -/
structure OneShot (B : Type) extends Functions where
  freed : List Nat
  ran : List (Nat × B)
  deriving DecidableEq, Repr

namespace OneShot

def start : OneShot B := ⟨.start, [], []⟩

/-- A callable that was handed over and is not freed. -/
def Allocated (s : OneShot B) (p : Nat) : Prop := p < s.handed ∧ p ∉ s.freed

variable (convert : A → B)

/-- One operation.  A call runs the body, the end of a call frees the callable:
neither can be done where it is freed already. -/
def step (s : OneShot B) (op : OneShotOp A) : Option (OneShot B) :=
  (s.next op).bind fun o =>
    match op with
    | .call f a => (s.target f).bind fun p =>
        if p ∈ s.freed then none
        else some { s with toFunctions := o, ran := s.ran ++ [(p, convert a)] }
    | .finish => s.active.head?.bind fun p =>
        if p ∈ s.freed then none
        else some { s with toFunctions := o, freed := p :: s.freed }
    | _ => some { s with toFunctions := o }

def run (s : OneShot B) : List (OneShotOp A) → Option (OneShot B)
  | [] => some s
  | op :: ops => (s.step convert op).bind fun s' => s'.run ops

/-! ## §3. One operation. -/

/-- What an operation can do. -/
theorem step_cases {s s' : OneShot B} {op : OneShotOp A} (h : s.step convert op = some s') :
    s.next op = some s'.toFunctions ∧
      ((∃ f a p, op = .call f a ∧ s.target f = some p ∧ p ∉ s.freed ∧ s'.freed = s.freed ∧
          s'.ran = s.ran ++ [(p, convert a)]) ∨
        (∃ p rest, op = .finish ∧ s.active = p :: rest ∧ p ∉ s.freed ∧
          s'.freed = p :: s.freed ∧ s'.ran = s.ran) ∨
        (s.called op = [] ∧ op ≠ .finish ∧ s'.freed = s.freed ∧ s'.ran = s.ran)) := by
  unfold step at h
  obtain ⟨o, ho, h⟩ := Option.bind_eq_some_iff.mp h
  cases op with
  | call f a =>
    obtain ⟨p, hp, h⟩ := Option.bind_eq_some_iff.mp h
    split at h
    · exact absurd h (by simp)
    · next hfreed =>
      obtain rfl := Option.some.inj h
      exact ⟨ho, .inl ⟨f, a, p, rfl, hp, hfreed, rfl, rfl⟩⟩
  | finish =>
    obtain ⟨p, hp, h⟩ := Option.bind_eq_some_iff.mp h
    obtain ⟨rest, hactive⟩ := List.head?_eq_some_iff.mp hp
    split at h
    · exact absurd h (by simp)
    · next hfreed =>
      obtain rfl := Option.some.inj h
      exact ⟨ho, .inr (.inl ⟨p, rest, rfl, hactive, hfreed, rfl, rfl⟩)⟩
  | hand | copy f | destroy f =>
    obtain rfl := Option.some.inj h
    exact ⟨ho, .inr (.inr ⟨rfl, by simp, rfl, rfl⟩)⟩

theorem step_destroy {s : OneShot B} {f p : Nat} (hp : s.target f = some p) :
    s.step convert (.destroy f : OneShotOp A) =
      some { s with objects := s.objects.set f none } := by
  simp [step, Functions.next, hp]

theorem step_call {s : OneShot B} {f p : Nat} {a : A} (hp : s.target f = some p)
    (hfreed : p ∉ s.freed) :
    s.step convert (.call f a) =
      some { s with active := p :: s.active, ran := s.ran ++ [(p, convert a)] } := by
  simp [step, Functions.next, hp, hfreed]

theorem step_finish {s : OneShot B} {p : Nat} {rest : List Nat} (hactive : s.active = p :: rest)
    (hfreed : p ∉ s.freed) :
    s.step convert (.finish : OneShotOp A) =
      some { s with active := rest, freed := p :: s.freed } := by
  simp [step, Functions.next, hactive, hfreed]

/-- After the calls of `log`: each is under way or has freed its callable. -/
structure Balanced (s : OneShot B) (log : List (Nat × A)) : Prop where
  count : ∀ p, (log.map Prod.fst).count p = s.active.count p + s.freed.count p
  nodup : s.freed.Nodup
  ran : s.ran = log.map fun c => (c.1, convert c.2)

variable {convert}

@[simp] theorem start_toFunctions : (start : OneShot B).toFunctions = .start := rfl

theorem balanced_start : Balanced convert (start : OneShot B) [] where
  count _ := rfl
  nodup := List.nodup_nil
  ran := rfl

/-- What the function objects become leaves the calls under way alone, but for a
call and the end of one. -/
theorem next_active {s o : Functions} {op : OneShotOp A} (h : s.next op = some o)
    (hcalled : s.called op = []) (hfinish : op ≠ .finish) : o.active = s.active := by
  cases op with
  | hand => obtain rfl := Option.some.inj h; rfl
  | copy f | destroy f =>
    obtain ⟨p, -, rfl⟩ := Option.map_eq_some_iff.mp h
    rfl
  | call f a =>
    obtain ⟨p, hp, -⟩ := Option.map_eq_some_iff.mp h
    simp [Functions.called, hp] at hcalled
  | finish => exact absurd rfl hfinish

theorem next_call {s o : Functions} {f p : Nat} {a : A} (h : s.next (.call f a) = some o)
    (hp : s.target f = some p) : o.active = p :: s.active := by
  obtain ⟨q, hq, rfl⟩ := Option.map_eq_some_iff.mp h
  rw [show q = p from Option.some.inj (hq.symm.trans hp)]

theorem next_finish {s o : Functions} {p : Nat} {rest : List Nat}
    (h : s.next (.finish : OneShotOp A) = some o) (hactive : s.active = p :: rest) :
    o.active = rest := by
  simp only [Functions.next, hactive] at h
  obtain rfl := Option.some.inj h
  rfl

/-- **An operation keeps the balance.** -/
theorem Balanced.step {s s' : OneShot B} {log : List (Nat × A)} {op : OneShotOp A}
    (hs : Balanced convert s log) (h : s.step convert op = some s') :
    Balanced convert s' (log ++ s.called op) := by
  obtain ⟨hnext, ⟨f, a, p, rfl, hp, hfreed, hfreed', hran⟩ |
    ⟨p, rest, rfl, hactive, hfreed, hfreed', hran⟩ | ⟨hcalled, hfinish, hfreed', hran⟩⟩ :=
    step_cases convert h
  · -- a call: one more in the log, and one more under way
    have hactive := next_call hnext hp
    have hlog : s.called (.call f a) = [(p, a)] := by simp [Functions.called, hp]
    refine ⟨fun q => ?_, hfreed' ▸ hs.nodup, ?_⟩
    · have := hs.count q
      rw [hactive, hfreed', hlog, List.map_append, List.count_append, this]
      simp only [List.map_cons, List.map_nil, List.count_cons, List.count_nil]
      omega
    · rw [hran, hlog, hs.ran, List.map_append]
      rfl
  · -- the end of one, which goes from those under way to those that are freed
    have hrest := next_finish hnext hactive
    refine ⟨fun q => ?_, hfreed' ▸ List.nodup_cons.mpr ⟨hfreed, hs.nodup⟩, ?_⟩
    · have := hs.count q
      rw [hactive] at this
      rw [hrest, hfreed', show s.called (.finish : OneShotOp A) = [] from rfl, List.append_nil,
        this]
      simp only [List.count_cons]
      omega
    · rw [hran, show s.called (.finish : OneShotOp A) = [] from rfl, List.append_nil]
      exact hs.ran
  · -- the other operations do not touch the callables
    refine ⟨fun q => ?_, hfreed' ▸ hs.nodup, ?_⟩
    · rw [hcalled, List.append_nil, hfreed', next_active hnext hcalled hfinish]
      exact hs.count q
    · rw [hcalled, List.append_nil, hran]
      exact hs.ran

/-- A callable that was called at most once, and is not being freed twice, is there. -/
theorem Balanced.exists_step {s : OneShot B} {log : List (Nat × A)} {op : OneShotOp A}
    {o : Functions} (hs : Balanced convert s log) (hnext : s.next op = some o)
    (honce : ((log ++ s.called op).map Prod.fst).Nodup) :
    ∃ s', s.step convert op = some s' ∧ s'.toFunctions = o := by
  cases op with
  | call f a =>
    obtain ⟨p, hp, -⟩ := Option.map_eq_some_iff.mp hnext
    have hcalled : s.called (.call f a) = [(p, a)] := by simp [Functions.called, hp]
    -- what is freed was called before, and would be called again
    have hfreed : p ∉ s.freed := by
      intro hmem
      have hcount := hs.count p
      have : 0 < s.freed.count p := List.count_pos_iff.mpr hmem
      have hlog : p ∈ log.map Prod.fst := List.count_pos_iff.mp (by omega)
      rw [hcalled, List.map_append] at honce
      exact (List.nodup_append.mp honce).2.2 p hlog p (by simp) rfl
    refine ⟨{ s with toFunctions := o, ran := s.ran ++ [(p, convert a)] }, ?_, rfl⟩
    simp only [OneShot.step, hnext, hp, Option.bind_some, if_neg hfreed]
  | finish =>
    cases hactive : s.active with
    | nil => simp [Functions.next, hactive] at hnext
    | cons p rest =>
      -- what is freed while it is called was called twice
      have hfreed : p ∉ s.freed := by
        intro hmem
        have hcount := hs.count p
        have hfree : 0 < s.freed.count p := List.count_pos_iff.mpr hmem
        have honce' : (log.map Prod.fst).Nodup := by
          rw [show s.called (.finish : OneShotOp A) = [] from rfl, List.append_nil] at honce
          exact honce
        have := List.nodup_iff_count_le_one.mp honce' p
        rw [hactive, List.count_cons_self] at hcount
        omega
      refine ⟨{ s with toFunctions := o, freed := p :: s.freed }, ?_, rfl⟩
      simp only [OneShot.step, hnext, hactive, List.head?_cons, Option.bind_some, if_neg hfreed]
  | hand | copy f | destroy f =>
    refine ⟨{ s with toFunctions := o }, ?_, rfl⟩
    simp only [OneShot.step, hnext, Option.bind_some]

/-! ## §4. Programs. -/

theorem Balanced.run {s s' : OneShot B} {log : List (Nat × A)} {ops : List (OneShotOp A)}
    (hs : Balanced convert s log) (h : s.run convert ops = some s') :
    Balanced convert s' (log ++ s.calls ops) ∧ s.follow ops = some s'.toFunctions := by
  induction ops generalizing s log with
  | nil =>
    obtain rfl := Option.some.inj h
    exact ⟨by simpa [Functions.calls] using hs, rfl⟩
  | cons op ops ih =>
    obtain ⟨s₁, hstep, hrun⟩ := Option.bind_eq_some_iff.mp h
    have hnext := (step_cases convert hstep).1
    obtain ⟨hbalanced, hfollow⟩ := ih (hs.step hstep) hrun
    refine ⟨?_, ?_⟩
    · simpa [Functions.calls, hnext, List.append_assoc] using hbalanced
    · simpa [Functions.follow, hnext] using hfollow

theorem Balanced.exists_run {s : OneShot B} {log : List (Nat × A)} {ops : List (OneShotOp A)}
    {o : Functions} (hs : Balanced convert s log) (hfollow : s.follow ops = some o)
    (honce : ((log ++ s.calls ops).map Prod.fst).Nodup) :
    ∃ s', s.run convert ops = some s' := by
  induction ops generalizing s log with
  | nil => exact ⟨s, rfl⟩
  | cons op ops ih =>
    obtain ⟨o₁, hnext, hrest⟩ := Option.bind_eq_some_iff.mp hfollow
    have hcalls : s.calls (op :: ops) = s.called op ++ o₁.calls ops := by
      simp [Functions.calls, hnext]
    rw [hcalls, ← List.append_assoc] at honce
    have hfirst : ((log ++ s.called op).map Prod.fst).Nodup := by
      rw [List.map_append] at honce
      exact (List.nodup_append.mp honce).1
    obtain ⟨s₁, hstep, rfl⟩ := hs.exists_step hnext hfirst
    obtain ⟨s', hrun⟩ := ih (hs.step hstep) hrest honce
    exact ⟨s', Option.bind_eq_some_iff.mpr ⟨s₁, hstep, hrun⟩⟩

variable (convert)

/-- **A program that ends its calls uses no freed memory exactly where it calls no
callable twice**, through whatever copies of the function objects. -/
theorem run_isSome_iff {ops : List (OneShotOp A)} {o : Functions}
    (hfollow : Functions.start.follow ops = some o) (hended : o.active = []) :
    ((start : OneShot B).run convert ops).isSome ↔
      ((Functions.start.calls ops).map Prod.fst).Nodup := by
  constructor
  · intro h
    obtain ⟨s, hrun⟩ := Option.isSome_iff_exists.mp h
    obtain ⟨hbalanced, hfollow'⟩ := balanced_start.run hrun
    have ho : o = s.toFunctions := Option.some.inj (hfollow.symm.trans hfollow')
    -- as no call is under way, each has freed its callable, which is done once
    refine List.nodup_iff_count_le_one.mpr fun p => ?_
    have hcount := hbalanced.count p
    rw [show s.active = [] from ho ▸ hended] at hcount
    have := List.nodup_iff_count_le_one.mp hbalanced.nodup p
    simp only [List.nil_append, List.count_nil] at hcount
    exact hcount ▸ (by omega)
  · intro h
    obtain ⟨s, hrun⟩ := balanced_start.exists_run hfollow (by simpa using h)
    exact Option.isSome_iff_exists.mpr ⟨s, hrun⟩

/-- **The bodies ran in the order of the calls; a callable is freed exactly where a
call of it has ended.** -/
theorem run_spec {ops : List (OneShotOp A)} {s : OneShot B} (h : start.run convert ops = some s) :
    s.ran = (Functions.start.calls ops).map (fun c => (c.1, convert c.2)) ∧
      ∀ p, ((Functions.start.calls ops).map Prod.fst).count p =
        s.active.count p + s.freed.count p := by
  have hstart : Balanced convert start [] := balanced_start
  obtain ⟨hbalanced, -⟩ := hstart.run h
  exact ⟨by simpa using hbalanced.ran, by simpa using hbalanced.count⟩

end OneShot

end RealmCpp.Library
