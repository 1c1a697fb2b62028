/-
  RealmCpp.Scheduler.Shims
  ────────────────────────
  **SCHEDULERS OF THE CORE AND OF THE SDK, EACH IN THE OTHER.**

  `create_scheduler_shim` puts a scheduler of the SDK into one of the core, and
  `realm_core_scheduler` one of the core into one of the SDK.  What `scheduler()` of a
  configuration returns may be given to another configuration: `set_scheduler` takes the
  wrapper off, the constructors do not.

    • `SdkScheduler.is_same_as`, `CoreScheduler.is_same_as` — through the wrappers,
    • `CoreScheduler.is_same_as_iff` — as many wrappers, and the same scheduler in them,
    • `Configs.run`, `Origins.run` — programs that hand schedulers on, and where they are from,
    • `program_same_iff` — which configurations have the same scheduler.
-/
import Mathlib.Data.List.Basic

namespace RealmCpp.Scheduler

variable {U C : Type}

/-! ## §1. Wrappers. -/

mutual

/-- `realm::scheduler`: that of a program (`uv_scheduler` is one), or a wrapper. -/
inductive SdkScheduler (U C : Type) where
  | other (u : U)
  | realm_core_scheduler (s : CoreScheduler U C)

/-- `util::Scheduler`: one of the core, or that of `create_scheduler_shim`. -/
inductive CoreScheduler (U C : Type) where
  | other (c : C)
  | internal_scheduler (m_scheduler : SdkScheduler U C)

end

/-- What is in all the wrappers. -/
inductive Innermost (U C : Type) where
  | sdk (u : U)
  | core (c : C)

/-- What the schedulers that are no wrappers answer, where they are given one of their
own class.  Of a wrapper they say that it is not the same, as the class of a scheduler
that compares with `dynamic_cast` does. -/
structure Platform (U C : Type) where
  is_same_as : U → U → Bool
  core_is_same_as : C → C → Bool
  can_invoke : Innermost U C → Bool
  is_on_thread : Innermost U C → Bool

mutual

/-- The number of wrappers. -/
def SdkScheduler.layers : SdkScheduler U C → Nat
  | .other _ => 0
  | .realm_core_scheduler s => s.layers + 1

def CoreScheduler.layers : CoreScheduler U C → Nat
  | .other _ => 0
  | .internal_scheduler m => m.layers + 1

end

mutual

def SdkScheduler.innermost : SdkScheduler U C → Innermost U C
  | .other u => .sdk u
  | .realm_core_scheduler s => s.innermost

def CoreScheduler.innermost : CoreScheduler U C → Innermost U C
  | .other c => .core c
  | .internal_scheduler m => m.innermost

end

mutual

/-- `dynamic_cast` fails on a scheduler of another class, which for one that is no wrapper
is what is assumed of it (`Platform`).  The wrapper of a core scheduler asks the other
one. -/
def SdkScheduler.is_same_as (P : Platform U C) : SdkScheduler U C → SdkScheduler U C → Bool
  | .other u, .other o => P.is_same_as u o
  | .realm_core_scheduler s, .realm_core_scheduler o => o.is_same_as P s
  | _, _ => false
termination_by a b => sizeOf a + sizeOf b

def CoreScheduler.is_same_as (P : Platform U C) : CoreScheduler U C → CoreScheduler U C → Bool
  | .other c, .other o => P.core_is_same_as c o
  | .internal_scheduler m, .internal_scheduler o => m.is_same_as P o
  | _, _ => false
termination_by a b => sizeOf a + sizeOf b

end

mutual

/-- `can_invoke` and `is_on_thread`: a wrapper asks what is in it. -/
def SdkScheduler.ask (answer : Innermost U C → Bool) : SdkScheduler U C → Bool
  | .other u => answer (.sdk u)
  | .realm_core_scheduler s => s.ask answer

def CoreScheduler.ask (answer : Innermost U C → Bool) : CoreScheduler U C → Bool
  | .other c => answer (.core c)
  | .internal_scheduler m => m.ask answer

end

mutual

theorem SdkScheduler.ask_eq (answer : Innermost U C → Bool) : ∀ s : SdkScheduler U C,
    s.ask answer = answer s.innermost
  | .other _ => rfl
  | .realm_core_scheduler s => CoreScheduler.ask_eq answer s

theorem CoreScheduler.ask_eq (answer : Innermost U C → Bool) : ∀ s : CoreScheduler U C,
    s.ask answer = answer s.innermost
  | .other _ => rfl
  | .internal_scheduler m => SdkScheduler.ask_eq answer m

end

/-! ## §2. Which schedulers are the same. -/

mutual

/-- Whether the question is turned around on the way in. -/
def SdkScheduler.turned : SdkScheduler U C → Bool
  | .other _ => false
  | .realm_core_scheduler s => !s.turned

def CoreScheduler.turned : CoreScheduler U C → Bool
  | .other _ => false
  | .internal_scheduler m => m.turned

end

/-- Innermost schedulers that are the same. -/
def Platform.Same (P : Platform U C) (turned : Bool) : Innermost U C → Innermost U C → Prop
  | .sdk u, .sdk o => (if turned then P.is_same_as o u else P.is_same_as u o) = true
  | .core c, .core o => (if turned then P.core_is_same_as o c else P.core_is_same_as c o) = true
  | _, _ => False

theorem Platform.same_not (P : Platform U C) (turned : Bool) (x y : Innermost U C) :
    P.Same (!turned) x y ↔ P.Same turned y x := by
  cases x <;> cases y <;> cases turned <;> exact Iff.rfl

mutual

/-- As many wrappers turn the question as often. -/
theorem SdkScheduler.turned_eq : ∀ a b : SdkScheduler U C, a.layers = b.layers →
    a.turned = b.turned
  | .other _, .other _, _ => rfl
  | .realm_core_scheduler s, .realm_core_scheduler o, h =>
      congrArg (!·) (CoreScheduler.turned_eq s o (Nat.succ.inj h))
  | .other _, .realm_core_scheduler _, h => absurd h.symm (Nat.succ_ne_zero _)
  | .realm_core_scheduler _, .other _, h => absurd h (Nat.succ_ne_zero _)

theorem CoreScheduler.turned_eq : ∀ a b : CoreScheduler U C, a.layers = b.layers →
    a.turned = b.turned
  | .other _, .other _, _ => rfl
  | .internal_scheduler m, .internal_scheduler o, h =>
      SdkScheduler.turned_eq m o (Nat.succ.inj h)
  | .other _, .internal_scheduler _, h => absurd h.symm (Nat.succ_ne_zero _)
  | .internal_scheduler _, .other _, h => absurd h (Nat.succ_ne_zero _)

end

mutual

theorem SdkScheduler.is_same_as_iff (P : Platform U C) : ∀ a b : SdkScheduler U C,
    a.is_same_as P b = true ↔ a.layers = b.layers ∧ P.Same a.turned a.innermost b.innermost
  | .other u, .other o => by
      rw [SdkScheduler.is_same_as]
      exact (and_iff_right rfl).symm
  | .realm_core_scheduler s, .realm_core_scheduler o => by
      rw [SdkScheduler.is_same_as, CoreScheduler.is_same_as_iff P o s]
      show _ ↔ s.layers + 1 = o.layers + 1 ∧ P.Same (!s.turned) s.innermost o.innermost
      rw [P.same_not, Nat.add_right_cancel_iff, eq_comm]
      -- as many wrappers are left of both
      exact and_congr_right fun h => by rw [CoreScheduler.turned_eq s o h]
  | .other _, .realm_core_scheduler _ => by
      rw [SdkScheduler.is_same_as]
      · exact iff_of_false Bool.false_ne_true fun h => Nat.succ_ne_zero _ h.1.symm
      all_goals simp
  | .realm_core_scheduler _, .other _ => by
      rw [SdkScheduler.is_same_as]
      · exact iff_of_false Bool.false_ne_true fun h => Nat.succ_ne_zero _ h.1
      all_goals simp
termination_by a b => sizeOf a + sizeOf b

/-- **Two schedulers are the same where they have as many wrappers**, and what is in
them is the same. -/
theorem CoreScheduler.is_same_as_iff (P : Platform U C) : ∀ a b : CoreScheduler U C,
    a.is_same_as P b = true ↔ a.layers = b.layers ∧ P.Same a.turned a.innermost b.innermost
  | .other c, .other o => by
      rw [CoreScheduler.is_same_as]
      exact (and_iff_right rfl).symm
  | .internal_scheduler m, .internal_scheduler o => by
      rw [CoreScheduler.is_same_as, SdkScheduler.is_same_as_iff P m o]
      show _ ↔ m.layers + 1 = o.layers + 1 ∧ P.Same m.turned m.innermost o.innermost
      rw [Nat.add_right_cancel_iff]
  | .other _, .internal_scheduler _ => by
      rw [CoreScheduler.is_same_as]
      · exact iff_of_false Bool.false_ne_true fun h => Nat.succ_ne_zero _ h.1.symm
      all_goals simp
  | .internal_scheduler _, .other _ => by
      rw [CoreScheduler.is_same_as]
      · exact iff_of_false Bool.false_ne_true fun h => Nat.succ_ne_zero _ h.1
      all_goals simp
termination_by a b => sizeOf a + sizeOf b

end

/-! ## §3. Handing schedulers on. -/

/-- `create_scheduler_shim`. -/
def create_scheduler_shim (s : SdkScheduler U C) : CoreScheduler U C := .internal_scheduler s

/-- What `set_scheduler` writes. -/
def SdkScheduler.toCore : SdkScheduler U C → CoreScheduler U C
  -- the core's scheduler is taken out of its wrapper
  | .realm_core_scheduler s => s
  | .other u => create_scheduler_shim (.other u)

/-- What a program does: it makes a scheduler, a configuration is constructed with one
(by default, with that of `make_default`), is given one, or is asked for its own. -/
inductive ConfigCall (U C : Type) where
  | make (x : SdkScheduler U C)
  | config (s : Nat)
  | set_scheduler (i s : Nat)
  | scheduler (i : Nat)

/-- The schedulers that a program has, and those of its configurations. -/
structure Configs (U C : Type) where
  schedulers : List (SdkScheduler U C)
  configs : List (CoreScheduler U C)

namespace Configs

def start : Configs U C := ⟨[], []⟩

def call (st : Configs U C) : ConfigCall U C → Option (Configs U C)
  | .make x => some { st with schedulers := st.schedulers ++ [x] }
  -- the constructors wrap whatever they are given
  | .config s => st.schedulers[s]?.map fun x =>
      { st with configs := st.configs ++ [create_scheduler_shim x] }
  | .set_scheduler i s => st.schedulers[s]?.bind fun x => st.configs[i]?.map fun _ =>
      { st with configs := st.configs.set i x.toCore }
  | .scheduler i => st.configs[i]?.map fun c =>
      { st with schedulers := st.schedulers ++ [.realm_core_scheduler c] }

def run (st : Configs U C) : List (ConfigCall U C) → Option (Configs U C)
  | [] => some st
  | c :: cs => (st.call c).bind fun st' => st'.run cs

end Configs

/-! ## §4. Where a scheduler is from. -/

/-- The scheduler that the program made, and how often a wrapper of it went through a
constructor since. -/
structure Origin (U C : Type) where
  made : SdkScheduler U C
  wrapped : Nat

/-- A scheduler of the program: one that it made, or what a configuration returned. -/
inductive Source (U C : Type) where
  | made (x : SdkScheduler U C)
  | returned (o : Origin U C)

/-- The origins of the schedulers, and of those of the configurations. -/
structure Origins (U C : Type) where
  schedulers : List (Source U C)
  configs : List (Origin U C)

/-- What the constructors make of a scheduler. -/
def Source.constructed : Source U C → Origin U C
  | .made (.other u) => ⟨.other u, 0⟩
  | .made (.realm_core_scheduler s) => ⟨.realm_core_scheduler s, 1⟩
  | .returned o => ⟨o.made, o.wrapped + 1⟩

/-- What `set_scheduler` makes of it. -/
def Source.taken : Source U C → Origin U C
  | .made x => ⟨x, 0⟩
  | .returned o => o

namespace Origins

def start : Origins U C := ⟨[], []⟩

def call (st : Origins U C) : ConfigCall U C → Option (Origins U C)
  | .make x => some { st with schedulers := st.schedulers ++ [.made x] }
  | .config s => st.schedulers[s]?.map fun x =>
      { st with configs := st.configs ++ [x.constructed] }
  | .set_scheduler i s => st.schedulers[s]?.bind fun x => st.configs[i]?.map fun _ =>
      { st with configs := st.configs.set i x.taken }
  | .scheduler i => st.configs[i]?.map fun o =>
      { st with schedulers := st.schedulers ++ [.returned o] }

def run (st : Origins U C) : List (ConfigCall U C) → Option (Origins U C)
  | [] => some st
  | c :: cs => (st.call c).bind fun st' => st'.run cs

end Origins

/-- Both wrappers around a scheduler, `n` times. -/
def wrap : Nat → CoreScheduler U C → CoreScheduler U C
  | 0, s => s
  | n + 1, s => create_scheduler_shim (.realm_core_scheduler (wrap n s))

def Origin.core (o : Origin U C) : CoreScheduler U C := wrap o.wrapped o.made.toCore

def Source.sdk : Source U C → SdkScheduler U C
  | .made x => x
  | .returned o => .realm_core_scheduler o.core

/-- The configurations that the origins stand for. -/
def Origins.configurations (t : Origins U C) : Configs U C :=
  ⟨t.schedulers.map Source.sdk, t.configs.map Origin.core⟩

/-- Each constructor puts both wrappers around. -/
theorem layers_wrap (n : Nat) (s : CoreScheduler U C) : (wrap n s).layers = s.layers + 2 * n := by
  induction n with
  | zero => rfl
  | succ n ih =>
    show (wrap n s).layers + 1 + 1 = s.layers + 2 * (n + 1)
    omega

theorem innermost_wrap (n : Nat) (s : CoreScheduler U C) : (wrap n s).innermost = s.innermost := by
  induction n with
  | zero => rfl
  | succ n ih =>
    show (wrap n s).innermost = s.innermost
    exact ih

theorem innermost_toCore (x : SdkScheduler U C) : x.toCore.innermost = x.innermost := by
  cases x <;> rfl

theorem Source.core_constructed (x : Source U C) :
    x.constructed.core = create_scheduler_shim x.sdk := by
  cases x with
  | made x => cases x <;> rfl
  | returned o => rfl

theorem Source.core_taken (x : Source U C) : x.taken.core = x.sdk.toCore := by
  cases x <;> rfl

/-- **A call does what its origins say.** -/
theorem Origins.call_configurations (t : Origins U C) (c : ConfigCall U C) :
    t.configurations.call c = (t.call c).map Origins.configurations := by
  cases c with
  | make x =>
    show some _ = some _
    simp [configurations, Source.sdk]
  | config s =>
    show (t.schedulers.map Source.sdk)[s]?.map _ = (t.schedulers[s]?.map _).map _
    rw [List.getElem?_map, Option.map_map, Option.map_map]
    refine congrArg (Option.map · _) (funext fun x => ?_)
    simp [configurations, Source.core_constructed]
  | set_scheduler i s =>
    show ((t.schedulers.map Source.sdk)[s]?.bind fun x => (t.configs.map Origin.core)[i]?.map _) =
      (t.schedulers[s]?.bind fun x => t.configs[i]?.map _).map _
    rw [List.getElem?_map, List.getElem?_map]
    cases t.schedulers[s]? <;> cases t.configs[i]?
    case some.some x o => simp [configurations, Source.core_taken]
    all_goals rfl
  | scheduler i =>
    show (t.configs.map Origin.core)[i]?.map _ = (t.configs[i]?.map _).map _
    rw [List.getElem?_map, Option.map_map, Option.map_map]
    refine congrArg (Option.map · _) (funext fun o => ?_)
    simp [configurations, Source.sdk]

theorem Origins.run_configurations (cs : List (ConfigCall U C)) (t : Origins U C) :
    t.configurations.run cs = (t.run cs).map Origins.configurations := by
  induction cs generalizing t with
  | nil => rfl
  | cons c cs ih =>
    show (t.configurations.call c).bind _ = ((t.call c).bind _).map _
    rw [t.call_configurations c]
    cases t.call c with
    | none => rfl
    | some t' => exact ih t'

theorem Origin.layers_core (o : Origin U C) :
    o.core.layers = o.made.toCore.layers + 2 * o.wrapped := layers_wrap ..

theorem Origin.innermost_core (o : Origin U C) : o.core.innermost = o.made.innermost :=
  (innermost_wrap ..).trans (innermost_toCore _)

theorem Origin.same_iff (P : Platform U C) (o p : Origin U C) :
    o.core.is_same_as P p.core = true ↔
      o.made.toCore.layers + 2 * o.wrapped = p.made.toCore.layers + 2 * p.wrapped ∧
        P.Same o.core.turned o.made.innermost p.made.innermost := by
  rw [CoreScheduler.is_same_as_iff, o.layers_core, p.layers_core, o.innermost_core,
    p.innermost_core]

/-- Of one scheduler, what as many constructors have wrapped. -/
theorem Origin.same_made_iff (P : Platform U C) {o p : Origin U C} (h : o.made = p.made) :
    o.core.is_same_as P p.core = true ↔
      o.wrapped = p.wrapped ∧ o.core.is_same_as P o.core = true := by
  rw [o.same_iff P p, o.same_iff P o, ← h]
  constructor
  · intro ⟨hlayers, hsame⟩
    exact ⟨by omega, rfl, hsame⟩
  · rintro ⟨hwrapped, -, hsame⟩
    exact ⟨by omega, hsame⟩

theorem Origins.getElem?_configurations {t : Origins U C} {i : Nat} {c : CoreScheduler U C}
    {o : Origin U C} (hc : t.configurations.configs[i]? = some c) (ho : t.configs[i]? = some o) :
    c = o.core := by
  have hmap : (t.configs.map Origin.core)[i]? = some c := hc
  rw [List.getElem?_map, ho] at hmap
  exact (Option.some.inj hmap).symm

/-- **Which configurations have the same scheduler**, whatever the program did with the
schedulers: those as often wrapped, of the same scheduler.  Of one scheduler that the
program made, those that as many constructors have wrapped. -/
theorem program_same_iff (P : Platform U C) (cs : List (ConfigCall U C)) :
    ((Configs.start : Configs U C).run cs = none ↔ (Origins.start : Origins U C).run cs = none) ∧
      ∀ st t, Configs.start.run cs = some st → Origins.start.run cs = some t →
        ∀ (i j : Nat) (c d : CoreScheduler U C) (o p : Origin U C),
          st.configs[i]? = some c → st.configs[j]? = some d →
          t.configs[i]? = some o → t.configs[j]? = some p →
          (c.is_same_as P d = true ↔
            o.made.toCore.layers + 2 * o.wrapped = p.made.toCore.layers + 2 * p.wrapped ∧
              P.Same c.turned o.made.innermost p.made.innermost) ∧
          (o.made = p.made →
            (c.is_same_as P d = true ↔ o.wrapped = p.wrapped ∧ c.is_same_as P c = true)) ∧
          ∀ answer, c.ask answer = answer o.made.innermost := by
  have hrun : (Configs.start : Configs U C).run cs =
      ((Origins.start : Origins U C).run cs).map Origins.configurations :=
    Origins.run_configurations cs Origins.start
  refine ⟨by rw [hrun, Option.map_eq_none_iff], ?_⟩
  intro st t hst ht i j c d o p hc hd ho hp
  rw [hrun, ht] at hst
  obtain rfl := Option.some.inj hst
  -- the configurations are those of their origins
  obtain rfl := Origins.getElem?_configurations hc ho
  obtain rfl := Origins.getElem?_configurations hd hp
  refine ⟨o.same_iff P p, Origin.same_made_iff P, fun answer => ?_⟩
  rw [CoreScheduler.ask_eq, o.innermost_core]

end RealmCpp.Scheduler
