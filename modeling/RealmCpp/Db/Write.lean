/-
  RealmCpp.Db.Write
  ─────────────────
  **`db::write` AND ITS CALLBACKS.**

  `write` begins a transaction, runs the callback and commits.  Between the two
  there is no handler: a callback that throws leaves the transaction open, with
  everything it changed still pending, and every later `write` fails to begin.

    • `write_of_returned`, `write_of_threw`, `write_in_transaction` — the three
      ways one call ends,
    • `writes_stuck` — after a callback has thrown nothing is ever committed,
    • `write_sequence_iff` — exactly the runs in which each committed state is
      the effect of the callbacks that returned.
-/
import Mathlib.Data.List.Infix
import Mathlib.Tactic.Common

namespace RealmCpp.Db

universe u

variable {σ ε α : Type u}

/-! ## §1. A realm and its transactions. -/

/-- A realm over stores of type `σ`: what is committed and, inside a write
transaction, the uncommitted state. -/
structure Realm (σ : Type u) where
  committed : σ
  pending : Option σ

/-- A realm outside a transaction. -/
def Realm.idle (s : σ) : Realm σ := ⟨s, none⟩

/-- `realm::begin_transaction`; it fails inside a write transaction. -/
def begin_transaction (r : Realm σ) : Option (Realm σ) :=
  match r.pending with
  | none => some { r with pending := some r.committed }
  | some _ => none

/-- `realm::commit_transaction`. -/
def commit_transaction (r : Realm σ) : Realm σ :=
  match r.pending with
  | none => r
  | some s => ⟨s, none⟩

/-- Why a call of `write` ended with an exception. -/
inductive Failure (ε : Type u) where
  | wrongTransactionState
  | thrown (e : ε)
  deriving DecidableEq, Repr

/-- A callback: what it does to the store it sees, and whether it returns. -/
abbrev Callback (σ ε α : Type u) := σ → Except ε α × σ

/-- `db::write`. -/
def write (fn : Callback σ ε α) (r : Realm σ) : Except (Failure ε) α × Realm σ :=
  match begin_transaction r with
  | none => (.error .wrongTransactionState, r)
  | some r₁ =>
      match fn r.committed with
      | (.ok val, s) => (.ok val, commit_transaction { r₁ with pending := some s })
      -- no handler: the exception leaves the transaction as it is
      | (.error e, s) => (.error (.thrown e), { r₁ with pending := some s })

/-- A sequence of calls, each of whose exceptions the caller handles. -/
def writes : List (Callback σ ε α) → Realm σ → Realm σ
  | [], r => r
  | fn :: fns, r => writes fns (write fn r).2

/-- **What a sequence of calls should commit**: the effect of exactly the
callbacks that return, in order, each on the effect of those before. -/
def effect : List (Callback σ ε α) → σ → σ
  | [], s => s
  | fn :: fns, s =>
      match fn s with
      | (.ok _, s') => effect fns s'
      | (.error _, _) => effect fns s

/-- No callback of the sequence throws on the effect of those before it. -/
def NoneThrows : List (Callback σ ε α) → σ → Prop
  | [], _ => True
  | fn :: fns, s => ∃ val s', fn s = (.ok val, s') ∧ NoneThrows fns s'

/-! ## §2. One call. -/

/-- **A callback that returns is committed.** -/
theorem write_of_returned {fn : Callback σ ε α} {s s' : σ} {val : α}
    (h : fn s = (.ok val, s')) : write fn (Realm.idle s) = (.ok val, Realm.idle s') := by
  simp [write, begin_transaction, Realm.idle, h, commit_transaction]

/-- **A callback that throws leaves its changes pending.** -/
theorem write_of_threw {fn : Callback σ ε α} {s s' : σ} {e : ε}
    (h : fn s = (.error e, s')) :
    write fn (Realm.idle s) = (.error (.thrown e), ⟨s, some s'⟩) := by
  simp [write, begin_transaction, Realm.idle, h]

/-- **No write begins inside a transaction.** -/
theorem write_in_transaction (fn : Callback σ ε α) (s p : σ) :
    write fn ⟨s, some p⟩ = (.error .wrongTransactionState, ⟨s, some p⟩) := rfl

/-! ## §3. Sequences of calls. -/

/-- **After a callback has thrown, the realm stays as it is.** -/
theorem writes_stuck (fns : List (Callback σ ε α)) (s p : σ) :
    writes fns ⟨s, some p⟩ = ⟨s, some p⟩ := by
  induction fns with
  | nil => rfl
  | cons fn fns ih =>
      show writes fns (write fn ⟨s, some p⟩).2 = _
      rw [write_in_transaction]
      exact ih

/-- What the calls of `pre` should have achieved from `s`. -/
def Achieved (pre : List (Callback σ ε α)) (s : σ) : Prop :=
  writes pre (Realm.idle s) = Realm.idle (effect pre s)

/-- A first callback that returns passes the rest of the sequence on. -/
theorem achieved_cons {fn : Callback σ ε α} {s s' : σ} {val : α} (h : fn s = (.ok val, s'))
    (pre : List (Callback σ ε α)) : Achieved (fn :: pre) s ↔ Achieved pre s' := by
  have hwrites : writes (fn :: pre) (Realm.idle s) = writes pre (Realm.idle s') := by
    show writes pre (write fn (Realm.idle s)).2 = _
    rw [write_of_returned h]
  have heffect : effect (fn :: pre) s = effect pre s' := by
    simp only [effect, h]
  unfold Achieved
  rw [hwrites, heffect]

/-- And so does the condition. -/
theorem noneThrows_cons {fn : Callback σ ε α} {s s' : σ} {val : α} (h : fn s = (.ok val, s'))
    (fns : List (Callback σ ε α)) : NoneThrows (fn :: fns) s ↔ NoneThrows fns s' := by
  constructor
  · rintro ⟨val', s'', hok, hrest⟩
    rw [h] at hok
    injection hok with _ hok
    subst hok
    exact hrest
  · exact fun hrest => ⟨val, s', h, hrest⟩

/-- A first callback that throws leaves the transaction open. -/
theorem not_achieved_of_threw {fn : Callback σ ε α} {s s' : σ} {e : ε} (h : fn s = (.error e, s')) :
    ¬ Achieved [fn] s := by
  intro hachieved
  have hopen : writes [fn] (Realm.idle s) = ⟨s, some s'⟩ := by
    show (write fn (Realm.idle s)).2 = _
    rw [write_of_threw h]
  rw [Achieved, hopen] at hachieved
  cases congrArg Realm.pending hachieved

theorem achieved_iff (pre : List (Callback σ ε α)) (s : σ) : Achieved pre s ↔
    (writes pre (Realm.idle s)).committed = effect pre s ∧
      (writes pre (Realm.idle s)).pending = none := by
  unfold Achieved
  cases writes pre (Realm.idle s) with
  | mk c p => simp [Realm.idle]

/-- **Exactly the runs in which a throwing callback leaves the store as if it
had not run.**  After every call of a sequence, the committed state is the effect
of the callbacks that returned and no transaction is open, if and only if no
callback of the sequence throws. -/
theorem write_sequence_iff (fns : List (Callback σ ε α)) (s : σ) :
    (∀ pre, pre <+: fns → (writes pre (Realm.idle s)).committed = effect pre s ∧
        (writes pre (Realm.idle s)).pending = none)
      ↔ NoneThrows fns s := by
  simp only [← achieved_iff]
  induction fns generalizing s with
  | nil =>
      refine ⟨fun _ => trivial, fun _ pre hpre => ?_⟩
      rw [List.prefix_nil.mp hpre]
      rfl
  | cons fn fns ih =>
      cases hfn : fn s with
      | mk out s' =>
        cases out with
        | ok val =>
            rw [noneThrows_cons hfn]
            refine Iff.trans ?_ (ih s')
            constructor
            · intro h pre hpre
              have hcons := h (fn :: pre) (List.cons_prefix_cons.mpr ⟨rfl, hpre⟩)
              exact (achieved_cons hfn pre).mp hcons
            · intro h pre hpre
              cases pre with
              | nil => rfl
              | cons fn' pre =>
                  obtain ⟨rfl, hpre'⟩ := List.cons_prefix_cons.mp hpre
                  exact (achieved_cons hfn pre).mpr (h pre hpre')
        | error e =>
            -- already the first call leaves the transaction open
            constructor
            · intro h
              have hfirst := h [fn] (List.cons_prefix_cons.mpr ⟨rfl, List.nil_prefix⟩)
              exact absurd hfirst (not_achieved_of_threw hfn)
            · rintro ⟨val, s'', h, -⟩
              rw [hfn] at h
              cases h

/-- **A callback that throws after a change**, and the next one: the second does
not run, and the realm stays inside the transaction of the first. -/
theorem throwing_write_blocks :
    writes [(fun n => (.error (), n + 1)), (fun n => (.ok (), n + 10))]
        (Realm.idle (0 : Nat)) = (⟨0, some 1⟩ : Realm Nat) ∧
      effect (σ := Nat) (ε := Unit) (α := Unit)
        [(fun n => (.error (), n + 1)), (fun n => (.ok (), n + 10))] 0 = 10 ∧
      ¬ NoneThrows (σ := Nat) (ε := Unit) (α := Unit)
        [(fun n => (.error (), n + 1)), (fun n => (.ok (), n + 10))] 0 := by
  refine ⟨rfl, rfl, ?_⟩
  rintro ⟨val, s', h, -⟩
  cases h

end RealmCpp.Db
