/-
  RealmCpp.Library.Client
  ────────────────────────
  **CLIENTS OF AN OBJECT — library layer.**

  A client is a tree: it ends, or it makes a call and goes on with the answer.
  The object behind the calls is a handler, a state and what each call does to
  it.  One client can be run against several handlers.

    • `Along` — a property of each call that a run makes, in its state,
    • `along_of_invariant` — an invariant, and what follows from it,
    • `along_congr_of_invariant` — properties that are one where an invariant holds,
    • `run_simulates_beside` — handlers whose steps correspond under a condition on
      both of the states give runs that do,
    • `run_simulates` — under a condition on one of them,
    • `along_agreesAt_iff` — the runs all of whose calls agree, and
      `along_agreesAt_iff_of_along`, of those that make calls of one kind.
-/
import Mathlib.Data.List.Basic

namespace RealmCpp.Library

/-- A client that ends with a `ρ`; what follows a call depends on its answer. -/
inductive Client (Call : Type) (Answer : Call → Type) (ρ : Type) where
  | ret (r : ρ)
  | call (c : Call) (k : Answer c → Client Call Answer ρ)

/-- What each call answers, and what it leaves of the state. -/
abbrev Handler (Call : Type) (Answer : Call → Type) (σ : Type) :=
  σ → (c : Call) → Answer c × σ

namespace Client

variable {Call : Type} {Answer : Call → Type} {ρ σ τ : Type}

/-- A run against a handler: how it ends, and the state it leaves. -/
def run (h : Handler Call Answer σ) : Client Call Answer ρ → σ → ρ × σ
  | ret r, s => (r, s)
  | call c k, s => (k (h s c).1).run h (h s c).2

/-- Every call of the run has the property in the state that it is made in. -/
def Along (h : Handler Call Answer σ) (P : σ → Call → Prop) : Client Call Answer ρ → σ → Prop
  | ret _, _ => True
  | call c k, s => P s c ∧ (k (h s c).1).Along h P (h s c).2

/-- Properties that are one in the states with an invariant are one along a run, if the
calls that have them keep the invariant. -/
theorem along_congr_of_invariant {h : Handler Call Answer σ} {I : σ → Prop}
    {P Q : σ → Call → Prop} (hPQ : ∀ s c, I s → (P s c ↔ Q s c))
    (hI : ∀ s c, I s → Q s c → I (h s c).2) (p : Client Call Answer ρ) {s : σ} (hs : I s) :
    p.Along h P s ↔ p.Along h Q s := by
  induction p generalizing s with
  | ret r => exact Iff.rfl
  | call c k ih =>
    unfold Along
    rw [hPQ s c hs]
    -- where the call has the property, the invariant holds for the rest
    exact and_congr_right fun hQ => ih (h s c).1 (hI s c hs hQ)

/-- Properties that are one in every state. -/
theorem along_congr {h : Handler Call Answer σ} {P Q : σ → Call → Prop}
    (hPQ : ∀ s c, P s c ↔ Q s c) (p : Client Call Answer ρ) (s : σ) :
    p.Along h P s ↔ p.Along h Q s :=
  along_congr_of_invariant (I := fun _ => True) (fun s c _ => hPQ s c) (fun _ _ _ _ => trivial) p
    trivial

/-- **What every call keeps** holds where a run ends, and whatever follows from it holds
at each of its calls. -/
theorem along_of_invariant {h : Handler Call Answer σ} {I : σ → Prop} {P : σ → Call → Prop}
    (hI : ∀ s c, I s → P s c ∧ I (h s c).2) (p : Client Call Answer ρ) {s : σ} (hs : I s) :
    p.Along h P s ∧ I (p.run h s).2 := by
  induction p generalizing s with
  | ret r => exact ⟨trivial, hs⟩
  | call c k ih =>
    obtain ⟨hP, hnext⟩ := hI s c hs
    obtain ⟨hrest, hend⟩ := ih (h s c).1 hnext
    exact ⟨⟨hP, hrest⟩, hend⟩

/-- Two properties of each call. -/
theorem along_and {h : Handler Call Answer σ} {P Q : σ → Call → Prop}
    (p : Client Call Answer ρ) {s : σ} :
    p.Along h (fun s c => P s c ∧ Q s c) s ↔ p.Along h P s ∧ p.Along h Q s := by
  induction p generalizing s with
  | ret r => exact (and_self_iff).symm
  | call c k ih =>
    unfold Along
    rw [ih]
    exact and_and_and_comm

/-- Two handlers, side by side; the answers are those of the first. -/
def beside (h : Handler Call Answer σ) (g : Handler Call Answer τ) :
    Handler Call Answer (σ × τ) :=
  fun st c => ((h st.1 c).1, (h st.1 c).2, (g st.2 c).2)

/-- Beside another handler, a run makes the calls that it makes alone. -/
theorem along_beside {h : Handler Call Answer σ} (g : Handler Call Answer τ)
    {P : σ → Call → Prop} (p : Client Call Answer ρ) (s : σ) (t : τ) :
    p.Along (beside h g) (fun st c => P st.1 c) (s, t) ↔ p.Along h P s := by
  induction p generalizing s t with
  | ret r => exact Iff.rfl
  | call c k ih => exact and_congr_right fun _ => ih (h s c).1 (h s c).2 (g t c).2

/-- **Handlers that agree at the calls that meet a condition** on both states give
runs that agree, where all calls of the run do. -/
theorem run_simulates_beside {h : Handler Call Answer σ} {g : Handler Call Answer τ}
    {R : σ → τ → Prop} {P : σ × τ → Call → Prop}
    (hstep : ∀ s t c, R s t → P (s, t) c → (h s c).1 = (g t c).1 ∧ R (h s c).2 (g t c).2)
    (p : Client Call Answer ρ) {s : σ} {t : τ} (hR : R s t)
    (hP : p.Along (beside h g) P (s, t)) :
    (p.run h s).1 = (p.run g t).1 ∧ R (p.run h s).2 (p.run g t).2 := by
  induction p generalizing s t with
  | ret r => exact ⟨rfl, hR⟩
  | call c k ih =>
    have hhead := hstep s t c hR hP.1
    -- the rest of the client is the same one, as the answers are
    have htail := ih (h s c).1 hhead.2 hP.2
    unfold run
    rw [← hhead.1]
    exact htail

/-- **Handlers that agree call by call give runs that agree**: the same end, and
states that still correspond.  The steps have to correspond only at the calls
the run makes. -/
theorem run_simulates {h : Handler Call Answer σ} {g : Handler Call Answer τ}
    {R : σ → τ → Prop} {P : σ → Call → Prop}
    (hstep : ∀ s t c, R s t → P s c → (h s c).1 = (g t c).1 ∧ R (h s c).2 (g t c).2)
    (p : Client Call Answer ρ) {s : σ} {t : τ} (hR : R s t) (hP : p.Along h P s) :
    (p.run h s).1 = (p.run g t).1 ∧ R (p.run h s).2 (p.run g t).2 :=
  run_simulates_beside (P := fun st c => P st.1 c) hstep p hR ((along_beside g p s t).mpr hP)

/-- At a call both handlers answer the same, and leave states that correspond. -/
def AgreesAt (h : Handler Call Answer σ) (g : Handler Call Answer τ) (R : σ → τ → Prop)
    (st : σ × τ) (c : Call) : Prop :=
  (h st.1 c).1 = (g st.2 c).1 ∧ R (h st.1 c).2 (g st.2 c).2

/-- **Where a call agrees exactly if it meets a condition**, a run agrees at each of its
calls exactly if they all do; it then ends the same, in states that correspond. -/
theorem along_agreesAt_iff {h : Handler Call Answer σ} {g : Handler Call Answer τ}
    {R : σ → τ → Prop} {P : σ × τ → Call → Prop}
    (hcall : ∀ s t c, R s t → (AgreesAt h g R (s, t) c ↔ P (s, t) c)) (p : Client Call Answer ρ)
    {s : σ} {t : τ} (hR : R s t) :
    (p.Along (beside h g) (AgreesAt h g R) (s, t) ↔ p.Along (beside h g) P (s, t)) ∧
      (p.Along (beside h g) P (s, t) →
        (p.run h s).1 = (p.run g t).1 ∧ R (p.run h s).2 (p.run g t).2) := by
  constructor
  · refine along_congr_of_invariant (I := fun st : σ × τ => R st.1 st.2) ?_ ?_ p hR
    · intro st c hst
      exact hcall st.1 st.2 c hst
    · intro st c hst hP
      exact ((hcall st.1 st.2 c hst).mpr hP).2
  · refine run_simulates_beside ?_ p hR
    intro s t c hst hP
    exact (hcall s t c hst).mpr hP

/-- The same for the runs whose calls are all of a kind. -/
theorem along_agreesAt_iff_of_along {h : Handler Call Answer σ} {g : Handler Call Answer τ}
    {R : σ → τ → Prop} {P Q : σ × τ → Call → Prop}
    (hcall : ∀ s t c, R s t → Q (s, t) c → (AgreesAt h g R (s, t) c ↔ P (s, t) c))
    (p : Client Call Answer ρ) {s : σ} {t : τ} (hR : R s t) (hQ : p.Along (beside h g) Q (s, t)) :
    (p.Along (beside h g) (AgreesAt h g R) (s, t) ↔ p.Along (beside h g) P (s, t)) ∧
      (p.Along (beside h g) P (s, t) →
        (p.run h s).1 = (p.run g t).1 ∧ R (p.run h s).2 (p.run g t).2) := by
  constructor
  · have hboth := along_congr_of_invariant (I := fun st : σ × τ => R st.1 st.2)
      (h := beside h g) (P := fun st c => Q st c ∧ AgreesAt h g R st c)
      (Q := fun st c => Q st c ∧ P st c) (s := (s, t))
      (fun st c hst => and_congr_right fun hq => hcall st.1 st.2 c hst hq)
      (fun st c hst hqp => ((hcall st.1 st.2 c hst hqp.1).mpr hqp.2).2) p hR
    rw [along_and, along_and] at hboth
    exact (and_iff_right hQ).symm.trans (hboth.trans (and_iff_right hQ))
  · intro hP
    refine run_simulates_beside (P := fun st c => Q st c ∧ P st c) ?_ p hR
      ((along_and p).mpr ⟨hQ, hP⟩)
    intro s t c hst hqp
    exact (hcall s t c hst hqp.1).mpr hqp.2

end Client

end RealmCpp.Library
