/-
  RealmCpp.Library.EventLoop
  ──────────────────────────
  **A SERVICE THAT CALLS HANDLERS.**

  An asynchronous operation is a handler that is due.  A service calls the
  handlers in the order in which they are, and each may post others, or stop it.
  It is run until it is stopped or nothing is due; or until it is stopped, and
  then it waits where nothing is due.

    • `run_le`, `runUntilStopped_le` — a run that has ended is over,
    • `run_due`, `runUntilStopped_due` — one handler,
    • `runUntilStopped_idle` — a run that does not end.
-/
import RealmCpp.Library.Termination

namespace RealmCpp.Library

/-- The handlers that are due, and whether the service was stopped. -/
structure Service (H : Type) where
  due : List H
  stopped : Bool

namespace Service

variable {H W : Type}

def post (service : Service H) (h : H) : Service H :=
  { service with due := service.due ++ [h] }

def stop (service : Service H) : Service H := { service with stopped := true }

def reset (service : Service H) : Service H := { service with stopped := false }

variable (call : H → Service H × W → Service H × W)

/-- Call handlers until the service is stopped or none is due. -/
def run : Nat → Service H × W → Outcome (Service H × W)
  | 0, _ => .pending
  | n + 1, (service, w) =>
      if service.stopped then .returned (service, w)
      else
        match service.due with
        | [] => .returned (service, w)
        | h :: due => run n (call h ({ service with due := due }, w))

/-- Call handlers until the service is stopped, and wait for those that come. -/
def runUntilStopped : Nat → Service H × W → Outcome (Service H × W)
  | 0, _ => .pending
  | n + 1, (service, w) =>
      if service.stopped then .returned (service, w)
      else
        match service.due with
        | [] => runUntilStopped n (service, w)
        | h :: due => runUntilStopped n (call h ({ service with due := due }, w))

theorem run_le (n : Nat) (x : Service H × W) : Outcome.Le (run call n x) (run call (n + 1) x) := by
  induction n generalizing x with
  | zero => exact fun h => absurd rfl h
  | succ n ih =>
    unfold run
    split
    · exact Outcome.Le.refl _
    · split
      · exact Outcome.Le.refl _
      · exact ih _

theorem runUntilStopped_le (n : Nat) (x : Service H × W) :
    Outcome.Le (runUntilStopped call n x) (runUntilStopped call (n + 1) x) := by
  induction n generalizing x with
  | zero => exact fun h => absurd rfl h
  | succ n ih =>
    unfold runUntilStopped
    split
    · exact Outcome.Le.refl _
    · split
      · exact ih _
      · exact ih _

/-- The handler that is due is called. -/
theorem run_due (n : Nat) (h : H) (due : List H) (w : W) :
    run call (n + 1) (⟨h :: due, false⟩, w) = run call n (call h (⟨due, false⟩, w)) := rfl

theorem run_idle (n : Nat) (w : W) :
    run call (n + 1) (⟨[], false⟩, w) = .returned (⟨[], false⟩, w) := rfl

theorem runUntilStopped_due (n : Nat) (h : H) (due : List H) (w : W) :
    runUntilStopped call (n + 1) (⟨h :: due, false⟩, w) =
      runUntilStopped call n (call h (⟨due, false⟩, w)) := rfl

theorem runUntilStopped_stopped (n : Nat) (due : List H) (w : W) :
    runUntilStopped call (n + 1) (⟨due, true⟩, w) = .returned (⟨due, true⟩, w) := rfl

/-- **A service that nobody stops is waited for, where nothing is due.** -/
theorem runUntilStopped_idle (n : Nat) (w : W) :
    runUntilStopped call n (⟨[], false⟩, w) = .pending := by
  induction n with
  | zero => rfl
  | succ n ih => exact ih

end Service

end RealmCpp.Library
