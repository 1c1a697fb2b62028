/-
  RealmCpp.Scheduler.InvocationQueue
  ──────────────────────────────────
  **`uv_scheduler` AND ITS `invocation_queue`.**

  Any number of threads push functions and then send to the handle of the loop.
  The loop delivers wake-ups: its callback takes all functions out of the queue
  and calls them one after the other, and they may themselves push and send.

  The abstract model is a queue that is served in order; the steps of the threads
  and of the loop are its steps (`Step.refines`).  `reachable_orderly` has what
  holds in every state that can be reached.
-/
import RealmCpp.Library.Fifo

namespace RealmCpp.Scheduler

open RealmCpp.Library

variable {T F : Type}

/-! ## §1. The threads and the loop. -/

/-- A function that was pushed, with the number of those before it. -/
structure Invocation (F : Type) where
  ticket : Nat
  fn : F
  deriving DecidableEq

/-- Where the thread of the loop is: it waits for wake-ups (or does something
else), the callback was called, or it is in the `for` of `invoke_all`.  There
`taken` functions had been pushed when the batch was taken, `rest` is what is
left of the batch, and `current` the function that is being called. -/
inductive Loop (F : Type) where
  | polling
  | delivered
  | invoking (taken : Nat) (rest : List (Invocation F)) (current : Option (Invocation F))

/-- What is left of the batch. -/
def Loop.rest : Loop F → List (Invocation F)
  | invoking _ rest _ => rest
  | _ => []

/-- The scheduler.  A thread that is `sending` is between its push and its send;
`pushed` and `executed` are what happened so far. -/
structure State (T F : Type) where
  functions : List (Invocation F)
  pending : Bool
  sending : T → Bool
  loop : Loop F
  pushed : List (Invocation F)
  executed : List (Invocation F)

namespace State

def initial : State T F := ⟨[], false, fun _ => false, .polling, [], []⟩

/-- `invocation_queue::push`, under the mutex. -/
def push [DecidableEq T] (s : State T F) (t : T) (fn : F) : State T F :=
  { s with
    functions := s.functions ++ [⟨s.pushed.length, fn⟩]
    pushed := s.pushed ++ [⟨s.pushed.length, fn⟩]
    sending := Function.update s.sending t true }

/-- `uv_async_send`: wake-ups that were not delivered yet become one. -/
def send [DecidableEq T] (s : State T F) (t : T) : State T F :=
  { s with pending := true, sending := Function.update s.sending t false }

/-- The loop calls the callback of the handle. -/
def deliver (s : State T F) : State T F := { s with pending := false, loop := .delivered }

/-- `functions.swap(m_functions)`, under the mutex. -/
def take (s : State T F) : State T F :=
  { s with functions := [], loop := .invoking s.pushed.length s.functions none }

end State

/-- **A step of a thread, or of the loop** on `loopThread`. -/
inductive Step [DecidableEq T] (loopThread : T) : State T F → State T F → Prop where
  /-- A thread calls `invoke`.  That of the loop does so from a function, or while
  it does not call any. -/
  | push (s : State T F) (t : T) (fn : F) (hidle : s.sending t = false)
      (hloop : t = loopThread → s.loop = .polling ∨
        ∃ taken rest x, s.loop = .invoking taken rest (some x)) : Step loopThread s (s.push t fn)
  | send (s : State T F) (t : T) (h : s.sending t = true) : Step loopThread s (s.send t)
  /-- A wake-up; there may be more of them than sends. -/
  | deliver (s : State T F) (hloop : s.loop = .polling) (hidle : s.sending loopThread = false) :
      Step loopThread s s.deliver
  | take (s : State T F) (hloop : s.loop = .delivered) : Step loopThread s s.take
  /-- The next function is called, -/
  | call (s : State T F) (taken : Nat) (x : Invocation F) (rest : List (Invocation F))
      (hloop : s.loop = .invoking taken (x :: rest) none) :
      Step loopThread s
        { s with loop := .invoking taken rest (some x), executed := s.executed ++ [x] }
  /-- and returns, when it has sent what it pushed. -/
  | ret (s : State T F) (taken : Nat) (x : Invocation F) (rest : List (Invocation F))
      (hloop : s.loop = .invoking taken rest (some x)) (hidle : s.sending loopThread = false) :
      Step loopThread s { s with loop := .invoking taken rest none }
  | finish (s : State T F) (taken : Nat) (hloop : s.loop = .invoking taken [] none) :
      Step loopThread s { s with loop := .polling }

/-- A state that can be reached. -/
def Reachable [DecidableEq T] (loopThread : T) (s : State T F) : Prop :=
  Relation.ReflTransGen (Step loopThread) State.initial s

/-! ## §2. The invariant. -/

/-- **What holds of the queue, the batch, the wake-ups and the threads.** -/
structure Inv (s : State T F) : Prop where
  tickets : s.pushed.map Invocation.ticket = List.range s.pushed.length
  /-- What was pushed is executed, left of the batch or in the queue, in this order. -/
  split : s.executed ++ (s.loop.rest ++ s.functions) = s.pushed
  wake : s.functions ≠ [] →
    s.pending = true ∨ (∃ t, s.sending t = true) ∨ s.loop = .delivered
  /-- The batch is what was pushed when it was taken. -/
  taken : ∀ {n rest current}, s.loop = .invoking n rest current →
    (s.executed ++ rest).length = n
  current : ∀ {n rest x}, s.loop = .invoking n rest (some x) → x ∈ s.executed

theorem inv_initial : Inv (State.initial : State T F) :=
  ⟨rfl, rfl, nofun, nofun, nofun⟩

namespace Inv

variable {s : State T F}

theorem nodup (h : Inv s) : s.pushed.Nodup := by
  apply List.Nodup.of_map Invocation.ticket
  rw [h.tickets]
  exact List.nodup_range

theorem push [DecidableEq T] (h : Inv s) (t : T) (fn : F) : Inv (s.push t fn) where
  tickets := by
    show (s.pushed ++ [_]).map _ = List.range (s.pushed ++ [_]).length
    rw [List.map_append, h.tickets, List.length_append]
    exact List.range_succ.symm
  split := by
    show s.executed ++ (s.loop.rest ++ (s.functions ++ [_])) = s.pushed ++ [_]
    rw [← List.append_assoc s.loop.rest, ← List.append_assoc s.executed, h.split]
  -- the thread that pushed has yet to send
  wake _ := .inr (.inl ⟨t, Function.update_self ..⟩)
  taken := h.taken
  current := h.current

theorem send [DecidableEq T] (h : Inv s) (t : T) : Inv (s.send t) :=
  ⟨h.tickets, h.split, fun _ => .inl rfl, h.taken, h.current⟩

theorem deliver (h : Inv s) (hloop : s.loop = .polling) : Inv s.deliver where
  tickets := h.tickets
  split := by
    have hsplit := h.split
    rw [hloop] at hsplit
    exact hsplit
  wake _ := .inr (.inr rfl)
  taken := nofun
  current := nofun

theorem take (h : Inv s) (hloop : s.loop = .delivered) : Inv s.take := by
  have hsplit := h.split
  rw [hloop] at hsplit
  refine ⟨h.tickets, ?_, fun hne => absurd rfl hne, ?_, nofun⟩
  · -- the queue becomes the batch
    show s.executed ++ (s.functions ++ []) = s.pushed
    rw [List.append_nil]
    exact hsplit
  · intro n rest current heq
    cases heq
    exact congrArg List.length hsplit

theorem call (h : Inv s) {taken : Nat} {x : Invocation F} {rest : List (Invocation F)}
    (hloop : s.loop = .invoking taken (x :: rest) none) :
    Inv { s with loop := .invoking taken rest (some x), executed := s.executed ++ [x] } := by
  have hsplit := h.split
  rw [hloop] at hsplit
  refine ⟨h.tickets, ?_, fun hne => ?_, ?_, ?_⟩
  · -- the first of the batch becomes the last that was executed
    show (s.executed ++ [x]) ++ (rest ++ s.functions) = s.pushed
    rw [← hsplit]
    simp [Loop.rest]
  · rcases h.wake hne with hpending | hsending | hdelivered
    · exact .inl hpending
    · exact .inr (.inl hsending)
    · rw [hloop] at hdelivered
      cases hdelivered
  · intro n rest' current heq
    cases heq
    have htaken := h.taken hloop
    simp only [List.length_append, List.length_cons, List.length_nil] at htaken ⊢
    omega
  · intro n rest' x' heq
    cases heq
    exact List.mem_append_right _ List.mem_cons_self

/-- The loop goes on, and leaves what is left of the batch. -/
theorem goOn (h : Inv s) {loop : Loop F} (hrest : loop.rest = s.loop.rest)
    (hdelivered : s.loop ≠ .delivered)
    (hloop : ∀ {n rest current}, loop = .invoking n rest current →
      (∃ current', s.loop = .invoking n rest current') ∧ current = none) :
    Inv { s with loop := loop } := by
  refine ⟨h.tickets, ?_, fun hne => ?_, fun heq => ?_, fun heq => ?_⟩
  · show s.executed ++ (loop.rest ++ s.functions) = s.pushed
    rw [hrest]
    exact h.split
  · rcases h.wake hne with hpending | hsending | h
    · exact .inl hpending
    · exact .inr (.inl hsending)
    · exact absurd h hdelivered
  · obtain ⟨⟨current', heq'⟩, -⟩ := hloop heq
    exact h.taken heq'
  · obtain ⟨-, hnone⟩ := hloop heq
    cases hnone

/-- What was pushed before the batch was taken, and since. -/
theorem batch (h : Inv s) {taken : Nat} {rest : List (Invocation F)}
    {current : Option (Invocation F)} (hloop : s.loop = .invoking taken rest current) :
    s.pushed.take taken = s.executed ++ rest ∧ s.pushed.drop taken = s.functions := by
  have hsplit := h.split
  rw [hloop, ← List.append_assoc] at hsplit
  have htaken := h.taken hloop
  rw [← hsplit, ← htaken]
  exact ⟨List.take_left, List.drop_left⟩

end Inv

variable [DecidableEq T] {loopThread : T} {s s' : State T F}

/-- **Every step keeps the invariant.** -/
theorem Step.inv (hstep : Step loopThread s s') (h : Inv s) : Inv s' := by
  cases hstep with
  | push t fn hidle hloop => exact h.push t fn
  | send t hsending => exact h.send t
  | deliver hloop hidle => exact h.deliver hloop
  | take hloop => exact h.take hloop
  | call taken x rest hloop => exact h.call hloop
  | ret taken x rest hloop hidle =>
    refine h.goOn (by rw [hloop]; rfl) (by simp [hloop]) fun heq => ?_
    cases heq
    exact ⟨⟨some x, hloop⟩, rfl⟩
  | finish taken hloop =>
    exact h.goOn (by rw [hloop]; rfl) (by simp [hloop]) nofun

theorem Reachable.inv (h : Reachable loopThread s) : Inv s := by
  induction h with
  | refl => exact inv_initial
  | tail _ hstep ih => exact hstep.inv ih

/-! ## §3. The abstract queue. -/

/-- What the scheduler is for: functions are added, and served. -/
def State.fifo (s : State T F) : Fifo (Invocation F) := ⟨s.pushed, s.executed⟩

/-- **A step is one of the abstract queue, or none.** -/
theorem Step.refines (hstep : Step loopThread s s') (h : Inv s) :
    Relation.ReflTransGen Fifo.Step s.fifo s'.fifo := by
  cases hstep with
  | push t fn hidle hloop => exact .single (.add s.fifo ⟨s.pushed.length, fn⟩)
  | call taken x rest hloop =>
    -- the first of the batch is the first that was not served
    refine .single (.serve s.fifo x (rest ++ s.functions) ?_)
    have hsplit := h.split
    rw [hloop] at hsplit
    exact hsplit.symm
  | _ => exact .refl

theorem Reachable.refines (h : Reachable loopThread s) :
    Relation.ReflTransGen Fifo.Step Fifo.empty s.fifo := by
  induction h with
  | refl => exact .refl
  | tail hreach hstep ih => exact ih.trans (hstep.refines (Reachable.inv hreach))

/-! ## §4. In every state that can be reached. -/

/-- **Nothing is lost, repeated or reordered.** -/
structure Orderly (s : State T F) : Prop where
  /-- Every function has run at most once, -/
  once : s.executed.Nodup
  /-- and they have run in the order of their pushes. -/
  inOrder : s.executed <+: s.pushed
  /-- Where there are functions a wake-up is pending (sent, or its callback is about
  to take them) or a thread has yet to send. -/
  wake : s.functions ≠ [] →
    (s.pending = true ∨ s.loop = .delivered) ∨ ∃ t, s.sending t = true
  /-- What is pushed while a batch is being run is in the queue, and not in the batch. -/
  batch : ∀ taken rest current, s.loop = .invoking taken rest current →
    ∀ x ∈ s.pushed.drop taken, x ∈ s.functions ∧ x ∉ current.toList ++ rest
  /-- What was pushed has run, or is left of the batch, or is in the queue. -/
  kept : ∀ x ∈ s.pushed, x ∈ s.executed ∨ x ∈ s.loop.rest ∨ x ∈ s.functions
  /-- Where nothing is under way all functions have run. -/
  idle : s.loop = .polling → s.pending = false → (∀ t, s.sending t = false) →
    s.executed = s.pushed

/-- **In every state that can be reached, functions run once and in order**, and a
function that waits has a wake-up under way. -/
theorem reachable_orderly (loopThread : T) (s : State T F) (hs : Reachable loopThread s) :
    Orderly s := by
  have h := hs.inv
  have hprefix : s.executed <+: s.pushed := Fifo.served_isPrefix hs.refines
  refine ⟨Fifo.served_nodup hs.refines h.nodup, hprefix, fun hne => ?_, ?_, fun x hx => ?_, ?_⟩
  · rcases h.wake hne with hpending | hsending | hdelivered
    · exact .inl (.inl hpending)
    · exact .inr hsending
    · exact .inl (.inr hdelivered)
  · intro taken rest current hloop x hx
    obtain ⟨htake, hdrop⟩ := h.batch hloop
    refine ⟨hdrop ▸ hx, fun hmem => ?_⟩
    -- the batch is among what was pushed before
    have hbefore : x ∈ s.pushed.take taken := by
      rw [htake]
      rcases List.mem_append.mp hmem with hcurrent | hrest
      · cases current with
        | none => cases hcurrent
        | some y =>
          rw [Option.toList_some, List.mem_singleton] at hcurrent
          rw [hcurrent]
          exact List.mem_append_left _ (h.current hloop)
      · exact List.mem_append_right _ hrest
    exact List.disjoint_take_drop h.nodup (Nat.le_refl taken) hbefore hx
  · rw [← h.split] at hx
    simpa using hx
  · intro hloop hpending hsending
    -- a function that waits would have a wake-up under way
    have hempty : s.functions = [] := by
      by_contra hne
      rcases h.wake hne with hp | ⟨t, ht⟩ | hd
      · rw [hpending] at hp
        cases hp
      · rw [hsending t] at ht
        cases ht
      · rw [hloop] at hd
        cases hd
    have hsplit := h.split
    rw [hloop, hempty] at hsplit
    simpa [Loop.rest] using hsplit

/-- Thread 1 pushed a function, which the loop calls on thread 0. -/
def calling : State Nat String :=
  { (((State.initial.push 1 "a").send 1).deliver).take with
    loop := .invoking 1 [] (some ⟨0, "a"⟩)
    executed := [⟨0, "a"⟩] }

/-- It pushes another one, which is in the queue. -/
theorem reachable_orderly_calling : Orderly (calling.push 0 "b") := by
  have hpush : Reachable 0 ((State.initial : State Nat String).push 1 "a") :=
    .tail .refl (.push _ 1 "a" rfl fun h => absurd h (by decide))
  have htake : Reachable 0 (((State.initial : State Nat String).push 1 "a").send 1).deliver.take :=
    ((hpush.tail (.send _ 1 rfl)).tail (.deliver _ rfl rfl)).tail (.take _ rfl)
  have hcall : Reachable 0 calling := htake.tail (.call _ 1 ⟨0, "a"⟩ [] rfl)
  exact reachable_orderly 0 (calling.push 0 "b")
    (hcall.tail (.push _ 0 "b" rfl fun _ => .inr ⟨1, [], ⟨0, "a"⟩, rfl⟩))

end RealmCpp.Scheduler
