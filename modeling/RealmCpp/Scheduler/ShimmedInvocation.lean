/-
  RealmCpp.Scheduler.ShimmedInvocation
  ────────────────────────────────────
  **FUNCTIONS OF THE CORE ON A `uv_scheduler`.**

  The core hands its functions to `internal_scheduler::invoke`, which releases each into a
  raw pointer and pushes a function around it; a call of that one takes the ownership back
  and frees the function of the core.  The program pushes functions of its own.

  The queue is that of `InvocationQueue`, the heap that of `OneShot`; a step of the one is
  a step of the other.

    • `ShimStep` — the steps of the threads and of the loop, with the heap,
    • `Sound` — what every step keeps, `ShimStep.sound`,
    • `reachable_shimmed` — in every state that can be reached.
-/
import RealmCpp.Library.OneShot
import RealmCpp.Scheduler.InvocationQueue

namespace RealmCpp.Scheduler

open RealmCpp.Library

variable {T F : Type}

/-! ## §1. The queue and the heap. -/

/-- What is pushed: a function of the program, or that of the shim around a function of
the core. -/
inductive Pushed (F : Type) where
  | program (fn : F)
  | shim (p : Nat)

namespace Pushed

/-- The function of the core. -/
def callable : Pushed F → Option Nat
  | program _ => none
  | shim p => some p

/-- What a call does on the heap, -/
def called : Pushed F → List (OneShotOp Unit)
  | program _ => []
  | shim p => [.call p ()]

/-- and the end of the call. -/
def returned : Pushed F → List (OneShotOp Unit)
  | program _ => []
  | shim _ => [.finish]

end Pushed

/-- Functions of the core among those that were pushed. -/
def callables (l : List (Invocation (Pushed F))) : List Nat := l.filterMap fun x => x.fn.callable

/-- The queue with the heap; none once freed memory was used. -/
structure Shimmed (T F : Type) where
  queue : State T (Pushed F)
  heap : Option (OneShot Unit)

namespace Shimmed

def initial : Shimmed T F := ⟨.initial, some .start⟩

/-- Operations on the heap. -/
def act (s : Shimmed T F) (ops : List (OneShotOp Unit)) : Option (OneShot Unit) :=
  s.heap.bind fun m => m.run id ops

end Shimmed

/-- The function that is being called. -/
def Loop.current : Loop F → Option (Invocation F)
  | .invoking _ _ current => current
  | _ => none

/-- **A step of a thread or of the loop**, with what it does on the heap. -/
inductive ShimStep [DecidableEq T] (loopThread : T) : Shimmed T F → Shimmed T F → Prop where
  /-- The program calls `invoke`, -/
  | program (s : Shimmed T F) (t : T) (fn : F)
      (h : Step loopThread s.queue (s.queue.push t (.program fn))) :
      ShimStep loopThread s ⟨s.queue.push t (.program fn), s.heap⟩
  /-- or the core calls that of the shim. -/
  | invoke (s : Shimmed T F) (t : T)
      (h : Step loopThread s.queue
        (s.queue.push t (.shim (callables s.queue.pushed).length))) :
      ShimStep loopThread s
        ⟨s.queue.push t (.shim (callables s.queue.pushed).length), s.act [.hand]⟩
  | call (s : Shimmed T F) (taken : Nat) (x : Invocation (Pushed F))
      (rest : List (Invocation (Pushed F)))
      (hloop : s.queue.loop = .invoking taken (x :: rest) none) :
      ShimStep loopThread s
        ⟨{ s.queue with
            loop := .invoking taken rest (some x)
            executed := s.queue.executed ++ [x] }, s.act x.fn.called⟩
  | ret (s : Shimmed T F) (taken : Nat) (x : Invocation (Pushed F))
      (rest : List (Invocation (Pushed F)))
      (hloop : s.queue.loop = .invoking taken rest (some x))
      (hidle : s.queue.sending loopThread = false) :
      ShimStep loopThread s
        ⟨{ s.queue with loop := .invoking taken rest none }, s.act x.fn.returned⟩
  /-- What else is done leaves the heap: the functions are moved, or destroyed, and with
  them the pointers. -/
  | quiet (s : Shimmed T F) (q : State T (Pushed F)) (h : Step loopThread s.queue q)
      (hpushed : q.pushed = s.queue.pushed) (hexecuted : q.executed = s.queue.executed)
      (hcurrent : q.loop.current = s.queue.loop.current) :
      ShimStep loopThread s ⟨q, s.heap⟩

/-- A state that can be reached. -/
def ShimReachable [DecidableEq T] (loopThread : T) (s : Shimmed T F) : Prop :=
  Relation.ReflTransGen (ShimStep loopThread) Shimmed.initial s

/-! ## §2. The heap follows the queue. -/

@[simp] theorem callables_append (l k : List (Invocation (Pushed F))) :
    callables (l ++ k) = callables l ++ callables k := List.filterMap_append

@[simp] theorem callables_program (n : Nat) (fn : F) :
    callables [⟨n, .program fn⟩] = [] := rfl

/-- What has been called, as the log of the heap. -/
def log (l : List (Invocation (Pushed F))) : List (Nat × Unit) := (callables l).map fun p => (p, ())

theorem log_fst (l : List (Invocation (Pushed F))) : (log l).map Prod.fst = callables l := by
  unfold log
  rw [List.map_map]
  exact List.map_id _

theorem log_append (l k : List (Invocation (Pushed F))) : log (l ++ k) = log l ++ log k := by
  unfold log
  rw [callables_append, List.map_append]

/-- Functions of the core that the loop has yet to call. -/
def waiting (q : State T (Pushed F)) : List Nat := callables (q.loop.rest ++ q.functions)

/-- That which it is calling. -/
def running (q : State T (Pushed F)) : List Nat :=
  q.loop.current.toList.filterMap fun x => x.fn.callable

/-- **What every step keeps**: nothing freed was used, each function of the core has one
function of the shim, and the calls on the heap are those of the loop. -/
structure Sound (s : Shimmed T F) (m : OneShot Unit) : Prop where
  heap : s.heap = some m
  numbered : callables s.queue.pushed = List.range m.handed
  objects : m.objects = (List.range m.handed).map some
  active : m.active = running s.queue
  balanced : OneShot.Balanced id m (log s.queue.executed)

theorem sound_initial : Sound (Shimmed.initial : Shimmed T F) .start :=
  ⟨rfl, rfl, rfl, rfl, OneShot.balanced_start⟩

namespace Sound

variable {s : Shimmed T F} {m : OneShot Unit}

theorem target (h : Sound s m) {p : Nat} (hp : p < m.handed) : m.target p = some p := by
  unfold Functions.target
  rw [h.objects, List.getElem?_map, List.getElem?_range hp]
  rfl

/-- What does nothing on the heap, and neither calls a function nor ends a call. -/
theorem quiet (h : Sound s m) {q : State T (Pushed F)}
    (hpushed : callables q.pushed = callables s.queue.pushed)
    (hexecuted : q.executed = s.queue.executed)
    (hcurrent : q.loop.current = s.queue.loop.current) : Sound ⟨q, s.heap⟩ m where
  heap := h.heap
  numbered := hpushed.trans h.numbered
  objects := h.objects
  active := by
    unfold running
    rw [hcurrent]
    exact h.active
  balanced := by rw [hexecuted]; exact h.balanced

theorem invoke [DecidableEq T] (h : Sound s m) (t : T) :
    ∃ m', Sound ⟨s.queue.push t (.shim (callables s.queue.pushed).length), s.act [.hand]⟩ m' := by
  -- the function of the shim has the number of the next callable
  have hlength : (callables s.queue.pushed).length = m.handed := by
    rw [h.numbered, List.length_range]
  rw [hlength]
  refine ⟨{ m with handed := m.handed + 1, objects := m.objects ++ [some m.handed] }, ?_, ?_, ?_,
    ?_, ?_⟩
  · show s.heap.bind _ = _
    rw [h.heap]
    rfl
  · show callables (s.queue.pushed ++ [_]) = _
    rw [callables_append, h.numbered]
    exact List.range_succ.symm
  · show m.objects ++ [some m.handed] = (List.range (m.handed + 1)).map some
    rw [h.objects, List.range_succ, List.map_append]
    rfl
  · exact h.active
  · exact ⟨h.balanced.count, h.balanced.nodup, h.balanced.ran⟩

/-- No function of the core was called twice. -/
theorem nodup_callables (h : Sound s m) (hinv : Inv s.queue) :
    (callables s.queue.executed ++ callables (s.queue.loop.rest ++ s.queue.functions)).Nodup := by
  rw [← callables_append, hinv.split, h.numbered]
  exact List.nodup_range

/-- What the loop calls next is not freed, -/
theorem next_spec (h : Sound s m) (hinv : Inv s.queue) {taken n p : Nat}
    {rest : List (Invocation (Pushed F))}
    (hloop : s.queue.loop = .invoking taken (⟨n, .shim p⟩ :: rest) none) :
    m.target p = some p ∧ p ∉ m.freed := by
  have hnodup := h.nodup_callables hinv
  have hpushed : p ∈ callables s.queue.pushed := by
    rw [← hinv.split, hloop]
    simp [Loop.rest, callables, Pushed.callable]
  rw [h.numbered, List.mem_range] at hpushed
  refine ⟨h.target hpushed, fun hfreed => ?_⟩
  -- it would have been called before
  have hcount := h.balanced.count p
  rw [log_fst] at hcount
  have hpos : 0 < m.freed.count p := List.count_pos_iff.mpr hfreed
  have hexecuted : p ∈ callables s.queue.executed := List.count_pos_iff.mp (by omega)
  have hrest : p ∈ callables (s.queue.loop.rest ++ s.queue.functions) := by
    rw [hloop]
    simp [Loop.rest, callables, Pushed.callable]
  exact (List.nodup_append.mp hnodup).2.2 p hexecuted p hrest rfl

theorem call (h : Sound s m) (hinv : Inv s.queue) {taken : Nat} {x : Invocation (Pushed F)}
    {rest : List (Invocation (Pushed F))}
    (hloop : s.queue.loop = .invoking taken (x :: rest) none) :
    ∃ m', Sound ⟨{ s.queue with
      loop := .invoking taken rest (some x)
      executed := s.queue.executed ++ [x] }, s.act x.fn.called⟩ m' := by
  have hactive : m.active = [] := by
    rw [h.active, running, hloop]
    rfl
  obtain ⟨n, fn | p⟩ := x
  · -- a function of the program: nothing happens on the heap
    refine ⟨m, ?_, h.numbered, h.objects, hactive, ?_⟩
    · show s.heap.bind _ = _
      rw [h.heap]
      rfl
    · show OneShot.Balanced id m (log (s.queue.executed ++ [_]))
      rw [log_append]
      show OneShot.Balanced id m (log s.queue.executed ++ [])
      rw [List.append_nil]
      exact h.balanced
  · -- a function of the shim: the callable in it is called
    obtain ⟨htarget, hfreed⟩ := h.next_spec hinv hloop
    have hstep : m.step id (.call p ()) =
        some { m with active := p :: m.active, ran := m.ran ++ [(p, id ())] } :=
      OneShot.step_call id htarget hfreed
    have hbalanced := h.balanced.step hstep
    have hcalled : m.called (.call p ()) = [(p, ())] := by
      simp [Functions.called, htarget]
    refine ⟨{ m with active := p :: m.active, ran := m.ran ++ [(p, id ())] }, ?_, h.numbered,
      h.objects, ?_, ?_⟩
    · show s.heap.bind (fun m => (m.step id (.call p ())).bind _) = _
      rw [h.heap, Option.bind_some, hstep]
      rfl
    · show p :: m.active = [p]
      rw [hactive]
    · show OneShot.Balanced id _ (log (s.queue.executed ++ [_]))
      rw [log_append]
      rw [hcalled] at hbalanced
      exact hbalanced

theorem ret (h : Sound s m) (hinv : Inv s.queue) {taken : Nat} {x : Invocation (Pushed F)}
    {rest : List (Invocation (Pushed F))} (hloop : s.queue.loop = .invoking taken rest (some x)) :
    ∃ m', Sound ⟨{ s.queue with loop := .invoking taken rest none }, s.act x.fn.returned⟩ m' := by
  have hactive := h.active
  rw [running, hloop] at hactive
  obtain ⟨n, fn | p⟩ := x
  · refine ⟨m, ?_, h.numbered, h.objects, hactive, h.balanced⟩
    show s.heap.bind _ = _
    rw [h.heap]
    rfl
  · have hactive' : m.active = [p] := hactive
    have hfreed : p ∉ m.freed := by
      intro hmem
      -- it was called once, and that call is under way
      have hcount := h.balanced.count p
      have hpos : 0 < m.freed.count p := List.count_pos_iff.mpr hmem
      have hone := List.nodup_iff_count_le_one.mp
        (List.nodup_append.mp (h.nodup_callables hinv)).1 p
      rw [log_fst, hactive', List.count_singleton_self] at hcount
      omega
    have hstep : m.step id (.finish : OneShotOp Unit) =
        some { m with active := [], freed := p :: m.freed } :=
      OneShot.step_finish id hactive' hfreed
    have hbalanced := h.balanced.step hstep
    refine ⟨{ m with active := [], freed := p :: m.freed }, ?_, h.numbered, h.objects, rfl, ?_⟩
    · show s.heap.bind (fun m => (m.step id .finish).bind _) = _
      rw [h.heap, Option.bind_some, hstep]
      rfl
    · rw [show m.called (.finish : OneShotOp Unit) = [] from rfl, List.append_nil] at hbalanced
      exact hbalanced

/-- What is on the heap: each function of the core that was not called yet, or is
being called. -/
theorem allocated_iff (h : Sound s m) (hinv : Inv s.queue) (p : Nat) :
    m.Allocated p ↔ p ∈ running s.queue ∨ p ∈ waiting s.queue := by
  have hnodup := h.nodup_callables hinv
  have hcount := h.balanced.count p
  have honce := List.nodup_iff_count_le_one.mp (List.nodup_append.mp hnodup).1 p
  have hdisjoint := (List.nodup_append.mp hnodup).2.2
  -- what was handed over was called or waits, and what was called is freed or running
  have hhanded : p < m.handed ↔ p ∈ callables s.queue.executed ∨ p ∈ waiting s.queue := by
    rw [← List.mem_range, ← h.numbered, ← hinv.split, callables_append, List.mem_append]
    exact Iff.rfl
  have hfreed : p ∈ m.freed ↔ 0 < m.freed.count p := List.count_pos_iff.symm
  have hrunning : p ∈ running s.queue ↔ 0 < m.active.count p := by
    rw [h.active]
    exact List.count_pos_iff.symm
  have hexecuted : p ∈ callables s.queue.executed ↔ 0 < (callables s.queue.executed).count p :=
    List.count_pos_iff.symm
  have hapart : p ∈ callables s.queue.executed → p ∉ waiting s.queue := fun hp hq =>
    hdisjoint p hp p hq rfl
  rw [log_fst] at hcount
  unfold OneShot.Allocated
  rw [hhanded, hfreed, hrunning]
  constructor
  · rintro ⟨hp | hp, hzero⟩
    · have := hexecuted.mp hp
      exact .inl (by omega)
    · exact .inr hp
  · rintro (hp | hp)
    · have hmem := hexecuted.mpr (by omega)
      exact ⟨.inl hmem, by omega⟩
    · refine ⟨.inr hp, fun hpos => ?_⟩
      exact hapart (hexecuted.mpr (by omega)) hp

end Sound

variable [DecidableEq T] {loopThread : T} {s s' : Shimmed T F}

/-- A step of both is one of the queue, -/
theorem ShimStep.step (h : ShimStep loopThread s s') : Step loopThread s.queue s'.queue := by
  cases h with
  | program t fn h => exact h
  | invoke t h => exact h
  | call taken x rest hloop => exact .call s.queue taken x rest hloop
  | ret taken x rest hloop hidle => exact .ret s.queue taken x rest hloop hidle
  | quiet q h hpushed hexecuted hcurrent => exact h

/-- **and no function of the core that it uses is freed.** -/
theorem ShimStep.sound (h : ShimStep loopThread s s') (hinv : Inv s.queue) {m : OneShot Unit}
    (hm : Sound s m) : ∃ m', Sound s' m' := by
  cases h with
  | program t fn h =>
    refine ⟨m, hm.quiet ?_ rfl rfl⟩
    show callables (s.queue.pushed ++ [_]) = _
    rw [callables_append, callables_program, List.append_nil]
  | invoke t h => exact hm.invoke t
  | call taken x rest hloop => exact hm.call hinv hloop
  | ret taken x rest hloop hidle => exact hm.ret hinv hloop
  | quiet q h hpushed hexecuted hcurrent =>
    exact ⟨m, hm.quiet (congrArg callables hpushed) hexecuted hcurrent⟩

theorem ShimReachable.reachable (h : ShimReachable loopThread s) :
    Reachable loopThread s.queue := by
  induction h with
  | refl => exact .refl
  | tail _ hstep ih => exact ih.tail hstep.step

theorem ShimReachable.sound (h : ShimReachable loopThread s) : ∃ m, Sound s m := by
  induction h with
  | refl => exact ⟨.start, sound_initial⟩
  | tail hreach hstep ih =>
    obtain ⟨m, hm⟩ := ih
    exact hstep.sound (ShimReachable.reachable hreach).inv hm

/-! ## §3. In every state that can be reached. -/

/-- **Functions of the core on a `uv_scheduler`.**  In every state that can be reached no
freed function was used; those of the core that have run are those that the loop has
called, in that order and none twice; and on the heap are those that it is calling or has
yet to call, so that nothing is left where nothing is under way. -/
theorem reachable_shimmed (loopThread : T) (s : Shimmed T F)
    (hs : ShimReachable loopThread s) :
    ∃ m, s.heap = some m ∧
      m.ran.map Prod.fst = callables s.queue.executed ∧ (m.ran.map Prod.fst).Nodup ∧
      (∀ p, m.Allocated p ↔ p ∈ running s.queue ∨ p ∈ waiting s.queue) ∧
      (s.queue.loop = .polling → s.queue.pending = false →
        (∀ t, s.queue.sending t = false) → ∀ p, ¬ m.Allocated p) := by
  obtain ⟨m, hm⟩ := hs.sound
  have hinv := hs.reachable.inv
  have hran : m.ran.map Prod.fst = callables s.queue.executed := by
    rw [hm.balanced.ran, List.map_map]
    exact log_fst _
  refine ⟨m, hm.heap, hran, ?_, hm.allocated_iff hinv, ?_⟩
  · rw [hran]
    exact (List.nodup_append.mp (hm.nodup_callables hinv)).1
  · intro hloop hpending hsending p hp
    rcases (hm.allocated_iff hinv p).mp hp with hrunning | hwaiting
    · rw [running, hloop] at hrunning
      cases hrunning
    · -- nothing waits without a wake-up under way
      by_cases hempty : s.queue.functions = []
      · rw [waiting, hloop, hempty] at hwaiting
        cases hwaiting
      · rcases hinv.wake hempty with h | ⟨t, h⟩ | h
        · rw [hpending] at h
          cases h
        · rw [hsending t] at h
          cases h
        · rw [hloop] at h
          cases h

/-- A function of the core, which thread 1 invoked and thread 0 calls. -/
def shimCalling : Shimmed Nat String :=
  ⟨{ (((State.initial.push 1 (.shim 0)).send 1).deliver).take with
      loop := .invoking 1 [] (some ⟨0, .shim 0⟩)
      executed := [⟨0, .shim 0⟩] },
    some { handed := 1, objects := [some 0], active := [0], freed := [], ran := [(0, ())] }⟩

theorem reachable_shimmed_calling :
    ∃ m, shimCalling.heap = some m ∧
      m.ran.map Prod.fst = callables shimCalling.queue.executed ∧ (m.ran.map Prod.fst).Nodup ∧
      (∀ p, m.Allocated p ↔ p ∈ running shimCalling.queue ∨ p ∈ waiting shimCalling.queue) ∧
      (shimCalling.queue.loop = .polling → shimCalling.queue.pending = false →
        (∀ t, shimCalling.queue.sending t = false) → ∀ p, ¬ m.Allocated p) := by
  refine reachable_shimmed 0 shimCalling ?_
  have hinvoke : ShimReachable 0 (⟨State.initial.push 1 (.shim 0), _⟩ : Shimmed Nat String) :=
    .tail .refl (.invoke _ 1 (.push _ 1 _ rfl fun h => absurd h (by decide)))
  have hsend := hinvoke.tail (.quiet _ _ (.send _ 1 rfl) rfl rfl rfl)
  have hdeliver := hsend.tail (.quiet _ _ (.deliver _ rfl rfl) rfl rfl rfl)
  have htake := hdeliver.tail (.quiet _ _ (.take _ rfl) rfl rfl rfl)
  exact htake.tail (.call _ 1 ⟨0, .shim 0⟩ [] rfl)

end RealmCpp.Scheduler
