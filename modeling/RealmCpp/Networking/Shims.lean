/-
  RealmCpp.Networking.Shims
  ─────────────────────────
  **THE SHIMS BETWEEN THE CORE AND THE SDK'S NETWORKING.**

  The core hands a `UniqueFunction` to a socket provider, a websocket or an HTTP
  client.  The shims release it, and pass on a `std::function` with the raw pointer,
  which takes the ownership back when it is called.  `default_socket_provider` puts
  that into a handler for the core's own provider.

    • `provider_run_iff` — what a provider may do with the functions it is given,
    • `default_provider_transparent` — the handlers of the core's provider through
      both shims, beside the same without them,
    • `http_completion_once` — the completion block of a request of the core.
-/
import RealmCpp.Library.OneShot
import RealmCpp.Networking.Transport

namespace RealmCpp.Networking

open RealmCpp.Library

/-! ## §1. What the functions are called with. -/

/-- `realm::Status`. -/
structure CoreStatus where
  code : Int
  reason : String
  deriving DecidableEq, Repr

/-- `bridge::status`. -/
structure Status where
  m_status : CoreStatus
  deriving DecidableEq, Repr

/-- `status::status(const ::realm::Status&)`. -/
def Status.ofCore (other : CoreStatus) : Status := ⟨other⟩

/-- `status::operator ::realm::Status`. -/
def Status.toCore (s : Status) : CoreStatus := s.m_status

@[simp] theorem Status.toCore_ofCore (s : CoreStatus) : (Status.ofCore s).toCore = s := rfl

/-- `networking::response`, with the error code of a client. -/
structure ClientResponse extends Response where
  client_error_code : Option Int := none
  deriving DecidableEq

/-- `app::Response` of the core. -/
structure CoreResponse where
  http_status_code : Option Int
  custom_status_code : Option Int
  headers : List (String × String)
  body : String
  client_error_code : Option Int
  deriving DecidableEq

/-- `to_core_response`. -/
def to_core_response (req : ClientResponse) : CoreResponse where
  http_status_code := req.http_status_code
  custom_status_code := req.custom_status_code
  headers := req.headers
  body := req.body
  client_error_code := req.client_error_code

/-- What a function of a shim takes: those of `post`, of `create_timer` and of
`async_write_binary` a status, that of `send_request_to_server` a response. -/
inductive Argument where
  | status (s : Status)
  | response (response : ClientResponse)
  deriving DecidableEq

/-- What the handler of the core is called with. -/
inductive CoreArgument where
  | status (s : CoreStatus)
  | response (response : CoreResponse)
  deriving DecidableEq

def Argument.toCore : Argument → CoreArgument
  | status s => .status s.toCore
  | response r => .response (to_core_response r)

/-! ## §2. Any provider. -/

/-- The functions that the shims have passed on, and the heap of the handlers. -/
abbrev Shims := OneShot CoreArgument

/-- What a provider does with the functions. -/
abbrev ProviderOp := OneShotOp Argument

/-- The lambdas of the shims: `handler.release()` into a copyable object, and in a
call `UniqueFunction(std::move(ptr))`, which is destroyed where the call ends. -/
def Shims.run (ops : List ProviderOp) : Option Shims := OneShot.run Argument.toCore .start ops

/-- The handlers that are called, in order, with what. -/
def providerCalls (ops : List ProviderOp) : List (Nat × Argument) := Functions.start.calls ops

/-- **A provider that ends its calls uses no freed memory exactly if it calls no
handler twice**, be it through copies; then the handlers ran in that order, each with
what the function was called with, and those that were never called are leaked. -/
theorem provider_run_iff (ops : List ProviderOp) (o : Functions)
    (hfollow : Functions.start.follow ops = some o) (hended : o.active = []) :
    ((Shims.run ops).isSome ↔ ((providerCalls ops).map Prod.fst).Nodup) ∧
      ∀ s, Shims.run ops = some s →
        s.ran = (providerCalls ops).map (fun c => (c.1, c.2.toCore)) ∧
        ∀ p, s.Allocated p ↔ p < o.handed ∧ p ∉ (providerCalls ops).map Prod.fst := by
  refine ⟨OneShot.run_isSome_iff Argument.toCore hfollow hended, fun s hs => ?_⟩
  obtain ⟨hran, hcount⟩ := OneShot.run_spec Argument.toCore hs
  obtain ⟨-, hfollow'⟩ := OneShot.balanced_start.run hs
  have ho : o = s.toFunctions := Option.some.inj (hfollow.symm.trans hfollow')
  refine ⟨hran, fun p => ?_⟩
  have hp := hcount p
  rw [show s.active = [] from ho ▸ hended, List.count_nil, Nat.zero_add] at hp
  -- no call is under way, so that what was called is freed
  have hfreed : p ∈ s.freed ↔ p ∈ (providerCalls ops).map Prod.fst := by
    rw [← List.count_pos_iff, ← List.count_pos_iff]
    exact iff_of_eq (congrArg (0 < ·) hp.symm)
  show p < s.handed ∧ p ∉ s.freed ↔ _
  rw [hfreed, ho]

/-- A function that is copied, called through the copy, and destroyed. -/
def callThroughCopy : List ProviderOp :=
  [.hand, .hand, .copy 0, .destroy 0, .call 2 (.status ⟨0, ""⟩), .finish, .destroy 2, .destroy 1]

theorem provider_run_callThroughCopy :
    ((Shims.run callThroughCopy).isSome ↔ ((providerCalls callThroughCopy).map Prod.fst).Nodup) ∧
      ∀ s, Shims.run callThroughCopy = some s →
        s.ran = (providerCalls callThroughCopy).map (fun c => (c.1, c.2.toCore)) ∧
        ∀ p, s.Allocated p ↔ p < 2 ∧ p ∉ (providerCalls callThroughCopy).map Prod.fst :=
  provider_run_iff callThroughCopy ⟨2, [none, none, none], []⟩ (by decide) rfl

/-! ## §3. The default provider, over that of the core. -/

/-- What the core's provider does: it is given a handler, takes one of those it has
and calls it, the body of the innermost call ends, or it destroys a handler
without a call. -/
inductive Event where
  | post
  | fire (i : Nat) (s : CoreStatus)
  | finish
  | discard (i : Nat)
  deriving DecidableEq, Repr

/-- The core's provider with the handlers themselves. -/
structure Direct where
  handed : Nat := 0
  pending : List Nat := []
  active : List Nat := []
  freed : List Nat := []
  discarded : List Nat := []
  ran : List (Nat × CoreStatus) := []
  deriving DecidableEq, Repr

namespace Direct

def step (d : Direct) : Event → Option Direct
  | .post => some { d with handed := d.handed + 1, pending := d.pending ++ [d.handed] }
  | .fire i s => d.pending[i]?.map fun p =>
      { d with
        pending := d.pending.eraseIdx i
        active := p :: d.active
        ran := d.ran ++ [(p, s)] }
  | .finish =>
      match d.active with
      | [] => none
      | p :: active => some { d with active := active, freed := p :: d.freed }
  | .discard i => d.pending[i]?.map fun p =>
      { d with
        pending := d.pending.eraseIdx i
        freed := p :: d.freed
        discarded := p :: d.discarded }

def run (d : Direct) : List Event → Option Direct
  | [] => some d
  | e :: es => (d.step e).bind fun d' => d'.run es

/-- A handler that was handed over and is not freed. -/
def Allocated (d : Direct) (p : Nat) : Prop := p < d.handed ∧ p ∉ d.freed

end Direct

/-- The core's provider with the handlers of `default_socket_provider`, each with a
function of the shim in it: those it has, and those it is calling. -/
structure Shimmed where
  pending : List Nat := []
  running : List Nat := []
  machine : OneShot CoreStatus := .start
  deriving DecidableEq, Repr

namespace Shimmed

/-- An operation on the functions of the shim. -/
def act (s : Shimmed) (op : OneShotOp Status) : Option Shimmed :=
  (s.machine.step Status.toCore op).map fun machine => { s with machine := machine }

/-- The function goes into a lambda of the default provider, which is called with the
status of the core and destroyed once it was called, or without a call. -/
def step (s : Shimmed) : Event → Option Shimmed
  | .post =>
      { s with pending := s.pending ++ [s.machine.objects.length] }.act .hand
  | .fire i status => s.pending[i]?.bind fun f =>
      { s with pending := s.pending.eraseIdx i, running := f :: s.running }.act
        (.call f (.ofCore status))
  | .finish =>
      match s.running with
      | [] => none
      -- the body ends first, and with the lambda the function in it
      | f :: running => ({ s with running := running }.act .finish).bind fun s =>
          s.act (.destroy f)
  | .discard i => s.pending[i]?.bind fun f =>
      { s with pending := s.pending.eraseIdx i }.act (.destroy f)

def run (s : Shimmed) : List Event → Option Shimmed
  | [] => some s
  | e :: es => (s.step e).bind fun s' => s'.run es

end Shimmed

/-- The two beside each other.  The function object of a handler has its number, and
what is freed without the shims but was never called is not freed with them. -/
structure Beside (d : Direct) (s : Shimmed) : Prop where
  pending : s.pending = d.pending
  running : s.running = d.active
  active : s.machine.active = d.active
  handed : s.machine.handed = d.handed
  ran : s.machine.ran = d.ran
  length : s.machine.objects.length = d.handed
  target : ∀ p, p ∈ d.pending ∨ p ∈ d.active → s.machine.target p = some p
  freed : ∀ p, p ∈ d.freed ↔ p ∈ s.machine.freed ∨ p ∈ d.discarded
  nodup : (d.pending ++ d.active).Nodup
  unfreed : ∀ p, p ∈ d.pending ∨ p ∈ d.active → p < d.handed ∧ p ∉ d.freed
  bounded : ∀ p ∈ d.freed, p < d.handed
  uncalled : ∀ p ∈ d.discarded, p ∉ s.machine.freed

theorem beside_start : Beside {} {} where
  pending := rfl
  running := rfl
  active := rfl
  handed := rfl
  ran := rfl
  length := rfl
  target p h := by simp at h
  freed p := by simp [OneShot.start]
  nodup := by simp
  unfreed p h := by simp at h
  bounded p h := by simp at h
  uncalled p h := by simp at h

/-- What is done without the shims. -/
theorem direct_step_cases {d d' : Direct} {e : Event} (h : d.step e = some d') :
    (e = .post ∧
        d' = { d with handed := d.handed + 1, pending := d.pending ++ [d.handed] }) ∨
      (∃ i status p, e = .fire i status ∧ d.pending[i]? = some p ∧
        d' = { d with
          pending := d.pending.eraseIdx i
          active := p :: d.active
          ran := d.ran ++ [(p, status)] }) ∨
      (∃ p rest, e = .finish ∧ d.active = p :: rest ∧
        d' = { d with active := rest, freed := p :: d.freed }) ∨
      ∃ i p, e = .discard i ∧ d.pending[i]? = some p ∧
        d' = { d with
          pending := d.pending.eraseIdx i
          freed := p :: d.freed
          discarded := p :: d.discarded } := by
  cases e with
  | post => exact .inl ⟨rfl, (Option.some.inj h).symm⟩
  | fire i status =>
    obtain ⟨p, hp, rfl⟩ := Option.map_eq_some_iff.mp h
    exact .inr (.inl ⟨i, status, p, rfl, hp, rfl⟩)
  | finish =>
    cases hactive : d.active with
    | nil => simp [Direct.step, hactive] at h
    | cons p rest =>
      simp only [Direct.step, hactive, Option.some.injEq] at h
      exact .inr (.inr (.inl ⟨p, rest, rfl, rfl, h.symm⟩))
  | discard i =>
    obtain ⟨p, hp, rfl⟩ := Option.map_eq_some_iff.mp h
    exact .inr (.inr (.inr ⟨i, p, rfl, hp, rfl⟩))

/-- A handler that is taken is no longer among those that wait. -/
theorem nodup_take {pending active : List Nat} {i p : Nat} (hp : pending[i]? = some p)
    (h : (pending ++ active).Nodup) :
    (pending.eraseIdx i ++ p :: active).Nodup ∧ (pending.eraseIdx i ++ active).Nodup ∧
      p ∉ pending.eraseIdx i ++ active := by
  obtain ⟨hi, rfl⟩ := List.getElem?_eq_some_iff.mp hp
  have hperm : (pending ++ active).Perm (pending[i] :: (pending.eraseIdx i ++ active)) :=
    (List.getElem_cons_eraseIdx_perm hi).symm.append_right active
  have hnodup := hperm.nodup_iff.mp h
  refine ⟨?_, (List.nodup_cons.mp hnodup).2, (List.nodup_cons.mp hnodup).1⟩
  exact (List.perm_middle.nodup_iff).mpr hnodup

namespace Beside

variable {d d' : Direct} {s : Shimmed}

/-- A handler that waits or is called is not freed, with or without the shims. -/
theorem not_freed (h : Beside d s) {p : Nat} (hp : p ∈ d.pending ∨ p ∈ d.active) :
    p ∉ s.machine.freed := fun hmem => (h.unfreed p hp).2 ((h.freed p).mpr (.inl hmem))

theorem post (h : Beside d s) :
    ∃ s', s.step .post = some s' ∧
      Beside { d with handed := d.handed + 1, pending := d.pending ++ [d.handed] } s' := by
  have hnew : ∀ p, p ∈ d.pending ∨ p ∈ d.active → p ≠ d.handed := fun p hp =>
    Nat.ne_of_lt (h.unfreed p hp).1
  refine ⟨_, rfl, ?_⟩
  constructor
  case pending => simp [h.pending, h.length]
  case running => exact h.running
  case active => exact h.active
  case handed => simp [h.handed]
  case ran => exact h.ran
  case length => simp [h.length]
  case target =>
    intro p hp
    by_cases hpd : p = d.handed
    · -- the new handler is in the new function object
      subst hpd
      simp [Functions.target, ← h.length, h.handed]
    · refine Functions.target_append_of_some (h.target p ?_) _
      simpa [hpd] using hp
  case freed => exact h.freed
  case nodup =>
    have hfresh : d.handed ∉ d.pending ++ d.active := fun hmem =>
      hnew d.handed (List.mem_append.mp hmem) rfl
    show (d.pending ++ [d.handed] ++ d.active).Nodup
    rw [List.append_assoc, List.singleton_append, List.perm_middle.nodup_iff]
    exact List.nodup_cons.mpr ⟨hfresh, h.nodup⟩
  case unfreed =>
    intro p hp
    by_cases hpd : p = d.handed
    · subst hpd
      exact ⟨Nat.lt_succ_self _, fun hmem => Nat.lt_irrefl _ (h.bounded _ hmem)⟩
    · obtain ⟨hlt, hfreed⟩ := h.unfreed p (by simpa [hpd] using hp)
      exact ⟨Nat.lt_succ_of_lt hlt, hfreed⟩
  case bounded => exact fun p hp => Nat.lt_succ_of_lt (h.bounded p hp)
  case uncalled => exact h.uncalled

theorem fire (h : Beside d s) {i p : Nat} {status : CoreStatus} (hp : d.pending[i]? = some p) :
    ∃ s', s.step (.fire i status) = some s' ∧
      Beside { d with
        pending := d.pending.eraseIdx i
        active := p :: d.active
        ran := d.ran ++ [(p, status)] } s' := by
  have hmem : p ∈ d.pending := List.mem_of_getElem? hp
  have hstep := OneShot.step_call Status.toCore (a := Status.ofCore status)
    (h.target p (.inl hmem)) (h.not_freed (.inl hmem))
  -- what waits or is called afterwards did so before
  have hgoes : ∀ q, q ∈ d.pending.eraseIdx i ∨ q ∈ p :: d.active →
      q ∈ d.pending ∨ q ∈ d.active := by
    rintro q (hq | hq)
    · exact .inl (List.mem_of_mem_eraseIdx hq)
    · rcases List.mem_cons.mp hq with rfl | hq
      · exact .inl hmem
      · exact .inr hq
  refine ⟨{ s with
      pending := s.pending.eraseIdx i
      running := p :: s.running
      machine := { s.machine with
        active := p :: s.machine.active
        ran := s.machine.ran ++ [(p, status)] } }, ?_, ?_⟩
  · simp only [Shimmed.step, Shimmed.act, h.pending, hp, Option.bind_some, hstep, Option.map_some,
      Status.toCore_ofCore]
  · constructor
    case pending => exact congrArg (List.eraseIdx · i) h.pending
    case running => exact congrArg (p :: ·) h.running
    case active => exact congrArg (p :: ·) h.active
    case handed => exact h.handed
    case ran => exact congrArg (· ++ [(p, status)]) h.ran
    case length => exact h.length
    case target => exact fun q hq => h.target q (hgoes q hq)
    case freed => exact h.freed
    case nodup => exact (nodup_take hp h.nodup).1
    case unfreed => exact fun q hq => h.unfreed q (hgoes q hq)
    case bounded => exact h.bounded
    case uncalled => exact h.uncalled

theorem finish (h : Beside d s) {p : Nat} {rest : List Nat} (hactive : d.active = p :: rest) :
    ∃ s', s.step .finish = some s' ∧
      Beside { d with active := rest, freed := p :: d.freed } s' := by
  have hmem : p ∈ d.active := hactive ▸ List.mem_cons_self
  have hmachine : s.machine.active = p :: rest := h.active.trans hactive
  have hfinish := OneShot.step_finish Status.toCore hmachine (h.not_freed (.inr hmem))
  have hdestroy : ({ s.machine with active := rest, freed := p :: s.machine.freed } :
      OneShot CoreStatus).step Status.toCore (.destroy p) = some _ :=
    OneShot.step_destroy Status.toCore (h.target p (.inr hmem))
  have hgoes : ∀ q, q ∈ d.pending ∨ q ∈ rest → (q ∈ d.pending ∨ q ∈ d.active) ∧ q ≠ p := by
    have hnodup := h.nodup
    rw [hactive, List.perm_middle.nodup_iff, List.nodup_cons] at hnodup
    intro q hq
    refine ⟨hq.imp_right fun hq => hactive ▸ List.mem_cons_of_mem p hq, ?_⟩
    rintro rfl
    exact hnodup.1 (List.mem_append.mpr hq)
  refine ⟨{ s with
      running := rest
      machine := { s.machine with
        active := rest
        freed := p :: s.machine.freed
        objects := s.machine.objects.set p none } }, ?_, ?_⟩
  · simp only [Shimmed.step, Shimmed.act, h.running.trans hactive, hfinish, Option.map_some,
      Option.bind_some, hdestroy]
  · constructor
    case pending => exact h.pending
    case running => rfl
    case active => rfl
    case handed => exact h.handed
    case ran => exact h.ran
    case length => simpa using h.length
    case target =>
      exact fun q hq => Functions.target_set_of_ne (h.target q (hgoes q hq).1) (hgoes q hq).2
    case freed =>
      intro q
      simp only [List.mem_cons, h.freed q, or_assoc]
    case nodup =>
      have hnodup := h.nodup
      rw [hactive, List.perm_middle.nodup_iff, List.nodup_cons] at hnodup
      exact hnodup.2
    case unfreed =>
      intro q hq
      obtain ⟨hlt, hfreed⟩ := h.unfreed q (hgoes q hq).1
      exact ⟨hlt, fun hmem => (List.mem_cons.mp hmem).elim (hgoes q hq).2 hfreed⟩
    case bounded =>
      intro q hq
      rcases List.mem_cons.mp hq with rfl | hq
      · exact (h.unfreed q (.inr hmem)).1
      · exact h.bounded q hq
    case uncalled =>
      intro q hq hfreed
      rcases List.mem_cons.mp hfreed with rfl | hfreed
      · exact (h.unfreed q (.inr hmem)).2 ((h.freed q).mpr (.inr hq))
      · exact h.uncalled q hq hfreed

theorem discard (h : Beside d s) {i p : Nat} (hp : d.pending[i]? = some p) :
    ∃ s', s.step (.discard i) = some s' ∧
      Beside { d with
        pending := d.pending.eraseIdx i
        freed := p :: d.freed
        discarded := p :: d.discarded } s' := by
  have hmem : p ∈ d.pending := List.mem_of_getElem? hp
  have hdestroy := OneShot.step_destroy Status.toCore (h.target p (.inl hmem))
  obtain ⟨-, hnodup, hgone⟩ := nodup_take hp h.nodup
  have hgoes : ∀ q, q ∈ d.pending.eraseIdx i ∨ q ∈ d.active →
      (q ∈ d.pending ∨ q ∈ d.active) ∧ q ≠ p := by
    intro q hq
    refine ⟨hq.imp_left List.mem_of_mem_eraseIdx, ?_⟩
    rintro rfl
    exact hgone (List.mem_append.mpr hq)
  refine ⟨{ s with
      pending := s.pending.eraseIdx i
      machine := { s.machine with objects := s.machine.objects.set p none } }, ?_, ?_⟩
  · simp only [Shimmed.step, Shimmed.act, h.pending, hp, Option.bind_some, hdestroy,
      Option.map_some]
  · constructor
    case pending => exact congrArg (List.eraseIdx · i) h.pending
    case running => exact h.running
    case active => exact h.active
    case handed => exact h.handed
    case ran => exact h.ran
    case length => simpa using h.length
    case target =>
      exact fun q hq => Functions.target_set_of_ne (h.target q (hgoes q hq).1) (hgoes q hq).2
    case freed =>
      intro q
      simp only [List.mem_cons, h.freed q]
      tauto
    case nodup => exact hnodup
    case unfreed =>
      intro q hq
      obtain ⟨hlt, hfreed⟩ := h.unfreed q (hgoes q hq).1
      exact ⟨hlt, fun hmem => (List.mem_cons.mp hmem).elim (hgoes q hq).2 hfreed⟩
    case bounded =>
      intro q hq
      rcases List.mem_cons.mp hq with rfl | hq
      · exact (h.unfreed q (.inl hmem)).1
      · exact h.bounded q hq
    case uncalled =>
      intro q hq
      rcases List.mem_cons.mp hq with rfl | hq
      · exact h.not_freed (.inl hmem)
      · exact h.uncalled q hq

/-- **An event that the core's provider can do is done with the shims as without.** -/
theorem step (h : Beside d s) {e : Event} (hd : d.step e = some d') :
    ∃ s', s.step e = some s' ∧ Beside d' s' := by
  obtain ⟨rfl, rfl⟩ | ⟨i, status, p, rfl, hp, rfl⟩ | ⟨p, rest, rfl, hactive, rfl⟩ |
    ⟨i, p, rfl, hp, rfl⟩ := direct_step_cases hd
  · exact h.post
  · exact h.fire hp
  · exact h.finish hactive
  · exact h.discard hp

/-- The other way round, it is not made up by the shims. -/
theorem step_none (h : Beside d s) {e : Event} (hd : d.step e = none) : s.step e = none := by
  cases e with
  | post => exact absurd hd (by simp [Direct.step])
  | fire i status | discard i =>
    have hp : d.pending[i]? = none := by simpa [Direct.step] using hd
    simp [Shimmed.step, h.pending, hp]
  | finish =>
    cases hactive : d.active with
    | nil => simp [Shimmed.step, h.running, hactive]
    | cons p rest => simp [Direct.step, hactive] at hd

theorem run (h : Beside d s) (es : List Event) :
    (d.run es = none ∧ s.run es = none) ∨
      ∃ d' s', d.run es = some d' ∧ s.run es = some s' ∧ Beside d' s' := by
  induction es generalizing d s with
  | nil => exact .inr ⟨d, s, rfl, rfl, h⟩
  | cons e es ih =>
    -- an event that one of them cannot do ends both runs
    cases hd : d.step e with
    | none => exact .inl ⟨by simp [Direct.run, hd], by simp [Shimmed.run, h.step_none hd]⟩
    | some d₁ =>
      obtain ⟨s₁, hs, h₁⟩ := h.step hd
      simpa [Direct.run, Shimmed.run, hd, hs] using ih h₁

/-- What is leaked with the shims is what is destroyed without a call. -/
theorem allocated_iff (h : Beside d s) (p : Nat) :
    s.machine.Allocated p ↔ d.Allocated p ∨ p ∈ d.discarded := by
  have hfreed := h.freed p
  have hbounded := h.bounded p
  have huncalled := h.uncalled p
  unfold OneShot.Allocated Direct.Allocated
  rw [h.handed]
  tauto

end Beside

/-- **The shims are transparent to the core's provider.**  Whatever it does, with the
shims no freed memory is used, and the same handlers have run in the same order with
the same statuses; what is allocated is the same, but for the handlers it destroyed
without a call. -/
theorem default_provider_transparent (es : List Event) :
    (({} : Shimmed).run es = none ↔ ({} : Direct).run es = none) ∧
      ∀ d s, ({} : Direct).run es = some d → ({} : Shimmed).run es = some s →
        s.machine.ran = d.ran ∧ s.pending = d.pending ∧ s.running = d.active ∧
        ∀ p, s.machine.Allocated p ↔ d.Allocated p ∨ p ∈ d.discarded := by
  rcases beside_start.run es with ⟨hd, hs⟩ | ⟨d, s, hd, hs, h⟩
  · exact ⟨iff_of_true hs hd, fun d s hd' => by simp [hd] at hd'⟩
  · refine ⟨iff_of_false (by simp [hs]) (by simp [hd]), fun d' s' hd' hs' => ?_⟩
    obtain rfl := Option.some.inj (hd.symm.trans hd')
    obtain rfl := Option.some.inj (hs.symm.trans hs')
    exact ⟨h.ran, h.pending, h.running, h.allocated_iff⟩

/-! ## §4. An HTTP request of the core. -/

/-- A request that returns was answered once. -/
theorem exists_answer {net : Network} {configuration : Configuration} {request : Request} {n : Nat}
    {w : Exchange} (h : send_request_to_server net configuration request n = .returned w) :
    ∃ response, w.answers = [response] := by
  cases hconnect : connect net configuration request with
  | error response =>
    obtain rfl := Outcome.returned.inj
      ((returns_iff (send_request_unconnected hconnect) w).mp ⟨n, h⟩)
    exact ⟨response, rfl⟩
  | ok u =>
    by_cases hproxy : Proxied net configuration request
    · by_cases hssl : Configured net configuration
      · obtain ⟨w', hanswers, -, hserved⟩ := send_request_served hconnect hproxy hssl
        obtain rfl := Outcome.returned.inj ((returns_iff hserved w).mp ⟨n, h⟩)
        by_cases hhandshake : HandshakeFailed net configuration request
        · rw [served_of_handshakeFailed hhandshake]
          exact ⟨aborted net, by simp [Exchange.completion_block, hanswers]⟩
        · rw [served_of_not_handshakeFailed hhandshake]
          exact ⟨_, by rw [hanswers, List.nil_append]⟩
      · -- TLS cannot be set up, which raises
        have := (returns_iff (send_request_raised hconnect hproxy hssl) w).mp ⟨n, h⟩
        cases this
    · -- the proxy is waited for, and the client does not return
      have := (returns_iff (send_request_pending hconnect hproxy) w).mp ⟨n, h⟩
      cases this

/-- What the client does with the function of `core_http_transport_shim`: it is handed
the completion of the core, and calls it with each answer. -/
def completionOps (answers : List Response) : List ProviderOp :=
  .hand :: answers.flatMap fun r => [.call 0 (.response { toResponse := r }), .finish]

/-- **The completion of a request of the core runs once.**  Where the default client
returns, the completion has run exactly once, with the answer, and is freed.  It is one that
does not raise: in the `try` of the proxy's address `catch (...)` would call it again. -/
theorem http_completion_once (net : Network) (configuration : Configuration) (request : Request)
    (n : Nat) (w : Exchange)
    (h : send_request_to_server net configuration request n = .returned w) :
    ∃ response s, w.answers = [response] ∧ Shims.run (completionOps w.answers) = some s ∧
      s.ran = [(0, .response (to_core_response { toResponse := response }))] ∧
      s.handed = 1 ∧ s.active = [] ∧ s.freed = [0] := by
  obtain ⟨response, hanswer⟩ := exists_answer h
  rw [hanswer]
  exact ⟨response, _, rfl, rfl, rfl, rfl, rfl, rfl⟩

/-- A server that answers, and no proxy. -/
def withoutProxy : Configuration := ⟨none, none, true, none, none⟩

theorem http_completion_answering :
    ∃ response s, (served (answering 200 0) withoutProxy getServer {}).answers = [response] ∧
      Shims.run (completionOps (served (answering 200 0) withoutProxy getServer {}).answers) =
        some s ∧
      s.ran = [(0, .response (to_core_response { toResponse := response }))] ∧
      s.handed = 1 ∧ s.active = [] ∧ s.freed = [0] :=
  http_completion_once (answering 200 0) withoutProxy getServer 4 _ (by
    have hconnect : connect (answering 200 0) withoutProxy getServer = .ok () := by decide
    have hproxy : connect_proxy (answering 200 0) withoutProxy getServer 4 (⟨[], false⟩, {}) =
        .returned (⟨[], false⟩, {}) := rfl
    rw [send_request_connected hconnect, hproxy,
      set_up_ssl_returned ⟨fun path h => (by cases h), rfl⟩]
    have hrun : Service.run (Handler.call (answering 200 0) withoutProxy getServer) 4
        (⟨[.start], false⟩, {}) =
          .returned (⟨[], false⟩, served (answering 200 0) withoutProxy getServer {}) :=
      run_start 0 {}
    exact congrArg (fun x => x >>= fun y => pure y.2) hrun)

end RealmCpp.Networking
