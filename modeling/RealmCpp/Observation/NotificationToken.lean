/-
  RealmCpp.Observation.NotificationToken
  ──────────────────────────────────────
  **TOKENS: WHO HOLDS A REGISTRATION.**

  `observe` returns a token that holds the registration of the callback.  A token can be
  moved, not copied; `unregister`, an assignment and the destructor end what it holds.
  The core's token is in the bridge's one, or behind a `shared_ptr` that is null after a
  move.

    • `BridgeToken`, `Tokens.handle` — the members, in either build,
    • `Tokens.WellFormed` — every registration that is active is held by one token,
    • `handle_wellFormed` — which every call keeps,
    • `token_program_iff` — the programs in which both builds do the same.
-/
import RealmCpp.Library.Client
import RealmCpp.Library.Handles
import RealmCpp.Library.Ownership

namespace RealmCpp.Observation

open RealmCpp.Library

/-! ## §1. Tokens. -/

/-- The core's token, `NotificationToken`, of which this is assumed: it holds one
registration, or none once it was moved from, and ends the one that it holds when it is
unregistered, destroyed or assigned to. -/
abbrev CoreToken := Option Nat

/-- `bridge::notification_token`. -/
def BridgeToken : Storage → Type
  | .byValue => CoreToken
  | .shared => Option CoreToken

namespace BridgeToken

/-- A token made from one of the core. -/
def made : {m : Storage} → CoreToken → BridgeToken m
  | .byValue, t => t
  | .shared, t => some t

/-- What is left of a token that was moved from. -/
def left : {m : Storage} → BridgeToken m
  | .byValue => (none : CoreToken)
  | .shared => (none : Option CoreToken)

/-- The core's token, if there is one. -/
def core : {m : Storage} → BridgeToken m → Option CoreToken
  | .byValue, t => some t
  | .shared, t => t

variable {m : Storage}

def held (t : BridgeToken m) : Option Nat := t.core.join

@[simp] theorem held_made (t : CoreToken) : (made t : BridgeToken m).held = t := by
  cases m <;> rfl

@[simp] theorem held_left : (left : BridgeToken m).held = none := by
  cases m <;> rfl

end BridgeToken

/-- The tokens of a program, of which some are destroyed, and the registrations that are
active. -/
structure Tokens (m : Storage) where
  object : Nat → Option (BridgeToken m)
  count : Nat
  active : Nat → Bool
  registered : Nat

/-- Why a call fails: there is no such token, or no token behind its pointer. -/
inductive TokenFault where
  | no_object
  | null_pointer
  deriving DecidableEq

/-- What a program does with tokens, and what it sees: whether a callback is called. -/
inductive TokenCall where
  | observe
  | construct
  | move (j : Nat)
  | move_assign (i j : Nat)
  | unregister (i : Nat)
  | destroy (i : Nat)
  | is_active (r : Nat)

abbrev TokenAnswer := Except TokenFault (Option Bool)

namespace Tokens

variable {m : Storage} (s : Tokens m)

def start : Tokens m := ⟨fun _ => none, 0, fun _ => false, 0⟩

/-- The core's token ends what it holds. -/
def released (t : BridgeToken m) : Nat → Bool :=
  match t.held with
  | some r => Function.update s.active r false
  | none => s.active

/-- A callback is registered, and the token made from that of the core. -/
def observe : TokenAnswer × Tokens m :=
  (.ok none,
    { object := Function.update s.object s.count (some (.made (some s.registered)))
      count := s.count + 1
      active := Function.update s.active s.registered true
      registered := s.registered + 1 })

def construct : TokenAnswer × Tokens m :=
  (.ok none,
    { s with
      object := Function.update s.object s.count (some (.made none))
      count := s.count + 1 })

/-- Token `i` is what token `j` was. -/
def moveTo (j i : Nat) (t : BridgeToken m) : Tokens m :=
  { s with object := Function.update (Function.update s.object j (some .left)) i (some t) }

/-- The move constructor. -/
def move (j : Nat) : TokenAnswer × Tokens m :=
  match s.object j with
  | some t => (.ok none, { s.moveTo j s.count t with count := s.count + 1 })
  | none => (.error .no_object, s)

/-- The assignment: what the token held is ended, unless it is the same one. -/
def move_assign (i j : Nat) : TokenAnswer × Tokens m :=
  match s.object i with
  | some old =>
      match s.object j with
      | some t =>
          (.ok none, if i = j then s else { s.moveTo j i t with active := s.released old })
      | none => (.error .no_object, s)
  | none => (.error .no_object, s)

/-- Token `i` ended what it held, and is `u`. -/
def endAt (i : Nat) (t : BridgeToken m) (u : Option (BridgeToken m)) : Tokens m :=
  { s with object := Function.update s.object i u, active := s.released t }

/-- `m_token->unregister()`. -/
def unregister (i : Nat) : TokenAnswer × Tokens m :=
  match s.object i with
  | some t =>
      -- in one of the builds there may be no token behind the pointer
      match t.core with
      | some _ => (.ok none, s.endAt i t (some (.made none)))
      | none => (.error .null_pointer, s)
  | none => (.error .no_object, s)

def destroy (i : Nat) : TokenAnswer × Tokens m :=
  match s.object i with
  | some t => (.ok none, s.endAt i t none)
  | none => (.error .no_object, s)

def handle : (c : TokenCall) → TokenAnswer × Tokens m
  | .observe => s.observe
  | .construct => s.construct
  | .move j => s.move j
  | .move_assign i j => s.move_assign i j
  | .unregister i => s.unregister i
  | .destroy i => s.destroy i
  | .is_active r => (.ok (some (s.active r)), s)

/-! ## §2. One token for each registration. -/

/-- The registration that a token holds. -/
def holds (i : Nat) : Option Nat := (s.object i).bind BridgeToken.held

/-- **Every registration that is active is held by one token**, and what a token holds is
active. -/
structure WellFormed (s : Tokens m) : Prop where
  owned : Owned (fun r => s.active r = true) s.holds
  unborn : ∀ i, s.count ≤ i → s.object i = none
  unregistered : ∀ r, s.registered ≤ r → s.active r = false

variable {s}

theorem wellFormed_start : (start : Tokens m).WellFormed where
  owned := Owned.empty fun r h => by cases h
  unborn _ _ := rfl
  unregistered _ _ := rfl

theorem holds_of_object {i : Nat} {t : BridgeToken m} (h : s.object i = some t) :
    s.holds i = t.held := by
  unfold holds
  rw [h]
  rfl

theorem WellFormed.holds_count (hs : s.WellFormed) : s.holds s.count = none := by
  unfold holds
  rw [hs.unborn s.count (Nat.le_refl _)]
  rfl

theorem WellFormed.lt_count (hs : s.WellFormed) {i : Nat} {t : BridgeToken m}
    (h : s.object i = some t) : i < s.count := by
  by_contra hi
  rw [hs.unborn i (by omega)] at h
  cases h

theorem active_released (t : BridgeToken m) (r : Nat) :
    s.released t r = true ↔ t.held ≠ some r ∧ s.active r = true := by
  unfold released
  cases ht : t.held with
  | none => simp
  | some p =>
    show Function.update s.active p false r = true ↔ _
    rw [Function.update_apply]
    by_cases hr : r = p
    · simp [hr]
    · simp [hr, Ne.symm hr]

/-- Where a token ended what it held, nobody holds it. -/
theorem WellFormed.owned_released (hs : s.WellFormed) {i : Nat} {t : BridgeToken m}
    (h : s.object i = some t) :
    Owned (fun r => s.released t r = true) (Function.update s.holds i none) := by
  cases ht : t.held with
  | none =>
    have hnone : s.holds i = none := (holds_of_object h).trans ht
    rw [Function.update_eq_self_iff.mpr hnone.symm]
    exact hs.owned.congr fun r => by rw [active_released, ht]; simp
  | some p =>
    refine hs.owned.release ((holds_of_object h).trans ht) fun r => ?_
    have hne : some p ≠ some r ↔ r ≠ p :=
      ⟨fun h hr => h (hr ▸ rfl), fun h hp => h (Option.some.inj hp).symm⟩
    rw [active_released, ht, hne]

/-- What the tokens hold, from what is written to them. -/
theorem holds_update {s' : Tokens m} {object : Nat → Option (BridgeToken m)} {i : Nat}
    {t : Option (BridgeToken m)} (h : s'.object = Function.update object i t) (k : Nat) :
    s'.holds k = if k = i then t.bind BridgeToken.held else (object k).bind BridgeToken.held := by
  unfold holds
  rw [h, Function.update_apply]
  split <;> rfl

theorem observe_wellFormed (hs : s.WellFormed) : s.observe.2.WellFormed where
  owned := by
    have hnew : ¬ s.active s.registered = true := by
      rw [hs.unregistered s.registered (Nat.le_refl _)]
      exact Bool.false_ne_true
    have hholds : s.observe.2.holds = Function.update s.holds s.count (some s.registered) := by
      funext k
      rw [holds_update rfl, Function.update_apply]
      simp [holds]
    rw [hholds]
    -- the new registration goes to the new token
    refine hs.owned.acquire hs.holds_count hnew fun r => ?_
    show Function.update s.active s.registered true r = true ↔ _
    rw [Function.update_apply]
    by_cases hr : r = s.registered <;> simp [hr]
  unborn i hi := by
    have hi' : s.count + 1 ≤ i := hi
    refine (Function.update_of_ne (by omega) ..).trans (hs.unborn i (by omega))
  unregistered r hr := by
    have hr' : s.registered + 1 ≤ r := hr
    exact (Function.update_of_ne (by omega) ..).trans (hs.unregistered r (by omega))

theorem construct_wellFormed (hs : s.WellFormed) : s.construct.2.WellFormed where
  owned := by
    -- the new token holds nothing, as there was none before
    have hholds : s.construct.2.holds = s.holds := by
      funext k
      rw [holds_update rfl]
      split
      · next hk => rw [hk, hs.holds_count]; simp
      · rfl
    rw [hholds]
    exact hs.owned
  unborn i hi := by
    have hi' : s.count + 1 ≤ i := hi
    refine (Function.update_of_ne (by omega) ..).trans (hs.unborn i (by omega))
  unregistered := hs.unregistered

theorem move_some {j : Nat} {t : BridgeToken m} (hj : s.object j = some t) :
    s.move j = (.ok none, { s.moveTo j s.count t with count := s.count + 1 }) := by
  unfold move
  rw [hj]

theorem move_none {j : Nat} (hj : s.object j = none) : s.move j = (.error .no_object, s) := by
  unfold move
  rw [hj]

theorem move_assign_some {i j : Nat} {old t : BridgeToken m} (hi : s.object i = some old)
    (hj : s.object j = some t) :
    s.move_assign i j =
      (.ok none, if i = j then s else { s.moveTo j i t with active := s.released old }) := by
  unfold move_assign
  rw [hi, hj]

theorem move_assign_none {i j : Nat} (h : s.object i = none ∨ s.object j = none) :
    s.move_assign i j = (.error .no_object, s) := by
  unfold move_assign
  cases hi : s.object i with
  | none => rfl
  | some old => rw [h.resolve_left (by simp [hi])]

theorem unregister_some {i : Nat} {t : BridgeToken m} {c : CoreToken} (hi : s.object i = some t)
    (hc : t.core = some c) : s.unregister i = (.ok none, s.endAt i t (some (.made none))) := by
  unfold unregister
  rw [hi]
  dsimp only
  rw [hc]

theorem unregister_null {i : Nat} {t : BridgeToken m} (hi : s.object i = some t)
    (hc : t.core = none) : s.unregister i = (.error .null_pointer, s) := by
  unfold unregister
  rw [hi]
  dsimp only
  rw [hc]

theorem unregister_none {i : Nat} (hi : s.object i = none) :
    s.unregister i = (.error .no_object, s) := by
  unfold unregister
  rw [hi]

theorem destroy_some {i : Nat} {t : BridgeToken m} (hi : s.object i = some t) :
    s.destroy i = (.ok none, s.endAt i t none) := by
  unfold destroy
  rw [hi]

theorem destroy_none {i : Nat} (hi : s.object i = none) :
    s.destroy i = (.error .no_object, s) := by
  unfold destroy
  rw [hi]

/-- What the tokens hold after a move. -/
theorem holds_moveTo {j i : Nat} {t : BridgeToken m} (hj : s.object j = some t) (k : Nat) :
    (s.moveTo j i t).holds k = if k = i then s.holds j else if k = j then none else s.holds k := by
  rw [holds_update rfl, Function.update_apply, holds_of_object hj]
  split
  · rfl
  · split
    · exact BridgeToken.held_left
    · rfl

theorem move_wellFormed (hs : s.WellFormed) (j : Nat) : (s.move j).2.WellFormed := by
  cases hj : s.object j with
  | none =>
    rw [move_none hj]
    exact hs
  | some t =>
    rw [move_some hj]
    have hjcount := hs.lt_count hj
    refine ⟨?_, ?_, hs.unregistered⟩
    · -- what the token held goes to the new one
      have htransfer := hs.owned.transfer (j := j) hs.holds_count
      refine (congrArg (Owned _) (funext fun k => ?_)).mp htransfer
      rw [Function.update_apply, Function.update_apply]
      exact (holds_moveTo hj k).symm
    · intro i hi
      have hi' : s.count + 1 ≤ i := hi
      show Function.update (Function.update s.object j _) s.count _ i = none
      rw [Function.update_of_ne (by omega), Function.update_of_ne (by omega)]
      exact hs.unborn i (by omega)

theorem WellFormed.unregistered_released (hs : s.WellFormed) (t : BridgeToken m) {r : Nat}
    (hr : s.registered ≤ r) : s.released t r = false := by
  refine Bool.eq_false_iff.mpr fun hactive => ?_
  have hold := ((active_released t r).mp hactive).2
  rw [hs.unregistered r hr] at hold
  cases hold

theorem move_assign_wellFormed (hs : s.WellFormed) (i j : Nat) :
    (s.move_assign i j).2.WellFormed := by
  by_cases hnone : s.object i = none ∨ s.object j = none
  · rw [move_assign_none hnone]
    exact hs
  obtain ⟨old, hi⟩ := Option.ne_none_iff_exists'.mp fun h => hnone (.inl h)
  obtain ⟨t, hj⟩ := Option.ne_none_iff_exists'.mp fun h => hnone (.inr h)
  rw [move_assign_some hi hj]
  by_cases hij : i = j
  · rw [if_pos hij]
    exact hs
  · rw [if_neg hij]
    have hicount := hs.lt_count hi
    have hjcount := hs.lt_count hj
    refine ⟨?_, ?_, fun r hr => hs.unregistered_released old hr⟩
    · -- first the registration is ended, then the other one is taken over
      have htransfer := (hs.owned_released hi).transfer (j := j) (Function.update_self ..)
      rw [Function.update_of_ne (Ne.symm hij)] at htransfer
      refine (congrArg (Owned _) (funext fun k => ?_)).mp htransfer
      refine Eq.trans ?_ (holds_moveTo hj k).symm
      rw [Function.update_apply, Function.update_apply]
      split
      · rfl
      · next hki => rw [Function.update_of_ne hki]
    · intro k hk
      have hk' : s.count ≤ k := hk
      show Function.update (Function.update s.object j _) i _ k = none
      rw [Function.update_of_ne (by omega), Function.update_of_ne (by omega)]
      exact hs.unborn k hk'

theorem endAt_wellFormed (hs : s.WellFormed) {i : Nat} {t : BridgeToken m}
    (h : s.object i = some t) {u : Option (BridgeToken m)} (hu : u.bind BridgeToken.held = none) :
    (s.endAt i t u).WellFormed where
  owned := by
    refine (congrArg (Owned _) (funext fun k => ?_)).mp (hs.owned_released h)
    rw [holds_update rfl, Function.update_apply, hu]
    rfl
  unborn k hk := by
    have hicount := hs.lt_count h
    have hk' : s.count ≤ k := hk
    exact (Function.update_of_ne (by omega) ..).trans (hs.unborn k hk')
  unregistered r hr := hs.unregistered_released t hr

/-- **No call leaves a registration without a token, or a token with one that ended.** -/
theorem handle_wellFormed (s : Tokens m) (c : TokenCall) (hs : s.WellFormed) :
    (s.handle c).2.WellFormed := by
  cases c with
  | observe => exact observe_wellFormed hs
  | construct => exact construct_wellFormed hs
  | move j => exact move_wellFormed hs j
  | move_assign i j => exact move_assign_wellFormed hs i j
  | unregister i =>
    show (s.unregister i).2.WellFormed
    cases hi : s.object i with
    | none =>
      rw [unregister_none hi]
      exact hs
    | some t =>
      cases ht : t.core with
      | none =>
        rw [unregister_null hi ht]
        exact hs
      | some c =>
        rw [unregister_some hi ht]
        exact endAt_wellFormed hs hi (BridgeToken.held_made none)
  | destroy i =>
    show (s.destroy i).2.WellFormed
    cases hi : s.object i with
    | none =>
      rw [destroy_none hi]
      exact hs
    | some t =>
      rw [destroy_some hi]
      exact endAt_wellFormed hs hi rfl
  | is_active r => exact hs

/-! ## §3. Both builds. -/

/-- **The builds are alike**: the tokens hold the same. -/
structure Alike (s : Tokens .byValue) (t : Tokens .shared) : Prop where
  object : ∀ i, (s.object i).map BridgeToken.held = (t.object i).map BridgeToken.held
  count : s.count = t.count
  active : s.active = t.active
  registered : s.registered = t.registered

/-- What a call needs: that what is unregistered was not moved from, unless something was
assigned to it since. -/
def TokenMeets (st : Tokens .byValue × Tokens .shared) : TokenCall → Prop
  | .unregister i => st.2.object i ≠ some .left
  | _ => True

variable {s : Tokens .byValue} {t : Tokens .shared}

namespace Alike

theorem start : Alike start start := ⟨fun _ => rfl, rfl, rfl, rfl⟩

theorem none_iff (h : Alike s t) (i : Nat) : s.object i = none ↔ t.object i = none := by
  rw [← Option.map_eq_none_iff, h.object i, Option.map_eq_none_iff]

/-- A token of the one build, and that of the other. -/
theorem token (h : Alike s t) {i : Nat} {a : BridgeToken .byValue} (ha : s.object i = some a) :
    ∃ b, t.object i = some b ∧ a.held = b.held := by
  have hmap := h.object i
  rw [ha] at hmap
  obtain ⟨b, hb, hab⟩ := Option.map_eq_some_iff.mp hmap.symm
  exact ⟨b, hb, hab.symm⟩

theorem released (h : Alike s t) {a : BridgeToken .byValue} {b : BridgeToken .shared}
    (hab : a.held = b.held) : s.released a = t.released b := by
  unfold Tokens.released
  rw [hab, h.active]

/-- What is written to a token of both builds. -/
theorem update {f : Nat → Option (BridgeToken .byValue)} {g : Nat → Option (BridgeToken .shared)}
    (h : ∀ k, (f k).map BridgeToken.held = (g k).map BridgeToken.held) (i : Nat)
    {a : Option (BridgeToken .byValue)} {b : Option (BridgeToken .shared)}
    (hab : a.map BridgeToken.held = b.map BridgeToken.held) (k : Nat) :
    (Function.update f i a k).map BridgeToken.held =
      (Function.update g i b k).map BridgeToken.held := by
  rw [Function.update_apply, Function.update_apply]
  split
  · exact hab
  · exact h k

theorem moveTo (h : Alike s t) (j i : Nat) {a : BridgeToken .byValue} {b : BridgeToken .shared}
    (hab : a.held = b.held) : Alike (s.moveTo j i a) (t.moveTo j i b) where
  object := update (update h.object j rfl) i (congrArg some hab)
  count := h.count
  active := h.active
  registered := h.registered

theorem endAt (h : Alike s t) (i : Nat) {a : BridgeToken .byValue} {b : BridgeToken .shared}
    (hab : a.held = b.held) {u : Option (BridgeToken .byValue)}
    {v : Option (BridgeToken .shared)}
    (huv : u.map BridgeToken.held = v.map BridgeToken.held) :
    Alike (s.endAt i a u) (t.endAt i b v) where
  object := update h.object i huv
  count := h.count
  active := h.released hab
  registered := h.registered

end Alike

theorem observe_agrees (h : Alike s t) :
    Client.AgreesAt handle handle Alike (s, t) .observe := by
  refine ⟨rfl, ?_, congrArg (· + 1) h.count, ?_, congrArg (· + 1) h.registered⟩
  · intro k
    show (Function.update s.object s.count _ k).map _ = (Function.update t.object t.count _ k).map _
    rw [h.count, h.registered]
    exact Alike.update h.object t.count rfl k
  · show Function.update s.active s.registered true = Function.update t.active t.registered true
    rw [h.active, h.registered]

theorem construct_agrees (h : Alike s t) :
    Client.AgreesAt handle handle Alike (s, t) .construct := by
  refine ⟨rfl, ?_, congrArg (· + 1) h.count, h.active, h.registered⟩
  intro k
  show (Function.update s.object s.count _ k).map _ = (Function.update t.object t.count _ k).map _
  rw [h.count]
  exact Alike.update h.object t.count rfl k

theorem move_agrees (h : Alike s t) (j : Nat) :
    Client.AgreesAt handle handle Alike (s, t) (.move j) := by
  show (s.move j).1 = (t.move j).1 ∧ Alike (s.move j).2 (t.move j).2
  cases hj : s.object j with
  | none =>
    rw [move_none hj, move_none ((h.none_iff j).mp hj)]
    exact ⟨rfl, h⟩
  | some a =>
    obtain ⟨b, hb, hab⟩ := h.token hj
    rw [move_some hj, move_some hb, h.count]
    have hmoved := h.moveTo j t.count hab
    exact ⟨rfl, hmoved.object, rfl, hmoved.active, hmoved.registered⟩

theorem move_assign_agrees (h : Alike s t) (i j : Nat) :
    Client.AgreesAt handle handle Alike (s, t) (.move_assign i j) := by
  show (s.move_assign i j).1 = (t.move_assign i j).1 ∧
    Alike (s.move_assign i j).2 (t.move_assign i j).2
  by_cases hnone : s.object i = none ∨ s.object j = none
  · have hnone' : t.object i = none ∨ t.object j = none :=
      hnone.imp (h.none_iff i).mp (h.none_iff j).mp
    rw [move_assign_none hnone, move_assign_none hnone']
    exact ⟨rfl, h⟩
  obtain ⟨old, hi⟩ := Option.ne_none_iff_exists'.mp fun h => hnone (.inl h)
  obtain ⟨a, hj⟩ := Option.ne_none_iff_exists'.mp fun h => hnone (.inr h)
  obtain ⟨old', hi', hold⟩ := h.token hi
  obtain ⟨b, hj', hab⟩ := h.token hj
  rw [move_assign_some hi hj, move_assign_some hi' hj']
  refine ⟨rfl, ?_⟩
  by_cases hij : i = j
  · rw [if_pos hij, if_pos hij]
    exact h
  · rw [if_neg hij, if_neg hij]
    have hmoved := h.moveTo j i hab
    exact ⟨hmoved.object, hmoved.count, h.released hold, hmoved.registered⟩

theorem destroy_agrees (h : Alike s t) (i : Nat) :
    Client.AgreesAt handle handle Alike (s, t) (.destroy i) := by
  show (s.destroy i).1 = (t.destroy i).1 ∧ Alike (s.destroy i).2 (t.destroy i).2
  cases hi : s.object i with
  | none =>
    rw [destroy_none hi, destroy_none ((h.none_iff i).mp hi)]
    exact ⟨rfl, h⟩
  | some a =>
    obtain ⟨b, hb, hab⟩ := h.token hi
    rw [destroy_some hi, destroy_some hb]
    exact ⟨rfl, h.endAt i hab rfl⟩

/-- The one call at which the builds part. -/
theorem unregister_agrees_iff (h : Alike s t) (i : Nat) :
    Client.AgreesAt handle handle Alike (s, t) (.unregister i) ↔
      TokenMeets (s, t) (.unregister i) := by
  show (s.unregister i).1 = (t.unregister i).1 ∧ Alike (s.unregister i).2 (t.unregister i).2 ↔
    t.object i ≠ some .left
  cases hi : s.object i with
  | none =>
    have hi' := (h.none_iff i).mp hi
    rw [unregister_none hi, unregister_none hi', hi']
    exact iff_of_true ⟨rfl, h⟩ (Option.some_ne_none _).symm
  | some a =>
    obtain ⟨b, hb, hab⟩ := h.token hi
    -- by value there is always a token, which may hold nothing
    have ha : a.core = some a.held := rfl
    rw [unregister_some hi ha, hb]
    cases hcore : b.core with
    | none =>
      -- the pointer is null: the token was moved from
      have hleft : b = .left := hcore
      rw [unregister_null hb hcore, hleft]
      refine iff_of_false (fun hagree => ?_) fun hne => hne rfl
      cases hagree.1
    | some c =>
      have hne : b ≠ .left := fun hleft => by rw [hleft] at hcore; cases hcore
      rw [unregister_some hb hcore]
      exact iff_of_true ⟨rfl, h.endAt i hab rfl⟩ fun hb' => hne (Option.some.inj hb')

theorem call_agrees_iff (s : Tokens .byValue) (t : Tokens .shared) (c : TokenCall) (h : Alike s t) :
    Client.AgreesAt handle handle Alike (s, t) c ↔ TokenMeets (s, t) c := by
  cases c with
  | observe => exact iff_of_true (observe_agrees h) trivial
  | construct => exact iff_of_true (construct_agrees h) trivial
  | move j => exact iff_of_true (move_agrees h j) trivial
  | move_assign i j => exact iff_of_true (move_assign_agrees h i j) trivial
  | unregister i => exact unregister_agrees_iff h i
  | destroy i => exact iff_of_true (destroy_agrees h i) trivial
  | is_active r =>
    refine iff_of_true ⟨?_, h⟩ trivial
    show Except.ok (some (s.active r)) = Except.ok (some (t.active r))
    rw [h.active]

variable {ρ : Type}

/-- **Programs with tokens.**  In both builds, whatever the program does, every
registration that is active is held by one token, and none is once its token was
destroyed.  The builds do the same, call by call, exactly in the programs that unregister
no token that was moved from. -/
theorem token_program_iff (p : Client TokenCall (fun _ => TokenAnswer) ρ) :
    ((∀ m, (p.run (handle (m := m)) start).2.WellFormed) ∧
      (p.Along (Client.beside handle handle) (Client.AgreesAt handle handle Alike)
          ((start : Tokens .byValue), (start : Tokens .shared)) ↔
        p.Along (Client.beside handle handle) TokenMeets (start, start)) ∧
      (p.Along (Client.beside handle handle) TokenMeets
          ((start : Tokens .byValue), (start : Tokens .shared)) →
        (p.run handle (start : Tokens .byValue)).1 = (p.run handle (start : Tokens .shared)).1 ∧
          Alike (p.run handle start).2 (p.run handle start).2)) := by
  refine ⟨fun m => ?_, Client.along_agreesAt_iff call_agrees_iff p Alike.start⟩
  exact (Client.along_of_invariant (P := fun _ _ => True)
    (fun s c hs => ⟨trivial, handle_wellFormed s c hs⟩) p wellFormed_start).2

end Tokens

end RealmCpp.Observation
