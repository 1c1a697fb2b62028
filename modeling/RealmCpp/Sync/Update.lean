/-
  RealmCpp.Sync.Update
  ────────────────────
  **AN UPDATE OF A SUBSCRIPTION SET IS ALL OR NOTHING, AND WHERE IT IS NOT.**

  The methods are compared with what they are for, call by call, and from there
  a whole callback, an update, and any run of updates.  Two things go wrong:
  `update_subscription` is a `remove` and an `add`, so that a subscription it
  updates becomes a new one; and in place, a failed commit leaves no set.

    • `handle_contents` — the other methods do what they are for,
    • `keepsIdentity_iff` — where `update_subscription` does,
    • `update_correct_iff`, `updates_correct_iff` — an update, and a run of them.
-/
import RealmCpp.Sync.Subscriptions

namespace RealmCpp.Sync

open RealmCpp.Library

/-! ## §1. The core's operations on the contents. -/

namespace SubscriptionSet

variable (s : SubscriptionSet) (name : String) (q : Query) (now : Nat)

theorem find_append (h : s.find name = none) (n : String) :
    (s.append name q now h).find n =
      if n = name then some (.create s.next_id name q now) else s.find n := by
  unfold find append
  rw [List.find?_append]
  by_cases hn : n = name
  · subst hn
    unfold find at h
    simp [h, Subscription.Named, Subscription.create]
  · have hne : ¬name = n := fun e => hn e.symm
    simp [hn, hne, Subscription.Named, Subscription.create]

theorem find_assign (n : String) :
    (s.assign name q now).find n =
      if n = name then (s.find n).map (·.assign q now) else s.find n := by
  -- an assigned subscription answers to the same names
  have hnamed : ∀ x : Subscription,
      (Subscription.Named n (if x.Named name then x.assign q now else x)) = x.Named n := by
    intro x
    split <;> rfl
  unfold find assign
  rw [List.find?_map]
  have hcomp : Subscription.Named n ∘ (fun x => if x.Named name then x.assign q now else x)
      = Subscription.Named n := funext hnamed
  rw [hcomp]
  cases hfind : s.subs.find? (Subscription.Named n) with
  | none => simp
  | some x =>
    have hx : x.name = some n := Subscription.named_iff.mp (List.find?_some hfind)
    by_cases hn : n = name
    · simp [hn, Subscription.Named, hx]
    · simp [hn, Subscription.Named, hx]

theorem find_without_named (n : String) :
    (s.without (Subscription.Named name)).find n = if n = name then none else s.find n := by
  unfold find without
  rw [List.find?_filter]
  by_cases hn : n = name
  · -- what is kept does not have the name
    rw [if_pos hn, List.find?_eq_none, hn]
    intro x _
    simp [Subscription.Named]
  · rw [if_neg hn]
    congr 1
    funext x
    by_cases hx : x.name = some n
    · simp [Subscription.Named, hx, hn]
    · simp [Subscription.Named, hx]

/-- Subscriptions without a name are out of reach of a name. -/
theorem unnamed_assign :
    (s.assign name q now).contents.unnamed = s.contents.unnamed := by
  unfold contents assign
  simp only [List.filter_map]
  have hunnamed : (fun x : Subscription => x.name.isNone) ∘
      (fun x : Subscription => if x.Named name then x.assign q now else x)
        = fun x => x.name.isNone := by
    funext x
    simp only [Function.comp]
    split <;> rfl
  rw [hunnamed]
  -- none of those that are kept has the name
  refine (List.map_congr_left fun x hx => ?_).trans (List.map_id _)
  have hnone : x.name = none := by simpa using (List.mem_filter.mp hx).2
  simp [Subscription.Named, hnone]

theorem unnamed_without_named :
    (s.without (Subscription.Named name)).contents.unnamed = s.contents.unnamed := by
  unfold contents without
  simp only [List.filter_filter]
  refine List.filter_congr fun x _ => ?_
  cases hx : x.name <;> simp [Subscription.Named, hx]

/-- **`insert_or_assign`, on the contents.** -/
theorem contents_insert_or_assign :
    (s.insert_or_assign name q now).contents = s.contents.put name now q := by
  unfold insert_or_assign Contents.put
  split
  · next x hx =>
    have hnamed : s.contents.named name = some x := hx
    rw [hnamed]
    refine Contents.ext (funext fun n => ?_) (s.unnamed_assign name q now) rfl
    show (s.assign name q now).find n = Function.update s.find name (some (x.assign q now)) n
    rw [find_assign, Function.update_apply]
    by_cases hn : n = name
    · rw [if_pos hn, if_pos hn, hn, hx, Option.map_some]
    · rw [if_neg hn, if_neg hn]
  · next h =>
    -- a name that is new
    have hnamed : s.contents.named name = none := h
    rw [hnamed]
    refine Contents.ext (funext fun n => ?_) ?_ rfl
    · show (s.append name q now h).find n
        = Function.update s.find name (some (.create s.next_id name q now)) n
      rw [find_append, Function.update_apply]
    · simp [contents, append, Subscription.create]

theorem contents_without_named :
    (s.without (Subscription.Named name)).contents
      = { s.contents with named := Function.update s.contents.named name none } := by
  refine Contents.ext (funext fun n => ?_) (s.unnamed_without_named name) rfl
  show (s.without _).find n = Function.update s.find name none n
  rw [find_without_named, Function.update_apply]

theorem contents_clear : s.clear.contents = s.contents.clear := by
  refine Contents.ext (funext fun n => ?_) ?_ rfl <;>
    simp [contents, clear, without, find, Contents.clear]

end SubscriptionSet

/-! ## §2. The methods. -/

/-- No subscription is there to be updated. -/
def Absent (s : SubscriptionSet) : Call → Prop
  | .update_subscription name _ _ => s.find name = none
  | _ => True

namespace MutableSet

variable (s : SubscriptionSet)

theorem add_contents (name : String) (f : QueryFn) (now : Nat) :
    (add s name f now).1 = (s.contents.add name f now).1 ∧
      (add s name f now).2.contents = (s.contents.add name f now).2 := by
  unfold add Contents.add
  cases f.full_query with
  | none => exact ⟨rfl, rfl⟩
  | some q => exact ⟨rfl, s.contents_insert_or_assign name q now⟩

theorem remove_of_none {name : String} (h : s.find name = none) : remove s name = (.raised, s) := by
  unfold remove SubscriptionSet.erase
  rw [h]

theorem remove_of_some {name : String} {x : Subscription} (h : s.find name = some x) :
    remove s name = (.returned, s.without (Subscription.Named name)) := by
  unfold remove SubscriptionSet.erase
  rw [h]

theorem remove_contents (name : String) :
    (remove s name).1 = (s.contents.remove name).1 ∧
      (remove s name).2.contents = (s.contents.remove name).2 := by
  have hnamed : s.contents.named name = s.find name := rfl
  unfold Contents.remove
  cases h : s.find name with
  | none =>
    rw [remove_of_none s h, hnamed, h]
    exact ⟨rfl, rfl⟩
  | some x =>
    rw [remove_of_some s h, hnamed, h]
    exact ⟨rfl, s.contents_without_named name⟩

/-- **For a name that is not present, `update_subscription` raises** and leaves
the set as it was. -/
theorem update_subscription_of_none {name : String} (h : s.find name = none) (f : QueryFn)
    (now : Nat) : update_subscription s name f now = (.raised, s) := by
  unfold update_subscription
  rw [remove_of_none s h]

/-- For a name that is present, it is an `add` to the set without it. -/
theorem update_subscription_of_some {name : String} {x : Subscription} (h : s.find name = some x)
    (f : QueryFn) (now : Nat) :
    update_subscription s name f now = add (s.without (Subscription.Named name)) name f now := by
  unfold update_subscription
  rw [remove_of_some s h]

/-- **What each call does is what it is for**, unless it updates a subscription
that is there. -/
theorem handle_contents (c : Call) (h : Absent s c) :
    (handle s c).1 = (s.contents.handle c).1 ∧
      (handle s c).2.contents = (s.contents.handle c).2 := by
  cases c with
  | find name => exact ⟨rfl, rfl⟩
  | add name f now => exact add_contents s name f now
  | remove name => exact remove_contents s name
  | clear => exact ⟨rfl, s.contents_clear⟩
  | update_subscription name f now =>
    have habsent : s.contents.named name = none := h
    show (update_subscription s name f now).1 = (s.contents.update_subscription name f now).1 ∧
      (update_subscription s name f now).2.contents
        = (s.contents.update_subscription name f now).2
    unfold Contents.update_subscription
    rw [update_subscription_of_none s h, habsent]
    exact ⟨rfl, rfl⟩

end MutableSet

/-! ## §3. Identity. -/

/-- `s'` is `s` with subscription `x` of the name updated: only its query and the
time of the update have changed, and nothing else. -/
structure Updated (s : SubscriptionSet) (name : String) (f : QueryFn) (now : Nat)
    (x : Subscription) (s' : SubscriptionSet) : Prop where
  same : ∃ q t, s'.find name = some (x.assign q t)
  query : ∀ q, f.full_query = some q → s'.find name = some (x.assign q now)
  others : ∀ n, n ≠ name → s'.find n = s.find n

/-- What `update_subscription` promises, for a name that is present and for one
that is not. -/
def KeepsIdentity (s : SubscriptionSet) : Call → Prop
  | .update_subscription name f now =>
    (∀ x, s.find name = some x →
        Updated s name f now x (MutableSet.update_subscription s name f now).2) ∧
      (s.find name = none → MutableSet.update_subscription s name f now = (.raised, s))
  | _ => True

/-- After `update_subscription` for a name that is present, no subscription is
the one that was there: the core has been asked for a new one. -/
theorem update_subscription_loses {s : SubscriptionSet} {name : String} {x : Subscription}
    (h : s.find name = some x) (f : QueryFn) (now : Nat) {y : Subscription}
    (hy : (MutableSet.update_subscription s name f now).2.find name = some y) :
    y.identifier ≠ x.identifier := by
  have hx : x.identifier < s.next_id := s.fresh x (SubscriptionSet.find_mem h).1
  have hgone : (s.without (Subscription.Named name)).find name = none := by
    rw [SubscriptionSet.find_without_named, if_pos rfl]
  rw [MutableSet.update_subscription_of_some s h] at hy
  unfold MutableSet.add at hy
  cases hq : f.full_query with
  | none =>
    -- the query was not built, and the subscription is gone
    rw [hq] at hy
    change (s.without (Subscription.Named name)).find name = some y at hy
    rw [hgone] at hy
    cases hy
  | some q =>
    -- without the old one, the core makes another with the next identifier
    have hput := congrArg (fun A => A.named name)
      ((s.without (Subscription.Named name)).contents_insert_or_assign name q now)
    unfold Contents.put at hput
    rw [show (s.without (Subscription.Named name)).contents.named name = none from hgone] at hput
    rw [hq] at hy
    have hnew : some y = some (.create s.next_id name q now) := by
      rw [← hy]
      exact hput.trans (Function.update_self _ _ _)
    cases hnew
    show s.next_id ≠ x.identifier
    omega

/-- **`update_subscription` does what it promises exactly where the name is not
present.** -/
theorem keepsIdentity_iff (s : SubscriptionSet) (c : Call) : KeepsIdentity s c ↔ Absent s c := by
  cases c with
  | update_subscription name f now =>
    constructor
    · intro ⟨hpresent, _⟩
      show s.find name = none
      by_contra hne
      obtain ⟨x, h⟩ := Option.ne_none_iff_exists'.mp hne
      -- the identifier of what is found would be the old one
      have ⟨q, t, hsame⟩ := (hpresent x h).same
      exact update_subscription_loses h f now hsame rfl
    · intro h
      refine ⟨fun x hx => ?_, fun h => MutableSet.update_subscription_of_none s h f now⟩
      rw [show s.find name = none from h] at hx
      cases hx
  | find name => exact Iff.rfl
  | add name f now => exact Iff.rfl
  | remove name => exact Iff.rfl
  | clear => exact Iff.rfl

/-! ## §4. Updates. -/

/-- **An update that is all or nothing and keeps identity.** -/
structure UpdateCorrect (m : Storage) (s : SubscriptionSet) (a : Attempt) : Prop where
  unchanged : (a.fn.run MutableSet.handle s).1 = .raised ∨ a.commits = false →
    update m s a = (.raised, some s)
  applied : (a.fn.run MutableSet.handle s).1 = .returned → a.commits = true →
    ∃ s', update m s a = (.returned, some s') ∧
      a.fn.run Contents.handle s.contents = (.returned, s'.contents)
  identity : a.fn.Along MutableSet.handle KeepsIdentity s

/-- Where it is: no subscription that is there gets updated, and a commit that
fails is not one of a set stored in place. -/
structure UpdateSafe (m : Storage) (s : SubscriptionSet) (a : Attempt) : Prop where
  stored : m = .byValue → a.commits = false → (a.fn.run MutableSet.handle s).1 = .raised
  absent : a.fn.Along MutableSet.handle Absent s

theorem update_of_raised {m : Storage} {s : SubscriptionSet} {a : Attempt}
    (h : (a.fn.run MutableSet.handle s).1 = .raised) : update m s a = (.raised, some s) := by
  unfold update
  split
  · rfl
  · next s' hrun =>
    rw [hrun] at h
    cases h

theorem update_of_committed {m : Storage} {s : SubscriptionSet} {a : Attempt}
    (h : (a.fn.run MutableSet.handle s).1 = .returned) (hcommits : a.commits = true) :
    update m s a = (.returned, some (a.fn.run MutableSet.handle s).2) := by
  unfold update commit
  split
  · next s' hrun =>
    rw [hrun] at h
    cases h
  · next s' hrun =>
    rw [hcommits, hrun]
    cases m <;> rfl

theorem update_of_failed {m : Storage} {s : SubscriptionSet} {a : Attempt}
    (h : (a.fn.run MutableSet.handle s).1 = .returned) (hcommits : a.commits = false) :
    update m s a = (.raised, if m = .byValue then none else some s) := by
  unfold update commit
  split
  · next s' hrun =>
    rw [hrun] at h
    cases h
  · next s' hrun =>
    rw [hcommits]
    cases m <;> rfl

/-- The set is as it was after a failed update exactly where it was not
destroyed for it. -/
theorem unchanged_iff (m : Storage) (s : SubscriptionSet) (a : Attempt) :
    ((a.fn.run MutableSet.handle s).1 = .raised ∨ a.commits = false →
        update m s a = (.raised, some s))
      ↔ (m = .byValue → a.commits = false → (a.fn.run MutableSet.handle s).1 = .raised) := by
  cases hend : (a.fn.run MutableSet.handle s).1 with
  | raised => simp [update_of_raised hend]
  | returned =>
    cases hcommits : a.commits with
    | true => simp
    | false =>
      rw [update_of_failed hend hcommits]
      cases m <;> simp

/-- **Exactly when an update is all or nothing and keeps identity.** -/
theorem update_correct_iff (m : Storage) (s : SubscriptionSet) (a : Attempt) :
    UpdateCorrect m s a ↔ UpdateSafe m s a := by
  constructor
  · intro h
    exact ⟨(unchanged_iff m s a).mp h.unchanged,
      (Client.along_congr keepsIdentity_iff a.fn s).mp h.identity⟩
  · intro h
    refine ⟨(unchanged_iff m s a).mpr h.stored, fun hend hcommits => ?_,
      (Client.along_congr keepsIdentity_iff a.fn s).mpr h.absent⟩
    refine ⟨_, update_of_committed hend hcommits, ?_⟩
    -- call by call, the mutable set has the contents that the calls are for
    have hsim := Client.run_simulates (h := MutableSet.handle) (g := Contents.handle)
      (R := fun s A => s.contents = A) (P := Absent)
      (fun s A c hR hP => by
        rw [← hR]
        exact MutableSet.handle_contents s c hP)
      a.fn rfl h.absent
    exact Prod.ext (hsim.1.symm.trans hend) hsim.2.symm

/-- Every update of a run has the property, of the set that is stored then. -/
def Throughout (m : Storage) (P : SubscriptionSet → Attempt → Prop) :
    SubscriptionSet → List Attempt → Prop
  | _, [] => True
  | s, a :: as => P s a ∧ ∀ s', (update m s a).2 = some s' → Throughout m P s' as

/-- **Exactly when every update of a run is all or nothing and keeps identity**,
from any stored set. -/
theorem updates_correct_iff (m : Storage) (s : SubscriptionSet) (as : List Attempt) :
    Throughout m (UpdateCorrect m) s as ↔ Throughout m (UpdateSafe m) s as := by
  induction as generalizing s with
  | nil => exact Iff.rfl
  | cons a as ih =>
    unfold Throughout
    rw [update_correct_iff]
    exact and_congr_right fun _ => forall_congr' fun s' => imp_congr_right fun _ => ih s'

/-- A set with one subscription, of the name `all`. -/
def oneSubscription : SubscriptionSet where
  subs := [⟨0, some "all", 1, 1, "TRUEPREDICATE", "Person"⟩]
  next_id := 1
  names := List.nodup_singleton _
  fresh := fun x hx => by
    rw [List.mem_singleton.mp hx]
    exact Nat.zero_lt_one

/-- **An updated subscription is another one, and a failed commit leaves no set.** -/
theorem updated_subscription_is_new :
    let updating : Attempt :=
      ⟨.call (.update_subscription "all" ⟨"Person", none⟩ 5) fun ending => .ret ending, true⟩
    let failing : Attempt := ⟨.ret .returned, false⟩
    (oneSubscription.find "all").map (fun x => (x.identifier, x.created_at)) = some (0, 1) ∧
      (((update .shared oneSubscription updating).2.bind fun s => s.find "all").map
        fun x => (x.identifier, x.created_at)) = some (1, 5) ∧
      update .byValue oneSubscription failing = (.raised, none) ∧
      ¬ UpdateCorrect .shared oneSubscription updating ∧
      ¬ UpdateCorrect .byValue oneSubscription failing := by
  refine ⟨by decide, by decide, rfl, fun h => ?_, fun h => ?_⟩
  · exact update_subscription_loses (x := ⟨0, some "all", 1, 1, "TRUEPREDICATE", "Person"⟩) rfl
      ⟨"Person", none⟩ 5 (h.identity.1.1 _ rfl).same.choose_spec.choose_spec rfl
  · have hfailed := h.unchanged (.inr rfl)
    cases hfailed

end RealmCpp.Sync
