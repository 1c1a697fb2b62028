/-
  RealmCpp.Library.GraphRegion
  ────────────────────────────
  **REGIONS OF A GRAPH — library layer.**

  A region is a set of objects that nothing in it leads out of.  What an object of a region
  is structurally equal to depends on the region alone.

    • `Closed`, `AgreeOn` — regions, and graphs that are the same in one,
    • `Closed.of_agreeOn` — it is then a region of both,
    • `Bisimilar.frame` — and structural equality is the same in both.
-/
import RealmCpp.Library.ObjectGraph

namespace RealmCpp.Library

variable {κ φ μ ν ν' : Type} (fields : κ → List (φ × Shape))

/-- Nothing in the region leads out of it. -/
def Closed (g : Graph κ φ μ ν) (G : ν → Prop) : Prop := ∀ x y, G x → Leads fields g x y → G y

/-- The objects of the region are the same in both graphs. -/
def AgreeOn (g g' : Graph κ φ μ ν) (G : ν → Prop) : Prop :=
  ∀ x, G x → g'.cls x = g.cls x ∧ ∀ f ∈ fields (g.cls x), g'.content x f.1 = g.content x f.1

variable {fields} {g g' : Graph κ φ μ ν} {h : Graph κ φ μ ν'} {G : ν → Prop}

theorem AgreeOn.leads_iff (hagree : AgreeOn fields g g' G) {x y : ν} (hx : G x) :
    Leads fields g' x y ↔ Leads fields g x y := by
  obtain ⟨hcls, hcontent⟩ := hagree x hx
  unfold Leads
  rw [hcls]
  refine exists_congr fun f => and_congr_right fun hf => ?_
  rw [hcontent f hf]

theorem Closed.of_agreeOn (hG : Closed fields g G) (hagree : AgreeOn fields g g' G) :
    Closed fields g' G := by
  intro x y hx hlead
  exact hG x y hx ((hagree.leads_iff hx).mp hlead)

/-- Only the objects of the first content are compared, too. -/
theorem Shape.Match.of_mem_left {R : ν → ν' → Prop} {s : Shape} {c : Content μ ν}
    {c' : Content μ ν'} (hmatch : s.Match R c c') :
    s.Match (fun x y => R x y ∧ x ∈ objects c) c c' :=
  hmatch.flip.of_mem.flip

/-- **What is outside of the region does not matter** to what is in it. -/
theorem Bisimilar.frame (hG : Closed fields g G) (hagree : AgreeOn fields g g' G) {x : ν} {u : ν'}
    (hx : G x) (hxu : Bisimilar fields g h x u) : Bisimilar fields g' h x u := by
  refine ⟨fun a b => G a ∧ Bisimilar fields g h a b, ?_, hx, hxu⟩
  rintro a b ⟨ha, hab⟩
  obtain ⟨hcls, hcontent⟩ := hagree a ha
  refine ⟨hcls.trans hab.cls_eq, fun f hf => ?_⟩
  rw [hcls] at hf
  rw [hcontent f hf]
  refine (hab.content hf).of_mem_left.mono fun c d hcd => ⟨?_, hcd.1⟩
  -- what is compared is led to, and so it is in the region
  obtain ⟨key, hkey⟩ := mem_objects.mp hcd.2
  exact hG a c ha ⟨f, hf, key, hkey⟩

end RealmCpp.Library
