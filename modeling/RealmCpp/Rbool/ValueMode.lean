/-
  RealmCpp.Rbool.ValueMode
  ────────────────────────
  **THE SAME EXPRESSION ON AN OBJECT AND IN A QUERY.**

  Outside a query an `rbool` holds a `bool`, and the operators take their other
  branch: `&&` and `!` are the Boolean ones, `||` is `&&` as well.  In a query the
  operators are right, and the comparisons that add to the shared query are not.
  Both go wrong at single nodes of the expression.

    • `onObject_iff` — on an object, every subexpression has its Boolean value
      exactly when the operands of each `||` agree,
    • `faithful_iff` — in a query, every `rbool` made on the way has the value of
      its subexpression exactly when no comparison takes over or narrows another,
    • `value_query_agree_iff` — both together, and what follows for the whole.
-/
import RealmCpp.Rbool.Trees

namespace RealmCpp.Rbool

open RealmCpp.Library
open RealmCpp.Core

variable {m : Storage} {schema : Schema}

/-! ## §1. On an object. -/

/-- `operator&&` outside a query. -/
def value_and (lhs rhs : Bool) : Bool := lhs && rhs

/-- `operator||` outside a query. -/
def value_or (lhs rhs : Bool) : Bool := lhs && rhs

/-- `operator!` outside a query. -/
def value_not (b : Bool) : Bool := !b

namespace Expr

/-- An expression evaluated on an object, given what each comparison returns there. -/
def onObject (v : List ColKey → Leaf → Bool) : Expr → Bool
  | leaf path l => v path l
  | and e f => value_and (e.onObject v) (f.onObject v)
  | or e f => value_or (e.onObject v) (f.onObject v)
  | not e => value_not (e.onObject v)

/-- Each comparison of the expression returns on the object what its query
predicate says of the object. -/
def Agree (v : List ColKey → Leaf → Bool) (sat : Condition → ObjKey → Bool) (x : ObjKey) :
    Expr → Prop
  | leaf path l => v path l = sat (l.condition (path.map .link)) x
  | and e f | or e f => e.Agree v sat x ∧ f.Agree v sat x
  | not e => e.Agree v sat x

/-- The expression and all that it is made of. -/
def subexpressions : Expr → List Expr
  | leaf path l => [leaf path l]
  | and e f => and e f :: (e.subexpressions ++ f.subexpressions)
  | or e f => or e f :: (e.subexpressions ++ f.subexpressions)
  | not e => not e :: e.subexpressions

/-- The two operands of each `||` have the same value. -/
def OrsAgree (b : Condition → Bool) (e : Expr) : Prop :=
  ∀ f g, or f g ∈ e.subexpressions → f.value b = g.value b

theorem self_mem_subexpressions (e : Expr) : e ∈ e.subexpressions := by
  cases e <;> simp [subexpressions]

section
variable (b : Condition → Bool) (e f : Expr)

theorem orsAgree_and : (and e f).OrsAgree b ↔ e.OrsAgree b ∧ f.OrsAgree b := by
  simp [OrsAgree, subexpressions, or_imp, forall_and]

theorem orsAgree_or :
    (or e f).OrsAgree b ↔ e.value b = f.value b ∧ e.OrsAgree b ∧ f.OrsAgree b := by
  simp [OrsAgree, subexpressions, or_imp, forall_and]

theorem orsAgree_not : (not e).OrsAgree b ↔ e.OrsAgree b := by
  simp [OrsAgree, subexpressions]

end

/-- **Exactly when every subexpression has its Boolean value on an object.** -/
theorem onObject_iff {v : List ColKey → Leaf → Bool} {sat : Condition → ObjKey → Bool}
    {x : ObjKey} {e : Expr} (h : e.Agree v sat x) :
    (∀ f ∈ e.subexpressions, f.onObject v = f.value fun c => sat c x) ↔
      e.OrsAgree fun c => sat c x := by
  induction e with
  | leaf path l =>
      have hleaf : v path l = sat (l.condition (path.map .link)) x := h
      simp [OrsAgree, subexpressions, onObject, value, hleaf]
  | and e f ihe ihf =>
      rw [subexpressions, List.forall_mem_cons, List.forall_mem_append, ihe h.1, ihf h.2,
        orsAgree_and]
      refine and_iff_right_of_imp fun hors => ?_
      -- `&&` on values is the Boolean one
      have hev := (ihe h.1).mpr hors.1 e e.self_mem_subexpressions
      have hfv := (ihf h.2).mpr hors.2 f f.self_mem_subexpressions
      simp [onObject, value_and, value, hev, hfv]
  | or e f ihe ihf =>
      rw [subexpressions, List.forall_mem_cons, List.forall_mem_append, ihe h.1, ihf h.2,
        orsAgree_or]
      refine and_congr_left fun hors => ?_
      have hev := (ihe h.1).mpr hors.1 e e.self_mem_subexpressions
      have hfv := (ihf h.2).mpr hors.2 f f.self_mem_subexpressions
      -- `||` on values is `&&`, which it agrees with on equal operands only
      simp only [onObject, value_or, value, hev, hfv]
      cases e.value (fun c => sat c x) <;> cases f.value (fun c => sat c x) <;> simp
  | not e ih =>
      have hagree : e.Agree v sat x := h
      rw [subexpressions, List.forall_mem_cons, ih hagree, orsAgree_not]
      refine and_iff_right_of_imp fun hors => ?_
      have hev := (ih hagree).mpr hors e e.self_mem_subexpressions
      simp [onObject, value_not, value, hev]

/-! ## §2. In a query. -/

/-- The `rbool` that the evaluation returns says of `x` what the expression says. -/
def Returns (schema : Schema) (sat : Condition → ObjKey → Bool) (x : ObjKey) (e : Expr)
    (w : Context m) : Prop :=
  ∀ w' i, e.evaluate schema w = some (w', i) →
    (w'.core i).Matches sat x = e.value fun c => sat c x

/-- Every `rbool` of the evaluation says of `x` what its subexpression says, when
it is returned and, for a left operand, when the operator reads it. -/
def Faithful (schema : Schema) (sat : Condition → ObjKey → Bool) (x : ObjKey) :
    Expr → Context m → Prop
  | leaf path l, w => (leaf path l).Returns schema sat x w
  | and e f, w =>
      (and e f).Returns schema sat x w ∧ e.Faithful schema sat x w ∧
        ∀ w₁ i, e.evaluate schema w = some (w₁, i) → f.Faithful schema sat x w₁ ∧
          ∀ w₂ j, f.evaluate schema w₁ = some (w₂, j) →
            (w₂.core i).Matches sat x = e.value fun c => sat c x
  | or e f, w =>
      (or e f).Returns schema sat x w ∧ e.Faithful schema sat x w ∧
        ∀ w₁ i, e.evaluate schema w = some (w₁, i) → f.Faithful schema sat x w₁ ∧
          ∀ w₂ j, f.evaluate schema w₁ = some (w₂, j) →
            (w₂.core i).Matches sat x = e.value fun c => sat c x
  | not e, w => (not e).Returns schema sat x w ∧ e.Faithful schema sat x w

/-- The value of the comparison that is written last. -/
def lastValue (b : Condition → Bool) : Expr → Bool
  | leaf path l => b (l.condition (path.map .link))
  | and _ f | or _ f => f.lastValue b
  | not e => e.lastValue b

/-- Where a direct mixed or link comparison is true, so is the comparison written
before it (`s` before the first); and where queries are shared, a comparison
that is a left operand is true only if the condition is that the right operand
begins by adding. -/
def Unaffected (m : Storage) (b : Condition → Bool) : Expr → Bool → Prop
  | leaf [] l, s => l.Accumulates = true → b (l.condition []) = true → s = true
  | leaf (_ :: _) _, _ => True
  | and e f, s | or e f, s =>
      e.Unaffected m b s ∧ f.Unaffected m b (e.lastValue b) ∧
        (m = .shared ∧ e.isLeaf = true →
          ∀ c ∈ f.adds, e.value b = true → b c = true)
  | not e, s => e.Unaffected m b s

theorem narrowed_eq_iff (b : Condition → Bool) (a : Bool) (p : Prop) [Decidable p]
    (o : Option Condition) :
    inherited.narrowed b a p o = a ↔ (p → ∀ c ∈ o, a = true → b c = true) := by
  cases o with
  | none => simp [inherited.narrowed]
  | some c => by_cases hp : p <;> simp [inherited.narrowed, hp]

/-- **Nothing taken over, nothing changed**: an unaffected expression has its
value, and the shared query holds the last comparison. -/
theorem Unaffected.inherited_eq {b : Condition → Bool} {e : Expr} :
    ∀ {s : Bool}, e.Unaffected m b s → e.inherited m b s = (e.value b, e.lastValue b) := by
  induction e with
  | leaf path l =>
      intro s h
      cases path with
      | cons c path => rfl
      | nil =>
          have htaken : l.Accumulates = true → b (l.condition []) = true → s = true := h
          cases hacc : l.Accumulates with
          | false => simp [inherited, hacc, value, lastValue]
          | true => simpa [inherited, hacc, value, lastValue] using htaken hacc
  | and e f ihe ihf =>
      intro s h
      obtain ⟨he, hf, hn⟩ := h
      simp [inherited, ihe he, ihf hf, (narrowed_eq_iff b _ _ f.adds).mpr hn, value, lastValue]
  | or e f ihe ihf =>
      intro s h
      obtain ⟨he, hf, hn⟩ := h
      simp [inherited, ihe he, ihf hf, (narrowed_eq_iff b _ _ f.adds).mpr hn, value, lastValue]
  | not e ih =>
      intro s h
      simp [inherited, ih h, value, lastValue]

end Expr

section
variable {sat : Condition → ObjKey → Bool} {x : ObjKey} {e f : Expr} {w w₁ w₂ : Context m}
  {i j : Nat}

/-- An unaffected expression returns its value. -/
theorem Evaluated.returns (hev : e.evaluate schema w = some (w₁, i)) (h : Evaluated e w w₁ i)
    (hun : e.Unaffected m (fun c => sat c x) (w.q.Matches sat x)) :
    e.Returns schema sat x w := by
  intro w' k hw'
  obtain ⟨rfl, rfl⟩ := by simpa using hev.symm.trans hw'
  rw [h.value sat x, hun.inherited_eq]

/-- After it the shared query holds its last comparison. -/
theorem Evaluated.q_last (h : Evaluated e w w₁ i)
    (hun : e.Unaffected m (fun c => sat c x) (w.q.Matches sat x)) :
    w₁.q.Matches sat x = e.lastValue fun c => sat c x := by
  rw [h.q_value sat x, hun.inherited_eq]

/-- **The operands of `&&` and `||`.** -/
theorem operands_faithful_iff (he : e.evaluate schema w = some (w₁, i))
    (hei : Evaluated e w w₁ i) (hf : f.evaluate schema w₁ = some (w₂, j))
    (hfj : Evaluated f w₁ w₂ j)
    (ihe : e.Faithful schema sat x w ↔
      e.Unaffected m (fun c => sat c x) (w.q.Matches sat x))
    (ihf : f.Faithful schema sat x w₁ ↔
      f.Unaffected m (fun c => sat c x) (w₁.q.Matches sat x)) :
    (e.Faithful schema sat x w ∧ ∀ w₁ i, e.evaluate schema w = some (w₁, i) →
        f.Faithful schema sat x w₁ ∧ ∀ w₂ j, f.evaluate schema w₁ = some (w₂, j) →
          (w₂.core i).Matches sat x = e.value fun c => sat c x) ↔
      e.Unaffected m (fun c => sat c x) (w.q.Matches sat x) ∧
        f.Unaffected m (fun c => sat c x) (e.lastValue fun c => sat c x) ∧
        (m = .shared ∧ e.isLeaf = true →
          ∀ c ∈ f.adds, (e.value fun c => sat c x) = true → sat c x = true) := by
  have hread : (∀ w₁ i, e.evaluate schema w = some (w₁, i) →
      f.Faithful schema sat x w₁ ∧ ∀ w₂ j, f.evaluate schema w₁ = some (w₂, j) →
        (w₂.core i).Matches sat x = e.value fun c => sat c x) ↔
      f.Faithful schema sat x w₁ ∧ (w₂.core i).Matches sat x = e.value fun c => sat c x := by
    constructor
    · intro h
      exact ⟨(h w₁ i he).1, (h w₁ i he).2 w₂ j hf⟩
    · intro h w₁' i' he'
      obtain ⟨rfl, rfl⟩ := by simpa using he.symm.trans he'
      refine ⟨h.1, fun w₂' j' hf' => ?_⟩
      obtain ⟨rfl, rfl⟩ := by simpa using hf.symm.trans hf'
      exact h.2
  rw [hread, ihe]
  refine and_congr_right fun hun => ?_
  -- what the right operand finds in the shared query is the left one's last comparison
  rw [ihf, hei.q_last hun, narrowed_value hei hfj sat x, hun.inherited_eq,
    Expr.narrowed_eq_iff]

/-- **Exactly when the evaluation of an expression is faithful.** -/
theorem faithful_iff (schema : Schema) (sat : Condition → ObjKey → Bool) (x : ObjKey) (e : Expr) :
    ∀ (w : Context m), w.Clean → e.Reaches schema →
      (e.Faithful schema sat x w ↔
        e.Unaffected m (fun c => sat c x) (w.q.Matches sat x)) := by
  induction e with
  | leaf path l =>
      intro w hw hr
      obtain ⟨w₁, hev, h⟩ := evaluate_leaf schema path l w hw hr
      refine ⟨fun hret => ?_, fun hun => h.returns hev hun⟩
      have hval := (h.value sat x).symm.trans (hret w₁ _ hev)
      cases path with
      | cons c path => trivial
      | nil =>
          intro hacc hb
          simpa [Expr.inherited, Expr.value, hacc, hb] using hval
  | and e f ihe ihf =>
      intro w hw hr
      obtain ⟨w₁, i, he, hei⟩ := evaluate_spec schema e w hw hr.1
      obtain ⟨w₂, j, hf, hfj⟩ := evaluate_spec schema f w₁ hei.clean hr.2
      obtain ⟨w₃, k, hev, h⟩ := evaluate_and he hei hf hfj
      have hiff := operands_faithful_iff he hei hf hfj (ihe w hw hr.1) (ihf w₁ hei.clean hr.2)
      exact ⟨fun hfaith => hiff.mp hfaith.2,
        fun hun => ⟨h.returns hev hun, hiff.mpr hun⟩⟩
  | or e f ihe ihf =>
      intro w hw hr
      obtain ⟨w₁, i, he, hei⟩ := evaluate_spec schema e w hw hr.1
      obtain ⟨w₂, j, hf, hfj⟩ := evaluate_spec schema f w₁ hei.clean hr.2
      obtain ⟨w₃, k, hev, h⟩ := evaluate_or he hei hf hfj
      have hiff := operands_faithful_iff he hei hf hfj (ihe w hw hr.1) (ihf w₁ hei.clean hr.2)
      exact ⟨fun hfaith => hiff.mp hfaith.2,
        fun hun => ⟨h.returns hev hun, hiff.mpr hun⟩⟩
  | not e ih =>
      intro w hw hr
      obtain ⟨w₁, i, he, hei⟩ := evaluate_spec schema e w hw hr
      obtain ⟨w₂, k, hev, h⟩ := evaluate_not he hei
      exact ⟨fun hfaith => (ih w hw hr).mp hfaith.2,
        fun hun => ⟨h.returns hev hun, (ih w hw hr).mpr hun⟩⟩

end

/-! ## §3. Objects and queries. -/

/-- **When predicates mean the same on an object and in a query.**  For an
expression whose comparisons take up their paths, and an object on which each
comparison agrees with its query predicate.  All subexpressions have their
Boolean value, on the object and in every `rbool` of the query's evaluation, if
and only if at each `||` the operands agree on the object and no comparison takes
over or narrows another.  Then the expression has its Boolean value on the object,
which is true exactly when the object is among the results. -/
theorem value_query_agree_iff (m : Storage) (schema : Schema) (t : TableKey) (e : Expr)
    (he : e.Reaches schema) (sat : Condition → ObjKey → Bool) (x : ObjKey)
    (v : List ColKey → Leaf → Bool) (hv : e.Agree v sat x) :
    ((∀ f ∈ e.subexpressions, f.onObject v = f.value fun c => sat c x) ∧
        e.Faithful schema sat x (Context.init m t)
      ↔ (e.OrsAgree fun c => sat c x) ∧ e.Unaffected m (fun c => sat c x) true) ∧
    ∃ q, results_where m schema t e = some q ∧ q.table = t ∧
      ((e.OrsAgree fun c => sat c x) ∧ e.Unaffected m (fun c => sat c x) true →
        e.onObject v = e.value (fun c => sat c x) ∧
          (e.value (fun c => sat c x) = true ↔ q.Matches sat x = true)) := by
  have hfaith := faithful_iff schema sat x e (Context.init m t) ⟨⟨rfl, rfl⟩, rfl⟩ he
  refine ⟨and_congr (Expr.onObject_iff hv) hfaith, ?_⟩
  obtain ⟨q, hq, htable, hval⟩ := results_where_spec m schema t e he
  refine ⟨q, hq, htable, ?_⟩
  rintro ⟨hors, hun⟩
  refine ⟨(Expr.onObject_iff hv).mpr hors e e.self_mem_subexpressions, ?_⟩
  rw [hval sat x, hun.inherited_eq]

/-- `o.a == 1 && o.b == 2` on an object with `a == 1` and `b != 2`. -/
theorem value_query_agree_iff_and :
    ∃ q, results_where .byValue (.uniform .int ⟨0⟩) ⟨0⟩
        (.and (.leaf [] (.compare .int .equal ⟨1⟩ (.int 1)))
          (.leaf [] (.compare .int .equal ⟨2⟩ (.int 2)))) = some q ∧
      q.Matches (fun c _ => decide (c.col = ⟨1⟩)) ⟨5⟩ = false := by
  obtain ⟨-, q, hq, -, hagree⟩ := value_query_agree_iff .byValue (.uniform .int ⟨0⟩) ⟨0⟩
    (.and (.leaf [] (.compare .int .equal ⟨1⟩ (.int 1)))
      (.leaf [] (.compare .int .equal ⟨2⟩ (.int 2)))) ⟨.inl rfl, .inl rfl⟩
    (fun c _ => decide (c.col = ⟨1⟩)) ⟨5⟩ (fun _ l => decide (l.col = ⟨1⟩))
    ⟨rfl, rfl⟩
  refine ⟨q, hq, ?_⟩
  have hboth := (hagree ⟨by simp [Expr.OrsAgree, Expr.subexpressions],
    by simp [Expr.Unaffected, Leaf.Accumulates]⟩).2
  exact Bool.eq_false_iff.mpr fun h => absurd (hboth.mpr h) (by decide)

/-- **`o.a == 1 || o.b == 2` is false on an object with `a == 1` and `b != 2`.** -/
theorem or_on_object_false :
    let e : Expr := .or (.leaf [] (.compare .int .equal ⟨1⟩ (.int 1)))
      (.leaf [] (.compare .int .equal ⟨2⟩ (.int 2)))
    let sat : Condition → ObjKey → Bool := fun c _ => decide (c.col = ⟨1⟩)
    let v : List ColKey → Leaf → Bool := fun _ l => decide (l.col = ⟨1⟩)
    e.Reaches (.uniform .int ⟨0⟩) ∧ e.Agree v sat ⟨5⟩ ∧ e.value (fun c => sat c ⟨5⟩) = true ∧
      e.onObject v = false ∧
      (results_where .byValue (.uniform .int ⟨0⟩) ⟨0⟩ e).map
        (fun q => q.Matches sat ⟨5⟩) = some true := by
  exact ⟨⟨.inl rfl, .inl rfl⟩, ⟨rfl, rfl⟩, by decide, by decide, by decide⟩

end RealmCpp.Rbool
