/-
  RealmCpp.Managed.DictionaryComparison
  ─────────────────────────────────────
  **AN ELEMENT OF A DICTIONARY COMPARED WITH A VALUE.**

  `o.map[key]` is a `box`.  Its operators build a query on the dictionary column
  and the key, or read the element of the object's dictionary and compare it.
  An element that is not there is null to a query; to read it raises.

    • `Box.equal`, …, `Box.contains` — the operators of the specialisations,
    • `box_comparison_iff` — exactly when they mean the same in both modes.
-/
import RealmCpp.Managed.ScalarAgreement
import RealmCpp.Library.Assoc

namespace RealmCpp.Managed

open RealmCpp.Library
open RealmCpp.Core
open RealmCpp.Rbool (Leaf Expr results_where)

/-! ## §1. The types of the elements. -/

/-- The element types that `box` is specialised for, links apart. -/
inductive BoxType where
  | int64 | double | bool | enum (E : IntegralType) | uuid | mixed | object_id | decimal128
  | time_point | binary | string
  deriving DecidableEq, Repr

namespace BoxType

/-- The values of the type.  A time is a number of nanoseconds. -/
def Value : BoxType → Type
  | int64 => Integral .int64
  | double => UInt64
  | bool => Bool
  | enum E => Integral E
  | uuid | object_id | binary => List UInt8
  | mixed => Mixed
  | decimal128 => UInt64 × UInt64
  | time_point => Int
  | string => String

/-- A value as the core's `Mixed`. -/
def serialize : (V : BoxType) → V.Value → Mixed
  | int64, v => .int v.value
  | double, bits => .double bits
  | bool, b => .bool b
  | enum _, v => .int (cast_int64 v.value)
  | uuid, bytes => .uuid bytes
  | mixed, m => m
  | object_id, bytes => .object_id bytes
  | decimal128, d => .decimal128 d.1 d.2
  | time_point, n => .timestamp (Int.tdiv n 1000000000) (Int.tmod n 1000000000)
  | binary, bytes => .binary bytes
  | string, s => .string s

/-- The types whose box has `>`, `>=`, `<` and `<=`. -/
def Ordered : BoxType → Prop
  | int64 | double | mixed | decimal128 | time_point => True
  | bool | enum _ | uuid | object_id | binary | string => False

end BoxType

/-! ## §2. The operators. -/

/-- The dictionary of an object. -/
abbrev BackingMap (V : BoxType) := List (String × V.Value)

/-- The dictionary as the core has it. -/
def BackingMap.entries {V : BoxType} (d : BackingMap V) : List (String × Mixed) :=
  d.map fun e => (e.1, V.serialize e.2)

/-- `core_dictionary::get`; none where it raises. -/
def core_dictionary_get {V : BoxType} (d : BackingMap V) (key : String) : Option Mixed :=
  d.entries.lookup key

/-- An operator of a box: the comparison it calls in a query, and what it returns
for an object's dictionary, none where it raises. -/
structure BoxComparator (V : BoxType) (β : Type) where
  query : (m_col_key : ColKey) → (m_key : String) → (rhs : β) → Leaf
  value : BackingMap V → (m_key : String) → (rhs : β) → Option Bool

namespace Box

variable (K : Semantics) (V : BoxType)

/-- A comparison of the element by an operator of `bridge::mixed`, and the method
`dictionary_has_value_for_key_…` of the same operator. -/
def comparison (op : Comparison) : BoxComparator V V.Value where
  query m_col_key m_key rhs :=
    .dictionary_has_value_for_key op m_col_key m_key (V.serialize rhs)
  value d m_key rhs := (core_dictionary_get d m_key).map fun lhs =>
    op.holds (some (K.mixed_compare lhs (V.serialize rhs)))

/-- `box_base<V>::operator==`. -/
def equal : BoxComparator V V.Value := comparison K V .equal

/-- `box_base<V>::operator!=`: in value mode the negation of `==`. -/
def not_equal : BoxComparator V V.Value where
  query := (comparison K V .not_equal).query
  value d m_key rhs := ((equal K V).value d m_key rhs).map not

/-- `box<V>::operator>`, of each specialisation that has one. -/
def greater : BoxComparator V V.Value := comparison K V .greater

/-- `box<V>::operator>=`. -/
def greater_equal : BoxComparator V V.Value := comparison K V .greater_equal

/-- `box<V>::operator<`. -/
def less : BoxComparator V V.Value := comparison K V .less

/-- `box<V>::operator<=`. -/
def less_equal : BoxComparator V V.Value := comparison K V .less_equal

/-- `mixed::operator std::string`: of a value of another type it is empty. -/
def string_of : Mixed → String
  | .string s => s
  | _ => ""

/-- `box<std::string>::contains`. -/
def contains : BoxComparator V String where
  query m_col_key m_key rhs := .dictionary_contains_string_for_key m_col_key m_key rhs
  value d m_key rhs := (core_dictionary_get d m_key).map fun lhs =>
    (findSublist rhs.toList (string_of lhs).toList).isSome

end Box

/-- A comparison of an element of a map of `V`, by an operator of its box. -/
inductive BoxCall (V : BoxType) where
  | equal (rhs : V.Value)
  | not_equal (rhs : V.Value)
  | greater (h : V.Ordered) (rhs : V.Value)
  | greater_equal (h : V.Ordered) (rhs : V.Value)
  | less (h : V.Ordered) (rhs : V.Value)
  | less_equal (h : V.Ordered) (rhs : V.Value)
  | contains (h : V = .string) (rhs : String)

namespace BoxCall

variable (K : Semantics) {V : BoxType}

/-- The comparison in a query. -/
def query (m_col_key : ColKey) (m_key : String) : BoxCall V → Leaf
  | equal rhs => (Box.equal K V).query m_col_key m_key rhs
  | not_equal rhs => (Box.not_equal K V).query m_col_key m_key rhs
  | greater _ rhs => (Box.greater K V).query m_col_key m_key rhs
  | greater_equal _ rhs => (Box.greater_equal K V).query m_col_key m_key rhs
  | less _ rhs => (Box.less K V).query m_col_key m_key rhs
  | less_equal _ rhs => (Box.less_equal K V).query m_col_key m_key rhs
  | contains _ rhs => (Box.contains V).query m_col_key m_key rhs

/-- The comparison on an object; none where it raises. -/
def value (d : BackingMap V) (m_key : String) : BoxCall V → Option Bool
  | equal rhs => (Box.equal K V).value d m_key rhs
  | not_equal rhs => (Box.not_equal K V).value d m_key rhs
  | greater _ rhs => (Box.greater K V).value d m_key rhs
  | greater_equal _ rhs => (Box.greater_equal K V).value d m_key rhs
  | less _ rhs => (Box.less K V).value d m_key rhs
  | less_equal _ rhs => (Box.less_equal K V).value d m_key rhs
  | contains _ rhs => (Box.contains V).value d m_key rhs

end BoxCall

/-! ## §3. Agreement. -/

section
variable (K : Semantics) {V : BoxType}

theorem core_dictionary_get_eq (d : BackingMap V) (key : String) :
    core_dictionary_get d key = (d.lookup key).map V.serialize :=
  lookup_map_snd V.serialize d key

/-- **Reading an element raises exactly where there is none.** -/
theorem core_dictionary_get_isSome_iff (d : BackingMap V) (key : String) :
    (core_dictionary_get d key).isSome = true ↔ key ∈ d.map Prod.fst := by
  rw [core_dictionary_get_eq, Option.isSome_map, Option.isSome_iff_exists]
  exact exists_lookup_iff

theorem not_equal_eq (V : BoxType) : Box.not_equal K V = Box.comparison K V .not_equal := by
  have hvalue : (Box.not_equal K V).value = (Box.comparison K V .not_equal).value := by
    funext d key rhs
    show ((core_dictionary_get d key).map _).map not = _
    rw [Option.map_map]
    rfl
  exact congrArg (BoxComparator.mk (Box.comparison K V .not_equal).query) hvalue

/-- **With the element there, a comparison returns what the query asks.** -/
theorem comparison_agrees (op : Comparison) {d : BackingMap V} {key : String} {lhs : Mixed}
    (h : core_dictionary_get d key = some lhs) (col : ColKey) (v : Mixed) (rhs : V.Value) :
    (Box.comparison K V op).value d key rhs
      = some (K.test v d.entries ((Box.comparison K V op).query col key rhs).test) := by
  have hlookup : d.entries.lookup key = some lhs := h
  show (core_dictionary_get d key).map _
    = some (op.holds (some (K.mixed_compare ((d.entries.lookup key).getD .null) _)))
  rw [h, hlookup]
  rfl

theorem contains_agrees (hV : V = .string) {d : BackingMap V} {key : String} {lhs : Mixed}
    (h : core_dictionary_get d key = some lhs) (col : ColKey) (v : Mixed) (rhs : String) :
    (Box.contains V).value d key rhs
      = some (K.test v d.entries ((Box.contains V).query col key rhs).test) := by
  subst hV
  -- an element of the map is a string
  obtain ⟨s, -, hs⟩ := Option.map_eq_some_iff.mp ((core_dictionary_get_eq d key).symm.trans h)
  change String at s
  change Mixed.string s = lhs at hs
  subst hs
  have hlookup : d.entries.lookup key = some (.string s) := h
  have htest : K.test v d.entries ((Box.contains .string).query col key rhs).test
      = K.contains s rhs true := by
    simp [Box.contains, Leaf.test, Semantics.test, hlookup]
  show (core_dictionary_get d key).map _ = _
  rw [h, htest]
  exact congrArg some (find_isSome_eq_contains K s rhs)

/-- **Without it, no comparison returns anything.** -/
theorem value_of_absent {d : BackingMap V} {key : String} (h : core_dictionary_get d key = none)
    (c : BoxCall V) : c.value K d key = none := by
  have hmap : ∀ f : Mixed → Bool, (core_dictionary_get d key).map f = none := by
    intro f
    rw [h]
    rfl
  cases c with
  | equal rhs => exact hmap _
  | not_equal rhs =>
    show ((core_dictionary_get d key).map _).map not = none
    rw [h]
    rfl
  | greater _ rhs => exact hmap _
  | greater_equal _ rhs => exact hmap _
  | less _ rhs => exact hmap _
  | less_equal _ rhs => exact hmap _
  | contains _ rhs => exact hmap _

/-- With the element there, each operator returns what its query asks. -/
theorem value_of_present {d : BackingMap V} {key : String} {lhs : Mixed}
    (h : core_dictionary_get d key = some lhs) (col : ColKey) (v : Mixed) (c : BoxCall V) :
    c.value K d key = some (K.test v d.entries (c.query K col key).test) := by
  cases c with
  | equal rhs => exact comparison_agrees K .equal h col v rhs
  | not_equal rhs =>
    show (Box.not_equal K V).value d key rhs
      = some (K.test v d.entries ((Box.not_equal K V).query col key rhs).test)
    rw [not_equal_eq]
    exact comparison_agrees K .not_equal h col v rhs
  | greater _ rhs => exact comparison_agrees K .greater h col v rhs
  | greater_equal _ rhs => exact comparison_agrees K .greater_equal h col v rhs
  | less _ rhs => exact comparison_agrees K .less h col v rhs
  | less_equal _ rhs => exact comparison_agrees K .less_equal h col v rhs
  | contains hV rhs => exact contains_agrees K hV h col v rhs

end

/-- `==` and `!=` with one right-hand side are each other's negation, on an object
and in a query. -/
structure Negates (equal not_equal : Option Bool) (where_equal where_not_equal : Bool) : Prop where
  value : not_equal = equal.map not
  where_value : where_not_equal = !where_equal

/-- **`!=` is the negation of `==`**, on every object and in every query. -/
theorem box_negates (K : Semantics) {V : BoxType} (d : BackingMap V) (col : ColKey)
    (key : String) (v : Mixed) (rhs : V.Value) :
    Negates ((BoxCall.equal rhs).value K d key) ((BoxCall.not_equal rhs).value K d key)
      (K.test v d.entries ((BoxCall.equal rhs).query K col key).test)
      (K.test v d.entries ((BoxCall.not_equal rhs).query K col key).test) :=
  ⟨rfl, rfl⟩

/-- **What a comparison of an element should be**: on the object it returns, and
what it returns is whether the object matches the query; and `!=` is the negation
of `==` in both modes. -/
structure BoxCorrect (K : Semantics) {V : BoxType} (d : BackingMap V) (key : String)
    (matching : BoxCall V → Bool) (c : BoxCall V) : Prop where
  returns : c.value K d key = some (matching c)
  negates : ∀ rhs, Negates ((BoxCall.equal rhs).value K d key)
    ((BoxCall.not_equal rhs).value K d key) (matching (.equal rhs)) (matching (.not_equal rhs))

namespace BoxCall

theorem query_accumulates (K : Semantics) {V : BoxType} (col : ColKey) (key : String)
    (c : BoxCall V) : (c.query K col key).Accumulates = false := by
  cases c <;> rfl

theorem query_col (K : Semantics) {V : BoxType} (col : ColKey) (key : String) (c : BoxCall V) :
    (c.query K col key).col = col := by
  cases c <;> rfl

/-- Does object `x` of the table match the query of the comparison. -/
def Matches (m : Storage) (schema : Schema) (K : Semantics) (R : Rows) (t : TableKey) (x : ObjKey)
    (col : ColKey) (key : String) {V : BoxType} (c : BoxCall V) : Bool :=
  ((results_where m schema t (.leaf [] (c.query K col key))).map
    fun q => q.Matches (K.sat R t) x).getD false

end BoxCall

/-- **Exactly when a comparison of a dictionary's element means the same on an
object and in a query**: for every map, key, operator and right-hand side, if and
only if the key is in the map. -/
theorem box_comparison_iff (m : Storage) (schema : Schema) (K : Semantics) (R : Rows)
    (t : TableKey) (x : ObjKey) (col : ColKey) {V : BoxType} (d : BackingMap V) (key : String)
    (c : BoxCall V) (hd : R.entries ⟨t, x⟩ col = d.entries) :
    (∃ q, results_where m schema t (.leaf [] (c.query K col key)) = some q) ∧
      (BoxCorrect K d key (BoxCall.Matches m schema K R t x col key) c
        ↔ key ∈ d.map Prod.fst) := by
  -- every query asks its test of the dictionary
  have hmatch : ∀ c : BoxCall V, ∃ q,
      results_where m schema t (.leaf [] (c.query K col key)) = some q ∧
        c.Matches m schema K R t x col key
          = K.test (R.value ⟨t, x⟩ col) d.entries (c.query K col key).test := by
    intro c
    obtain ⟨q, hq, -, hval⟩ := matches_leaf m schema K R t x (c.query_accumulates K col key)
    refine ⟨q, hq, ?_⟩
    unfold BoxCall.Matches
    rw [hq]
    rw [c.query_col, hd] at hval
    exact hval
  obtain ⟨q, hq, hval⟩ := hmatch c
  refine ⟨⟨q, hq⟩, ?_⟩
  rw [← core_dictionary_get_isSome_iff]
  constructor
  · intro h
    -- a comparison that returned has read an element
    rw [Option.isSome_iff_ne_none]
    intro hnone
    have hreturns := h.returns
    rw [value_of_absent K hnone c] at hreturns
    cases hreturns
  · intro h
    obtain ⟨lhs, hlhs⟩ := Option.isSome_iff_exists.mp h
    refine ⟨by rw [hval, value_of_present K hlhs col], fun rhs => ?_⟩
    obtain ⟨_, -, hequal⟩ := hmatch (.equal rhs)
    obtain ⟨_, -, hnot⟩ := hmatch (.not_equal rhs)
    rw [hequal, hnot]
    exact box_negates K d col key _ rhs

/-- A map with the element 3 at the key `a`. -/
def oneElement : BackingMap .int64 := [("a", ⟨3, by decide⟩)]

/-- A table whose objects have that map in every column. -/
def mapRows : Rows := ⟨fun _ _ => .null, fun _ _ => oneElement.entries⟩

/-- A core that compares integers, and nothing else, in a dictionary. -/
def integerCore : Semantics where
  decimal_compare _ _ := none
  fold := Char.toLower
  mixed_compare a b :=
    match a, b with
    | .int a, .int b => ordering a b
    | .null, .int _ => .lt
    | _, _ => .eq

/-- `o.map["a"] > 2`, where the map has 3 at `a`. -/
theorem box_comparison_iff_present :
    (BoxCall.greater (V := .int64) trivial ⟨2, by decide⟩).value integerCore oneElement "a"
      = some ((BoxCall.greater (V := .int64) trivial ⟨2, by decide⟩).Matches .byValue
          (Schema.uniform .int ⟨0⟩) integerCore mapRows ⟨0⟩ ⟨5⟩ ⟨1⟩ "a") := by
  have hcorrect := (box_comparison_iff .byValue (Schema.uniform .int ⟨0⟩) integerCore mapRows
    ⟨0⟩ ⟨5⟩ ⟨1⟩ oneElement "a" (.greater (V := .int64) trivial ⟨2, by decide⟩) rfl).2.mpr
    (by decide)
  exact hcorrect.returns

/-- **`o.map["b"] < 2` raises on an object**, where the map has no `b`, and the
query of it returns the object. -/
theorem box_comparison_raises :
    (BoxCall.less (V := .int64) trivial ⟨2, by decide⟩).value integerCore oneElement "b" = none ∧
      (BoxCall.less (V := .int64) trivial ⟨2, by decide⟩).Matches .byValue
        (Schema.uniform .int ⟨0⟩) integerCore mapRows ⟨0⟩ ⟨5⟩ ⟨1⟩ "b" = true := by
  exact ⟨by decide, by decide⟩

end RealmCpp.Managed
