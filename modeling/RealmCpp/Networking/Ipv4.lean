/-
  RealmCpp.Networking.Ipv4
  ────────────────────────
  **`is_valid_ipv4`, AND THE ADDRESSES IT IS MEANT FOR.**

  The function splits its text with `std::getline`, which gives no empty segment
  after a dot at the end.

    • `DottedQuad` — the grammar,
    • `is_valid_ipv4_eq_true_iff` — what the function accepts,
    • `is_valid_ipv4_iff` — where this is the grammar.
-/
import RealmCpp.Library.Getline
import RealmCpp.Networking.Transport

namespace RealmCpp.Networking

open RealmCpp.Library

/-- One to three decimal digits, of a value of at most 255. -/
structure IsGroup (group : List Char) : Prop where
  nonempty : group ≠ []
  length : group.length ≤ 3
  digits : ∀ c ∈ group, c.isDigit = true
  value : Nat.ofDigitChars 10 group 0 ≤ 255

/-- **Four groups with a single dot between them**, and nothing else. -/
def DottedQuad (s : String) : Prop :=
  ∃ groups : List (List Char), groups.length = 4 ∧ (∀ group ∈ groups, IsGroup group) ∧
    s.toList = ['.'].intercalate groups

/-- The loop `while (std::getline(ss, segment, '.'))`. -/
def ipv4_segments (ip : String) : List (List Char) := getlines '.' ip.length ip.toList

/-- The check of one segment. -/
def valid_segment (seg : List Char) : Bool :=
  !seg.isEmpty && seg.length ≤ 3 && seg.all Char.isDigit && Nat.ofDigitChars 10 seg 0 ≤ 255

/-- **The function is its two loops**: over what `getline` reads, and over each
segment. -/
theorem is_valid_ipv4_eq (ip : String) :
    is_valid_ipv4 ip = ((ipv4_segments ip).length == 4 && (ipv4_segments ip).all valid_segment) := by
  have hsegments : ipv4_segments ip = trimmed (ip.toList.splitOn '.') :=
    getlines_eq_trimmed (Nat.le_of_eq String.length_toList)
  rw [hsegments]
  rfl

theorem valid_segment_iff (seg : List Char) : valid_segment seg = true ↔ IsGroup seg := by
  unfold valid_segment
  simp only [Bool.and_eq_true, Bool.not_eq_true', List.isEmpty_eq_false_iff, decide_eq_true_eq,
    List.all_eq_true]
  constructor
  · intro ⟨⟨⟨hne, hlength⟩, hdigits⟩, hvalue⟩
    exact ⟨hne, hlength, hdigits, hvalue⟩
  · intro h
    exact ⟨⟨⟨h.nonempty, h.length⟩, h.digits⟩, h.value⟩

theorem IsGroup.dot_notMem {group : List Char} (h : IsGroup group) : '.' ∉ group := by
  intro hmem
  exact absurd (h.digits '.' hmem) (by decide)

/-- **What is accepted**: a dotted quad, with or without a dot after it. -/
theorem is_valid_ipv4_eq_true_iff (s : String) :
    is_valid_ipv4 s = true ↔ DottedQuad s ∨ ∃ quad, DottedQuad quad ∧ s = quad ++ "." := by
  -- four groups are read from these two texts, and from no other
  have hread : ∀ groups : List (List Char), groups.length = 4 → (∀ group ∈ groups, IsGroup group) →
      (ipv4_segments s = groups ↔
        s.toList = ['.'].intercalate groups ∨ s.toList = ['.'].intercalate groups ++ ['.']) := by
    intro groups hlength hgroups
    apply getlines_eq_iff (Nat.le_of_eq String.length_toList)
    · intro hnil
      rw [hnil] at hlength
      cases hlength
    · intro group hgroup
      exact ⟨(hgroups group hgroup).nonempty, (hgroups group hgroup).dot_notMem⟩
  rw [is_valid_ipv4_eq, Bool.and_eq_true, beq_iff_eq, List.all_eq_true]
  constructor
  · intro ⟨hlength, hvalid⟩
    have hgroups : ∀ group ∈ ipv4_segments s, IsGroup group :=
      fun group hgroup => (valid_segment_iff group).mp (hvalid group hgroup)
    rcases (hread _ hlength hgroups).mp rfl with hs | hs
    · exact .inl ⟨_, hlength, hgroups, hs⟩
    · right
      refine ⟨String.ofList (['.'].intercalate (ipv4_segments s)), ⟨_, hlength, hgroups, ?_⟩, ?_⟩
      · rw [String.toList_ofList]
      · rw [← String.toList_inj, hs, String.toList_append, String.toList_ofList]
        rfl
  · intro h
    obtain ⟨groups, hlength, hgroups, hs⟩ : ∃ groups : List (List Char), groups.length = 4 ∧
        (∀ group ∈ groups, IsGroup group) ∧
        (s.toList = ['.'].intercalate groups ∨ s.toList = ['.'].intercalate groups ++ ['.']) := by
      rcases h with ⟨groups, hlength, hgroups, hs⟩ | ⟨quad, ⟨groups, hlength, hgroups, hquad⟩, rfl⟩
      · exact ⟨groups, hlength, hgroups, .inl hs⟩
      · refine ⟨groups, hlength, hgroups, .inr ?_⟩
        rw [String.toList_append, hquad]
        rfl
    rw [(hread groups hlength hgroups).mpr hs]
    exact ⟨hlength, fun group hgroup => (valid_segment_iff group).mpr (hgroups group hgroup)⟩

/-- No dotted quad ends with a dot: its last group would be empty. -/
theorem not_dottedQuad_append_dot (text : String) : ¬ DottedQuad (text ++ ".") := by
  intro ⟨groups, hlength, hgroups, hs⟩
  have hne : groups ≠ [] := by
    intro hnil
    rw [hnil] at hlength
    cases hlength
  have hpieces : (['.'].intercalate groups).splitOn '.' = groups :=
    List.splitOn_intercalate '.' (fun group hgroup => (hgroups group hgroup).dot_notMem) hne
  have hlast : (text ++ ".").toList.splitOn '.' = text.toList.splitOn '.' ++ [[]] := by
    rw [String.toList_append]
    exact List.splitOn_append_cons_self text.toList []
  rw [hs, hpieces] at hlast
  have hmem : [] ∈ groups := by
    rw [hlast]
    simp
  exact (hgroups [] hmem).nonempty rfl

/-- **The function accepts the grammar exactly where the text is no dotted quad with a
dot after it.** -/
theorem is_valid_ipv4_iff (s : String) :
    (is_valid_ipv4 s = true ↔ DottedQuad s) ↔ ¬ ∃ quad, DottedQuad quad ∧ s = quad ++ "." := by
  rw [is_valid_ipv4_eq_true_iff]
  constructor
  · rintro hgrammar ⟨quad, hquad, rfl⟩
    exact not_dottedQuad_append_dot quad (hgrammar.mp (.inr ⟨quad, hquad, rfl⟩))
  · intro hdot
    constructor
    · intro h
      exact h.resolve_right hdot
    · intro h
      exact .inl h

/-- `1.2.3.4.` is accepted. -/
theorem trailing_dot_accepted : ¬ (is_valid_ipv4 "1.2.3.4." = true ↔ DottedQuad "1.2.3.4.") := by
  intro hgrammar
  exact not_dottedQuad_append_dot "1.2.3.4" (hgrammar.mp (by decide))

end RealmCpp.Networking
