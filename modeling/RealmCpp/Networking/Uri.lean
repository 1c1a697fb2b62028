/-
  RealmCpp.Networking.Uri
  ───────────────────────
  **ADDRESSES AS TEXT.**

  The parts of a URL, as `util::Uri` of the core splits it, and the numbers that
  are read from them with `std::stoi`.

    • `SplitsUrls` — what is known of `util::Uri`,
    • `splitUrl` — a function that does it,
    • `stoi_toString` — a number in decimal is read back.
-/
import Mathlib.Data.List.TakeWhile

namespace RealmCpp.Networking

/-- `util::Uri`: the scheme with its colon, what `get_auth` gives, and the rest. -/
structure Uri where
  scheme : String
  userinfo : String
  host : String
  port : String
  path : String
  query : String
  deriving DecidableEq

/-- The sign, and what is after it. -/
def stoiSign : List Char → Bool × List Char
  | '-' :: s => (true, s)
  | '+' :: s => (false, s)
  | s => (false, s)

/-- `std::stoi`: blanks, a sign and digits, and whatever is after them.  It throws
where there are no digits, or too many for an `int`. -/
def stoi (s : String) : Option Int :=
  let (negative, rest) := stoiSign (s.toList.dropWhile Char.isWhitespace)
  let digits := rest.takeWhile Char.isDigit
  if digits.isEmpty then none
  else
    -- what does not fit an `int` is `std::out_of_range`
    let n : Int := Nat.ofDigitChars 10 digits 0
    let n := if negative then -n else n
    if -2147483648 ≤ n ∧ n ≤ 2147483647 then some n else none

/-! ## §1. Numbers in decimal. -/

section Decimal

variable {ds : List Char}

/-- A digit is no blank, and no sign. -/
theorem digit_ne {c d : Char} (hc : c.isDigit = true) (hd : d.isDigit = false) : c ≠ d := by
  intro heq
  rw [heq, hd] at hc
  cases hc

theorem not_isWhitespace_of_isDigit {c : Char} (hc : c.isDigit = true) :
    c.isWhitespace = false := by
  unfold Char.isWhitespace
  simp only [Bool.or_eq_false_iff, decide_eq_false_iff_not]
  exact ⟨⟨⟨digit_ne hc rfl, digit_ne hc rfl⟩, digit_ne hc rfl⟩, digit_ne hc rfl⟩

theorem dropWhile_digits (hds : ∀ c ∈ ds, c.isDigit = true) :
    ds.dropWhile Char.isWhitespace = ds := by
  cases ds with
  | nil => rfl
  | cons c ds =>
    rw [List.dropWhile_cons, not_isWhitespace_of_isDigit (hds c List.mem_cons_self)]
    rfl

theorem stoiSign_digits (hds : ∀ c ∈ ds, c.isDigit = true) : stoiSign ds = (false, ds) := by
  unfold stoiSign
  split
  · next s => exact absurd rfl (digit_ne (hds '-' List.mem_cons_self) rfl)
  · next s => exact absurd rfl (digit_ne (hds '+' List.mem_cons_self) rfl)
  · rfl

theorem isEmpty_toString (n : Nat) : (toString n).isEmpty = false := by
  simp [Nat.toString_eq_repr]

/-- A text of digits is read as the number that it is, if that is an `int`. -/
theorem stoi_digits {s : String} (hdigits : ∀ c ∈ s.toList, c.isDigit = true)
    (hne : s.toList ≠ []) :
    stoi s = if Nat.ofDigitChars 10 s.toList 0 ≤ 2147483647
      then some (Nat.ofDigitChars 10 s.toList 0 : Int) else none := by
  have hrange : -2147483648 ≤ (Nat.ofDigitChars 10 s.toList 0 : Int) ∧
      (Nat.ofDigitChars 10 s.toList 0 : Int) ≤ 2147483647 ↔
        Nat.ofDigitChars 10 s.toList 0 ≤ 2147483647 := by omega
  unfold stoi
  rw [dropWhile_digits hdigits, stoiSign_digits hdigits]
  simp only [List.takeWhile_eq_self_iff.mpr hdigits, List.isEmpty_eq_false_iff.mpr hne]
  simp only [Bool.false_eq_true, if_false, hrange]

/-- **A number that was written in decimal is read back**, if it is an `int`. -/
theorem stoi_toString (n : Nat) :
    stoi (toString n) = if n ≤ 2147483647 then some (n : Int) else none := by
  have hlist : (toString n).toList = Nat.toDigits 10 n := by
    rw [Nat.toString_eq_repr, Nat.toList_repr]
  have hdigits : ∀ c ∈ (toString n).toList, c.isDigit = true := by
    intro c hc
    rw [hlist] at hc
    exact Nat.isDigit_of_mem_toDigits (by omega) (by omega) hc
  rw [stoi_digits hdigits (by rw [hlist]; exact Nat.toDigits_ne_nil), hlist,
    Nat.ofDigitChars_ten_toDigits]

end Decimal

/-! ## §2. URLs. -/

/-- A URL without user information. -/
def urlText (scheme host port rest : String) : String :=
  scheme ++ "://" ++ host ++ ":" ++ port ++ rest

/-- A host name, or an IPv4 address. -/
def IsHost (host : String) : Prop :=
  host ≠ "" ∧ ∀ c ∈ host.toList, c.isAlphanum = true ∨ c = '-' ∨ c = '.'

/-- The parts of a well-formed URL, with a path and without a fragment. -/
structure IsUrl (scheme host port rest : String) : Prop where
  scheme : scheme ≠ "" ∧ ∀ c ∈ scheme.toList, c.isAlpha = true
  host : IsHost host
  port : ∀ c ∈ port.toList, c.isDigit = true
  slash : rest.toList.head? = some '/'
  fragment : '#' ∉ rest.toList

/-- **A well-formed URL is split into its parts**, and its path and query are what
is after the authority. -/
structure SplitsUrls (uri : String → Uri) : Prop where
  scheme : ∀ {s h p r}, IsUrl s h p r → (uri (urlText s h p r)).scheme = s ++ ":"
  host : ∀ {s h p r}, IsUrl s h p r → (uri (urlText s h p r)).host = h
  port : ∀ {s h p r}, IsUrl s h p r → (uri (urlText s h p r)).port = p
  rest : ∀ {s h p r}, IsUrl s h p r →
    (uri (urlText s h p r)).path ++ (uri (urlText s h p r)).query = r

/-- Split a URL without user information at its separators. -/
def splitUrl (url : String) : Uri :=
  let scheme := url.toList.takeWhile (· ≠ ':')
  -- without the `://`
  let rest := (url.toList.dropWhile (· ≠ ':')).drop 3
  let authority := rest.takeWhile (· ≠ '/')
  let rest := rest.dropWhile (· ≠ '/')
  { scheme := String.ofList scheme ++ ":"
    userinfo := ""
    host := String.ofList (authority.takeWhile (· ≠ ':'))
    port := String.ofList ((authority.dropWhile (· ≠ ':')).drop 1)
    path := String.ofList (rest.takeWhile (· ≠ '?'))
    query := String.ofList (rest.dropWhile (· ≠ '?')) }

section Split

variable {c : Char} {l l' : List Char}

theorem forall_ne (h : c ∉ l) : ∀ a ∈ l, (decide (a ≠ c)) = true := by
  intro a ha
  rw [decide_eq_true_eq]
  intro heq
  exact h (heq ▸ ha)

/-- What is before the first separator. -/
theorem takeWhile_ne (h : c ∉ l) : (l ++ c :: l').takeWhile (· ≠ c) = l := by
  rw [List.takeWhile_append_of_pos (forall_ne h)]
  simp

/-- The first separator, and what is after it. -/
theorem dropWhile_ne (h : c ∉ l) : (l ++ c :: l').dropWhile (· ≠ c) = c :: l' := by
  rw [List.dropWhile_append_of_pos (forall_ne h)]
  simp

/-- A separator is in no part whose characters are others. -/
theorem not_mem_of_forall {P : Char → Prop} (h : ∀ a ∈ l, P a) (hc : ¬ P c) : c ∉ l :=
  fun hmem => hc (h c hmem)

end Split

theorem splitUrl_urlText {s h p r : String} (hurl : IsUrl s h p r) :
    ∃ path query, splitUrl (urlText s h p r) = ⟨s ++ ":", "", h, p, path, query⟩ ∧
      path ++ query = r := by
  obtain ⟨rest, hrest⟩ : ∃ rest, r.toList = '/' :: rest := by
    cases hr : r.toList with
    | nil =>
      have hslash := hurl.slash
      rw [hr] at hslash
      cases hslash
    | cons a rest =>
      have hslash := hurl.slash
      rw [hr] at hslash
      cases hslash
      exact ⟨rest, rfl⟩
  -- no part has the separator that ends it
  have hscheme : ':' ∉ s.toList := not_mem_of_forall hurl.scheme.2 (by decide)
  have hcolon : ':' ∉ h.toList := not_mem_of_forall hurl.host.2 (by decide)
  have hslash : '/' ∉ h.toList := not_mem_of_forall hurl.host.2 (by decide)
  have hport : '/' ∉ p.toList := not_mem_of_forall hurl.port (by decide)
  have htext : (urlText s h p r).toList =
      s.toList ++ ':' :: '/' :: '/' :: (h.toList ++ ':' :: p.toList ++ '/' :: rest) := by
    simp [urlText, hrest]
  have hauthority : '/' ∉ h.toList ++ ':' :: p.toList := by simp [hslash, hport]
  refine ⟨String.ofList (r.toList.takeWhile (· ≠ '?')), String.ofList (r.toList.dropWhile (· ≠ '?')),
    ?_, ?_⟩
  · unfold splitUrl
    simp only [htext, takeWhile_ne hscheme, dropWhile_ne hscheme, List.drop_succ_cons, List.drop_zero]
    rw [takeWhile_ne hauthority, dropWhile_ne hauthority, takeWhile_ne hcolon, dropWhile_ne hcolon,
      ← hrest]
    simp
  · rw [← String.ofList_append, List.takeWhile_append_dropWhile, String.ofList_toList]

/-- **There is such a function.** -/
theorem splitsUrls_splitUrl : SplitsUrls splitUrl := by
  constructor
  · intro s h p r hurl
    obtain ⟨path, query, heq, -⟩ := splitUrl_urlText hurl
    rw [heq]
  · intro s h p r hurl
    obtain ⟨path, query, heq, -⟩ := splitUrl_urlText hurl
    rw [heq]
  · intro s h p r hurl
    obtain ⟨path, query, heq, -⟩ := splitUrl_urlText hurl
    rw [heq]
  · intro s h p r hurl
    obtain ⟨path, query, heq, hrest⟩ := splitUrl_urlText hurl
    rw [heq]
    exact hrest

end RealmCpp.Networking
