import Preseed.Texts.Occurrences
import Preseed.Zram.ConfigValues

/-!
# The text of a specification

A writeback specification is given to the kernel as a text, which `Zram::Types` and
`Zram::Policy` take apart with `split /\s+/` and a pattern for each kind of token. The
text of tokens that are joined by spaces is read back as the same tokens.
-/

namespace Preseed.Zram

open List

open Texts (splitFields splitFields_intercalate IsWord isPrefixOf?_append)

/-! ## Tokens -/

/-- A token with the digits that it has. -/
inductive WritebackToken
  | type (name : List Char)
  | page (index : List Char)
  | pages (low high : List Char)
  deriving DecidableEq

/-- The names of `type=`. -/
def typeNames : List (List Char) :=
  ["idle", "huge", "huge_idle", "incompressible"].map String.toList

/-- `/\Atype=(…)\z/`, `/\Apage_index=([0-9]+)\z/` and `/\Apage_indexes=([0-9]+)-([0-9]+)\z/`. -/
def parseToken (token : List Char) : Option WritebackToken :=
  match "type=".toList.isPrefixOf? token with
  | some name => if name ∈ typeNames then some (.type name) else none
  | none =>
    match "page_index=".toList.isPrefixOf? token with
    | some index => if isUint index then some (.page index) else none
    | none =>
      match "page_indexes=".toList.isPrefixOf? token with
      | some range =>
          match range.dropWhile Char.isDigit with
          | '-' :: high =>
              let low := range.takeWhile Char.isDigit
              if isUint low ∧ isUint high then some (.pages low high) else none
          | _ => none
      | none => none

/-- The pages that the kernel takes from a token; a class of pages is none of its own. -/
def WritebackToken.indexes : WritebackToken → Option (List ℕ)
  | .type _ => none
  | .page index => some (Token.page (digitsNumber index)).indexes
  | .pages low high =>
      if digitsNumber low ≤ digitsNumber high then
        some (Token.pages (digitsNumber low) (digitsNumber high)).indexes
      else none

/-- The pages of a field. -/
def tokenPages (token : List Char) : Option (List ℕ) := (parseToken token).bind (·.indexes)

/-- The pages that a text denotes, in order. -/
def decodeSpec (text : List Char) : Option (List ℕ) :=
  ((splitFields isSpace text).mapM tokenPages).map List.flatten

/-- A specification's text. -/
def specText (spec : Spec) : List Char := [' '].intercalate (spec.map fun token => token.text.toList)

theorem toList_text_page (index : ℕ) :
    (Token.page index).text.toList = "page_index=".toList ++ Nat.toDigits 10 index := by
  rw [Token.text, String.toList_append, Nat.toList_repr]

theorem toList_text_pages (low high : ℕ) :
    (Token.pages low high).text.toList =
      "page_indexes=".toList ++ (Nat.toDigits 10 low ++ '-' :: Nat.toDigits 10 high) := by
  rw [Token.text, String.toList_append, String.toList_append, String.toList_append,
    Nat.toList_repr, Nat.toList_repr]
  simp

theorem isUint_toDigits (number : ℕ) : isUint (Nat.toDigits 10 number) = true := by
  have hne : Nat.toDigits 10 number ≠ [] := Nat.toDigits_ne_nil
  have hdigits : ∀ char ∈ Nat.toDigits 10 number, char.isDigit = true := fun char hchar =>
    Nat.isDigit_of_mem_toDigits (by decide) (by decide) hchar
  simpa [isUint, hne] using hdigits

theorem digitsNumber_toDigits (number : ℕ) : digitsNumber (Nat.toDigits 10 number) = number := by
  have hread := Nat.ofDigitChars_toDigits (b := 10) (n := number) (by decide) (by decide)
  rwa [Nat.ofDigitChars_eq_foldl] at hread

theorem parseToken_page {index : List Char} (h : isUint index = true) :
    parseToken ("page_index=".toList ++ index) = some (.page index) := by
  have htype : "type=".toList.isPrefixOf? ("page_index=".toList ++ index) = none := rfl
  rw [parseToken, htype, isPrefixOf?_append]
  exact if_pos h

theorem isDigit_of_isUint {digits : List Char} (h : isUint digits = true) :
    ∀ char ∈ digits, char.isDigit = true := by
  simp only [isUint, Bool.and_eq_true, all_eq_true] at h
  exact h.2

theorem parseToken_pages {low high : List Char} (hlow : isUint low = true)
    (hhigh : isUint high = true) :
    parseToken ("page_indexes=".toList ++ (low ++ '-' :: high)) = some (.pages low high) := by
  have htype : "type=".toList.isPrefixOf? ("page_indexes=".toList ++ (low ++ '-' :: high)) = none :=
    rfl
  have hpage : "page_index=".toList.isPrefixOf? ("page_indexes=".toList ++ (low ++ '-' :: high)) =
      none := rfl
  have hdigits := isDigit_of_isUint hlow
  have hrest : (low ++ '-' :: high).dropWhile Char.isDigit = '-' :: high := by
    rw [dropWhile_append_of_pos hdigits]
    rfl
  have htaken : (low ++ '-' :: high).takeWhile Char.isDigit = low := by
    rw [takeWhile_append_of_pos hdigits]
    simp
  rw [parseToken, htype, hpage, isPrefixOf?_append]
  simp only [hrest, htaken]
  exact if_pos ⟨hlow, hhigh⟩

/-! ## Reading a text back -/

theorem isSpace_of_isDigit {char : Char} (h : char.isDigit = true) : isSpace char = false := by
  simp only [Char.isDigit, Bool.and_eq_true, decide_eq_true_eq] at h
  have hlow : 48 ≤ char.toNat := h.1
  simp only [isSpace, decide_eq_false_iff_not, mem_cons, not_mem_nil,
    or_false]
  omega

/-- A token's text has no spaces. -/
theorem isWord_text (token : Token) : IsWord isSpace token.text.toList := by
  have hdigits : ∀ number, ∀ char ∈ Nat.toDigits 10 number, isSpace char = false :=
    fun number char hchar => isSpace_of_isDigit (isDigit_of_isUint (isUint_toDigits number) char hchar)
  have hpage : "page_index=".toList.all (!isSpace ·) = true := rfl
  have hpages : "page_indexes=".toList.all (!isSpace ·) = true := rfl
  simp only [all_eq_true, Bool.not_eq_true'] at hpage hpages
  cases token with
  | page index =>
    rw [toList_text_page]
    constructor
    · simp
    · intro char hchar
      rcases mem_append.mp hchar with hname | hindex
      · exact hpage char hname
      · exact hdigits index char hindex
  | pages low high =>
    rw [toList_text_pages]
    constructor
    · simp
    · intro char hchar
      rcases mem_append.mp hchar with hname | hrange
      · exact hpages char hname
      · rcases mem_append.mp hrange with hlow | hhigh
        · exact hdigits low char hlow
        · rcases mem_cons.mp hhigh with rfl | hhigh
          · decide
          · exact hdigits high char hhigh

/-- The digits of a token are those of its numbers. -/
def Token.written : Token → WritebackToken
  | .page index => .page (Nat.toDigits 10 index)
  | .pages low high => .pages (Nat.toDigits 10 low) (Nat.toDigits 10 high)

theorem parseToken_text (token : Token) : parseToken token.text.toList = some token.written := by
  cases token with
  | page index =>
    rw [toList_text_page]
    exact parseToken_page (isUint_toDigits index)
  | pages low high =>
    rw [toList_text_pages]
    exact parseToken_pages (isUint_toDigits low) (isUint_toDigits high)

/-- A range's first page is not after its last one. -/
def Token.Ascending : Token → Prop
  | .page _ => True
  | .pages low high => low ≤ high

theorem indexes_written {token : Token} (h : token.Ascending) :
    token.written.indexes = some token.indexes := by
  cases token with
  | page index => rw [Token.written, WritebackToken.indexes, digitsNumber_toDigits]
  | pages low high =>
    rw [Token.written, WritebackToken.indexes, digitsNumber_toDigits, digitsNumber_toDigits]
    exact if_pos h

theorem splitFields_specText {spec : Spec} (hne : spec ≠ []) :
    splitFields isSpace (specText spec) = spec.map fun token => token.text.toList := by
  apply splitFields_intercalate rfl
  · simpa using hne
  · intro word hword
    obtain ⟨token, -, rfl⟩ := mem_map.mp hword
    exact isWord_text token

/-- A step that never fails on the elements. -/
theorem mapM_of_forall {α β : Type} {f : α → Option β} {g : α → β} {xs : List α}
    (h : ∀ x ∈ xs, f x = some (g x)) : xs.mapM f = some (xs.map g) := by
  induction xs with
  | nil => rfl
  | cons x xs ih =>
    have hx := h x (mem_cons_self ..)
    have ih := ih fun y hy => h y (mem_cons_of_mem _ hy)
    rw [mapM_cons, hx, ih]
    rfl

theorem tokenPages_text {token : Token} (h : token.Ascending) :
    tokenPages token.text.toList = some token.indexes := by
  rw [tokenPages, parseToken_text]
  exact indexes_written h

/-- The text of a specification denotes its pages. -/
theorem decodeSpec_specText {spec : Spec} (hne : spec ≠ [])
    (hascending : ∀ token ∈ spec, token.Ascending) :
    decodeSpec (specText spec) = some spec.indexes := by
  have hpages : (spec.map fun token => token.text.toList).mapM tokenPages =
      some (spec.map Token.indexes) := by
    rw [mapM_map]
    exact mapM_of_forall fun token hmem => tokenPages_text (hascending token hmem)
  rw [decodeSpec, splitFields_specText hne, hpages]
  rfl

/-- `length($spec)`. -/
theorem length_specText (spec : Spec) : (specText spec).length = spec.bytes := by
  induction spec with
  | nil => rfl
  | cons token spec ih =>
    cases spec with
    | nil =>
      rw [specText, map_singleton, intercalate_singleton, String.length_toList]
      simp [Spec.bytes]
    | cons next spec =>
      simp only [specText, map_cons] at ih ⊢
      rw [intercalate_cons_cons, length_append, length_append, ih]
      simp only [Spec.bytes, map_cons, sum_cons, length_cons, length_nil,
        String.length_toList]
      omega

end Preseed.Zram
