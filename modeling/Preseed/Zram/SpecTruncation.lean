import Preseed.Zram.SpecText

/-!
# Truncating a specification

`validate_writeback_spec` and `count_page_index_spec_pages` of `Zram::Types` and
`_truncate_page_index_spec` of `Zram::Policy`, on texts. A specification of pages that is
accepted is cut to its first pages, and the text that remains is accepted again.
Page indexes and counts are exact, as the interpreter's integers are below `2 ^ 63`.
-/

namespace Preseed.Zram

open Texts List

/-- `[\x00-\x1f\x7f]`. -/
def isControl (char : Char) : Bool := decide (char.toNat ≤ 31) || char.toNat == 127

/-- One token of `validate_writeback_spec`. -/
def checkToken (pageIndexOnly : Bool) (token : List Char) : Option Unit :=
  match parseToken token with
  | some (.type _) => guard (!pageIndexOnly)
  | some (.page index) => do
      let _ ← ensureUint index
      return ()
  | some (.pages low high) => do
      let low ← ensureUint low
      let high ← ensureUint high
      guard (low ≤ high)
  | none => none

/-- `validate_writeback_spec`. -/
def validateWritebackSpec (pageIndexOnly : Bool) (maxBytes : ℕ) (value : List Char) :
    Option Unit := do
  guard (value ≠ [])
  guard (0 < maxBytes)
  guard (value.length ≤ maxBytes)
  guard (value.all (!isControl ·))
  guard (splitFields isSpace value ≠ [])
  let _ ← (splitFields isSpace value).mapM (checkToken pageIndexOnly)
  return ()

/-- One token of `count_page_index_spec_pages`; another kind of token has no pages. -/
def countTextToken (token : List Char) : Option ℕ :=
  match parseToken token with
  | some (.page index) => do
      let _ ← ensureUint index
      return 1
  | some (.pages low high) => do
      let low ← ensureUint low
      let high ← ensureUint high
      guard (low ≤ high)
      return high - low + 1
  | _ => some 0

/-- `count_page_index_spec_pages`. -/
def countPageIndexSpecPages (maxBytes : ℕ) (value : List Char) : Option ℕ := do
  if value = [] then return 0
  validateWritebackSpec true maxBytes value
  let counts ← (splitFields isSpace value).mapM countTextToken
  return counts.sum

/-- The loop of `_truncate_page_index_spec`. -/
def keepTextTokens : ℕ → List (List Char) → Option (List (List Char))
  | _, [] => some []
  | remaining, token :: tokens =>
      if remaining = 0 then some []
      else
        match parseToken token with
        | some (.page _) => (keepTextTokens (remaining - 1) tokens).map (token :: ·)
        | some (.pages low high) =>
            let low := digitsNumber low
            let high := digitsNumber high
            let count := high - low + 1
            if count ≤ remaining then
              (keepTextTokens (remaining - count) tokens).map (token :: ·)
            else some [(Token.ofRange low (low + remaining - 1)).text.toList]
        | _ => none

/-- `_truncate_page_index_spec`. -/
def truncateSpecText (maxBytes : ℕ) (spec : List Char) (maxPages : ℕ) : Option (List Char) := do
  if maxPages = 0 then return []
  let pages ← countPageIndexSpecPages maxBytes spec
  if pages ≤ maxPages then return spec
  let kept ← keepTextTokens maxPages (splitFields isSpace spec)
  guard (kept ≠ [])
  return [' '].intercalate kept

/-! ## Tokens -/

/-- A token of pages is its name and its digits. -/
inductive IndexToken (token : List Char) (pages : List ℕ) : Prop
  | page (index : List Char) (text : token = "page_index=".toList ++ index)
      (digits : isUint index = true) (indexes : pages = [digitsNumber index])
  | pages (low high : List Char) (text : token = "page_indexes=".toList ++ (low ++ '-' :: high))
      (lowDigits : isUint low = true) (highDigits : isUint high = true)
      (ascending : digitsNumber low ≤ digitsNumber high)
      (indexes : pages = (Token.pages (digitsNumber low) (digitsNumber high)).indexes)

variable {token : List Char}

theorem indexToken_of_tokenPages {pages : List ℕ}
    (h : tokenPages token = some pages) : IndexToken token pages := by
  unfold tokenPages parseToken at h
  split at h
  · split at h <;> cases h
  · split at h
    · rename_i index hindex
      have htext := eq_append_of_isPrefixOf? hindex
      split at h
      · rename_i hdigits
        cases h
        exact .page index htext hdigits rfl
      · cases h
    · split at h
      · rename_i range hrange
        have htext := eq_append_of_isPrefixOf? hrange
        split at h
        · rename_i high hhigh
          simp only at h
          split at h
          · rename_i hdigits
            have hsplit : range = range.takeWhile Char.isDigit ++ '-' :: high := by
              rw [← hhigh, takeWhile_append_dropWhile]
            simp only [Option.bind_some, WritebackToken.indexes, Option.ite_none_right_eq_some,
              Option.some.injEq] at h
            rw [hsplit] at htext
            exact .pages _ high htext hdigits.1 hdigits.2 h.1 h.2.symm
          · cases h
        · cases h
      · cases h

variable {digits : List Char}

theorem ensureUint_of_isUint (h : isUint digits = true) :
    ensureUint digits = some (digitsNumber digits) := by
  unfold ensureUint
  simp only [guard, if_pos h]
  rfl

theorem IndexToken.tokenPages {pages : List ℕ} (h : IndexToken token pages) :
    tokenPages token = some pages := by
  cases h with
  | page index text digits indexes =>
    rw [text, Zram.tokenPages, parseToken_page digits, indexes]
    rfl
  | pages low high text lowDigits highDigits ascending indexes =>
    rw [text, Zram.tokenPages, parseToken_pages lowDigits highDigits, indexes]
    exact if_pos ascending

/-- The counter agrees with the pages. -/
theorem IndexToken.count {pages : List ℕ} (h : IndexToken token pages) :
    countTextToken token = some pages.length := by
  cases h with
  | page index text digits indexes =>
    rw [text, countTextToken, parseToken_page digits, indexes]
    simp only [ensureUint_of_isUint digits]
    rfl
  | pages low high text lowDigits highDigits ascending indexes =>
    have hlength : pages.length = digitsNumber high - digitsNumber low + 1 := by
      rw [indexes, Token.indexes, length_range']
      omega
    rw [text, countTextToken, parseToken_pages lowDigits highDigits, hlength]
    simp only [ensureUint_of_isUint lowDigits, ensureUint_of_isUint highDigits]
    show (guard (digitsNumber low ≤ digitsNumber high) >>= fun _ => some _) = some _
    simp only [guard, if_pos ascending]
    rfl

/-- A token is accepted among page indexes when it has pages. -/
theorem checkToken_iff :
    checkToken true token = some () ↔ ∃ pages, IndexToken token pages := by
  constructor
  · intro h
    unfold checkToken at h
    split at h
    · cases h
    · rename_i index hparse
      cases hdigits : isUint index with
      | false =>
        simp [ensureUint, hdigits, guard] at h
      | true =>
        refine ⟨[digitsNumber index], indexToken_of_tokenPages ?_⟩
        rw [Zram.tokenPages, hparse]
        rfl
    · rename_i low high hparse
      by_cases hle : digitsNumber low ≤ digitsNumber high
      · refine ⟨(Token.pages (digitsNumber low) (digitsNumber high)).indexes,
          indexToken_of_tokenPages ?_⟩
        rw [Zram.tokenPages, hparse]
        exact if_pos hle
      · cases hlow : isUint low <;> cases hhigh : isUint high <;>
          simp [ensureUint, hlow, hhigh, guard, hle] at h
    · cases h
  · rintro ⟨pages, h⟩
    cases h with
    | page index text digits indexes =>
      rw [text, checkToken, parseToken_page digits]
      simp only [ensureUint_of_isUint digits]
      rfl
    | pages low high text lowDigits highDigits ascending indexes =>
      rw [text, checkToken, parseToken_pages lowDigits highDigits]
      simp only [ensureUint_of_isUint lowDigits, ensureUint_of_isUint highDigits]
      show guard (digitsNumber low ≤ digitsNumber high) = some ()
      simp only [guard, if_pos ascending]
      rfl

theorem isControl_of_isDigit {char : Char} (h : char.isDigit = true) : isControl char = false := by
  simp only [Char.isDigit, Bool.and_eq_true, decide_eq_true_eq] at h
  have hlow : 48 ≤ char.toNat := h.1
  have hhigh : char.toNat ≤ 57 := h.2
  simp only [isControl, Bool.or_eq_false_iff, decide_eq_false_iff_not, beq_eq_false_iff_ne]
  omega

/-- A token has no spaces and no control characters. -/
theorem IndexToken.clean {pages : List ℕ} (h : IndexToken token pages) :
    ∀ char ∈ token, isSpace char = false ∧ isControl char = false := by
  have hdigits {digits : List Char} (h : isUint digits = true) (char : Char)
      (hchar : char ∈ digits) : isSpace char = false ∧ isControl char = false :=
    ⟨isSpace_of_isDigit (isDigit_of_isUint h char hchar),
      isControl_of_isDigit (isDigit_of_isUint h char hchar)⟩
  have hpage : "page_index=".toList.all (fun char => !isSpace char && !isControl char) = true := rfl
  have hpages : "page_indexes=".toList.all (fun char => !isSpace char && !isControl char) = true :=
    rfl
  simp only [all_eq_true, Bool.and_eq_true, Bool.not_eq_true'] at hpage hpages
  intro char hchar
  cases h with
  | page index text digits indexes =>
    rw [text] at hchar
    rcases mem_append.mp hchar with hname | hindex
    · exact hpage char hname
    · exact hdigits digits char hindex
  | pages low high text lowDigits highDigits ascending indexes =>
    rw [text] at hchar
    rcases mem_append.mp hchar with hname | hrange
    · exact hpages char hname
    · rcases mem_append.mp hrange with hlow | hhigh
      · exact hdigits lowDigits char hlow
      · rcases mem_cons.mp hhigh with rfl | hhigh
        · exact ⟨rfl, rfl⟩
        · exact hdigits highDigits char hhigh

theorem IndexToken.isWord {pages : List ℕ} (h : IndexToken token pages) :
    IsWord isSpace token := by
  refine ⟨?_, fun char hchar => (h.clean char hchar).1⟩
  cases h with
  | page index text => simp [text]
  | pages low high text => simp [text]

/-! ## Lengths -/

theorem digitsNumber_lt (h : isUint digits = true) :
    digitsNumber digits < 10 ^ digits.length := by
  have hdigits := isDigit_of_isUint h
  clear h
  have hread : digitsNumber digits = Nat.ofDigitChars 10 digits 0 :=
    Nat.ofDigitChars_eq_foldl.symm
  rw [hread]
  clear hread
  induction digits with
  | nil => exact Nat.one_pos
  | cons digit digits ih =>
    have ih := ih fun char hchar => hdigits char (mem_cons_of_mem _ hchar)
    have hdigit := hdigits digit (mem_cons_self ..)
    simp only [Char.isDigit, Bool.and_eq_true, decide_eq_true_eq] at hdigit
    have hhigh : digit.toNat ≤ 57 := hdigit.2
    have hzero : '0'.toNat = 48 := rfl
    have hvalue : digit.toNat - '0'.toNat ≤ 9 := by omega
    rw [Nat.ofDigitChars_cons, Nat.ofDigitChars_eq_ofDigitChars_zero, length_cons, Nat.pow_succ,
      Nat.mul_zero, Nat.zero_add]
    have hscaled := Nat.mul_le_mul_left (10 ^ digits.length) hvalue
    omega

/-- Digits are at least as long as their number needs. -/
theorem length_toDigits_le (h : isUint digits = true) {number : ℕ}
    (hle : number ≤ digitsNumber digits) : (Nat.toDigits 10 number).length ≤ digits.length := by
  have hpos : 0 < digits.length := by
    cases digits with
    | nil => cases h
    | cons => exact Nat.succ_pos _
  rw [Nat.length_toDigits_le_iff (by decide) hpos]
  exact Nat.lt_of_le_of_lt hle (digitsNumber_lt h)

/-- The first pages of a range need no longer text. -/
theorem length_slice_le {low high : List Char} (hlow : isUint low = true)
    (hhigh : isUint high = true) {last : ℕ} (hlast : last ≤ digitsNumber high) :
    (Token.ofRange (digitsNumber low) last).text.toList.length ≤
      ("page_indexes=".toList ++ (low ++ '-' :: high)).length := by
  have hfirst := length_toDigits_le hlow (Nat.le_refl _)
  have hsecond := length_toDigits_le hhigh hlast
  unfold Token.ofRange
  split
  · rw [toList_text_page]
    simp only [length_append, length_cons]
    have hnames : "page_index=".toList.length ≤ "page_indexes=".toList.length := by decide
    omega
  · rw [toList_text_pages]
    simp only [length_append, length_cons]
    omega

/-! ## Truncation -/

variable {tokens : List (List Char)}

/-- The tokens which are kept have the first pages, in no more bytes. -/
theorem keepTextTokens_spec {pages : List (List ℕ)} (h : List.Forall₂ IndexToken tokens pages)
    (remaining : ℕ) :
    ∃ kept keptPages, keepTextTokens remaining tokens = some kept ∧
      List.Forall₂ IndexToken kept keptPages ∧
      keptPages.flatten = pages.flatten.take remaining ∧
      spacedLength kept ≤ spacedLength tokens ∧
      (0 < remaining → tokens ≠ [] → kept ≠ []) := by
  induction h generalizing remaining with
  | nil => exact ⟨[], [], by simp [keepTextTokens], .nil, by simp, Nat.le_refl _, fun _ h => h⟩
  | @cons token first tokens pages htoken htokens ih =>
    by_cases hzero : remaining = 0
    · subst hzero
      refine ⟨[], [], ?_, .nil, by simp, Nat.zero_le _, fun h => absurd h (Nat.lt_irrefl 0)⟩
      rw [keepTextTokens, if_pos rfl]
    · have hkeep (count : ℕ) (hcount : first.length = count) (hle : count ≤ remaining) :
          ∃ kept keptPages, (keepTextTokens (remaining - count) tokens).map (token :: ·) = some kept ∧
            List.Forall₂ IndexToken kept keptPages ∧
            keptPages.flatten = (first :: pages).flatten.take remaining ∧
            spacedLength kept ≤ spacedLength (token :: tokens) ∧
            (0 < remaining → token :: tokens ≠ [] → kept ≠ []) := by
        obtain ⟨kept, keptPages, hkept, hforall, hflatten, hbytes, -⟩ := ih (remaining - count)
        refine ⟨token :: kept, first :: keptPages, ?_, .cons htoken hforall, ?_, ?_, ?_⟩
        · rw [hkept]
          rfl
        · have hwhole : first.take remaining = first := take_of_length_le (by omega)
          rw [flatten_cons, flatten_cons, take_append, hflatten, hcount, hwhole]
        · simp only [spacedLength, map_cons, sum_cons] at hbytes ⊢
          omega
        · exact fun _ _ => cons_ne_nil _ _
      rw [keepTextTokens, if_neg hzero]
      cases htoken with
      | page index text digits indexes =>
        have hcount : first.length = 1 := by rw [indexes]; rfl
        have hparse : parseToken token = some (.page index) := by
          rw [text]
          exact parseToken_page digits
        rw [hparse]
        exact hkeep 1 hcount (by omega)
      | pages low high text lowDigits highDigits ascending indexes =>
        have hcount : first.length = digitsNumber high - digitsNumber low + 1 := by
          rw [indexes, Token.indexes, length_range']
          omega
        have hparse : parseToken token = some (.pages low high) := by
          rw [text]
          exact parseToken_pages lowDigits highDigits
        rw [hparse]
        simp only
        split
        · rename_i hle
          exact hkeep _ hcount hle
        · rename_i hlarge
          have hfirst : digitsNumber low ≤ digitsNumber low + remaining - 1 := by omega
          have hslice := Token.indexes_ofRange hfirst
          have hascending :
              (Token.ofRange (digitsNumber low) (digitsNumber low + remaining - 1)).Ascending := by
            unfold Token.ofRange
            split
            · trivial
            · exact hfirst
          refine ⟨_, [(Token.ofRange (digitsNumber low) (digitsNumber low + remaining - 1)).indexes],
            rfl, .cons (indexToken_of_tokenPages (tokenPages_text hascending)) .nil, ?_, ?_, ?_⟩
          · have hlength : digitsNumber low + remaining - 1 + 1 - digitsNumber low = remaining := by
              omega
            have hnone : remaining - first.length = 0 := by omega
            rw [flatten_cons, flatten_nil, append_nil, hslice, hlength,
              flatten_cons, take_append, hnone, take_zero, append_nil, indexes,
              Token.indexes, take_range'_of_length_ge (by omega)]
          · have hlast : digitsNumber low + remaining - 1 ≤ digitsNumber high := by omega
            have hshorter := length_slice_le lowDigits highDigits hlast
            rw [← text] at hshorter
            simp only [spacedLength, map_cons, map_nil, sum_cons, sum_nil]
            omega
          · exact fun _ _ => cons_ne_nil _ _

/-- The tokens of a text of page indexes. -/
structure IndexSpec (maxBytes : ℕ) (spec : List Char) (pages : List (List ℕ)) : Prop where
  bytes : spec.length ≤ maxBytes
  control : ∀ char ∈ spec, isControl char = false
  nonempty : splitFields isSpace spec ≠ []
  tokens : List.Forall₂ IndexToken (splitFields isSpace spec) pages

theorem forall₂_of_checked {checked : List Unit}
    (h : tokens.mapM (checkToken true) = some checked) :
    ∃ pages, List.Forall₂ IndexToken tokens pages := by
  induction tokens generalizing checked with
  | nil => exact ⟨[], .nil⟩
  | cons token tokens ih =>
    simp only [mapM_cons, Option.bind_eq_bind, Option.bind_eq_some_iff] at h
    obtain ⟨_, htoken, rest, hrest, -⟩ := h
    obtain ⟨first, hfirst⟩ := checkToken_iff.mp htoken
    obtain ⟨pages, hpages⟩ := ih hrest
    exact ⟨first :: pages, .cons hfirst hpages⟩

theorem mapM_of_forall₂ {β : Type} {f : List Char → Option β} {g : List ℕ → β}
    (hf : ∀ token pages, IndexToken token pages → f token = some (g pages)) {pages : List (List ℕ)}
    (h : List.Forall₂ IndexToken tokens pages) :
    tokens.mapM f = some (pages.map g) := by
  induction h with
  | nil => rfl
  | cons htoken _ ih =>
    rw [mapM_cons, hf _ _ htoken, ih]
    rfl

variable {maxBytes : ℕ} {spec : List Char}

/-- What `validate_writeback_spec` accepts of page indexes. -/
theorem validate_iff :
    validateWritebackSpec true maxBytes spec = some () ↔ ∃ pages, IndexSpec maxBytes spec pages := by
  constructor
  · intro h
    simp only [validateWritebackSpec, Option.bind_eq_bind, Option.bind_eq_some_iff,
      Option.guard_eq_some', all_eq_true, Bool.not_eq_true'] at h
    obtain ⟨_, -, _, -, _, hbytes, _, hcontrol, _, hsome, checked, hchecked, -⟩ := h
    obtain ⟨pages, hpages⟩ := forall₂_of_checked hchecked
    exact ⟨pages, hbytes, hcontrol, hsome, hpages⟩
  · rintro ⟨pages, hbytes, hcontrol, hsome, htokens⟩
    have hne : spec ≠ [] := by
      rintro rfl
      exact hsome rfl
    have hpos : 0 < maxBytes := by
      have hlength := length_pos_iff.mpr hne
      omega
    have hchecked := mapM_of_forall₂ (f := checkToken true) (g := fun _ => ())
      (fun token pages htoken => checkToken_iff.mpr ⟨pages, htoken⟩) htokens
    have hall : (spec.all (!isControl ·)) = true := by
      simpa [all_eq_true] using hcontrol
    simp only [validateWritebackSpec, guard, if_pos hne, if_pos hpos, if_pos hbytes, if_pos hall,
      if_pos hsome, hchecked]
    rfl

theorem IndexSpec.decode {pages : List (List ℕ)}
    (h : IndexSpec maxBytes spec pages) : decodeSpec spec = some pages.flatten := by
  have hpages := mapM_of_forall₂ (f := tokenPages) (g := id)
    (fun token pages htoken => htoken.tokenPages) h.tokens
  rw [decodeSpec, hpages, map_id]
  rfl

theorem IndexSpec.count {pages : List (List ℕ)} (h : IndexSpec maxBytes spec pages) :
    countPageIndexSpecPages maxBytes spec = some pages.flatten.length := by
  have hne : spec ≠ [] := by
    rintro rfl
    exact h.nonempty rfl
  have hcounts := mapM_of_forall₂ (f := countTextToken) (g := List.length)
    (fun token pages htoken => htoken.count) h.tokens
  simp only [countPageIndexSpecPages, if_neg hne, validate_iff.mpr ⟨pages, h⟩, hcounts]
  rw [length_flatten]
  rfl

/-- Words of pages that are joined are again a specification. -/
theorem indexSpec_intercalate {kept : List (List Char)} {pages : List (List ℕ)} (hne : kept ≠ [])
    (h : List.Forall₂ IndexToken kept pages) (hbytes : spacedLength kept ≤ maxBytes + 1) :
    IndexSpec maxBytes ([' '].intercalate kept) pages := by
  have hwords : ∀ word ∈ kept, ∃ pages, IndexToken word pages := by
    intro word hword
    obtain ⟨index, hindex, rfl⟩ := getElem_of_mem hword
    exact ⟨_, h.get hindex (h.length_eq ▸ hindex)⟩
  have hfields : splitFields isSpace ([' '].intercalate kept) = kept := by
    apply splitFields_intercalate rfl hne
    intro word hword
    obtain ⟨pages, htoken⟩ := hwords word hword
    exact htoken.isWord
  have hlength := length_intercalate ' ' hne
  constructor
  · omega
  · intro char hchar
    rcases mem_of_mem_intercalate hchar with hspace | ⟨word, hword, hchar⟩
    · obtain rfl := mem_singleton.mp hspace
      rfl
    · obtain ⟨pages, htoken⟩ := hwords word hword
      exact (htoken.clean char hchar).2
  · rwa [hfields]
  · rwa [hfields]

/-- What truncation promises of an accepted specification. -/
structure KeepsFirstPages (maxBytes maxPages : ℕ) (spec truncated : List Char)
    (pages : List ℕ) : Prop where
  decoded : decodeSpec spec = some pages
  counted : countPageIndexSpecPages maxBytes spec = some pages.length
  accepted : validateWritebackSpec true maxBytes truncated = some ()
  first : decodeSpec truncated = some (pages.take maxPages)

theorem IndexSpec.truncate {maxPages : ℕ} {pages : List (List ℕ)}
    (h : IndexSpec maxBytes spec pages) (hmax : 0 < maxPages) :
    ∃ truncated, truncateSpecText maxBytes spec maxPages = some truncated ∧
      KeepsFirstPages maxBytes maxPages spec truncated pages.flatten := by
  unfold truncateSpecText
  rw [if_neg (by omega), h.count]
  by_cases hfew : pages.flatten.length ≤ maxPages
  · refine ⟨spec, ?_, h.decode, h.count, validate_iff.mpr ⟨pages, h⟩, ?_⟩
    · show (if pages.flatten.length ≤ maxPages then some spec else _) = some spec
      rw [if_pos hfew]
    · rw [take_of_length_le hfew]
      exact h.decode
  · obtain ⟨kept, keptPages, hkept, hforall, hflatten, hbytes, hne⟩ :=
      keepTextTokens_spec h.tokens maxPages
    have hne := hne hmax h.nonempty
    have hlength := spacedLength_splitFields isSpace spec
    have hlimit := h.bytes
    have hjoined : IndexSpec maxBytes ([' '].intercalate kept) keptPages :=
      indexSpec_intercalate hne hforall (by omega)
    refine ⟨[' '].intercalate kept, ?_, h.decode, h.count, validate_iff.mpr ⟨keptPages, hjoined⟩, ?_⟩
    · show (if pages.flatten.length ≤ maxPages then some spec else _) = _
      rw [if_neg hfew, hkept]
      show (guard (kept ≠ []) >>= fun _ => some ([' '].intercalate kept)) = _
      simp only [guard, if_pos hne]
      rfl
    · rw [hjoined.decode, hflatten]

theorem checkToken_eq (h : ∀ name, parseToken token ≠ some (.type name)) :
    checkToken true token = checkToken false token := by
  unfold checkToken
  cases hparse : parseToken token with
  | none => rfl
  | some parsed =>
    cases parsed with
    | type name => exact absurd hparse (h name)
    | page | pages => rfl

/-- Without a class of pages, what is accepted is a specification of page indexes. -/
theorem validate_only_indexes
    (hclass : ∀ name, ∀ token ∈ splitFields isSpace spec, parseToken token ≠ some (.type name)) :
    validateWritebackSpec true maxBytes spec = validateWritebackSpec false maxBytes spec := by
  have hchecked : (splitFields isSpace spec).mapM (checkToken true) =
      (splitFields isSpace spec).mapM (checkToken false) := by
    generalize splitFields isSpace spec = tokens at hclass
    induction tokens with
    | nil => rfl
    | cons token tokens ih =>
      have htoken := checkToken_eq fun name => hclass name token (mem_cons_self ..)
      have ih := ih fun name other hother => hclass name other (mem_cons_of_mem _ hother)
      rw [mapM_cons, mapM_cons, htoken, ih]
  unfold validateWritebackSpec
  rw [hchecked]

/-- An accepted specification of page indexes is truncated to its first pages, and the text
is accepted again. Any other accepted specification has a class of pages, and truncating it
is fatal. -/
theorem truncation_keeps_first_pages (maxBytes maxPages : ℕ) (spec : List Char)
    (hmax : 0 < maxPages) (hspec : validateWritebackSpec false maxBytes spec = some ()) :
    (validateWritebackSpec true maxBytes spec = some () ∧
      ∃ truncated pages, truncateSpecText maxBytes spec maxPages = some truncated ∧
        KeepsFirstPages maxBytes maxPages spec truncated pages) ∨
    ((∃ name, ∃ token ∈ splitFields isSpace spec, parseToken token = some (.type name)) ∧
      truncateSpecText maxBytes spec maxPages = none) := by
  cases hvalid : validateWritebackSpec true maxBytes spec with
  | some =>
    left
    obtain ⟨pages, hpages⟩ := validate_iff.mp hvalid
    obtain ⟨truncated, htruncated, hkeeps⟩ := hpages.truncate hmax
    exact ⟨rfl, truncated, pages.flatten, htruncated, hkeeps⟩
  | none =>
    right
    have hne : spec ≠ [] := by
      rintro rfl
      cases hspec
    constructor
    · by_contra hclass
      push Not at hclass
      rw [validate_only_indexes hclass, hspec] at hvalid
      cases hvalid
    · unfold truncateSpecText countPageIndexSpecPages
      rw [if_neg (by omega), if_neg hne, hvalid]
      rfl

/-- A page and the first page of a range. -/
theorem truncation_keeps_first_pages_two :
    ∃ truncated pages,
      truncateSpecText 40 "page_index=3  page_indexes=7-9".toList 2 = some truncated ∧
      truncated = "page_index=3 page_index=7".toList ∧ pages = [3, 7, 8, 9] ∧
      KeepsFirstPages 40 2 "page_index=3  page_indexes=7-9".toList truncated pages := by
  have htext : truncateSpecText 40 "page_index=3  page_indexes=7-9".toList 2 =
      some "page_index=3 page_index=7".toList := by
    decide
  have hdecode : decodeSpec "page_index=3  page_indexes=7-9".toList = some [3, 7, 8, 9] := by
    decide
  rcases truncation_keeps_first_pages 40 2 "page_index=3  page_indexes=7-9".toList (by decide)
    (by decide) with ⟨-, truncated, pages, htruncated, hkeeps⟩ | ⟨-, hnone⟩
  · have hsame : truncated = "page_index=3 page_index=7".toList :=
      Option.some.inj (htruncated.symm.trans htext)
    have hpages : pages = [3, 7, 8, 9] := Option.some.inj (hkeeps.decoded.symm.trans hdecode)
    exact ⟨truncated, pages, htruncated, hsame, hpages, hkeeps⟩
  · rw [htext] at hnone
    cases hnone

/-- A class of pages is accepted, and truncating it is fatal. -/
theorem class_not_truncated :
    validateWritebackSpec false 40 "type=idle".toList = some () ∧
      truncateSpecText 40 "type=idle".toList 1 = none := by
  decide

end Preseed.Zram
