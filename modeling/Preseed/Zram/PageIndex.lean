import Mathlib

/-!
# Page-index specifications

The range builder of `Zram::Metrics` collects page indexes into writeback
specifications, and `Zram::Policy` truncates them. A specification is a list of
tokens, each a page or a range of pages; a fatal error is `none`. Whatever is
flushed, cut or dropped, the pages of the specifications are a sublist of the
pages that were added.
-/

namespace Preseed.Zram

open List

/-! ## Tokens -/

/-- `page_index=N` and `page_indexes=LOW-HIGH`. -/
inductive Token
  | page (index : ℕ)
  | pages (low high : ℕ)
  deriving DecidableEq

/-- The specification's text is its tokens joined by spaces. -/
abbrev Spec := List Token

namespace Token

def text : Token → String
  | page index => "page_index=" ++ Nat.repr index
  | pages low high => "page_indexes=" ++ Nat.repr low ++ "-" ++ Nat.repr high

/-- The page indexes that a token names. -/
def indexes : Token → List ℕ
  | page index => [index]
  | pages low high => List.range' low (high + 1 - low)

/-- A token for a range that is not empty. -/
def ofRange (start stop : ℕ) : Token := if start = stop then page start else pages start stop

theorem indexes_ofRange {start stop : ℕ} (h : start ≤ stop) :
    (ofRange start stop).indexes = List.range' start (stop + 1 - start) := by
  unfold ofRange
  split
  · rename_i heq
    subst heq
    simp [indexes]
  · rfl

end Token

namespace Spec

def indexes (spec : Spec) : List ℕ := spec.flatMap Token.indexes

/-- `length($spec)`. -/
def bytes (spec : Spec) : ℕ := (spec.map fun token => token.text.length).sum + (spec.length - 1)

end Spec

/-- The page indexes of several specifications. -/
def specIndexes (specs : List Spec) : List ℕ := specs.flatMap Spec.indexes

theorem specIndexes_append (left right : List Spec) :
    specIndexes (left ++ right) = specIndexes left ++ specIndexes right :=
  flatMap_append

/-! ## Counting and truncating -/

/-- One token of `count_page_index_spec_pages`. -/
def countToken : Token → Option ℕ
  | .page _ => some 1
  | .pages low high => if low ≤ high then some (high - low + 1) else none

/-- `_page_index_spec_pages`. -/
def pageIndexSpecPages (maxBytes : ℕ) (spec : Spec) : Option ℕ := do
  if spec = [] then return 0
  guard (0 < maxBytes)
  guard (spec.bytes ≤ maxBytes)
  let counts ← spec.mapM countToken
  return counts.sum

/-- The loop of `_truncate_page_index_spec`. -/
def keepTokens : ℕ → Spec → Spec
  | _, [] => []
  | remaining, token :: tokens =>
      if remaining = 0 then []
      else
        match token with
        | .page index => .page index :: keepTokens (remaining - 1) tokens
        | .pages low high =>
            let count := high - low + 1
            if count ≤ remaining then .pages low high :: keepTokens (remaining - count) tokens
            else [Token.ofRange low (low + remaining - 1)]

/-- `_truncate_page_index_spec`. -/
def truncatePageIndexSpec (maxBytes : ℕ) (spec : Spec) (maxPages : ℕ) : Option Spec := do
  if maxPages = 0 then return []
  let pages ← pageIndexSpecPages maxBytes spec
  if pages ≤ maxPages then return spec
  guard (keepTokens maxPages spec ≠ [])
  return keepTokens maxPages spec

theorem countToken_eq {token : Token} {count : ℕ} (h : countToken token = some count) :
    token.indexes.length = count ∧ ∀ low high, token = .pages low high → low ≤ high := by
  cases token with
  | page index =>
    cases h
    simp [Token.indexes]
  | pages low high =>
    simp only [countToken, Option.ite_none_right_eq_some, Option.some.injEq] at h
    obtain ⟨hle, rfl⟩ := h
    refine ⟨?_, fun _ _ heq => ?_⟩
    · rw [Token.indexes, length_range']
      omega
    · cases heq
      exact hle

theorem countTokens_eq {spec : Spec} {counts : List ℕ} (h : spec.mapM countToken = some counts) :
    spec.indexes.length = counts.sum ∧
      ∀ low high, Token.pages low high ∈ spec → low ≤ high := by
  induction spec generalizing counts with
  | nil =>
    obtain rfl : counts = [] := by simpa using h.symm
    simp [Spec.indexes]
  | cons token spec ih =>
    simp only [mapM_cons, Option.bind_eq_bind, Option.bind_eq_some_iff] at h
    obtain ⟨count, hcount, rest, hrest, hcounts⟩ := h
    cases hcounts
    obtain ⟨hlength, hrange⟩ := countToken_eq hcount
    obtain ⟨ihlength, ihrange⟩ := ih hrest
    constructor
    · rw [Spec.indexes, flatMap_cons, length_append, hlength, sum_cons]
      exact congrArg _ ihlength
    · intro low high hmem
      rcases mem_cons.mp hmem with heq | hmem
      · exact hrange low high heq.symm
      · exact ihrange low high hmem

/-- A counted specification has as many pages as were counted. -/
theorem pageIndexSpecPages_eq {maxBytes count : ℕ} {spec : Spec}
    (h : pageIndexSpecPages maxBytes spec = some count) :
    spec.indexes.length = count ∧ ∀ low high, Token.pages low high ∈ spec → low ≤ high := by
  unfold pageIndexSpecPages at h
  split at h
  · rename_i hempty
    subst hempty
    cases h
    simp [Spec.indexes]
  · simp only [Option.bind_eq_bind, Option.bind_eq_some_iff] at h
    obtain ⟨_, _, _, _, counts, hcounts, hcount⟩ := h
    cases hcount
    exact countTokens_eq hcounts

/-- Truncation keeps the first pages. -/
theorem keepTokens_indexes {spec : Spec} (remaining : ℕ)
    (hrange : ∀ low high, Token.pages low high ∈ spec → low ≤ high) :
    (keepTokens remaining spec).indexes = spec.indexes.take remaining := by
  induction spec generalizing remaining with
  | nil => simp [keepTokens, Spec.indexes]
  | cons token spec ih =>
    have ih := fun remaining => ih remaining fun low high hmem =>
      hrange low high (mem_cons_of_mem _ hmem)
    by_cases hzero : remaining = 0
    · subst hzero
      cases token <;> simp [keepTokens, Spec.indexes]
    · cases token with
      | page index =>
        have hcons := ih (remaining - 1)
        obtain ⟨rest, rfl⟩ := Nat.exists_eq_succ_of_ne_zero hzero
        rw [keepTokens, if_neg hzero]
        simp only [Spec.indexes, flatMap_cons, Token.indexes] at hcons ⊢
        rw [hcons]
        rfl
      | pages low high =>
        have hle := hrange low high (mem_cons_self ..)
        have hlength : (Token.pages low high).indexes.length = high - low + 1 := by
          rw [Token.indexes, length_range']
          omega
        have hcons : Spec.indexes (.pages low high :: spec) =
            (Token.pages low high).indexes ++ Spec.indexes spec := rfl
        rw [keepTokens, if_neg hzero, hcons, take_append, hlength]
        simp only
        split
        · rename_i hcount
          have hkept (kept : Spec) : Spec.indexes (.pages low high :: kept) =
              (Token.pages low high).indexes ++ kept.indexes := rfl
          have hwhole : (Token.pages low high).indexes.take remaining =
              (Token.pages low high).indexes :=
            take_of_length_le (by omega)
          rw [hkept, ih, hwhole]
        · rename_i hcount
          have hnone : remaining - (high - low + 1) = 0 := by omega
          have hslice : Spec.indexes [Token.ofRange low (low + remaining - 1)] =
              (Token.ofRange low (low + remaining - 1)).indexes := by
            simp [Spec.indexes]
          have hcut : low + remaining - 1 + 1 - low = remaining := by omega
          rw [hslice, Token.indexes_ofRange (by omega), hnone, take_zero, append_nil,
            Token.indexes, hcut, take_range'_of_length_ge (by omega)]

/-- A truncated specification has the first pages. -/
theorem truncatePageIndexSpec_indexes {maxBytes maxPages : ℕ} {spec truncated : Spec}
    (h : truncatePageIndexSpec maxBytes spec maxPages = some truncated) :
    truncated.indexes = spec.indexes.take maxPages := by
  unfold truncatePageIndexSpec at h
  split at h
  · rename_i hzero
    cases h
    rw [hzero]
    rfl
  · simp only [Option.bind_eq_bind, Option.bind_eq_some_iff] at h
    obtain ⟨pages, hpages, h⟩ := h
    obtain ⟨hlength, hrange⟩ := pageIndexSpecPages_eq hpages
    split at h
    · cases h
      rw [take_of_length_le (by omega)]
    · simp only [Option.bind_eq_some_iff] at h
      obtain ⟨_, _, h⟩ := h
      cases h
      exact keepTokens_indexes maxPages hrange

theorem truncatePageIndexSpec_spec {maxBytes maxPages : ℕ} {spec truncated : Spec}
    (h : truncatePageIndexSpec maxBytes spec maxPages = some truncated) :
    truncated.indexes.Sublist spec.indexes ∧ truncated.indexes.length ≤ maxPages := by
  rw [truncatePageIndexSpec_indexes h]
  exact ⟨take_sublist _ _, length_take_le _ _⟩

end Preseed.Zram
