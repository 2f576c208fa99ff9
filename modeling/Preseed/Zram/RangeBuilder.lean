import Preseed.Zram.PageIndex

/-!
# The range builder

`new_range_builder`, `add_page_index_range` and `finish_page_index_ranges` of
`Zram::Metrics`: page indexes are joined to ranges, ranges are cut to tokens and
tokens are collected in chunks. The builder stops when a class has its pages or
its chunks.
-/

namespace Preseed.Zram

open List Option

/-- The limits of a builder. -/
structure BuilderLimits where
  /-- No limit when 0. -/
  maxPages : ℕ
  /-- No limit when 0. -/
  chunkPageLimit : ℕ
  maxSpecBytes : ℕ
  maxChunks : ℕ

/-- The variables of a builder. -/
structure Builder where
  /-- The range that is still open. -/
  range : Option (ℕ × ℕ)
  chunks : List Spec
  currentTokens : Spec
  currentLen : ℕ
  currentPages : ℕ
  selectedPages : ℕ
  pages : ℕ
  emittedPages : ℕ
  truncated : Bool
  capped : Bool
  deriving DecidableEq

def Builder.initial : Builder := ⟨none, [], [], 0, 0, 0, 0, 0, false, false⟩

/-- `new_range_builder`. -/
def newRangeBuilder (limits : BuilderLimits) : Option Builder := do
  guard (0 < limits.maxSpecBytes)
  guard (0 < limits.maxChunks)
  return Builder.initial

/-- `_finalize_current_chunk`. -/
def finalizeCurrentChunk (limits : BuilderLimits) (builder : Builder) : Builder :=
  if builder.currentTokens = [] then builder
  else
    let cleared := { builder with currentTokens := [], currentLen := 0, currentPages := 0 }
    if limits.maxChunks ≤ builder.chunks.length then { cleared with truncated := true }
    else { cleared with chunks := builder.chunks ++ [builder.currentTokens] }

/-- Finalize a chunk that is full, and stop if another one is not allowed. -/
def nextChunk (limits : BuilderLimits) (builder : Builder) : Builder :=
  let finalized := finalizeCurrentChunk limits builder
  if finalized.truncated then finalized
  else if limits.maxChunks ≤ finalized.chunks.length then { finalized with truncated := true }
  else finalized

/-- The token is the next one of the current chunk. -/
def pushToken (token : Token) (newLen rangePages : ℕ) (builder : Builder) : Builder :=
  { builder with
    currentTokens := builder.currentTokens ++ [token]
    currentLen := newLen
    currentPages := builder.currentPages + rangePages
    emittedPages := builder.emittedPages + rangePages }

/-- The chunk's byte limit, after its page limit. -/
def addWithinBytes (limits : BuilderLimits) (token : Token) (rangePages : ℕ) (builder : Builder) :
    Builder :=
  let newLen := builder.currentLen + token.text.length +
    if builder.currentTokens = [] then 0 else 1
  if limits.maxSpecBytes < newLen then
    let next := nextChunk limits builder
    if next.truncated then next else pushToken token token.text.length rangePages next
  else pushToken token newLen rangePages builder

/-- `_add_range_token`. -/
def addRangeToken (limits : BuilderLimits) (builder : Builder) (token : Token) : Option Builder := do
  let rangePages := token.indexes.length
  if builder.truncated then return builder
  if builder.currentTokens = [] ∧ limits.maxChunks ≤ builder.chunks.length then
    return { builder with truncated := true }
  guard (token.text.length ≤ limits.maxSpecBytes)
  if 0 < limits.chunkPageLimit ∧ builder.currentTokens ≠ [] ∧
      limits.chunkPageLimit < builder.currentPages + rangePages then
    let next := nextChunk limits builder
    if next.truncated then return next
    return addWithinBytes limits token rangePages next
  return addWithinBytes limits token rangePages builder

/-- The tokens of a range, each of at most `limit` pages; every token has a page, so
`fuel` of at least the range's length is enough. -/
def sliceRange (limit : ℕ) : (fuel start stop : ℕ) → Spec
  | 0, _, _ => []
  | fuel + 1, start, stop =>
      if stop < start then []
      else
        let sliceEnd := if 0 < limit ∧ limit < stop - start + 1 then start + limit - 1 else stop
        Token.ofRange start sliceEnd :: sliceRange limit fuel (sliceEnd + 1) stop

/-- `_flush_page_index_range`; a truncated builder takes no more tokens. -/
def flushPageIndexRange (limits : BuilderLimits) (builder : Builder) : Option Builder :=
  match builder.range with
  | none => some builder
  | some (start, stop) => do
      let flushed ← (sliceRange limits.chunkPageLimit (stop + 1 - start) start stop).foldlM
        (addRangeToken limits) builder
      return { flushed with range := none }

/-- `add_page_index_range`. -/
def addPageIndexRange (limits : BuilderLimits) (builder : Builder) (index : ℕ) : Option Builder :=
  if builder.truncated then some builder
  else
    let counted := { builder with pages := builder.pages + 1 }
    if 0 < limits.maxPages ∧ limits.maxPages ≤ counted.selectedPages then
      some { counted with capped := true }
    else
      let selected := { counted with selectedPages := counted.selectedPages + 1 }
      match selected.range with
      | none => some { selected with range := some (index, index) }
      | some (start, stop) =>
          if index = stop + 1 then some { selected with range := some (start, index) }
          else do
            let flushed ← flushPageIndexRange limits selected
            if flushed.truncated then return flushed
            else return { flushed with range := some (index, index) }

/-- `finish_page_index_ranges`. -/
def finishPageIndexRanges (limits : BuilderLimits) (builder : Builder) : Option Builder := do
  let flushed ← flushPageIndexRange limits builder
  return finalizeCurrentChunk limits flushed

/-! ## The pages of a builder -/

namespace Builder

/-- The pages which the chunks already have. -/
def emitted (builder : Builder) : List ℕ :=
  specIndexes builder.chunks ++ builder.currentTokens.indexes

/-- The pages of the open range. -/
def opened (builder : Builder) : List ℕ :=
  match builder.range with
  | none => []
  | some (start, stop) => List.range' start (stop + 1 - start)

/-- The pages which the chunks have or get. -/
def selection (builder : Builder) : List ℕ := builder.emitted ++ builder.opened

end Builder

theorem indexes_sliceRange (limit : ℕ) {fuel start stop : ℕ} (h : stop + 1 - start ≤ fuel) :
    (sliceRange limit fuel start stop).indexes = List.range' start (stop + 1 - start) := by
  induction fuel generalizing start with
  | zero =>
    have hlen : stop + 1 - start = 0 := by omega
    rw [hlen]
    rfl
  | succ fuel ih =>
    unfold sliceRange
    split
    · have hlen : stop + 1 - start = 0 := by omega
      rw [hlen]
      rfl
    · simp only [Spec.indexes, flatMap_cons] at ih ⊢
      split
      · rw [Token.indexes_ofRange (by omega), ih (by omega)]
        have hnext : start + limit - 1 + 1 = start + limit := by omega
        have hlength : stop + 1 - start = limit + (stop + 1 - (start + limit)) := by omega
        rw [hnext, hlength, Nat.add_sub_cancel_left, range'_append_1]
      · rw [Token.indexes_ofRange (by omega), ih (by omega)]
        simp

theorem finalizeCurrentChunk_emitted (limits : BuilderLimits) (builder : Builder) :
    (finalizeCurrentChunk limits builder).emitted.Sublist builder.emitted ∧
      (finalizeCurrentChunk limits builder).selectedPages = builder.selectedPages := by
  unfold finalizeCurrentChunk
  split
  · exact ⟨.refl _, rfl⟩
  · split
    · refine ⟨?_, rfl⟩
      simp [Builder.emitted, Spec.indexes]
    · refine ⟨?_, rfl⟩
      simp [Builder.emitted, specIndexes, Spec.indexes]

theorem nextChunk_emitted (limits : BuilderLimits) (builder : Builder) :
    (nextChunk limits builder).emitted.Sublist builder.emitted ∧
      (nextChunk limits builder).selectedPages = builder.selectedPages := by
  have hfinalized := finalizeCurrentChunk_emitted limits builder
  unfold nextChunk
  simp only
  split
  · exact hfinalized
  · split
    · exact hfinalized
    · exact hfinalized

theorem pushToken_emitted (token : Token) (newLen rangePages : ℕ) (builder : Builder) :
    (pushToken token newLen rangePages builder).emitted = builder.emitted ++ token.indexes := by
  simp [pushToken, Builder.emitted, Spec.indexes]

theorem addWithinBytes_emitted (limits : BuilderLimits) (token : Token) (rangePages : ℕ)
    (builder : Builder) :
    (addWithinBytes limits token rangePages builder).emitted.Sublist
        (builder.emitted ++ token.indexes) ∧
      (addWithinBytes limits token rangePages builder).selectedPages = builder.selectedPages := by
  obtain ⟨hnext, hselected⟩ := nextChunk_emitted limits builder
  unfold addWithinBytes
  simp only
  generalize builder.currentLen + token.text.length +
    (if builder.currentTokens = [] then 0 else 1) = newLen
  split
  · split
    · exact ⟨hnext.trans (sublist_append_left _ _), hselected⟩
    · rw [pushToken_emitted]
      exact ⟨.append hnext (.refl _), hselected⟩
  · rw [pushToken_emitted]
    exact ⟨.refl _, rfl⟩

variable {limits : BuilderLimits} {builder : Builder}

/-- A token adds at most its own pages. -/
theorem addRangeToken_emitted {added : Builder} {token : Token}
    (h : addRangeToken limits builder token = some added) :
    added.emitted.Sublist (builder.emitted ++ token.indexes) ∧
      added.selectedPages = builder.selectedPages := by
  obtain ⟨hnext, hselected⟩ := nextChunk_emitted limits builder
  have hkept : builder.emitted.Sublist (builder.emitted ++ token.indexes) :=
    sublist_append_left _ _
  unfold addRangeToken at h
  simp only at h
  split at h
  · cases h
    exact ⟨hkept, rfl⟩
  · split at h
    · cases h
      exact ⟨hkept, rfl⟩
    · simp only [bind_eq_bind, bind_eq_some_iff] at h
      obtain ⟨_, _, h⟩ := h
      split at h
      · split at h
        · cases h
          exact ⟨hnext.trans hkept, hselected⟩
        · cases h
          obtain ⟨hadded, hsame⟩ :=
            addWithinBytes_emitted limits token token.indexes.length (nextChunk limits builder)
          exact ⟨hadded.trans (.append hnext (.refl _)),
            hsame.trans hselected⟩
      · cases h
        exact addWithinBytes_emitted limits token token.indexes.length builder

theorem addRangeTokens_emitted {tokens : Spec} {added : Builder}
    (h : tokens.foldlM (addRangeToken limits) builder = some added) :
    added.emitted.Sublist (builder.emitted ++ tokens.indexes) ∧
      added.selectedPages = builder.selectedPages := by
  induction tokens generalizing builder with
  | nil =>
    cases h
    simp [Spec.indexes]
  | cons token tokens ih =>
    rw [foldlM_cons, bind_eq_bind, bind_eq_some_iff] at h
    obtain ⟨between, hstep, hrest⟩ := h
    obtain ⟨hfirst, hsame⟩ := addRangeToken_emitted hstep
    obtain ⟨hrest, hselected⟩ := ih hrest
    refine ⟨?_, hselected.trans hsame⟩
    rw [Spec.indexes, flatMap_cons, ← append_assoc]
    exact hrest.trans (.append hfirst (.refl _))

/-- Flushing keeps the order of the pages and adds none. -/
theorem flush_emitted {flushed : Builder} (h : flushPageIndexRange limits builder = some flushed) :
    flushed.emitted.Sublist builder.selection ∧ flushed.range = none ∧
      flushed.selectedPages = builder.selectedPages := by
  unfold flushPageIndexRange at h
  cases hrange : builder.range with
  | none =>
    rw [hrange] at h
    cases h
    simp [Builder.selection, Builder.opened, hrange]
  | some range =>
    obtain ⟨start, stop⟩ := range
    rw [hrange] at h
    simp only [bind_eq_bind, bind_eq_some_iff] at h
    obtain ⟨added, hadded, h⟩ := h
    cases h
    obtain ⟨htokens, hselected⟩ := addRangeTokens_emitted hadded
    rw [indexes_sliceRange _ (Nat.le_refl _)] at htokens
    have hselection : builder.selection =
        builder.emitted ++ List.range' start (stop + 1 - start) := by
      simp [Builder.selection, Builder.opened, hrange]
    rw [hselection]
    exact ⟨htokens, rfl, hselected⟩

/-! ## Pages which are added -/

/-- A builder's selection, in terms of the pages that were added so far. -/
structure Collects (limits : BuilderLimits) (builder : Builder) (added : List ℕ) : Prop where
  sublist : builder.selection.Sublist added
  length : builder.selection.length ≤ builder.selectedPages
  cap : 0 < limits.maxPages → builder.selectedPages ≤ limits.maxPages
  range : ∀ start stop, builder.range = some (start, stop) → start ≤ stop

theorem Collects.initial (limits : BuilderLimits) : Collects limits Builder.initial [] where
  sublist := List.Sublist.refl _
  length := Nat.le_refl _
  cap _ := Nat.zero_le _
  range _ _ h := by cases h

variable {added : List ℕ}

theorem Collects.skip (index : ℕ)
    (h : Collects limits builder added) : Collects limits builder (added ++ [index]) :=
  { h with sublist := h.sublist.trans (sublist_append_left _ _) }

/-- The selection of a builder that opens a range with one page. -/
theorem Collects.opens {selected : Builder} {index : ℕ} (h : Collects limits builder added)
    (hroom : ¬(0 < limits.maxPages ∧ limits.maxPages ≤ builder.selectedPages))
    (hemitted : selected.emitted.Sublist builder.selection)
    (hrange : selected.range = some (index, index))
    (hselected : selected.selectedPages = builder.selectedPages + 1) :
    Collects limits selected (added ++ [index]) := by
  have hselection : selected.selection = selected.emitted ++ [index] := by
    simp [Builder.selection, Builder.opened, hrange]
  constructor
  · rw [hselection]
    exact .append (hemitted.trans h.sublist) (.refl _)
  · have hlength := hemitted.length_le
    have hcount := h.length
    rw [hselection, hselected, length_append, length_singleton]
    omega
  · intro hmax
    omega
  · intro start stop hopen
    rw [hrange] at hopen
    cases hopen
    exact Nat.le_refl _

/-- Adding a page selects at most that page. -/
theorem Collects.add {after : Builder} {index : ℕ} (h : Collects limits builder added)
    (hadd : addPageIndexRange limits builder index = some after) :
    Collects limits after (added ++ [index]) := by
  unfold addPageIndexRange at hadd
  split at hadd
  · cases hadd
    exact h.skip index
  · simp only at hadd
    split at hadd
    · cases hadd
      have hskip := h.skip index
      exact ⟨hskip.sublist, hskip.length, hskip.cap, hskip.range⟩
    · rename_i hroom
      cases hrange : builder.range with
      | none =>
        rw [hrange] at hadd
        cases hadd
        refine h.opens hroom ?_ rfl rfl
        exact sublist_append_left _ _
      | some range =>
        obtain ⟨start, stop⟩ := range
        have hle := h.range start stop hrange
        rw [hrange] at hadd
        simp only at hadd
        split at hadd
        · rename_i hnext
          subst hnext
          cases hadd
          have hextended : builder.selection ++ [stop + 1] =
              builder.emitted ++ List.range' start (stop + 1 + 1 - start) := by
            have hcount : stop + 1 + 1 - start = stop + 1 - start + 1 := by omega
            have hlast : stop + 1 = start + 1 * (stop + 1 - start) := by omega
            rw [hcount, range'_concat, ← hlast]
            simp [Builder.selection, Builder.opened, hrange]
          have hroom : ¬(0 < limits.maxPages ∧ limits.maxPages ≤ builder.selectedPages) := hroom
          constructor
          · show (builder.emitted ++ List.range' start (stop + 1 + 1 - start)).Sublist _
            rw [← hextended]
            exact .append h.sublist (.refl _)
          · show (builder.emitted ++ List.range' start (stop + 1 + 1 - start)).length ≤
              builder.selectedPages + 1
            have hlength := h.length
            rw [← hextended, length_append, length_singleton]
            omega
          · intro hmax
            show builder.selectedPages + 1 ≤ limits.maxPages
            omega
          · intro first last hopen
            cases hopen
            omega
        · simp only [bind_eq_bind, bind_eq_some_iff] at hadd
          obtain ⟨flushed, hflush, hadd⟩ := hadd
          obtain ⟨hemitted, hnone, hselected⟩ := flush_emitted hflush
          have hemitted : flushed.emitted.Sublist builder.selection := by
            simpa only [Builder.selection, Builder.opened, Builder.emitted, hrange] using hemitted
          split at hadd
          · obtain rfl := Option.some.inj hadd
            have hflushed : flushed.selection = flushed.emitted := by
              simp [Builder.selection, Builder.opened, hnone]
            have hlength := hemitted.length_le
            have hcount := h.length
            refine ⟨?_, ?_, ?_, fun start stop hopen => ?_⟩
            · rw [hflushed]
              exact (hemitted.trans h.sublist).trans (sublist_append_left _ _)
            · rw [hflushed, hselected]
              show _ ≤ builder.selectedPages + 1
              omega
            · intro hmax
              rw [hselected]
              show builder.selectedPages + 1 ≤ limits.maxPages
              have hroom : ¬(0 < limits.maxPages ∧ limits.maxPages ≤ builder.selectedPages) := hroom
              omega
            · rw [hnone] at hopen
              cases hopen
          · cases hadd
            exact h.opens hroom hemitted rfl hselected

/-- The specifications of a builder keep its selection. -/
theorem finish_indexes {finished : Builder} (h : Collects limits builder added)
    (hfinish : finishPageIndexRanges limits builder = some finished) :
    (specIndexes finished.chunks).Sublist added ∧
      (0 < limits.maxPages → (specIndexes finished.chunks).length ≤ limits.maxPages) := by
  simp only [finishPageIndexRanges, bind_eq_bind, bind_eq_some_iff] at hfinish
  obtain ⟨flushed, hflush, hfinish⟩ := hfinish
  cases hfinish
  obtain ⟨hflushed, -, -⟩ := flush_emitted hflush
  obtain ⟨hfinal, -⟩ := finalizeCurrentChunk_emitted limits flushed
  have hchunks : (specIndexes (finalizeCurrentChunk limits flushed).chunks).Sublist
      (finalizeCurrentChunk limits flushed).emitted :=
    sublist_append_left _ _
  have hselection := hchunks.trans (hfinal.trans hflushed)
  refine ⟨hselection.trans h.sublist, fun hmax => ?_⟩
  have hlength := hselection.length_le
  have hcount := h.length
  have hcap := h.cap hmax
  omega

end Preseed.Zram
