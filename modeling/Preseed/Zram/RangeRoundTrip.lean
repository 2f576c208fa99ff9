import Preseed.Zram.SpecText

/-!
# The round trip of the range builder

The chunks of a builder, read back as texts, are the pages that were fed to it, up to the
point where the builder was capped or truncated. A token that does not fit into a chunk
of its own is fatal.
-/

namespace Preseed.Zram

open List Builder

/-! ## The sizes of chunks -/

/-- What the limits allow of a chunk. -/
structure FitsChunk (limits : BuilderLimits) (chunk : Spec) : Prop where
  bytes : chunk.bytes ≤ limits.maxSpecBytes
  pages : 0 < limits.chunkPageLimit → chunk.indexes.length ≤ limits.chunkPageLimit
  ascending : ∀ token ∈ chunk, token.Ascending

/-- The chunks of a builder fit, and its counters are those of its tokens. -/
structure Sized (limits : BuilderLimits) (builder : Builder) : Prop where
  chunks : ∀ chunk ∈ builder.chunks, chunk ≠ [] ∧ FitsChunk limits chunk
  current : FitsChunk limits builder.currentTokens
  count : builder.chunks.length ≤ limits.maxChunks
  /-- There is always a place for the current chunk. -/
  room : builder.currentTokens ≠ [] → builder.chunks.length < limits.maxChunks
  len : builder.currentLen = builder.currentTokens.bytes
  counted : builder.currentPages = builder.currentTokens.indexes.length
  emitted : builder.emittedPages = builder.emitted.length

theorem FitsChunk.nil (limits : BuilderLimits) : FitsChunk limits [] where
  bytes := Nat.zero_le _
  pages _ := Nat.zero_le _
  ascending _ h := by cases h

theorem Sized.initial (limits : BuilderLimits) : Sized limits Builder.initial where
  chunks _ h := by cases h
  current := FitsChunk.nil limits
  count := Nat.zero_le _
  room h := absurd rfl h
  len := rfl
  counted := rfl
  emitted := rfl

/-- The fields that chunks have no part in stay as they are. -/
structure SameRun (before after : Builder) : Prop where
  selected : after.selectedPages = before.selectedPages
  capped : after.capped = before.capped

variable {limits : BuilderLimits} {builder : Builder}

/-- The current chunk becomes one of the chunks. -/
theorem Sized.finalize (h : Sized limits builder) :
    Sized limits (finalizeCurrentChunk limits builder) ∧
      (finalizeCurrentChunk limits builder).emitted = builder.emitted ∧
      (finalizeCurrentChunk limits builder).currentTokens = [] ∧
      (finalizeCurrentChunk limits builder).truncated = builder.truncated ∧
      SameRun builder (finalizeCurrentChunk limits builder) := by
  unfold finalizeCurrentChunk
  split
  · rename_i hempty
    exact ⟨h, rfl, hempty, rfl, rfl, rfl⟩
  · rename_i hne
    have hroom := h.room hne
    rw [if_neg (by omega)]
    have hemitted : specIndexes (builder.chunks ++ [builder.currentTokens]) ++ Spec.indexes [] =
        builder.emitted := by
      rw [specIndexes_append]
      simp [Builder.emitted, specIndexes, Spec.indexes]
    refine ⟨⟨?_, FitsChunk.nil limits, ?_, fun h => absurd rfl h, rfl, rfl, ?_⟩, hemitted, rfl, rfl,
      rfl, rfl⟩
    · intro chunk hchunk
      rcases mem_append.mp hchunk with hold | hnew
      · exact h.chunks chunk hold
      · obtain rfl := mem_singleton.mp hnew
        exact ⟨hne, h.current⟩
    · rw [length_append, length_singleton]
      omega
    · show builder.emittedPages = (specIndexes (builder.chunks ++ [builder.currentTokens]) ++
        Spec.indexes []).length
      rw [hemitted]
      exact h.emitted

/-- A new chunk is begun, or the builder is truncated; its pages stay. -/
theorem Sized.next (h : Sized limits builder) (hopen : builder.truncated = false) :
    Sized limits (nextChunk limits builder) ∧
      (nextChunk limits builder).emitted = builder.emitted ∧
      SameRun builder (nextChunk limits builder) ∧
      ((nextChunk limits builder).truncated = false →
        (nextChunk limits builder).currentTokens = [] ∧
          (nextChunk limits builder).chunks.length < limits.maxChunks) := by
  obtain ⟨hsized, hemitted, hempty, htruncated, hsame⟩ := h.finalize
  unfold nextChunk
  simp only [htruncated, hopen, Bool.false_eq_true, if_false]
  split
  · exact ⟨{ hsized with }, hemitted, ⟨hsame.selected, hsame.capped⟩, fun h => by cases h⟩
  · exact ⟨hsized, hemitted, hsame, fun _ => ⟨hempty, by omega⟩⟩

/-! ## Tokens -/

/-- A token that fits into a chunk of its own. -/
structure FitsToken (limits : BuilderLimits) (token : Token) : Prop where
  pages : 0 < limits.chunkPageLimit → token.indexes.length ≤ limits.chunkPageLimit
  ascending : token.Ascending

theorem bytes_concat (spec : Spec) (token : Token) :
    Spec.bytes (spec ++ [token]) = spec.bytes + token.text.length + if spec = [] then 0 else 1 := by
  cases spec with
  | nil => simp [Spec.bytes]
  | cons first spec =>
    rw [if_neg (cons_ne_nil _ _)]
    simp only [Spec.bytes, cons_append, map_cons, map_append, map_nil,
      sum_cons, sum_append, sum_nil, length_cons, length_append,
      length_nil]
    omega

theorem indexes_concat (spec : Spec) (token : Token) :
    Spec.indexes (spec ++ [token]) = spec.indexes ++ token.indexes := by
  simp [Spec.indexes]

variable {token : Token}

/-- A token that is pushed within the limits. -/
theorem Sized.push {newLen : ℕ} (h : Sized limits builder)
    (hroom : builder.chunks.length < limits.maxChunks) (htoken : FitsToken limits token)
    (hlen : newLen = Spec.bytes (builder.currentTokens ++ [token]))
    (hbytes : newLen ≤ limits.maxSpecBytes) (hpages : 0 < limits.chunkPageLimit →
      builder.currentPages + token.indexes.length ≤ limits.chunkPageLimit) :
    Sized limits (pushToken token newLen token.indexes.length builder) := by
  constructor
  · exact h.chunks
  · constructor
    · show Spec.bytes (builder.currentTokens ++ [token]) ≤ limits.maxSpecBytes
      rw [← hlen]
      exact hbytes
    · intro hlimit
      have hpages := hpages hlimit
      rw [h.counted] at hpages
      show (Spec.indexes (builder.currentTokens ++ [token])).length ≤ _
      rw [indexes_concat, length_append]
      exact hpages
    · intro other hother
      rcases mem_append.mp hother with hold | hnew
      · exact h.current.ascending other hold
      · obtain rfl := mem_singleton.mp hnew
        exact htoken.ascending
  · exact h.count
  · exact fun _ => hroom
  · exact hlen
  · show builder.currentPages + token.indexes.length =
      (Spec.indexes (builder.currentTokens ++ [token])).length
    rw [indexes_concat, length_append, h.counted]
  · rw [pushToken_emitted, length_append, ← h.emitted]
    rfl

/-- What becomes of tokens: all of them are emitted, or the builder is truncated after some
of their pages. -/
structure Emits (limits : BuilderLimits) (before after : Builder) (pages : List ℕ) : Prop where
  sized : Sized limits after
  some : ∃ emitted, emitted <+: pages ∧ after.emitted = before.emitted ++ emitted
  all : after.truncated = false → after.emitted = before.emitted ++ pages
  stays : before.truncated = true → after.truncated = true
  same : SameRun before after

variable {before after : Builder}

theorem Emits.truncated {pages : List ℕ} (hsized : Sized limits after)
    (hemitted : after.emitted = before.emitted) (hstop : after.truncated = true)
    (hsame : SameRun before after) :
    Emits limits before after pages where
  sized := hsized
  some := ⟨[], nil_prefix, by rw [hemitted, append_nil]⟩
  all h := by rw [hstop] at h; cases h
  stays _ := hstop
  same := hsame

theorem Emits.pushed {newLen : ℕ} (hopen : before.truncated = false)
    (hemitted : builder.emitted = before.emitted) (hsame : SameRun before builder)
    (hsized : Sized limits (pushToken token newLen token.indexes.length builder)) :
    Emits limits before (pushToken token newLen token.indexes.length builder) token.indexes := by
  have hpushed := pushToken_emitted token newLen token.indexes.length builder
  rw [hemitted] at hpushed
  refine ⟨hsized, ⟨token.indexes, prefix_refl _, hpushed⟩, fun _ => hpushed, ?_,
    hsame.selected, hsame.capped⟩
  intro hstop
  rw [hopen] at hstop
  cases hstop

theorem Sized.within (h : Sized limits builder) (hbefore : before.truncated = false)
    (hopen : builder.truncated = false) (hemitted : builder.emitted = before.emitted)
    (hsame : SameRun before builder) (hroom : builder.chunks.length < limits.maxChunks)
    (htoken : FitsToken limits token) (hbytes : token.text.length ≤ limits.maxSpecBytes)
    (hpages : 0 < limits.chunkPageLimit →
      builder.currentPages + token.indexes.length ≤ limits.chunkPageLimit) :
    Emits limits before (addWithinBytes limits token token.indexes.length builder)
      token.indexes := by
  have hlen := bytes_concat builder.currentTokens token
  rw [← h.len] at hlen
  unfold addWithinBytes
  simp only
  rw [← hlen]
  split
  · obtain ⟨hsized, hnextEmitted, hnextSame, hempty⟩ := h.next hopen
    have hsame : SameRun before (nextChunk limits builder) :=
      ⟨hnextSame.selected.trans hsame.selected, hnextSame.capped.trans hsame.capped⟩
    cases hstop : (nextChunk limits builder).truncated with
    | true =>
      rw [if_pos rfl]
      exact Emits.truncated hsized (hnextEmitted.trans hemitted) hstop hsame
    | false =>
      rw [if_neg Bool.false_ne_true]
      obtain ⟨hnone, hplace⟩ := hempty hstop
      have hzero : (nextChunk limits builder).currentPages = 0 := by
        rw [hsized.counted, hnone]
        rfl
      apply Emits.pushed hbefore (hnextEmitted.trans hemitted) hsame
      apply hsized.push hplace htoken
      · rw [hnone]
        simp [Spec.bytes]
      · exact hbytes
      · intro hlimit
        rw [hzero, Nat.zero_add]
        exact htoken.pages hlimit
  · apply Emits.pushed hbefore hemitted hsame
    apply h.push hroom htoken rfl
    · omega
    · exact hpages

/-- `_add_range_token` emits the token or truncates the builder, or the token is too long. -/
theorem Sized.add (h : Sized limits builder) (htoken : FitsToken limits token) :
    (∃ added, addRangeToken limits builder token = some added ∧
      Emits limits builder added token.indexes) ∨
    (addRangeToken limits builder token = none ∧ limits.maxSpecBytes < token.text.length) := by
  unfold addRangeToken
  simp only
  cases hopen : builder.truncated with
  | true =>
    left
    exact ⟨builder, rfl, Emits.truncated h rfl hopen ⟨rfl, rfl⟩⟩
  | false =>
    rw [if_neg Bool.false_ne_true]
    by_cases hfull : builder.currentTokens = [] ∧ limits.maxChunks ≤ builder.chunks.length
    · left
      rw [if_pos hfull]
      exact ⟨_, rfl, Emits.truncated { h with } rfl rfl ⟨rfl, rfl⟩⟩
    · rw [if_neg hfull]
      by_cases hbytes : token.text.length ≤ limits.maxSpecBytes
      · left
        have hroom : builder.chunks.length < limits.maxChunks := by
          by_cases hempty : builder.currentTokens = []
          · have hcount := not_and.mp hfull hempty
            omega
          · exact h.room hempty
        simp only [guard, if_pos hbytes]
        by_cases hover : 0 < limits.chunkPageLimit ∧ builder.currentTokens ≠ [] ∧
            limits.chunkPageLimit < builder.currentPages + token.indexes.length
        · obtain ⟨hsized, hemitted, hsame, hempty⟩ := h.next hopen
          cases hstop : (nextChunk limits builder).truncated with
          | true =>
            refine ⟨nextChunk limits builder, ?_, Emits.truncated hsized hemitted hstop hsame⟩
            rw [if_pos hover, if_pos rfl]
            rfl
          | false =>
            obtain ⟨hnone, hplace⟩ := hempty hstop
            have hzero : (nextChunk limits builder).currentPages = 0 := by
              rw [hsized.counted, hnone]
              rfl
            refine ⟨addWithinBytes limits token token.indexes.length (nextChunk limits builder), ?_,
              hsized.within hopen hstop hemitted hsame hplace htoken hbytes fun hlimit => ?_⟩
            · rw [if_pos hover, if_neg Bool.false_ne_true]
              rfl
            · rw [hzero, Nat.zero_add]
              exact htoken.pages hlimit
        · refine ⟨addWithinBytes limits token token.indexes.length builder, ?_,
            h.within hopen hopen rfl ⟨rfl, rfl⟩ hroom htoken hbytes fun hlimit => ?_⟩
          · rw [if_neg hover]
            rfl
          · by_cases hempty : builder.currentTokens = []
            · rw [h.counted, hempty]
              simpa [Spec.indexes] using htoken.pages hlimit
            · by_contra hlarge
              exact hover ⟨hlimit, hempty, by omega⟩
      · right
        simp only [guard, if_neg hbytes]
        exact ⟨rfl, by omega⟩

/-- A token of these pages which no chunk has the bytes for. -/
def TooLong (limits : BuilderLimits) (pages : List ℕ) : Prop :=
  ∃ token : Token, token.indexes <:+: pages ∧ limits.maxSpecBytes < token.text.length

theorem TooLong.mono {pages more : List ℕ} (h : TooLong limits pages)
    (hpages : pages <:+: more) : TooLong limits more := by
  obtain ⟨token, htoken, hlong⟩ := h
  exact ⟨token, htoken.trans hpages, hlong⟩

theorem Emits.trans {between : Builder} {pages more : List ℕ}
    (hfirst : Emits limits before between pages) (hrest : Emits limits between after more)
    (hstopped : between.truncated = true → after = between) :
    Emits limits before after (pages ++ more) := by
  obtain ⟨kept, hkept, hbetween⟩ := hfirst.some
  obtain ⟨added, hadded, hafter⟩ := hrest.some
  have hsame : SameRun before after :=
    ⟨hrest.same.selected.trans hfirst.same.selected, hrest.same.capped.trans hfirst.same.capped⟩
  cases hstop : between.truncated with
  | true =>
    have hafter := hstopped hstop
    subst hafter
    refine ⟨hrest.sized, ⟨kept, hkept.trans (prefix_append _ _), hbetween⟩, ?_,
      fun _ => hstop, hsame⟩
    intro hopen
    rw [hopen] at hstop
    cases hstop
  | false =>
    have hall := hfirst.all hstop
    refine ⟨hrest.sized, ⟨pages ++ added, ?_, ?_⟩, ?_, fun h => hrest.stays (hfirst.stays h), hsame⟩
    · exact (prefix_append_right_inj pages).mpr hadded
    · rw [hafter, hall, append_assoc]
    · intro hopen
      rw [hrest.all hopen, hall, append_assoc]

/-- A truncated builder takes no token. -/
theorem addRangeToken_truncated (token : Token)
    (h : builder.truncated = true) : addRangeToken limits builder token = some builder := by
  unfold addRangeToken
  rw [h]
  rfl

theorem addRangeTokens_truncated (tokens : Spec) (h : builder.truncated = true) :
    tokens.foldlM (addRangeToken limits) builder = some builder := by
  induction tokens with
  | nil => rfl
  | cons token tokens ih =>
    rw [foldlM_cons, addRangeToken_truncated token h]
    exact ih

theorem Sized.addAll {tokens : Spec} (h : Sized limits builder)
    (htokens : ∀ token ∈ tokens, FitsToken limits token) :
    (∃ added, tokens.foldlM (addRangeToken limits) builder = some added ∧
      Emits limits builder added tokens.indexes) ∨
    (tokens.foldlM (addRangeToken limits) builder = none ∧ TooLong limits tokens.indexes) := by
  induction tokens generalizing builder with
  | nil =>
    left
    exact ⟨builder, rfl, h, ⟨[], nil_prefix, by simp⟩, fun _ => by simp [Spec.indexes], id,
      rfl, rfl⟩
  | cons token tokens ih =>
    have hindexes : Spec.indexes (token :: tokens) = token.indexes ++ Spec.indexes tokens := rfl
    rw [foldlM_cons, hindexes]
    rcases h.add (htokens token (mem_cons_self ..)) with ⟨between, hstep, hfirst⟩ | ⟨hstep, hlong⟩
    · rw [hstep]
      have ih := ih hfirst.sized fun other hother => htokens other (mem_cons_of_mem _ hother)
      rcases ih with ⟨added, hrest, hemits⟩ | ⟨hrest, hlong⟩
      · left
        refine ⟨added, hrest, hfirst.trans hemits fun hstop => ?_⟩
        rw [addRangeTokens_truncated tokens hstop] at hrest
        exact (Option.some.inj hrest).symm
      · right
        exact ⟨hrest, hlong.mono (suffix_append _ _).isInfix⟩
    · right
      rw [hstep]
      exact ⟨rfl, token, (prefix_append _ _).isInfix, hlong⟩

/-! ## Ranges -/

theorem fits_sliceRange {fuel start stop : ℕ} :
    ∀ token ∈ sliceRange limits.chunkPageLimit fuel start stop, FitsToken limits token := by
  induction fuel generalizing start with
  | zero =>
    intro token htoken
    cases htoken
  | succ fuel ih =>
    intro token htoken
    unfold sliceRange at htoken
    split at htoken
    · cases htoken
    · rename_i hle
      simp only at htoken
      rcases mem_cons.mp htoken with rfl | hrest
      · have hstart : ∀ sliceEnd, start ≤ sliceEnd → (Token.ofRange start sliceEnd).Ascending := by
          intro sliceEnd hstart
          unfold Token.ofRange
          split
          · trivial
          · exact hstart
        constructor
        · intro hlimit
          split
          · rw [Token.indexes_ofRange (by omega), length_range']
            omega
          · rw [Token.indexes_ofRange (by omega), length_range']
            omega
        · split
          · exact hstart _ (by omega)
          · exact hstart _ (by omega)
      · exact ih token hrest

/-- `_flush_page_index_range` emits the pages of the range. -/
theorem Sized.flush (h : Sized limits builder) :
    (∃ flushed, flushPageIndexRange limits builder = some flushed ∧
      Emits limits builder flushed builder.opened ∧ flushed.range = none) ∨
    (flushPageIndexRange limits builder = none ∧ TooLong limits builder.opened) := by
  unfold flushPageIndexRange opened
  cases hrange : builder.range with
  | none =>
    left
    exact ⟨builder, rfl, ⟨h, ⟨[], nil_prefix, by simp⟩, fun _ => by simp, id, rfl, rfl⟩,
      hrange⟩
  | some range =>
    obtain ⟨start, stop⟩ := range
    have hindexes := indexes_sliceRange limits.chunkPageLimit (Nat.le_refl (stop + 1 - start))
    have htokens : ∀ token ∈ sliceRange limits.chunkPageLimit (stop + 1 - start) start stop,
        FitsToken limits token := fits_sliceRange
    simp only
    rw [← hindexes]
    rcases h.addAll htokens with ⟨added, hadded, hemits⟩ | ⟨hadded, hlong⟩
    · left
      rw [hadded]
      have hsized : Sized limits { added with range := none } := { hemits.sized with }
      exact ⟨{ added with range := none }, rfl,
        ⟨hsized, hemits.some, hemits.all, hemits.stays, hemits.same.selected, hemits.same.capped⟩,
        rfl⟩
    · right
      rw [hadded]
      exact ⟨rfl, hlong⟩

/-! ## Feeding pages -/

/-- A builder after it was fed these pages. -/
structure Tracks (limits : BuilderLimits) (builder : Builder) (fed : List ℕ) : Prop where
  sized : Sized limits builder
  taken : builder.selection <+: fed
  whole : builder.capped = false → builder.truncated = false → builder.selection = fed
  full : builder.capped = true → 0 < limits.maxPages ∧ limits.maxPages ≤ builder.selectedPages
  range : ∀ start stop, builder.range = some (start, stop) → start ≤ stop

theorem Tracks.initial (limits : BuilderLimits) : Tracks limits Builder.initial [] where
  sized := Sized.initial limits
  taken := prefix_refl _
  whole _ _ := rfl
  full h := by cases h
  range _ _ h := by cases h

variable {fed : List ℕ}

theorem opened_within (h : builder.selection <+: fed) :
    builder.opened <:+: fed :=
  (suffix_append builder.emitted builder.opened).isInfix.trans h.isInfix

/-- A page that is left out. -/
theorem Tracks.skip (index : ℕ) (h : Tracks limits builder fed) (hsized : Sized limits after)
    (hselection : after.selection = builder.selection) (hrange : after.range = builder.range)
    (hselected : after.selectedPages = builder.selectedPages)
    (hstop : after.capped = true ∨ after.truncated = true) (hfull : after.capped = true →
      0 < limits.maxPages ∧ limits.maxPages ≤ builder.selectedPages) :
    Tracks limits after (fed ++ [index]) where
  sized := hsized
  taken := by
    rw [hselection]
    exact h.taken.trans (prefix_append _ _)
  whole hcapped htruncated := by
    rw [hcapped, htruncated] at hstop
    simp at hstop
  full hcapped := by
    rw [hselected]
    exact hfull hcapped
  range start stop hopen := h.range start stop (hrange ▸ hopen)

/-- A page that a range begins with. -/
theorem Tracks.opens {index : ℕ} (hcapped : after.capped = false) (hsized : Sized limits after)
    (hemitted : after.emitted = fed) (hrange : after.range = some (index, index)) :
    Tracks limits after (fed ++ [index]) := by
  have hselection : after.selection = fed ++ [index] := by
    simp [selection, opened, hemitted, hrange]
  constructor
  · exact hsized
  · simp only [hselection, prefix_rfl]
  · exact fun _ _ => hselection
  · intro h
    rw [hcapped] at h
    cases h
  · intro start stop hopen
    rw [hrange] at hopen
    cases hopen
    exact Nat.le_refl _

/-- A page that goes on with the range. -/
theorem Tracks.extends {start stop : ℕ} (hsized : Sized limits builder)
    (hcapped : builder.capped = false) (hselection : builder.selection = fed)
    (hrange : builder.range = some (start, stop)) (hle : start ≤ stop) :
    Tracks limits { builder with range := some (start, stop + 1) } (fed ++ [stop + 1]) := by
  have hopened : List.range' start (stop + 1 + 1 - start) =
      List.range' start (stop + 1 - start) ++ [stop + 1] := by
    have hcount : stop + 1 + 1 - start = stop + 1 - start + 1 := by omega
    have hlast : stop + 1 = start + 1 * (stop + 1 - start) := by omega
    rw [hcount, range'_concat, ← hlast]
  have hextended : builder.emitted ++ List.range' start (stop + 1 + 1 - start) =
      fed ++ [stop + 1] := by
    rw [hopened, ← hselection, ← append_assoc]
    simp [selection, opened, hrange]
  constructor
  · exact { hsized with }
  · show builder.emitted ++ List.range' start (stop + 1 + 1 - start) <+: fed ++ [stop + 1]
    simp only [hextended, prefix_rfl]
  · exact fun _ _ => hextended
  · intro h
    rw [show builder.capped = true from h] at hcapped
    cases hcapped
  · intro first last hopen
    cases hopen
    omega

/-- A page that is selected is taken, unless the range before it cannot be emitted. -/
theorem Tracks.select (selected : Builder) (index : ℕ) (hsized : Sized limits selected)
    (hcapped : selected.capped = false) (hselection : selected.selection = fed)
    (hrange : ∀ start stop, selected.range = some (start, stop) → start ≤ stop)
    {result : Option Builder} (hresult : result = match selected.range with
      | none => some { selected with range := some (index, index) }
      | some (start, stop) =>
          if index = stop + 1 then some { selected with range := some (start, index) }
          else do
            let flushed ← flushPageIndexRange limits selected
            if flushed.truncated then return flushed
            else return { flushed with range := some (index, index) }) :
    (∃ after, result = some after ∧ Tracks limits after (fed ++ [index])) ∨
      (result = none ∧ TooLong limits fed) := by
  cases hopen : selected.range with
  | none =>
    left
    have hemitted : selected.emitted = fed := by
      simpa [selection, opened, hopen] using hselection
    rw [hopen] at hresult
    refine ⟨{ selected with range := some (index, index) }, hresult, ?_⟩
    exact Tracks.opens hcapped { hsized with } hemitted rfl
  | some range =>
    obtain ⟨start, stop⟩ := range
    rw [hopen] at hresult
    simp only at hresult
    by_cases hnext : index = stop + 1
    · left
      subst hnext
      rw [if_pos rfl] at hresult
      exact ⟨_, hresult, Tracks.extends hsized hcapped hselection hopen (hrange start stop hopen)⟩
    · rw [if_neg hnext] at hresult
      rcases hsized.flush with ⟨flushed, hflush, hemits, hnone⟩ | ⟨hflush, hlong⟩
      · left
        rw [hflush] at hresult
        have hresult : result = if flushed.truncated = true then some flushed
            else some { flushed with range := some (index, index) } := hresult
        have hsame : flushed.capped = false := hemits.same.capped.trans hcapped
        by_cases hstop : flushed.truncated = true
        · rw [if_pos hstop] at hresult
          have hflushed : flushed.selection = flushed.emitted := by
            simp [selection, opened, hnone]
          obtain ⟨emitted, hemitted, hafter⟩ := hemits.some
          refine ⟨flushed, hresult, hemits.sized, ?_, ?_, ?_, ?_⟩
          · rw [hflushed, hafter, ← hselection, selection, append_assoc]
            exact (prefix_append_right_inj _).mpr
              (hemitted.trans (prefix_append _ _))
          · intro _ hopen
            rw [hopen] at hstop
            cases hstop
          · intro hcap
            rw [hsame] at hcap
            cases hcap
          · intro start stop hopen
            rw [hnone] at hopen
            cases hopen
        · rw [if_neg hstop] at hresult
          have hall : flushed.emitted = fed :=
            (hemits.all (by simpa using hstop)).trans hselection
          refine ⟨{ flushed with range := some (index, index) }, hresult, ?_⟩
          exact Tracks.opens hsame { hemits.sized with } hall rfl
      · right
        rw [hflush] at hresult
        have hinfix : selected.selection <+: fed := by
          simp only [hselection, prefix_rfl]
        exact ⟨hresult, hlong.mono (opened_within hinfix)⟩

/-- `add_page_index_range` takes the page, leaves it out or fails. -/
theorem Tracks.add (index : ℕ) (h : Tracks limits builder fed) :
    (∃ after, addPageIndexRange limits builder index = some after ∧
      Tracks limits after (fed ++ [index])) ∨
    (addPageIndexRange limits builder index = none ∧ TooLong limits fed) := by
  unfold addPageIndexRange
  by_cases htruncated : builder.truncated = true
  · left
    rw [if_pos htruncated]
    exact ⟨builder, rfl, h.skip index h.sized rfl rfl rfl (Or.inr htruncated) h.full⟩
  · rw [if_neg htruncated]
    simp only
    by_cases hcap : 0 < limits.maxPages ∧ limits.maxPages ≤ builder.selectedPages
    · left
      rw [if_pos hcap]
      exact ⟨_, rfl, h.skip index { h.sized with } rfl rfl rfl (Or.inl rfl) fun _ => hcap⟩
    · rw [if_neg hcap]
      have hcapped : builder.capped = false := by
        by_contra hcapped
        exact hcap (h.full (by simpa using hcapped))
      have hwhole := h.whole hcapped (by simpa using htruncated)
      exact Tracks.select { builder with
        pages := builder.pages + 1, selectedPages := builder.selectedPages + 1 }
        index { h.sized with } hcapped hwhole h.range rfl

theorem Tracks.addAll (indexes : List ℕ) (h : Tracks limits builder fed) :
    (∃ after, indexes.foldlM (addPageIndexRange limits) builder = some after ∧
      Tracks limits after (fed ++ indexes)) ∨
    (indexes.foldlM (addPageIndexRange limits) builder = none ∧
      TooLong limits (fed ++ indexes)) := by
  induction indexes generalizing builder fed with
  | nil =>
    left
    rw [append_nil]
    exact ⟨builder, rfl, h⟩
  | cons index indexes ih =>
    have happend : fed ++ index :: indexes = fed ++ [index] ++ indexes := by simp
    rw [foldlM_cons, happend]
    rcases h.add index with ⟨after, hadd, htracks⟩ | ⟨hadd, hlong⟩
    · rw [hadd]
      exact ih htracks
    · right
      rw [hadd]
      refine ⟨rfl, hlong.mono ?_⟩
      rw [append_assoc]
      exact (prefix_append _ _).isInfix

/-! ## The round trip -/

/-- A builder that is fed pages and finished. -/
def buildRanges (limits : BuilderLimits) (indexes : List ℕ) : Option Builder := do
  let builder ← newRangeBuilder limits
  let builder ← indexes.foldlM (addPageIndexRange limits) builder
  finishPageIndexRanges limits builder

/-- The texts of the chunks. -/
def Builder.texts (builder : Builder) : List (List Char) := builder.chunks.map specText

theorem decode_texts (h : Sized limits builder) :
    builder.texts.mapM decodeSpec = some (builder.chunks.map Spec.indexes) := by
  unfold texts
  rw [mapM_map]
  apply mapM_of_forall
  intro chunk hchunk
  obtain ⟨hne, hfits⟩ := h.chunks chunk hchunk
  exact decodeSpec_specText hne hfits.ascending

/-- What the chunks say about the pages that were fed. -/
structure RoundTrip (limits : BuilderLimits) (fed : List ℕ) (finished : Builder)
    (chunks : List (List ℕ)) : Prop where
  taken : chunks.flatten <+: fed
  whole : finished.capped = false → finished.truncated = false → chunks.flatten = fed
  bytes : ∀ text ∈ finished.texts, text.length ≤ limits.maxSpecBytes
  pages : 0 < limits.chunkPageLimit → ∀ chunk ∈ chunks, chunk.length ≤ limits.chunkPageLimit
  count : finished.texts.length ≤ limits.maxChunks
  emitted : finished.emittedPages = chunks.flatten.length

theorem Tracks.roundTrip (h : Tracks limits builder fed) (hclosed : builder.range = none)
    (hempty : builder.currentTokens = []) :
    RoundTrip limits fed builder (builder.chunks.map Spec.indexes) := by
  have hflatten : (builder.chunks.map Spec.indexes).flatten = builder.selection := by
    simp [selection, opened, emitted, hclosed, hempty, specIndexes,
      List.flatMap, Spec.indexes]
  have hselection : builder.selection = builder.emitted := by
    simp [selection, opened, hclosed]
  constructor
  · rw [hflatten]
    exact h.taken
  · rw [hflatten]
    exact h.whole
  · intro text htext
    obtain ⟨chunk, hchunk, rfl⟩ := mem_map.mp htext
    rw [length_specText]
    exact (h.sized.chunks chunk hchunk).2.bytes
  · intro hlimit pages hpages
    obtain ⟨chunk, hchunk, rfl⟩ := mem_map.mp hpages
    exact (h.sized.chunks chunk hchunk).2.pages hlimit
  · rw [texts, length_map]
    exact h.sized.count
  · rw [hflatten, hselection]
    exact h.sized.emitted

/-- Finishing emits the open range and the current chunk. -/
theorem Tracks.finish (h : Tracks limits builder fed) :
    (∃ finished, finishPageIndexRanges limits builder = some finished ∧
      Sized limits finished ∧
      RoundTrip limits fed finished (finished.chunks.map Spec.indexes)) ∨
    (finishPageIndexRanges limits builder = none ∧ TooLong limits fed) := by
  unfold finishPageIndexRanges
  rcases h.sized.flush with ⟨flushed, hflush, hemits, hnone⟩ | ⟨hflush, hlong⟩
  · left
    rw [hflush]
    obtain ⟨hsized, hemitted, hempty, htruncated, hsame⟩ := hemits.sized.finalize
    obtain ⟨emitted, hstart, hafter⟩ := hemits.some
    have hrange : (finalizeCurrentChunk limits flushed).range = none := by
      unfold finalizeCurrentChunk
      split
      · exact hnone
      · split <;> exact hnone
    have hselection : (finalizeCurrentChunk limits flushed).selection = flushed.emitted := by
      rw [selection, hemitted, opened, hrange, append_nil]
    have htracks : Tracks limits (finalizeCurrentChunk limits flushed) fed := by
      refine ⟨hsized, ?_, ?_, ?_, ?_⟩
      · rw [hselection, hafter]
        exact ((prefix_append_right_inj _).mpr hstart).trans h.taken
      · intro hcapped hopen
        rw [htruncated] at hopen
        rw [hsame.capped, hemits.same.capped] at hcapped
        have hbefore : builder.truncated = false := by
          by_contra hstop
          rw [hemits.stays (by simpa using hstop)] at hopen
          cases hopen
        rw [hselection, hemits.all hopen]
        exact h.whole hcapped hbefore
      · intro hcapped
        rw [hsame.capped, hemits.same.capped] at hcapped
        rw [hsame.selected, hemits.same.selected]
        exact h.full hcapped
      · intro start stop hopen
        rw [hrange] at hopen
        cases hopen
    exact ⟨finalizeCurrentChunk limits flushed, rfl, hsized, htracks.roundTrip hrange hempty⟩
  · right
    rw [hflush]
    exact ⟨rfl, hlong.mono (opened_within h.taken)⟩

/-- Six pages within these limits. -/
def narrowLimits : BuilderLimits where
  maxPages := 5
  chunkPageLimit := 3
  maxSpecBytes := 40
  maxChunks := 2

end Preseed.Zram
