import Preseed.NetworkSharing.Words

/-!
# Formatted records

A formatted record is read back with the same fields, by Python and by the readers of the
file, so a format of the formatted lines changes nothing.
-/

namespace Preseed.NetworkSharing

open List

open Ipaddress (Text)
open DesktopFirewall (isspace)

/-! ## The first character of a line -/

section First

variable {separator : Char → Bool} {n : ℕ} {line : Text} {c : Char}

theorem split_head (separator : Char → Bool) (n : ℕ) (line : Text) :
    (split separator (n + 1) line).head?.bind List.head? =
      (line.dropWhile separator).head? := by
  rcases hdrop : line.dropWhile separator with - | ⟨c, rest⟩
  · simp [split, hdrop]
  · have hc : separator c = false := by
      have := head?_dropWhile_not separator line
      simpa [hdrop] using this
    simp [split, hdrop, hc]

theorem isComment_eq (line : Text) :
    isComment line = decide ((split isspace 6 line).head?.bind List.head? = some '#') := by
  rw [isComment, split_head]

theorem readLine_eq (line : Text) :
    readLine line = (line.dropWhile isBlank).head?.map fun c =>
      if c = '#' then .comment line else .record ((split isBlank 6 line).take 6) := by
  rw [readLine]
  rcases line.dropWhile isBlank with - | ⟨c, rest⟩
  · rfl
  · by_cases hc : c = '#'
    · simp [hc]
    · simp only [head?_cons, Option.map_some, if_neg hc]
      split <;> simp_all

theorem readLine_comment_iff {other : Text} :
    readLine line = some (.comment other) ↔
      (line.dropWhile isBlank).head? = some '#' ∧ other = line := by
  rw [readLine_eq]
  rcases (line.dropWhile isBlank).head? with - | c
  · simp
  · by_cases hc : c = '#' <;> simp [hc, eq_comm]

theorem readLine_record_iff {fields : List Text} :
    readLine line = some (.record fields) ↔
      (∃ c, (line.dropWhile isBlank).head? = some c ∧ c ≠ '#') ∧
        fields = (split isBlank 6 line).take 6 := by
  rw [readLine_eq]
  rcases (line.dropWhile isBlank).head? with - | c
  · simp
  · by_cases hc : c = '#' <;> simp [hc, eq_comm]

theorem readLine_none_iff : readLine line = none ↔ ∀ c ∈ line, isBlank c = true := by
  rw [readLine_eq, Option.map_eq_none_iff, head?_eq_none_iff, dropWhile_eq_nil_iff]

theorem visible_of_split (h : split isspace n line ≠ []) : visible line = true := by
  by_contra hblank
  refine h (split_blank ?_)
  simpa [visible] using hblank

theorem split_ne_nil_of_visible (h : visible line = true) : split isspace (n + 1) line ≠ [] := by
  rcases split_succ_cases isspace n line with ⟨hblank, -⟩ | ⟨_, _, _, -, -, -, -, -, hsplit⟩
  · simp [visible] at h
    obtain ⟨c, hc, hspace⟩ := h
    simp [hblank c hc] at hspace
  · simp [hsplit]

end First

/-! ## The fields of a record -/

/-- Fields that a line of the file can have. -/
structure Fields (fields : List Text) : Prop where
  words : ∀ field ∈ fields.take 6, field ≠ [] ∧ ∀ c ∈ field, isspace c = false
  valid : invalidFields fields = false
  length_le : fields.length ≤ 7

theorem split_fields {line : Text} (h : invalidFields (split isspace 6 line) = false) :
    Fields (split isspace 6 line) where
  words _ hfield := split_take_mem hfield
  valid := h
  length_le := split_length_le isspace 6 line

theorem Fields.cases {fields : List Text} (h : Fields fields) :
    (∃ a b c d e f, fields = [a, b, c, d, e, f]) ∨
      ∃ a b c d e f g, fields = [a, b, c, d, e, f, '#' :: g] := by
  have hvalid := h.valid
  have hlength := h.length_le
  match fields, hlength with
  | [a, b, c, d, e, f], _ => exact .inl ⟨a, b, c, d, e, f, rfl⟩
  | [a, b, c, d, e, f, g], _ =>
    right
    cases g with
    | nil => simp [invalidFields] at hvalid
    | cons x g =>
      have hx : x = '#' := by simpa [invalidFields] using hvalid
      exact ⟨a, b, c, d, e, f, g, by rw [hx]⟩
  | [], _ | [_], _ | [_, _], _ | [_, _, _], _ | [_, _, _, _], _ | [_, _, _, _, _], _ =>
    simp [invalidFields] at hvalid
  | _ :: _ :: _ :: _ :: _ :: _ :: _ :: _ :: _, hlength =>
    simp only [length_cons] at hlength
    omega

/-- A formatted record, column by column. -/
theorem formatRecord_six (widths : ℕ → ℕ) (a b c d e f : Text) :
    formatRecord widths [a, b, c, d, e, f] =
      ljust (widths 0) a ++ ' ' :: ' ' :: (ljust (widths 1) b ++ ' ' :: ' ' ::
        (ljust (widths 2) c ++ ' ' :: ' ' :: (ljust (widths 3) d ++ ' ' :: ' ' ::
          (ljust (widths 4) e ++ ' ' :: ' ' :: f)))) := by
  simp [formatRecord, range_succ]

theorem formatRecord_seven (widths : ℕ → ℕ) (a b c d e f g : Text) :
    formatRecord widths [a, b, c, d, e, f, g] =
      ljust (widths 0) a ++ ' ' :: ' ' :: (ljust (widths 1) b ++ ' ' :: ' ' ::
        (ljust (widths 2) c ++ ' ' :: ' ' :: (ljust (widths 3) d ++ ' ' :: ' ' ::
          (ljust (widths 4) e ++ ' ' :: ' ' :: (f ++ ' ' :: ' ' :: g))))) := by
  simp [formatRecord, range_succ]

section Column

variable {separator : Char → Bool} {n : ℕ} {word rest : Text} {c : Char}

theorem split_column (hblank : separator ' ' = true) (width : ℕ) (hne : word ≠ [])
    (hword : ∀ c ∈ word, separator c = false) :
    split separator (n + 1) (ljust width word ++ ' ' :: ' ' :: rest) =
      word :: split separator n rest := by
  have hgap : ∀ c ∈ List.replicate (width - word.length) ' ' ++ [' ', ' '],
      separator c = true := by
    intro c hc
    simp only [mem_append, mem_replicate, mem_cons, not_mem_nil,
      or_false, or_self] at hc
    rcases hc with ⟨-, rfl⟩ | rfl <;> exact hblank
  have heq : ljust width word ++ ' ' :: ' ' :: rest =
      word ++ ((List.replicate (width - word.length) ' ' ++ [' ', ' ']) ++ rest) := by
    simp [ljust]
  rw [heq, split_word hne hword, split_gap hgap]
  intro c hc
  refine hgap c ?_
  rw [head?_append] at hc
  rcases hhead : (List.replicate (width - word.length) ' ' ++ [' ', ' ']).head? with - | d
  · simp at hhead
  · rw [hhead] at hc
    obtain rfl : d = c := by simpa using hc
    exact mem_of_mem_head? hhead

theorem split_last (hne : word ≠ []) (hword : ∀ c ∈ word, separator c = false) :
    split separator (n + 1) word = [word] := by
  have hnil : ∀ c, ([] : Text).head? = some c → separator c = true := by simp
  simpa using split_word (n := n) hne hword hnil

/-- A formatted record has the fields it was made of, for any separators among white space. -/
theorem split_formatRecord (hblank : separator ' ' = true)
    (hnarrow : ∀ c, isspace c = false → separator c = false) (widths : ℕ → ℕ)
    {fields : List Text} (h : Fields fields) :
    split separator 6 (formatRecord widths fields) = fields := by
  have hwords : ∀ field ∈ fields.take 6, field ≠ [] ∧ ∀ c ∈ field, separator c = false :=
    fun field hfield => ⟨(h.words field hfield).1, fun c hc =>
      hnarrow c ((h.words field hfield).2 c hc)⟩
  have hhash : separator '#' = false := hnarrow '#' (by decide)
  rcases h.cases with ⟨a, b, c, d, e, f, rfl⟩ | ⟨a, b, c, d, e, f, g, rfl⟩
  · simp only [take_succ_cons, take_nil, forall_mem_cons] at hwords
    obtain ⟨ha, hb, hc, hd, he, hf, -⟩ := hwords
    rw [formatRecord_six, split_column hblank _ ha.1 ha.2, split_column hblank _ hb.1 hb.2,
      split_column hblank _ hc.1 hc.2, split_column hblank _ hd.1 hd.2,
      split_column hblank _ he.1 he.2, split_last hf.1 hf.2]
  · simp only [take_succ_cons, take_zero, forall_mem_cons] at hwords
    obtain ⟨ha, hb, hc, hd, he, hf, -⟩ := hwords
    have hljust : f = ljust 0 f := by simp [ljust]
    rw [formatRecord_seven, hljust, split_column hblank _ ha.1 ha.2,
      split_column hblank _ hb.1 hb.2, split_column hblank _ hc.1 hc.2,
      split_column hblank _ hd.1 hd.2, split_column hblank _ he.1 he.2,
      split_column hblank _ hf.1 hf.2]
    simp [split, hhash, ljust]

end Column

theorem mem_ljust {width : ℕ} {text : Text} {c : Char} (h : c ∈ ljust width text) :
    c = ' ' ∨ c ∈ text := by
  rw [ljust, mem_append, mem_replicate] at h
  tauto

theorem mem_formatRecord {widths : ℕ → ℕ} {fields : List Text} {c : Char}
    (h : c ∈ formatRecord widths fields) : c = ' ' ∨ ∃ field ∈ fields, c ∈ field := by
  have hfield : ∀ i, c ∈ fields.getD i [] → ∃ field ∈ fields, c ∈ field := by
    intro i hc
    rw [getD_eq_getElem?_getD] at hc
    rcases hget : fields[i]? with - | field
    · simp [hget] at hc
    · exact ⟨field, mem_of_getElem? hget, by simpa [hget] using hc⟩
  simp only [formatRecord, mem_append, mem_cons] at h
  rcases h with (h | h | h | h) | h
  · rcases Texts.mem_of_mem_intercalate h with h | ⟨text, htext, hc⟩
    · simpa using Or.inl h
    · obtain ⟨i, -, rfl⟩ := mem_map.1 htext
      exact (mem_ljust hc).imp id (hfield i)
  · exact .inl h
  · exact .inl h
  · exact .inr (hfield 5 h)
  · split at h
    · rcases mem_cons.1 h with h | h
      · exact .inl h
      rcases mem_cons.1 h with h | h
      · exact .inl h
      · exact .inr (hfield 6 h)
    · simp at h

/-! ## Formats -/

/-- What a line is to the formatter. -/
def row (line : Text) : Entry :=
  if isComment line then .comment line else .record (split isspace 6 line)

theorem isComment_of_row {line other : Text} (h : row line = row other) :
    isComment line = isComment other ∧ (isComment line = true → line = other) ∧
      (isComment line = false → split isspace 6 line = split isspace 6 other) := by
  unfold row at h
  cases hl : isComment line <;> cases ho : isComment other <;> simp_all

/-- A format depends on what its lines are. -/
theorem measure_congr {lines others : List Text} (h : lines.map row = others.map row) :
    ∀ (group : ℕ) (widths : Widths),
      measure group widths lines = measure group widths others := by
  induction lines generalizing others with
  | nil =>
    have : others = [] := by simpa [eq_comm] using h
    simp [this]
  | cons line lines ih =>
    cases others with
    | nil => simp at h
    | cons other others =>
      rw [map_cons, map_cons, cons_eq_cons] at h
      obtain ⟨hcomment, -, hfields⟩ := isComment_of_row h.1
      intro group widths
      rw [measure, measure, ← hcomment]
      by_cases hl : isComment line = true
      · simp only [hl, if_true]
        exact ih h.2 _ _
      · have hl : isComment line = false := by simpa using hl
        simp only [hl, Bool.false_eq_true, if_false, ← hfields hl]
        split
        · rfl
        · exact ih h.2 _ _

theorem layout_congr {lines others : List Text} (h : lines.map row = others.map row)
    (widths : Widths) (group : ℕ) : layout widths group lines = layout widths group others := by
  induction lines generalizing others group with
  | nil =>
    have : others = [] := by simpa [eq_comm] using h
    simp [this]
  | cons line lines ih =>
    cases others with
    | nil => simp at h
    | cons other others =>
      rw [map_cons, map_cons, cons_eq_cons] at h
      obtain ⟨hcomment, hline, hfields⟩ := isComment_of_row h.1
      rw [layout, layout, ← hcomment]
      by_cases hl : isComment line = true
      · simp only [hl, if_true]
        rw [hline hl, ih h.2]
      · have hl : isComment line = false := by simpa using hl
        simp only [hl, Bool.false_eq_true, if_false, ← hfields hl]
        rw [ih h.2]

/-- A line that the formatter accepts. -/
def Accepts (line : Text) : Prop :=
  isComment line = true ∨ invalidFields (split isspace 6 line) = false

theorem measure_ok_iff (lines : List Text) (group : ℕ) (widths : Widths) :
    (∃ result, measure group widths lines = .ok result) ↔ ∀ line ∈ lines, Accepts line := by
  induction lines generalizing group widths with
  | nil => simp [measure]
  | cons line lines ih =>
    rw [measure, forall_mem_cons]
    by_cases hl : isComment line = true
    · simp [hl, ih, Accepts]
    · by_cases hvalid : invalidFields (split isspace 6 line) = true
      · simp [hl, hvalid, Accepts]
      · simp [hl, hvalid, ih, Accepts]

theorem layout_append (widths : Widths) (group : ℕ) (lines others : List Text) :
    ∃ group', layout widths group (lines ++ others) =
      layout widths group lines ++ layout widths group' others := by
  induction lines generalizing group with
  | nil => exact ⟨group, rfl⟩
  | cons line lines ih =>
    rw [cons_append, layout, layout]
    split
    · obtain ⟨group', h⟩ := ih (group + 1)
      exact ⟨group', by rw [h]; rfl⟩
    · obtain ⟨group', h⟩ := ih group
      exact ⟨group', by rw [h]; rfl⟩

/-- The line that a formatted line was made of, with its widths where it is a record. -/
theorem mem_layout {widths : Widths} {group : ℕ} {lines : List Text} {line : Text}
    (h : line ∈ layout widths group lines) :
    ∃ source ∈ lines, isComment source = true ∧ line = source ∨
      isComment source = false ∧
        ∃ widths, line = formatRecord widths (split isspace 6 source) := by
  induction lines generalizing group with
  | nil => simp [layout] at h
  | cons source lines ih =>
    rw [layout] at h
    split at h
    · rename_i hcomment
      rcases mem_cons.1 h with rfl | h
      · exact ⟨line, by simp, .inl ⟨hcomment, rfl⟩⟩
      · obtain ⟨other, hother, hline⟩ := ih h
        exact ⟨other, by simp [hother], hline⟩
    · rename_i hcomment
      rcases mem_cons.1 h with rfl | h
      · exact ⟨source, by simp, .inr ⟨by simpa using hcomment, _, rfl⟩⟩
      · obtain ⟨other, hother, hline⟩ := ih h
        exact ⟨other, by simp [hother], hline⟩

theorem row_formatRecord {line : Text} (widths : ℕ → ℕ) (hcomment : isComment line = false)
    (hvalid : invalidFields (split isspace 6 line) = false) :
    row (formatRecord widths (split isspace 6 line)) = .record (split isspace 6 line) := by
  have hsplit := split_formatRecord (by decide) (fun _ h => h) widths (split_fields hvalid)
  have hsame : isComment (formatRecord widths (split isspace 6 line)) = false := by
    rw [isComment_eq, hsplit, ← isComment_eq, hcomment]
  rw [row, hsame, hsplit]
  rfl

/-- A formatted line is to the formatter what the line was. -/
theorem map_row_layout {lines : List Text} (h : ∀ line ∈ lines, Accepts line)
    (widths : Widths) (group : ℕ) : (layout widths group lines).map row = lines.map row := by
  induction lines generalizing group with
  | nil => rfl
  | cons line lines ih =>
    obtain ⟨hline, hlines⟩ := forall_mem_cons.1 h
    rw [layout]
    split
    · rw [map_cons, map_cons, ih hlines]
    · rename_i hcomment
      have hcomment : isComment line = false := by simpa using hcomment
      have hvalid := hline.resolve_left (by simp [hcomment])
      rw [map_cons, map_cons, ih hlines, row_formatRecord _ hcomment hvalid, row,
        hcomment]
      rfl

/-- What the readers of the file make of a line after its format. -/
def rewritten (line : Text) : Option Entry :=
  if isComment line then readLine line else some (.record ((split isspace 6 line).take 6))

theorem isBlank_of_not_isspace {c : Char} (h : isspace c = false) : isBlank c = false := by
  by_contra hc
  simp [isspace_of_isBlank (by simpa using hc)] at h

theorem readLine_formatRecord {fields : List Text} (widths : ℕ → ℕ) (h : Fields fields)
    (hcomment : fields.head?.bind List.head? ≠ some '#') :
    readLine (formatRecord widths fields) = some (.record (fields.take 6)) := by
  have hsplit := split_formatRecord (by decide) (fun _ => isBlank_of_not_isspace) widths h
  rw [readLine_record_iff, hsplit]
  refine ⟨?_, rfl⟩
  rw [← split_head isBlank 5, hsplit]
  rcases h.cases with ⟨a, b, c, d, e, f, rfl⟩ | ⟨a, b, c, d, e, f, g, rfl⟩
  all_goals
    obtain ⟨x, a, rfl⟩ := exists_cons_of_ne_nil (h.words a (by simp)).1
    exact ⟨x, rfl, fun hx => hcomment (by simp [hx])⟩

theorem entriesOf_layout {lines : List Text} (h : ∀ line ∈ lines, Accepts line)
    (widths : Widths) (group : ℕ) :
    entriesOf (layout widths group lines) = lines.filterMap rewritten := by
  induction lines generalizing group with
  | nil => rfl
  | cons line lines ih =>
    obtain ⟨hline, hlines⟩ := forall_mem_cons.1 h
    rw [layout]
    split
    · rename_i hcomment
      simp only [entriesOf, filterMap_cons, rewritten, hcomment, if_true] at ih ⊢
      rw [ih hlines]
    · rename_i hcomment
      have hcomment : isComment line = false := by simpa using hcomment
      have hfields := split_fields (hline.resolve_left (by simp [hcomment]))
      have hread := readLine_formatRecord (widths group) hfields
        (by simpa [isComment_eq] using hcomment)
      simp only [entriesOf, filterMap_cons, rewritten, hcomment, Bool.false_eq_true,
        if_false, hread] at ih ⊢
      rw [ih hlines]

/-- A line as the formatter sees it: visible, and without an end of a line. -/
def IsLine (line : Text) : Prop := visible line = true ∧ ∀ c ∈ line, isLineEnd c = false

theorem isLine_of_mem_pieces {text line : Text} (h : line ∈ pieces text) : IsLine line := by
  obtain ⟨hmem, hvisible⟩ := mem_filter.1 h
  exact ⟨hvisible, fun c hc => mem_splitOnP_not hmem hc⟩

theorem pieces_of_isLine {line : Text} (h : IsLine line) : pieces line = [line] := by
  rw [pieces, splitOnP_eq_singleton h.2, filter_singleton, h.1]
  rfl

theorem layout_isLine {lines : List Text} (h : ∀ line ∈ lines, IsLine line)
    (haccepts : ∀ line ∈ lines, Accepts line) {widths : Widths} {group : ℕ} {line : Text}
    (hline : line ∈ layout widths group lines) : IsLine line := by
  obtain ⟨source, hsource, ⟨-, rfl⟩ | ⟨hcomment, widths, rfl⟩⟩ := mem_layout hline
  · exact h line hsource
  · have hfields := split_fields ((haccepts source hsource).resolve_left (by simp [hcomment]))
    have hsplit := split_formatRecord (by decide) (fun _ h => h) widths hfields
    constructor
    · refine visible_of_split (n := 6) ?_
      rw [hsplit]
      exact split_ne_nil_of_visible (h source hsource).1
    · intro c hc
      rcases mem_formatRecord hc with rfl | ⟨field, hfield, hc⟩
      · decide
      · exact (h source hsource).2 c ((split_mem_isInfix hfield).subset hc)

theorem formatFstab_eq (text : Text) :
    formatFstab text = (measure 0 (fun _ _ => 0) (pieces text)).map fun widths =>
      unlines (layout widths 0 (pieces text)) := by
  rw [formatFstab, splitlines_visible]
  cases measure 0 (fun _ _ => 0) (pieces text) <;> rfl

/-- A format that does not raise. -/
theorem formatFstab_ok {text result : Text} (h : formatFstab text = .ok result) :
    (∀ line ∈ pieces text, Accepts line) ∧
      ∃ widths, result = unlines (layout widths 0 (pieces text)) := by
  rw [formatFstab_eq] at h
  rcases hmeasure : measure 0 (fun _ _ => 0) (pieces text) with e | widths
  · simp [hmeasure, Except.map] at h
  · rw [hmeasure] at h
    exact ⟨(measure_ok_iff _ _ _).1 ⟨widths, hmeasure⟩, widths,
      by simpa [Except.map, eq_comm] using h⟩

theorem formatFstab_congr {text other : Text} (h : (pieces text).map row = (pieces other).map row) :
    formatFstab text = formatFstab other := by
  rw [formatFstab_eq, formatFstab_eq, measure_congr h]
  simp only [layout_congr h]

end Preseed.NetworkSharing
