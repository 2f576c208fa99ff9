import Preseed.NetworkSharing.Markers

/-!
# A block behind the other lines

The formatted lines have no marker, a block that is appended adds its own lines, and the
destinations that are checked are those of the formatted lines.
-/

namespace Preseed.NetworkSharing

open List

open Ipaddress (Text)
open DesktopFirewall (isspace)

/-! ## Markers in formatted lines -/

theorem Unmarked.of_isInfix {text part : Text} (h : Unmarked text) (hpart : part <:+: text) :
    Unmarked part := by
  rw [Unmarked, count_eq_zero_iff beginMarker_ne_nil, count_eq_zero_iff endMarker_ne_nil] at *
  exact ⟨fun hmarker => h.1 (hmarker.trans hpart), fun hmarker => h.2 (hmarker.trans hpart)⟩

section Spaced

variable {n : ℕ} {x : Char} {marker word rest : Text}

/-- A single blank behind `#` is not between two columns. -/
theorem infix_column (hx : x ≠ ' ') (hword : ∀ c ∈ word, isspace c = false)
    (h : '#' :: ' ' :: x :: marker <:+: word ++ ' ' :: ' ' :: rest) :
    '#' :: ' ' :: x :: marker <:+: rest := by
  have hspace : ' ' ∉ word := fun hc => absurd (hword ' ' hc) (by decide)
  induction word with
  | nil =>
    rw [nil_append, infix_cons_iff, infix_cons_iff] at h
    rcases h with h | h | h
    · simp at h
    · simp at h
    · exact h
  | cons c word ih =>
    rw [cons_append, infix_cons_iff] at h
    rcases h with h | h
    · exfalso
      cases word with
      | nil => simp [hx] at h
      | cons d word =>
        simp only [cons_append, cons_prefix_cons] at h
        exact hspace (by rw [h.2.1]; simp)
    · exact ih (fun d hd => hword d (by simp [hd])) h fun hc => hspace (by simp [hc])

theorem infix_spaces (h : '#' :: ' ' :: x :: marker <:+: List.replicate n ' ' ++ rest) :
    '#' :: ' ' :: x :: marker <:+: rest := by
  induction n with
  | zero => simpa using h
  | succ n ih =>
    rw [replicate_succ, cons_append, infix_cons_iff] at h
    rcases h with h | h
    · simp at h
    · exact ih h

theorem infix_ljust (hx : x ≠ ' ') (width : ℕ) (hword : ∀ c ∈ word, isspace c = false)
    (h : '#' :: ' ' :: x :: marker <:+: ljust width word ++ ' ' :: ' ' :: rest) :
    '#' :: ' ' :: x :: marker <:+: rest := by
  have hcomm : ljust width word ++ ' ' :: ' ' :: rest =
      word ++ ' ' :: ' ' :: (List.replicate (width - word.length) ' ' ++ rest) := by
    have hcons : ∀ (n : ℕ) (text : Text),
        List.replicate n ' ' ++ ' ' :: text = ' ' :: (List.replicate n ' ' ++ text) := by
      intro n text
      rw [← cons_append, ← replicate_succ, replicate_succ', append_assoc]
      rfl
    rw [ljust, append_assoc, hcons, hcons]
  rw [hcomm] at h
  exact infix_spaces (infix_column hx hword h)

theorem not_infix_word (hword : ∀ c ∈ word, isspace c = false) :
    ¬ '#' :: ' ' :: x :: marker <:+: word := by
  intro h
  exact absurd (hword ' ' (h.subset (by simp))) (by decide)

/-- A formatted record has a marker only in the comment at its end. -/
theorem not_infix_formatRecord (hx : x ≠ ' ') {fields : List Text} (h : Fields fields)
    (hlast : ∀ field ∈ fields, ¬ '#' :: ' ' :: x :: marker <:+: field) (widths : ℕ → ℕ) :
    ¬ '#' :: ' ' :: x :: marker <:+: formatRecord widths fields := by
  intro hmarker
  have hwords := h.words
  rcases h.cases with ⟨a, b, c, d, e, f, rfl⟩ | ⟨a, b, c, d, e, f, g, rfl⟩
  · simp only [take_succ_cons, take_nil, forall_mem_cons] at hwords
    obtain ⟨ha, hb, hc, hd, he, hf, -⟩ := hwords
    rw [formatRecord_six] at hmarker
    exact not_infix_word hf.2 (infix_ljust hx _ he.2 (infix_ljust hx _ hd.2
      (infix_ljust hx _ hc.2 (infix_ljust hx _ hb.2 (infix_ljust hx _ ha.2 hmarker)))))
  · simp only [take_succ_cons, take_zero, forall_mem_cons] at hwords
    obtain ⟨ha, hb, hc, hd, he, hf, -⟩ := hwords
    rw [formatRecord_seven] at hmarker
    exact hlast _ (by simp) (infix_column hx hf.2 (infix_ljust hx _ he.2 (infix_ljust hx _ hd.2
      (infix_ljust hx _ hc.2 (infix_ljust hx _ hb.2 (infix_ljust hx _ ha.2 hmarker))))))

end Spaced

theorem beginMarker_eq : beginMarker = '#' :: ' ' :: 'B' :: beginMarker.drop 3 := by
  decide

theorem endMarker_eq : endMarker = '#' :: ' ' :: 'E' :: endMarker.drop 3 := by decide

variable {line : Text}

theorem formatRecord_unmarked (h : Unmarked line)
    (hvalid : invalidFields (split isspace 6 line) = false) (widths : ℕ → ℕ) :
    Unmarked (formatRecord widths (split isspace 6 line)) := by
  have hfield : ∀ field ∈ split isspace 6 line, Unmarked field := fun field hfield =>
    h.of_isInfix (split_mem_isInfix hfield)
  rw [Unmarked, count_eq_zero_iff beginMarker_ne_nil, count_eq_zero_iff endMarker_ne_nil,
    beginMarker_eq, endMarker_eq]
  constructor
  · refine not_infix_formatRecord (by decide) (split_fields hvalid) (fun field hmem => ?_) _
    rw [← beginMarker_eq, ← count_eq_zero_iff beginMarker_ne_nil]
    exact (hfield field hmem).1
  · refine not_infix_formatRecord (by decide) (split_fields hvalid) (fun field hmem => ?_) _
    rw [← endMarker_eq, ← count_eq_zero_iff endMarker_ne_nil]
    exact (hfield field hmem).2

variable {lines : List Text}

theorem layout_unmarked (h : ∀ line ∈ lines, Unmarked line)
    (haccepts : ∀ line ∈ lines, Accepts line) {widths : Widths} {group : ℕ} :
    ∀ line ∈ layout widths group lines, Unmarked line := by
  intro line hline
  obtain ⟨source, hsource, ⟨-, rfl⟩ | ⟨hcomment, widths, rfl⟩⟩ := mem_layout hline
  · exact h line hsource
  · exact formatRecord_unmarked (h source hsource)
      ((haccepts source hsource).resolve_left (by simp [hcomment])) widths

variable {text : Text}

theorem pieces_unmarked (h : ∀ line ∈ fileLines text, Unmarked line) :
    ∀ piece ∈ pieces text, Unmarked piece := by
  intro piece hpiece
  rw [pieces_eq_flatMap, mem_flatMap] at hpiece
  obtain ⟨line, hline, hpiece⟩ := hpiece
  exact (h line hline).of_isInfix (Texts.isInfix_of_mem_splitOnP (mem_of_mem_filter hpiece))

/-! ## Appended lines -/

theorem IsLine.newline_not_mem (h : IsLine line) : '\n' ∉ line := fun hc => by
  simpa [isLineEnd_newline] using h.2 _ hc

theorem pieces_terminated (h : ∀ line ∈ lines, IsLine line) :
    pieces (terminated lines) = lines := by
  induction lines with
  | nil => rfl
  | cons line lines ih =>
    obtain ⟨hline, hlines⟩ := forall_mem_cons.1 h
    rw [terminated_cons, pieces_append, pieces_of_isLine hline, ih hlines]
    rfl

theorem pieces_stripNewlines (text : Text) : pieces (stripNewlines text) = pieces text := by
  have hpieces : ∀ (tail head : Text), (∀ c ∈ tail, c = '\n') →
      pieces (head ++ tail) = pieces head := by
    intro tail
    induction tail with
    | nil => simp
    | cons c tail ih =>
      intro head h
      obtain ⟨rfl, htail⟩ := forall_mem_cons.1 h
      rw [pieces_append, show tail = [] ++ tail from rfl, ih [] htail]
      simp [pieces, visible]
  have htail : ∀ c ∈ text.rtakeWhile (· = '\n'), c = '\n' := fun c hc => by
    simpa using mem_rtakeWhile_imp hc
  conv_rhs => rw [← rdropWhile_append_rtakeWhile (p := fun c => decide (c = '\n')) (l := text)]
  exact (hpieces _ _ htail).symm

theorem visible_iff : visible text = true ↔ ∃ c ∈ text, isspace c = false := by
  simp [visible]

theorem pieces_eq_nil (h : visible text = false) : pieces text = [] := by
  refine filter_eq_nil_iff.2 fun piece hpiece hvisible => ?_
  obtain ⟨c, hc, hspace⟩ := visible_iff.1 hvisible
  have : visible text = true :=
    visible_iff.2 ⟨c, (Texts.isInfix_of_mem_splitOnP hpiece).subset hc, hspace⟩
  simp [h] at this

/-- A block that is appended adds its lines, unless it is glued to white space. -/
theorem pieces_appendBlock {block : Text} (h : visible text = true ∨ stripNewlines text = []) :
    pieces (appendBlock text block) = pieces text ++ pieces block := by
  rw [appendBlock]
  by_cases hvisible : visible text = true
  · rw [if_pos hvisible, append_assoc, cons_append, cons_append, nil_append,
      pieces_append, pieces_stripNewlines, show '\n' :: block = [] ++ '\n' :: block from rfl,
      pieces_append]
    rfl
  · have hstrip := h.resolve_left hvisible
    have hnil : pieces text = [] := pieces_eq_nil (by simpa using hvisible)
    rw [if_neg hvisible, hstrip, hnil]
    rfl

/-! ## Destinations -/

variable {destinations : List Text}

theorem owns_visible (h : owns destinations line = true) : visible line = true := by
  refine visible_of_split (n := line.length) ?_
  intro hnil
  simp [owns, words, hnil] at h

theorem any_owns (destinations : List Text) (text : Text) :
    (splitlines text).any (owns destinations) = (pieces text).any (owns destinations) := by
  rw [← splitlines_visible, Bool.eq_iff_iff, any_eq_true, any_eq_true]
  constructor
  · rintro ⟨line, hline, howns⟩
    exact ⟨line, mem_filter.2 ⟨hline, owns_visible howns⟩, howns⟩
  · rintro ⟨line, hline, howns⟩
    exact ⟨line, mem_of_mem_filter hline, howns⟩

theorem words_take_two (h : 2 ≤ (split isspace 6 line).length) :
    (words line).take 2 = (split isspace 6 line).take 2 := by
  have hlength := split_length_le_length isspace 6 line
  obtain ⟨n, hn⟩ : ∃ n, line.length = n + 2 := ⟨line.length - 2, by omega⟩
  rw [words, hn]
  exact split_take_two n 4

/-- The second field decides whether a record owns a destination. -/
theorem owns_iff (hcomment : isComment line = false)
    (hvalid : invalidFields (split isspace 6 line) = false) :
    owns destinations line = true ↔
      mountDestination (split isspace 6 line) ∈ destinations := by
  have hfields := split_fields hvalid
  have hlength : 2 ≤ (split isspace 6 line).length := by
    rcases hfields.cases with ⟨_, _, _, _, _, _, h⟩ | ⟨_, _, _, _, _, _, _, h⟩ <;> simp [h]
  have hwords := words_take_two hlength
  obtain ⟨a, b, rest, hsplit⟩ : ∃ a b rest, split isspace 6 line = a :: b :: rest := by
    rcases hfields.cases with ⟨_, _, _, _, _, _, h⟩ | ⟨_, _, _, _, _, _, _, h⟩ <;>
      exact ⟨_, _, _, h⟩
  rw [hsplit] at hwords ⊢
  rw [owns]
  rcases hline : words line with - | ⟨a', - | ⟨b', rest'⟩⟩
  · simp [hline] at hwords
  · simp [hline] at hwords
  · rw [hline] at hwords
    simp only [take_succ_cons, take_zero, List.cons.injEq, and_true] at hwords
    simp [hcomment, mountDestination, hwords.2]

theorem owns_comment (h : isComment line = true) :
    owns destinations line = false := by
  rw [owns]
  split
  · simp [h]
  · rfl

theorem owns_congr {other : Text} (h : row line = row other)
    (haccepts : Accepts line) : owns destinations line = owns destinations other := by
  obtain ⟨hcomment, -, hfields⟩ := isComment_of_row h
  by_cases hl : isComment line = true
  · rw [owns_comment hl, owns_comment (hcomment ▸ hl)]
  · have hl : isComment line = false := by simpa using hl
    have hvalid := haccepts.resolve_left (by simp [hl])
    rw [Bool.eq_iff_iff, owns_iff hl hvalid, owns_iff (hcomment ▸ hl) (hfields hl ▸ hvalid),
      hfields hl]

theorem any_owns_congr {others : List Text} (h : lines.map row = others.map row)
    (haccepts : ∀ line ∈ lines, Accepts line) :
    lines.any (owns destinations) = others.any (owns destinations) := by
  induction lines generalizing others with
  | nil =>
    have : others = [] := by simpa [eq_comm] using h
    simp [this]
  | cons line lines ih =>
    cases others with
    | nil => simp at h
    | cons other others =>
      rw [map_cons, map_cons, cons_eq_cons] at h
      obtain ⟨hline, hlines⟩ := forall_mem_cons.1 haccepts
      rw [any_cons, any_cons, owns_congr h.1 hline, ih h.2 hlines]

end Preseed.NetworkSharing
