import Preseed.NetworkSharing.Formatting

/-!
# The markers of the block

The two markers are lines of their own: taking the managed block out of a text leaves the
lines outside it, and a text made of terminated lines gives its block up again.
-/

namespace Preseed.NetworkSharing

open List

open Ipaddress (Text)
open DesktopFirewall (isspace)

/-! ## Terminated lines -/

/-- The text of some lines, each with its newline. -/
def terminated (lines : List Text) : Text := lines.flatMap (· ++ ['\n'])

@[simp]
theorem terminated_nil : terminated [] = [] := rfl

@[simp]
theorem terminated_cons (line : Text) (lines : List Text) :
    terminated (line :: lines) = line ++ '\n' :: terminated lines := by
  simp [terminated]

@[simp]
theorem terminated_append (lines others : List Text) :
    terminated (lines ++ others) = terminated lines ++ terminated others := by
  simp [terminated]

theorem unlines_eq_terminated (lines : List Text) : unlines lines = terminated lines := by
  induction lines with
  | nil => rfl
  | cons line lines ih =>
    cases lines with
    | nil => simp [unlines]
    | cons next lines =>
      rw [terminated_cons, ← ih]
      simp [unlines, intercalate_cons_cons]

theorem fileLines_terminated {lines : List Text} (h : ∀ line ∈ lines, '\n' ∉ line)
    (text : Text) : fileLines (terminated lines ++ text) = lines ++ fileLines text := by
  induction lines with
  | nil => rfl
  | cons line lines ih =>
    obtain ⟨hline, hlines⟩ := forall_mem_cons.1 h
    have ih := ih hlines
    rw [fileLines] at ih ⊢
    rw [terminated_cons, append_assoc, cons_append,
      splitOn_append_cons_self_of_not_mem hline, ih]
    rfl

theorem newline_not_mem_fileLines {text line : Text} (h : line ∈ fileLines text) :
    '\n' ∉ line := by
  intro hc
  rw [fileLines, splitOn_eq_splitOnP] at h
  simpa using mem_splitOnP_not h hc

theorem terminated_fileLines (text : Text) : terminated (fileLines text) = text ++ ['\n'] := by
  have hne : fileLines text ≠ [] := splitOn_ne_nil '\n' text
  rw [← unlines_eq_terminated, unlines, if_neg hne, fileLines, intercalate_splitOn]

/-- A text that is empty or ends with a newline is made of terminated lines. -/
theorem exists_terminated {text : Text} (h : text = [] ∨ text.getLast? = some '\n') :
    ∃ lines, text = terminated lines ∧ ∀ line ∈ lines, '\n' ∉ line := by
  rcases h with rfl | h
  · exact ⟨[], rfl, by simp⟩
  · obtain ⟨text, rfl⟩ := getLast?_eq_some_iff.1 h
    exact ⟨fileLines text, (terminated_fileLines text).symm,
      fun line hline => newline_not_mem_fileLines hline⟩

/-! ## Occurrences of a marker -/

section Marker

variable {marker text rest : Text}

theorem count_eq_zero_iff (hne : marker ≠ []) : count marker text = 0 ↔ ¬ marker <:+: text := by
  induction text with
  | nil => simp [count, hne]
  | cons c text ih =>
    rw [count, infix_cons_iff, Nat.add_eq_zero_iff, ih, ← isPrefixOf_iff_prefix]
    cases marker.isPrefixOf (c :: text) <;> simp

theorem prefix_append_newline (hmarker : '\n' ∉ marker) :
    marker <+: text ++ '\n' :: rest ↔ marker <+: text := by
  refine ⟨fun h => ?_, prefix_append_of_prefix⟩
  rcases prefix_or_prefix_of_prefix h (prefix_append text ('\n' :: rest)) with
    h' | ⟨tail, rfl⟩
  · exact h'
  · rw [prefix_append_right_inj] at h
    cases tail with
    | nil => simp
    | cons c tail =>
      rw [cons_prefix_cons] at h
      simp [h.1] at hmarker

theorem isPrefixOf_append_newline (hmarker : '\n' ∉ marker) :
    marker.isPrefixOf (text ++ '\n' :: rest) = marker.isPrefixOf text := by
  rw [Bool.eq_iff_iff, isPrefixOf_iff_prefix, isPrefixOf_iff_prefix,
    prefix_append_newline hmarker]

theorem count_append_newline (hne : marker ≠ []) (hmarker : '\n' ∉ marker) :
    count marker (text ++ '\n' :: rest) = count marker text + count marker rest := by
  induction text with
  | nil =>
    have hfirst : marker.isPrefixOf ('\n' :: rest) = false := by
      rw [show '\n' :: rest = [] ++ '\n' :: rest from rfl, isPrefixOf_append_newline hmarker]
      cases marker with
      | nil => exact absurd rfl hne
      | cons c marker => rfl
    simp [count, hfirst]
  | cons c text ih =>
    rw [cons_append, count, count, ih, ← cons_append,
      isPrefixOf_append_newline hmarker, Nat.add_assoc]

theorem count_terminated (hne : marker ≠ []) (hmarker : '\n' ∉ marker) (lines : List Text)
    (text : Text) : count marker (terminated lines ++ text) =
      (lines.map (count marker)).sum + count marker text := by
  induction lines with
  | nil => simp
  | cons line lines ih =>
    rw [terminated_cons, append_assoc, cons_append, count_append_newline hne hmarker,
      ih, map_cons, sum_cons, Nat.add_assoc]

theorem count_eq_sum (hne : marker ≠ []) (hmarker : '\n' ∉ marker) (text : Text) :
    count marker text = ((fileLines text).map (count marker)).sum := by
  have h := count_terminated hne hmarker (fileLines text) []
  rw [append_nil, terminated_fileLines, count_append_newline hne hmarker] at h
  simpa [count] using h

/-- Where the marker occurs first. -/
theorem index_spec (h : count marker text ≠ 0) :
    ∃ before after, text = before ++ (marker ++ after) ∧ index marker text = before.length := by
  induction text with
  | nil => simp [count] at h
  | cons c text ih =>
    rw [index]
    split
    · rename_i hfirst
      obtain ⟨after, hafter⟩ := isPrefixOf_iff_prefix.1 hfirst
      exact ⟨[], after, by simp [hafter], rfl⟩
    · rename_i hfirst
      rw [count, if_neg hfirst, Nat.zero_add] at h
      obtain ⟨before, after, htext, hindex⟩ := ih h
      exact ⟨c :: before, after, by rw [htext]; rfl, by rw [hindex]; rfl⟩

theorem index_self (hne : marker ≠ []) : index marker (marker ++ rest) = 0 := by
  obtain ⟨c, marker, rfl⟩ := exists_cons_of_ne_nil hne
  have : (c :: marker).isPrefixOf (c :: marker ++ rest) = true := by simp
  rw [cons_append] at this ⊢
  rw [index, if_pos this]

theorem index_append_newline (hmarker : '\n' ∉ marker) (hne : marker ≠ [])
    (hcount : count marker text = 0) :
    index marker (text ++ '\n' :: rest) = text.length + 1 + index marker rest := by
  induction text with
  | nil =>
    have hfirst : marker.isPrefixOf ('\n' :: rest) = false := by
      rw [show '\n' :: rest = [] ++ '\n' :: rest from rfl, isPrefixOf_append_newline hmarker]
      cases marker with
      | nil => exact absurd rfl hne
      | cons c marker => rfl
    simp [index, hfirst, Nat.add_comm]
  | cons c text ih =>
    rw [count, Nat.add_eq_zero_iff] at hcount
    have hfirst : ¬ marker.isPrefixOf (c :: text ++ '\n' :: rest) = true := by
      rw [isPrefixOf_append_newline hmarker]
      intro hpre
      simp [hpre] at hcount
    rw [cons_append] at hfirst ⊢
    rw [index, if_neg hfirst, ih hcount.2, length_cons]
    omega

theorem index_terminated (hmarker : '\n' ∉ marker) (hne : marker ≠ []) {lines : List Text}
    (hcount : ∀ line ∈ lines, count marker line = 0) (text : Text) :
    index marker (terminated lines ++ text) =
      (terminated lines).length + index marker text := by
  induction lines with
  | nil => simp
  | cons line lines ih =>
    obtain ⟨hline, hlines⟩ := forall_mem_cons.1 hcount
    rw [terminated_cons, append_assoc, cons_append,
      index_append_newline hmarker hne hline, ih hlines]
    simp only [length_append, length_cons]
    omega

end Marker

theorem beginMarker_ne_nil : beginMarker ≠ [] := by decide

theorem endMarker_ne_nil : endMarker ≠ [] := by decide

theorem newline_not_mem_beginMarker : '\n' ∉ beginMarker := by decide

theorem newline_not_mem_endMarker : '\n' ∉ endMarker := by decide

/-- A text has no marker. -/
def Unmarked (text : Text) : Prop := count beginMarker text = 0 ∧ count endMarker text = 0

theorem count_beginMarker_self : count beginMarker beginMarker = 1 := by decide

theorem count_endMarker_self : count endMarker endMarker = 1 := by decide

theorem count_beginMarker_endMarker : count beginMarker endMarker = 0 := by decide

theorem count_endMarker_beginMarker : count endMarker beginMarker = 0 := by decide

theorem Unmarked.ne_beginMarker {line : Text} (h : Unmarked line) : line ≠ beginMarker := by
  rintro rfl
  exact absurd h.1 (by rw [count_beginMarker_self]; decide)

theorem Unmarked.ne_endMarker {line : Text} (h : Unmarked line) : line ≠ endMarker := by
  rintro rfl
  exact absurd h.2 (by rw [count_endMarker_self]; decide)

/-- The lines outside a block whose other lines have no marker. -/
theorem outside_append {lines block rest : List Text} (hlines : ∀ line ∈ lines, Unmarked line)
    (hblock : ∀ line ∈ block, Unmarked line) :
    outside (lines ++ beginMarker :: (block ++ endMarker :: rest)) = lines ++ rest := by
  have hfirst : ∀ line ∈ lines, decide (line ≠ beginMarker) = true := fun line h => by
    simpa using (hlines line h).ne_beginMarker
  have hlast : ∀ line ∈ beginMarker :: block, decide (line ≠ endMarker) = true := by
    rw [forall_mem_cons]
    exact ⟨by decide, fun line h => by simpa using (hblock line h).ne_endMarker⟩
  rw [outside, takeWhile_append_of_pos hfirst, dropWhile_append_of_pos hfirst,
    takeWhile_cons_of_neg (by simp), dropWhile_cons_of_neg (by simp),
    ← cons_append, dropWhile_append_of_pos hlast, dropWhile_cons_of_neg (by simp)]
  simp

theorem outside_eq_self {lines : List Text} (h : ∀ line ∈ lines, line ≠ beginMarker) :
    outside lines = lines := by
  have hall : ∀ line ∈ lines, decide (line ≠ beginMarker) = true := by simpa using h
  rw [outside, takeWhile_eq_self_iff.2 hall, dropWhile_eq_nil_iff.2 hall]
  simp

/-! ## Taking the block out -/

theorem sum_map_eq_zero {α : Type} {f : α → ℕ} {items : List α} (h : (items.map f).sum = 0) :
    ∀ item ∈ items, f item = 0 := by
  induction items with
  | nil => simp
  | cons item items ih =>
    rw [map_cons, sum_cons, Nat.add_eq_zero_iff] at h
    exact forall_mem_cons.2 ⟨h.1, ih h.2⟩

theorem getLast?_of_getElem? {text rest : Text} {c : Char} (hne : text ≠ [])
    (h : (text ++ rest)[text.length - 1]? = some c) : text.getLast? = some c := by
  have hlength := length_pos_iff.2 hne
  rw [getElem?_append_left (by omega)] at h
  rw [getLast?_eq_getElem?, h]

theorem head?_of_getElem? (text : Text) {rest : Text} {c : Char}
    (h : (text ++ rest)[text.length]? = some c) : ∃ tail, rest = c :: tail := by
  rw [getElem?_append_right (le_refl _), Nat.sub_self] at h
  cases rest with
  | nil => simp at h
  | cons d tail => exact ⟨tail, by simpa using h⟩

/-- A marker begins with the only `#` that it has. -/
theorem beginMarker_hash (rest : Text) {k : ℕ} (h : 1 ≤ k) (hk : k ≤ beginMarker.length) :
    (beginMarker ++ '\n' :: rest)[k]? ≠ some '#' := by
  have hall : ∀ k < 32, 1 ≤ k → (beginMarker ++ ['\n'])[k]? ≠ some '#' := by decide
  have hlength : beginMarker.length = 31 := by decide
  have happend : beginMarker ++ '\n' :: rest = (beginMarker ++ ['\n']) ++ rest := by simp
  rw [happend, getElem?_append_left (by
    rw [length_append, length_singleton]
    omega)]
  exact hall k (by omega) h

/-- The parts of a text with a block. -/
structure Marked (text : Text) where
  before : List Text
  block : List Text
  after : Text
  before_line : ∀ line ∈ before, '\n' ∉ line
  block_line : ∀ line ∈ block, '\n' ∉ line
  /-- Nothing follows the block, or a newline ends its last line. -/
  ended : after = [] ∨ ∃ rest, after = '\n' :: rest
  eq : text = terminated (before ++ beginMarker :: block) ++ (endMarker ++ after)

theorem withoutManagedBlock_cases {text result : Text}
    (h : withoutManagedBlock text = .ok result) :
    Unmarked text ∧ result = text ∨
      count beginMarker text = 1 ∧ count endMarker text = 1 ∧
        ∃ m : Marked text, result = terminated m.before ++ m.after.tail := by
  rw [withoutManagedBlock] at h
  split at h
  · rename_i hunmarked
    exact .inl ⟨hunmarked, by simpa [eq_comm] using h⟩
  split at h
  · cases h
  rename_i hcount
  obtain ⟨hbegin, hend⟩ : count beginMarker text = 1 ∧ count endMarker text = 1 := by
    simpa using hcount
  right
  refine ⟨hbegin, hend, ?_⟩
  obtain ⟨a, c, htext, hstart⟩ := index_spec (show count beginMarker text ≠ 0 by omega)
  obtain ⟨a', c', htext', hlast⟩ := index_spec (show count endMarker text ≠ 0 by omega)
  dsimp only at h
  split at h
  · cases h
  rename_i hgood
  simp only [hstart, hlast, not_or, not_and, not_not, Nat.not_le] at hgood h
  obtain ⟨horder, hbefore, hnewline, hbody, hafter⟩ := hgood
  -- The begin marker is a line of its own.
  have ha : a = [] ∨ a.getLast? = some '\n' := by
    by_cases hne : a = []
    · exact .inl hne
    · have hlength : a.length ≠ 0 := by simpa using hne
      exact .inr (getLast?_of_getElem? hne (htext ▸ hbefore hlength))
  obtain ⟨c, rfl⟩ : ∃ tail, c = '\n' :: tail := by
    refine head?_of_getElem? (a ++ beginMarker) ?_
    rw [append_assoc, ← htext, length_append]
    exact hnewline
  -- The end marker begins behind it.
  have ha' : a'.getLast? = some '\n' := by
    have hne : a' ≠ [] := by
      rintro rfl
      simp at horder
    have hlength : a'.length ≠ 0 := by simpa using hne
    exact getLast?_of_getElem? hne (htext' ▸ hbody hlength)
  have hended : c' = [] ∨ ∃ rest, c' = '\n' :: rest := by
    by_cases hne : c' = []
    · exact .inl hne
    · have hlength := length_pos_iff.2 hne
      have hfinish : a'.length + endMarker.length < text.length := by
        rw [htext', length_append, length_append]
        omega
      refine .inr (head?_of_getElem? (a' ++ endMarker) ?_)
      rw [append_assoc, ← htext', length_append]
      exact hafter hfinish
  obtain ⟨body, rfl⟩ : ∃ body, a' = a ++ (beginMarker ++ ['\n']) ++ body := by
    have hpre : a ++ (beginMarker ++ ['\n']) <+: text := ⟨c, by rw [htext]; simp⟩
    have hpre' : a' <+: text := ⟨endMarker ++ c', htext'.symm⟩
    have hle : (a ++ (beginMarker ++ ['\n'])).length ≤ a'.length := by
      by_contra hlt
      simp only [length_append, length_singleton] at hlt
      have hhash : text[a'.length]? = some '#' := by
        rw [htext', getElem?_append_right (le_refl _), Nat.sub_self]
        rfl
      rw [htext, getElem?_append_right (by omega)] at hhash
      exact beginMarker_hash c (by omega) (by omega) hhash
    obtain ⟨body, hbody⟩ := prefix_of_prefix_length_le hpre hpre' hle
    exact ⟨body, hbody.symm⟩
  have hbody' : body = [] ∨ body.getLast? = some '\n' := by
    by_cases hne : body = []
    · exact .inl hne
    · right
      rwa [getLast?_append_of_ne_nil _ hne] at ha'
  obtain ⟨before, rfl, hbefore'⟩ := exists_terminated ha
  obtain ⟨block, rfl, hblock⟩ := exists_terminated hbody'
  have heq : text = terminated (before ++ beginMarker :: block) ++ (endMarker ++ c') := by
    rw [htext']
    simp
  refine ⟨⟨before, block, c', hbefore', hblock, hended, heq⟩, ?_⟩
  have htake : text.take (terminated before).length = terminated before := by
    rw [heq, terminated_append, append_assoc, take_left]
  have hlength : text.length = (terminated before ++ (beginMarker ++ ['\n']) ++
      terminated block).length + endMarker.length + c'.length := by
    rw [htext']
    simp only [length_append]
    omega
  rw [Except.ok.injEq, htake] at h
  rw [← h]
  congr 1
  change _ = c'.tail
  have hdrop : text.drop ((terminated before ++ (beginMarker ++ ['\n']) ++
      terminated block).length + endMarker.length) = c' := by
    rw [← length_append, htext', ← append_assoc (terminated before ++
      (beginMarker ++ ['\n']) ++ terminated block) endMarker c', drop_left]
  rcases hended with rfl | ⟨rest, rfl⟩
  · rw [if_neg (by simp [hlength]), hdrop]
    rfl
  · rw [if_pos (by simp [hlength]), ← drop_drop, hdrop]
    rfl

/-- Outside a block that was taken out no line has a marker. -/
theorem Marked.unmarked {text : Text} (m : Marked text) (hbegin : count beginMarker text = 1)
    (hend : count endMarker text = 1) :
    (∀ line ∈ m.before, Unmarked line) ∧ (∀ line ∈ m.block, Unmarked line) ∧
      Unmarked m.after.tail := by
  have htail : ∀ marker : Text, marker ≠ [] → '\n' ∉ marker →
      count marker (endMarker ++ m.after) = count marker endMarker + count marker m.after.tail := by
    intro marker hne hmarker
    rcases m.ended with h | ⟨rest, h⟩
    · simp [h, count]
    · rw [h, count_append_newline hne hmarker]
      rfl
  rw [m.eq, count_terminated beginMarker_ne_nil newline_not_mem_beginMarker,
    htail _ beginMarker_ne_nil newline_not_mem_beginMarker, map_append, sum_append,
    map_cons, sum_cons, count_beginMarker_self, count_beginMarker_endMarker] at hbegin
  rw [m.eq, count_terminated endMarker_ne_nil newline_not_mem_endMarker,
    htail _ endMarker_ne_nil newline_not_mem_endMarker, map_append, sum_append,
    map_cons, sum_cons, count_endMarker_self, count_endMarker_beginMarker] at hend
  refine ⟨fun line h => ⟨sum_map_eq_zero (by omega) line h, sum_map_eq_zero (by omega) line h⟩,
    fun line h => ⟨sum_map_eq_zero (by omega) line h, sum_map_eq_zero (by omega) line h⟩,
    by omega, by omega⟩

theorem Unmarked.fileLines {text : Text} (h : Unmarked text) :
    ∀ line ∈ fileLines text, Unmarked line := by
  have hbegin := h.1
  have hend := h.2
  rw [count_eq_sum beginMarker_ne_nil newline_not_mem_beginMarker] at hbegin
  rw [count_eq_sum endMarker_ne_nil newline_not_mem_endMarker] at hend
  exact fun line hline => ⟨sum_map_eq_zero hbegin line hline, sum_map_eq_zero hend line hline⟩

/-- What is left of a text has the lines outside its block, and no marker. -/
theorem withoutManagedBlock_ok {text result : Text} (h : withoutManagedBlock text = .ok result) :
    (∀ line ∈ fileLines result, Unmarked line) ∧
      (fileLines result = outside (fileLines text) ∨
        fileLines result = outside (fileLines text) ++ [[]]) := by
  rcases withoutManagedBlock_cases h with ⟨hunmarked, rfl⟩ | ⟨hbegin, hend, m, rfl⟩
  · exact ⟨hunmarked.fileLines, .inl (outside_eq_self fun line hline =>
      (hunmarked.fileLines line hline).ne_beginMarker).symm⟩
  · obtain ⟨hbefore, hblock, hafter⟩ := m.unmarked hbegin hend
    have hline : ∀ line ∈ m.before ++ beginMarker :: m.block, '\n' ∉ line := by
      intro line hline
      rcases mem_append.1 hline with hline | hline
      · exact m.before_line line hline
      rcases mem_cons.1 hline with rfl | hline
      · exact newline_not_mem_beginMarker
      · exact m.block_line line hline
    rw [fileLines_terminated m.before_line]
    refine ⟨fun line hmem => ?_, ?_⟩
    · rcases mem_append.1 hmem with hmem | hmem
      · exact hbefore line hmem
      · exact hafter.fileLines line hmem
    · have hlast : fileLines endMarker = [endMarker] :=
        splitOn_eq_singleton newline_not_mem_endMarker
      have hfile : NetworkSharing.fileLines text = (m.before ++ beginMarker :: m.block) ++
          NetworkSharing.fileLines (endMarker ++ m.after) := by
        conv_lhs => rw [m.eq, fileLines_terminated hline]
      rw [hfile]
      rcases m.ended with h | ⟨rest, h⟩
      · right
        rw [h, append_nil, hlast, append_assoc, cons_append,
          outside_append hbefore hblock]
        simp [NetworkSharing.fileLines]
      · left
        have hsplit : NetworkSharing.fileLines (endMarker ++ '\n' :: rest) =
            endMarker :: NetworkSharing.fileLines rest :=
          splitOn_append_cons_self_of_not_mem newline_not_mem_endMarker rest
        rw [h, hsplit, append_assoc, cons_append, outside_append hbefore hblock]
        rfl

theorem getElem?_terminated (lines : List Text) (rest : Text)
    (h : (terminated lines).length ≠ 0) :
    (terminated lines ++ rest)[(terminated lines).length - 1]? = some '\n' := by
  rcases lines.eq_nil_or_concat with rfl | ⟨lines, line, rfl⟩
  · simp at h
  · have heq : terminated (lines ++ [line]) ++ rest =
        (terminated lines ++ line) ++ '\n' :: rest := by simp
    have hlength : (terminated (lines ++ [line])).length - 1 =
        (terminated lines ++ line).length := by simp
    rw [concat_eq_append, heq, hlength, getElem?_append_right (le_refl _), Nat.sub_self]
    rfl

theorem getElem?_newline (text rest : Text) : (text ++ '\n' :: rest)[text.length]? = some '\n' := by
  rw [getElem?_append_right (le_refl _), Nat.sub_self]
  rfl

theorem sum_map_of_eq_zero {α : Type} {f : α → ℕ} {items : List α}
    (h : ∀ item ∈ items, f item = 0) : (items.map f).sum = 0 := by
  induction items with
  | nil => rfl
  | cons item items ih =>
    obtain ⟨hitem, hitems⟩ := forall_mem_cons.1 h
    rw [map_cons, sum_cons, hitem, ih hitems]

/-- The block is taken out of terminated lines. -/
theorem withoutManagedBlock_terminated {before block : List Text}
    (hbefore : ∀ line ∈ before, Unmarked line) (hblock : ∀ line ∈ block, Unmarked line) :
    withoutManagedBlock (terminated (before ++ beginMarker :: (block ++ [endMarker]))) =
      .ok (terminated before) := by
  have hbegin₀ := sum_map_of_eq_zero fun line h => (hbefore line h).1
  have hend₀ := sum_map_of_eq_zero fun line h => (hbefore line h).2
  have hbegin₁ := sum_map_of_eq_zero fun line h => (hblock line h).1
  have hend₁ := sum_map_of_eq_zero fun line h => (hblock line h).2
  generalize htext : terminated (before ++ beginMarker :: (block ++ [endMarker])) = text
  have hcount : ∀ marker : Text, marker ≠ [] → '\n' ∉ marker → count marker text =
      (before.map (count marker)).sum + (count marker beginMarker +
        ((block.map (count marker)).sum + count marker endMarker)) := by
    intro marker hne hmarker
    have := count_terminated hne hmarker (before ++ beginMarker :: (block ++ [endMarker])) []
    rw [append_nil, htext] at this
    simpa [count] using this
  have hbegin := hcount _ beginMarker_ne_nil newline_not_mem_beginMarker
  rw [hbegin₀, hbegin₁, count_beginMarker_self, count_beginMarker_endMarker] at hbegin
  have hend := hcount _ endMarker_ne_nil newline_not_mem_endMarker
  rw [hend₀, hend₁, count_endMarker_self, count_endMarker_beginMarker] at hend
  have hfirst : text = terminated before ++
      (beginMarker ++ '\n' :: (terminated block ++ (endMarker ++ ['\n']))) := by
    rw [← htext]
    simp
  have hsecond : text =
      terminated (before ++ beginMarker :: block) ++ (endMarker ++ ['\n']) := by
    rw [← htext]
    simp
  have hstart : index beginMarker text = (terminated before).length := by
    rw [hfirst, index_terminated newline_not_mem_beginMarker beginMarker_ne_nil
      (fun line h => (hbefore line h).1), index_self beginMarker_ne_nil, Nat.add_zero]
  have hlast : index endMarker text = (terminated (before ++ beginMarker :: block)).length := by
    rw [hsecond, index_terminated newline_not_mem_endMarker endMarker_ne_nil,
      index_self endMarker_ne_nil, Nat.add_zero]
    intro line hline
    rcases mem_append.1 hline with hline | hline
    · exact (hbefore line hline).2
    rcases mem_cons.1 hline with rfl | hline
    · exact count_endMarker_beginMarker
    · exact (hblock line hline).2
  have horder : (terminated before).length <
      (terminated (before ++ beginMarker :: block)).length := by
    simp only [terminated_append, terminated_cons, length_append, length_cons]
    omega
  have hnewline : text[(terminated before).length + beginMarker.length]? = some '\n' := by
    rw [hfirst, ← append_assoc, ← length_append, getElem?_newline]
  have hfinish : text[(terminated (before ++ beginMarker :: block)).length +
      endMarker.length]? = some '\n' := by
    rw [hsecond, ← append_assoc, ← length_append, getElem?_newline]
  have hlength : (terminated (before ++ beginMarker :: block)).length + endMarker.length + 1 =
      text.length := by
    rw [hsecond]
    simp only [length_append, length_singleton]
    omega
  rw [withoutManagedBlock, if_neg (by omega), if_neg (by omega)]
  dsimp only
  rw [hstart, hlast, if_neg, if_pos (by omega), hlength, drop_length, append_nil,
    hfirst, take_left]
  rintro (h | ⟨h, hne⟩ | hne | ⟨h, hne⟩ | ⟨-, hne⟩)
  · omega
  · exact hne (by rw [hfirst, getElem?_terminated _ _ h])
  · exact hne hnewline
  · exact hne (by rw [hsecond, getElem?_terminated _ _ h])
  · exact hne hfinish

end Preseed.NetworkSharing
