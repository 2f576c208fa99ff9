import Preseed.NetworkSharing.Reader
import Preseed.Texts.Occurrences

/-!
# Lines and words

What cutting a text into lines and a line into words gives: the pieces of a concatenation,
the words of a line that is made of words, and the words that two kinds of separators agree
on.
-/

namespace Preseed.NetworkSharing

open List

open Ipaddress (Text)
open DesktopFirewall (isspace)

/-! ## Characters -/

theorem isspace_of_isLineEnd {c : Char} (h : isLineEnd c = true) : isspace c = true := by
  simp only [isLineEnd, contains_iff_mem, mem_cons, not_mem_nil, or_false] at h
  rcases h with h | h | h | h | h | h | h | h | h | h <;> simp [isspace, h]

theorem isspace_of_isBlank {c : Char} (h : isBlank c = true) : isspace c = true := by
  simp only [isBlank, Bool.or_eq_true, decide_eq_true_eq] at h
  rcases h with rfl | rfl <;> decide

theorem not_isLineEnd_of_isBlank {c : Char} (h : isBlank c = true) : isLineEnd c = false := by
  simp only [isBlank, Bool.or_eq_true, decide_eq_true_eq] at h
  rcases h with rfl | rfl <;> decide

theorem isLineEnd_newline : isLineEnd '\n' = true := by decide

/-! ## Words -/

section Split

variable {separator : Char → Bool} {n : ℕ} {text rest word gap : Text} {c : Char}

theorem split_cons_separator (h : separator c = true) :
    split separator n (c :: text) = split separator n text := by
  cases n <;> simp [split, h]

theorem split_gap (h : ∀ c ∈ gap, separator c = true) :
    split separator n (gap ++ text) = split separator n text := by
  induction gap with
  | nil => rfl
  | cons c gap ih =>
    rw [cons_append, split_cons_separator (h c (by simp))]
    exact ih fun c hc => h c (by simp [hc])

@[simp]
theorem split_nil : split separator n [] = [] := by
  cases n <;> rfl

theorem split_blank (h : ∀ c ∈ gap, separator c = true) : split separator n gap = [] := by
  have hgap : split separator n (gap ++ []) = split separator n [] := split_gap h
  simpa using hgap

theorem split_word (hne : word ≠ []) (hword : ∀ c ∈ word, separator c = false)
    (hrest : ∀ c, rest.head? = some c → separator c = true) :
    split separator (n + 1) (word ++ rest) = word :: split separator n rest := by
  obtain ⟨c, word, rfl⟩ := exists_cons_of_ne_nil hne
  have hc : separator c = false := hword c (by simp)
  have htake : (c :: word ++ rest).takeWhile (!separator ·) = c :: word := by
    rw [takeWhile_append_of_pos (by simpa using hword)]
    cases rest with
    | nil => simp
    | cons d rest => simp [hrest d rfl]
  have hdrop : (c :: word ++ rest).dropWhile (!separator ·) = rest := by
    rw [dropWhile_append_of_pos (by simpa using hword)]
    cases rest with
    | nil => simp
    | cons d rest => simp [hrest d rfl]
  rw [split, cons_append, dropWhile_cons_of_neg (by simp [hc])]
  exact congrArg₂ List.cons htake (congrArg (split separator n) hdrop)

/-- A word is cut off a line, unless nothing of the line is visible. -/
theorem split_succ_cases (separator : Char → Bool) (n : ℕ) (text : Text) :
    (∀ c ∈ text, separator c = true) ∧ split separator (n + 1) text = [] ∨
      ∃ gap word rest, text = gap ++ (word ++ rest) ∧ (∀ c ∈ gap, separator c = true) ∧
        word ≠ [] ∧ (∀ c ∈ word, separator c = false) ∧
        (∀ c, rest.head? = some c → separator c = true) ∧
        split separator (n + 1) text = word :: split separator n rest := by
  rcases hdrop : text.dropWhile separator with - | ⟨c, rest⟩
  · left
    rw [dropWhile_eq_nil_iff] at hdrop
    exact ⟨hdrop, split_blank hdrop⟩
  · right
    have hc : separator c = false := by
      have := head?_dropWhile_not separator text
      simpa [hdrop] using this
    refine ⟨text.takeWhile separator, (c :: rest).takeWhile (!separator ·),
      (c :: rest).dropWhile (!separator ·), ?_, ?_, ?_, ?_, ?_, ?_⟩
    · rw [takeWhile_append_dropWhile, ← hdrop, takeWhile_append_dropWhile]
    · exact fun d hd => mem_takeWhile_imp hd
    · simp [hc]
    · exact fun d hd => by simpa using mem_takeWhile_imp hd
    · intro d hd
      have := head?_dropWhile_not (!separator ·) (c :: rest)
      rw [hd] at this
      simpa using this
    · simp [split, hdrop]

theorem split_length_le (separator : Char → Bool) (n : ℕ) (text : Text) :
    (split separator n text).length ≤ n + 1 := by
  induction n generalizing text with
  | zero =>
    rw [split]
    split <;> simp
  | succ n ih =>
    rcases split_succ_cases separator n text with ⟨-, h⟩ | ⟨gap, word, rest, -, -, -, -, -, h⟩
    · simp [h]
    · simpa [h] using ih rest

theorem split_length_le_length (separator : Char → Bool) (n : ℕ) (text : Text) :
    (split separator n text).length ≤ text.length := by
  induction n generalizing text with
  | zero =>
    rw [split]
    split
    · simp
    · rename_i hdrop
      have := congrArg List.length hdrop
      have := length_dropWhile_le (p := separator) text
      simp only [length_cons, length_nil] at *
      omega
  | succ n ih =>
    rcases split_succ_cases separator n text with
      ⟨-, h⟩ | ⟨gap, word, rest, rfl, -, hne, -, -, h⟩
    · simp [h]
    · have := ih rest
      have := length_pos_iff.2 hne
      simp only [h, length_cons, length_append]
      omega

theorem split_mem_isInfix {field : Text} (h : field ∈ split separator n text) :
    field <:+: text := by
  induction n generalizing text with
  | zero =>
    rw [split] at h
    split at h
    · simp at h
    · rename_i hdrop
      rw [mem_singleton.1 h, ← hdrop]
      exact (dropWhile_suffix separator).isInfix
  | succ n ih =>
    rcases split_succ_cases separator n text with
      ⟨-, h'⟩ | ⟨gap, word, rest, rfl, -, -, -, -, h'⟩
    · simp [h'] at h
    · rw [h'] at h
      rcases mem_cons.1 h with rfl | h
      · exact ⟨gap, rest, by simp⟩
      · exact (ih h).trans ⟨gap ++ word, [], by simp⟩

/-- The words before the remainder are words. -/
theorem split_take_mem {field : Text} (h : field ∈ (split separator n text).take n) :
    field ≠ [] ∧ ∀ c ∈ field, separator c = false := by
  induction n generalizing text with
  | zero => simp at h
  | succ n ih =>
    rcases split_succ_cases separator n text with
      ⟨-, h'⟩ | ⟨gap, word, rest, -, -, hne, hword, -, h'⟩
    · simp [h'] at h
    · rw [h', take_succ_cons] at h
      rcases mem_cons.1 h with rfl | h
      · exact ⟨hne, hword⟩
      · exact ih h

/-- The first two words do not depend on how many are cut off. -/
theorem split_take_two (m n : ℕ) :
    (split separator (m + 2) text).take 2 = (split separator (n + 2) text).take 2 := by
  have step : ∀ (k : ℕ) (text : Text),
      (split separator (k + 1) text).take 1 = (split separator 1 text).take 1 := by
    intro k text
    rw [split, split]
    split <;> simp
  rw [split, split]
  split
  · rfl
  · simp only [take_succ_cons]
    rw [step m, step n]

/-- Two kinds of separators agree on words that have no character of the wider kind, also
where the line is cut at a character that is in none of them. -/
theorem split_take_agree {narrow wide stop : Char → Bool}
    (hwide : ∀ c, narrow c = true → wide c = true)
    (hstop : ∀ c, narrow c = true → stop c = false) {n : ℕ} {text : Text}
    (hclean : ∀ field ∈ (split narrow n text).take n, ∀ c ∈ field,
      wide c = false ∧ stop c = false) :
    (split wide n (text.takeWhile (!stop ·))).take n = (split narrow n text).take n := by
  induction n generalizing text with
  | zero => simp
  | succ n ih =>
    rcases split_succ_cases narrow n text with
      ⟨hblank, h⟩ | ⟨gap, word, rest, rfl, hgap, hne, hword, hrest, h⟩
    · rw [h, split_blank fun c hc => hwide c (hblank c (takeWhile_subset _ hc))]
    · rw [h, take_succ_cons] at hclean
      have hgap' : ∀ c ∈ gap, (!stop c) = true := fun c hc => by simp [hstop c (hgap c hc)]
      have hword' : ∀ c ∈ word, (!stop c) = true := fun c hc => by
        simp [(hclean word (by simp) c hc).2]
      have hcut : ∀ c, (rest.takeWhile (!stop ·)).head? = some c → wide c = true := by
        intro c hc
        cases rest with
        | nil => simp at hc
        | cons d rest =>
          have hd := hrest d rfl
          simp only [takeWhile_cons, hstop d hd, Bool.not_false, if_true,
            head?_cons, Option.some.injEq] at hc
          exact hc ▸ hwide d hd
      rw [h, takeWhile_append_of_pos hgap', takeWhile_append_of_pos hword',
        split_gap fun c hc => hwide c (hgap c hc),
        split_word hne (fun c hc => (hclean word (by simp) c hc).1) hcut,
        take_succ_cons, take_succ_cons]
      exact congrArg (word :: ·) (ih fun field hfield => hclean field (by simp [hfield]))

end Split

/-! ## Lines -/

/-- The visible lines of a text. -/
def pieces (text : Text) : List Text := (text.splitOnP isLineEnd).filter visible

theorem splitlinesFrom_visible (line text : Text) (h : ∀ c ∈ line, isLineEnd c = false) :
    (splitlinesFrom line text).filter visible = pieces (line ++ text) := by
  fun_induction splitlinesFrom line text with
  | case1 => simp [pieces, visible]
  | case2 line hne => simp [pieces, splitOnP_eq_singleton h]
  | case3 line rest ih =>
    have hreturn : isLineEnd '\r' = true := by decide
    have hblank : visible [] = false := rfl
    rw [pieces, splitOnP_append_cons_of_forall_mem h _ hreturn,
      show '\n' :: rest = [] ++ '\n' :: rest from rfl,
      splitOnP_append_cons_of_forall_mem (by simp) _ isLineEnd_newline,
      filter_cons, filter_cons, filter_cons, hblank, ih (by simp)]
    rfl
  | case4 line c rest _ hc ih =>
    rw [pieces, splitOnP_append_cons_of_forall_mem h _ hc, filter_cons,
      filter_cons, ih (by simp)]
    rfl
  | case5 line c rest _ hc ih =>
    rw [ih fun d hd => ?_, append_assoc, singleton_append]
    rcases mem_append.1 hd with hd | hd
    · exact h d hd
    · simpa [mem_singleton.1 hd] using hc

theorem splitlines_visible (text : Text) : (splitlines text).filter visible = pieces text :=
  splitlinesFrom_visible [] text (by simp)

theorem pieces_append (a b : Text) : pieces (a ++ '\n' :: b) = pieces a ++ pieces b := by
  rw [pieces, splitOnP_append_cons _ _ isLineEnd_newline, filter_append]
  rfl

theorem pieces_intercalate {lines : List Text} (h : lines ≠ []) :
    pieces (['\n'].intercalate lines) = lines.flatMap pieces := by
  induction lines with
  | nil => exact absurd rfl h
  | cons line lines ih =>
    cases lines with
    | nil => simp
    | cons next lines =>
      rw [intercalate_cons_cons, append_assoc, singleton_append, pieces_append,
        ih (by simp)]
      rfl

theorem pieces_eq_flatMap (text : Text) : pieces text = (fileLines text).flatMap pieces := by
  have htext : ['\n'].intercalate (fileLines text) = text := intercalate_splitOn '\n'
  conv_lhs => rw [← htext]
  exact pieces_intercalate (splitOn_ne_nil '\n' text)

theorem mem_splitOnP_not {p : Char → Bool} {text piece : Text} {c : Char}
    (h : piece ∈ text.splitOnP p) (hc : c ∈ piece) : p c = false := by
  induction text generalizing piece with
  | nil => simp_all
  | cons d text ih =>
    rw [splitOnP_cons_eq_if_modifyHead] at h
    by_cases hd : p d = true
    · rw [if_pos hd] at h
      rcases mem_cons.1 h with rfl | h
      · simp at hc
      · exact ih h hc
    · rw [if_neg hd] at h
      obtain ⟨first, others, hsplit⟩ :=
        exists_cons_of_ne_nil (splitOnP_ne_nil p text)
      rw [hsplit, modifyHead_cons] at h
      rcases mem_cons.1 h with rfl | h
      · rcases mem_cons.1 hc with rfl | hc
        · simpa using hd
        · exact ih (by simp [hsplit]) hc
      · exact ih (by simp [hsplit, h]) hc

end Preseed.NetworkSharing
