import Mathlib.Data.List.Infix

/-!
# Occurrences in a text

A text is cut at the first occurrence of a separator, and the occurrences of a word are
counted from the left without overlaps.
-/

namespace Preseed.Texts

open List

variable {α : Type} [BEq α] [LawfulBEq α]

variable {text : List α}

theorem eq_append_of_isPrefixOf? {start rest : List α}
    (h : start.isPrefixOf? text = some rest) : text = start ++ rest := by
  induction start generalizing text with
  | nil =>
    cases h
    rfl
  | cons char start ih =>
    cases text with
    | nil => cases h
    | cons first text =>
      rw [List.isPrefixOf?] at h
      split at h
      · rename_i heq
        obtain rfl := eq_of_beq heq
        rw [ih h]
        rfl
      · cases h

theorem isPrefixOf?_append (start rest : List α) :
    start.isPrefixOf? (start ++ rest) = some rest := by
  induction start with
  | nil => rfl
  | cons char start ih =>
    rw [cons_append, List.isPrefixOf?, if_pos (beq_self_eq_true char), ih]

/-! ## The first occurrence -/

/-- The text before the first separator and the text after it. -/
def cut (separator : List α) : List α → Option (List α × List α)
  | [] => none
  | char :: rest =>
      match separator.isPrefixOf? (char :: rest) with
      | some tail => some ([], tail)
      | none => (cut separator rest).map fun parts => (char :: parts.1, parts.2)

/-- A text that is cut is its parts around the separator. -/
theorem eq_of_cut {separator head tail : List α} (h : cut separator text = some (head, tail)) :
    text = head ++ (separator ++ tail) := by
  induction text generalizing head with
  | nil => cases h
  | cons char rest ih =>
    unfold cut at h
    split at h
    · rename_i found hfound
      cases h
      rw [nil_append]
      exact eq_append_of_isPrefixOf? hfound
    · obtain ⟨⟨first, last⟩, hparts, heq⟩ := Option.map_eq_some_iff.mp h
      obtain ⟨rfl, rfl⟩ := Prod.mk.inj heq
      rw [cons_append, ← ih hparts]

/-- The separator does not begin before the place where the text is cut. -/
theorem not_before_cut {separator head tail : List α} (h : cut separator text = some (head, tail))
    {before rest : List α} (hhead : head = before ++ rest)
    (hrest : rest ≠ []) : ¬separator <+: rest ++ (separator ++ tail) := by
  induction text generalizing head before with
  | nil => cases h
  | cons char text ih =>
    unfold cut at h
    split at h
    · obtain ⟨rfl, -⟩ := Prod.mk.inj (Option.some.inj h)
      simp [hrest] at hhead
    · rename_i hnone
      obtain ⟨⟨first, last⟩, hparts, heq⟩ := Option.map_eq_some_iff.mp h
      obtain ⟨rfl, rfl⟩ := Prod.mk.inj heq
      cases before with
      | nil =>
        rintro ⟨more, hmore⟩
        have htext := eq_of_cut hparts
        rw [nil_append] at hhead
        rw [← hhead, cons_append, ← htext] at hmore
        rw [← hmore, isPrefixOf?_append] at hnone
        cases hnone
      | cons first before =>
        obtain ⟨-, hfirst⟩ := List.cons.inj hhead
        exact ih hparts hfirst

/-! ## Counting -/

/-- The occurrences of a word, after `skip` characters that belong to an earlier one. -/
def countFrom (word : List α) : (skip : ℕ) → List α → ℕ
  | _, [] => 0
  | skip + 1, _ :: rest => countFrom word skip rest
  | 0, char :: rest =>
      if word.isPrefixOf (char :: rest) then countFrom word (word.length - 1) rest + 1
      else countFrom word 0 rest

/-- The occurrences of a word which do not overlap. -/
def occurrences (word text : List α) : ℕ := countFrom word 0 text

omit [BEq α] [LawfulBEq α] in
variable {separator : α}

/-- A word without the separator ends before it. -/
theorem isPrefix_of_append_cons {word left right : List α} (h : word <+: left ++ separator :: right)
    (hword : separator ∉ word) : word <+: left := by
  rcases prefix_or_prefix_of_prefix h (prefix_append left (separator :: right)) with
    hshort | ⟨more, rfl⟩
  · exact hshort
  · have hmore := (prefix_append_right_inj left).mp h
    cases more with
    | nil => simp
    | cons char more =>
      obtain ⟨rfl, -⟩ := cons_prefix_cons.mp hmore
      simp at hword

/-- A word without the separator occurs before it or after it. -/
theorem countFrom_append_cons {word : List α} (hword : separator ∉ word) (hne : word ≠ [])
    {skip : ℕ} {left right : List α} (hskip : skip ≤ left.length) :
    countFrom word skip (left ++ separator :: right) =
      countFrom word skip left + countFrom word 0 right := by
  have hpos : 0 < word.length := length_pos_iff.mpr hne
  induction left generalizing skip with
  | nil =>
    obtain rfl : skip = 0 := by simpa using hskip
    have hnot : ¬word.isPrefixOf (separator :: right) = true := by
      obtain ⟨first, others, rfl⟩ := exists_cons_of_ne_nil hne
      rw [ isPrefixOf_iff_prefix, cons_prefix_cons]
      rintro ⟨rfl, -⟩
      exact hword (mem_cons_self ..)
    have hempty : countFrom word 0 [] = 0 := rfl
    rw [nil_append, hempty, Nat.zero_add]
    nth_rewrite 1 [countFrom]
    rw [if_neg hnot]
  | cons char left ih =>
    cases skip with
    | succ skip =>
      rw [cons_append, countFrom, countFrom]
      exact ih (by simpa using hskip)
    | zero =>
      have hstart : word.isPrefixOf (char :: left ++ separator :: right) = true ↔
          word.isPrefixOf (char :: left) = true := by
        rw [ isPrefixOf_iff_prefix, isPrefixOf_iff_prefix]
        exact ⟨fun h => isPrefix_of_append_cons h hword, fun h => h.trans (prefix_append _ _)⟩
      rw [cons_append, countFrom, countFrom]
      rw [cons_append] at hstart
      by_cases hfound : word.isPrefixOf (char :: left) = true
      · have hlength := ( isPrefixOf_iff_prefix.mp hfound).length_le
        rw [length_cons] at hlength
        rw [if_pos hfound, if_pos (hstart.mpr hfound), ih (by omega)]
        omega
      · rw [if_neg hfound, if_neg (mt hstart.mp hfound), ih (Nat.zero_le _)]

/-- A word that occurs is counted. -/
theorem occurrences_pos {word : List α} (hne : word ≠ []) (h : word <:+: text) :
    0 < occurrences word text := by
  unfold occurrences
  induction text with
  | nil => exact absurd (infix_nil.mp h) hne
  | cons char text ih =>
    rw [countFrom]
    split
    · omega
    · rename_i hnot
      rw [ isPrefixOf_iff_prefix] at hnot
      rcases infix_cons_iff.mp h with hstart | hwithin
      · exact absurd hstart hnot
      · exact ih hwithin

/-! ## Lines -/

omit [BEq α] [LawfulBEq α] in
/-- The first place of an element in a list. -/
theorem append_cons_inj {first : α} {left right other more : List α} (hleft : first ∉ left)
    (hother : first ∉ other) (h : left ++ first :: right = other ++ first :: more) :
    left = other ∧ right = more := by
  induction left generalizing other with
  | nil =>
    cases other with
    | nil => exact ⟨rfl, (List.cons.inj h).2⟩
    | cons char other =>
      obtain ⟨rfl, -⟩ := List.cons.inj h
      exact absurd (mem_cons_self ..) hother
  | cons char left ih =>
    cases other with
    | nil =>
      obtain ⟨rfl, -⟩ := List.cons.inj h
      exact absurd (mem_cons_self ..) hleft
    | cons next other =>
      obtain ⟨rfl, hrest⟩ := List.cons.inj h
      obtain ⟨rfl, rfl⟩ := ih (not_mem_of_not_mem_cons hleft)
        (not_mem_of_not_mem_cons hother) hrest
      exact ⟨rfl, rfl⟩

theorem not_mem_of_mem_splitOn {line : List α}
    (h : line ∈ text.splitOn separator) : separator ∉ line := by
  induction text generalizing line with
  | nil =>
    obtain rfl := mem_singleton.mp h
    exact not_mem_nil
  | cons char text ih =>
    rw [splitOn_cons_eq_if_modifyHead] at h
    split at h
    · rcases mem_cons.mp h with rfl | h
      · exact not_mem_nil
      · exact ih h
    · rename_i hchar
      obtain ⟨first, lines, hlines⟩ := exists_cons_of_ne_nil (splitOn_ne_nil separator text)
      rw [hlines] at h ih
      rcases mem_cons.mp h with rfl | h
      · have hfirst := ih (mem_cons_self ..)
        rw [beq_iff_eq] at hchar
        simp [hfirst, Ne.symm hchar]
      · exact ih (mem_cons_of_mem _ h)

omit [BEq α] [LawfulBEq α] in
theorem splitOnP_eq_cons (p : α → Bool) (text : List α) :
    text.splitOnP p = text.takeWhile (!p ·) :: (text.splitOnP p).tail := by
  induction text with
  | nil => simp
  | cons d text ih =>
    rw [splitOnP_cons_eq_if_modifyHead, takeWhile_cons]
    by_cases hd : p d = true
    · simp [hd]
    · rw [if_neg hd, ih]
      simp [hd]

omit [BEq α] [LawfulBEq α] in
theorem isInfix_of_mem_splitOnP {p : α → Bool} {piece : List α}
    (h : piece ∈ text.splitOnP p) : piece <:+: text := by
  induction text generalizing piece with
  | nil => simp_all
  | cons d text ih =>
    rw [splitOnP_eq_cons] at h
    rcases mem_cons.1 h with rfl | h
    · exact ( takeWhile_prefix _).isInfix
    · rw [splitOnP_cons_eq_if_modifyHead] at h
      refine infix_cons (ih ?_)
      split at h
      · exact h
      · exact mem_of_mem_tail (by simpa using h)

omit [LawfulBEq α] in
theorem isInfix_of_mem_splitOn {line : List α}
    (h : line ∈ text.splitOn separator) : line <:+: text := by
  rw [splitOn_eq_splitOnP] at h
  exact isInfix_of_mem_splitOnP h

omit [BEq α] [LawfulBEq α] in
theorem intercalate_append_nil (separator : α) {lines : List (List α)} (hne : lines ≠ []) :
    [separator].intercalate (lines ++ [[]]) = [separator].intercalate lines ++ [separator] := by
  induction lines with
  | nil => exact absurd rfl hne
  | cons line lines ih =>
    cases lines with
    | nil => simp [List.intercalate]
    | cons next lines =>
      have ih := ih (cons_ne_nil _ _)
      rw [cons_append] at ih
      rw [cons_append, cons_append, intercalate_cons_cons, ih,
        intercalate_cons_cons]
      simp only [append_assoc]

/-- A text whose last line is empty ends with the separator. -/
theorem eq_concat_of_splitOn {first : List α} {lines : List (List α)}
    (h : text.splitOn separator = first :: lines ++ [[]]) :
    ∃ before, text = before ++ [separator] := by
  refine ⟨[separator].intercalate (first :: lines), ?_⟩
  have hjoined : [separator].intercalate (text.splitOn separator) = text :=
    intercalate_splitOn separator
  rw [← hjoined, h,
    intercalate_append_nil separator (cons_ne_nil _ _)]

/-- Separators at the end are empty lines. -/
theorem splitOn_append_replicate (separator : α) (text : List α) (count : ℕ) :
    (text ++ List.replicate count separator).splitOn separator =
      text.splitOn separator ++ List.replicate count [] := by
  induction count with
  | zero => simp
  | succ count ih =>
    rw [replicate_succ', ← append_assoc, splitOn_append_cons_self, ih]
    simp [replicate_succ']

end Preseed.Texts
