import Mathlib

/-!
# Fields of a text

A text is split into fields at its white space, and words are joined to a text. Words that
are joined by a space are the fields of their text, and the fields of a text are no longer
than it.
-/

namespace Preseed.Texts

open List

/-- Texts are compared by their characters. -/
instance lawfulBEq_text : LawfulBEq (List Char) := inferInstance

variable {α : Type} {space : α → Bool}

/-- The fields between runs of white space; a run splits at its last space. -/
def spacedFields (space : α → Bool) : List α → List (List α)
  | [] => [[]]
  | char :: chars =>
      if space char then
        if (chars.head?.map space).getD false then spacedFields space chars
        else [] :: spacedFields space chars
      else
        match spacedFields space chars with
        | [] => [[char]]
        | field :: fields => (char :: field) :: fields

/-- The fields without the empty ones at the end. -/
def splitFields (space : α → Bool) (text : List α) : List (List α) :=
  (spacedFields space text).rdropWhile (·.isEmpty)

/-- A word that is not split. -/
def IsWord (space : α → Bool) (word : List α) : Prop :=
  word ≠ [] ∧ ∀ char ∈ word, space char = false

theorem spacedFields_append {word rest field : List α} {fields : List (List α)}
    (hword : ∀ char ∈ word, space char = false)
    (hrest : spacedFields space rest = field :: fields) :
    spacedFields space (word ++ rest) = (word ++ field) :: fields := by
  induction word with
  | nil => exact hrest
  | cons char word ih =>
    have hchar := hword char (mem_cons_self ..)
    have ih := ih fun next hnext => hword next (mem_cons_of_mem _ hnext)
    rw [cons_append, spacedFields, if_neg (by simp [hchar]), ih]
    rfl

/-- Words that are joined by spaces are the fields of their text. -/
theorem spacedFields_intercalate {gap : α} (hgap : space gap = true) {words : List (List α)}
    (hne : words ≠ []) (hwords : ∀ word ∈ words, IsWord space word) :
    spacedFields space ([gap].intercalate words) = words := by
  induction words with
  | nil => exact absurd rfl hne
  | cons word words ih =>
    have hword := (hwords word (mem_cons_self ..)).2
    cases words with
    | nil =>
      have hsingle : spacedFields space (word ++ []) = [word ++ []] :=
        spacedFields_append hword rfl
      simpa [List.intercalate] using hsingle
    | cons next words =>
      have ih := ih (cons_ne_nil _ _) fun word hmem => hwords word (mem_cons_of_mem _ hmem)
      obtain ⟨hnext, hspaces⟩ := hwords next (mem_cons_of_mem _ (mem_cons_self ..))
      obtain ⟨first, chars, rfl⟩ := exists_cons_of_ne_nil hnext
      have hfirst := hspaces first (mem_cons_self ..)
      have hhead : ([gap].intercalate ((first :: chars) :: words)).head? = some first := by
        cases words <;> rfl
      have hspace : spacedFields space (gap :: [gap].intercalate ((first :: chars) :: words)) =
          [] :: (first :: chars) :: words := by
        rw [spacedFields, if_pos hgap, hhead, if_neg (by simp [hfirst]), ih]
      have hjoined := spacedFields_append hword hspace
      rw [append_nil] at hjoined
      rw [intercalate_cons_cons]
      simpa using hjoined

theorem splitFields_intercalate {gap : α} (hgap : space gap = true) {words : List (List α)}
    (hne : words ≠ []) (hwords : ∀ word ∈ words, IsWord space word) :
    splitFields space ([gap].intercalate words) = words := by
  unfold splitFields
  rw [spacedFields_intercalate hgap hne hwords, rdropWhile_eq_self_iff]
  intro hlast
  have hword := (hwords _ (getLast_mem hlast)).1
  simpa using hword

/-- A character of joined texts is one of the gap or of a text. -/
theorem mem_of_mem_intercalate {gap : List α} {texts : List (List α)} {c : α}
    (h : c ∈ gap.intercalate texts) : c ∈ gap ∨ ∃ text ∈ texts, c ∈ text := by
  induction texts with
  | nil => cases h
  | cons text texts ih =>
    cases texts with
    | nil =>
      rw [intercalate_singleton] at h
      exact Or.inr ⟨text, mem_cons_self .., h⟩
    | cons next texts =>
      rw [intercalate_cons_cons, append_assoc] at h
      rcases mem_append.mp h with htext | h
      · exact Or.inr ⟨text, mem_cons_self .., htext⟩
      · rcases mem_append.mp h with hgap | hrest
        · exact Or.inl hgap
        · rcases ih hrest with hgap | ⟨other, hother, hmem⟩
          · exact Or.inl hgap
          · exact Or.inr ⟨other, mem_cons_of_mem _ hother, hmem⟩

/-! ## Lengths -/

/-- The length of words with a space after each. -/
def spacedLength (words : List (List α)) : ℕ := (words.map fun word => word.length + 1).sum

theorem length_intercalate (gap : α) {words : List (List α)} (hne : words ≠ []) :
    ([gap].intercalate words).length + 1 = spacedLength words := by
  induction words with
  | nil => exact absurd rfl hne
  | cons word words ih =>
    cases words with
    | nil =>
      rw [intercalate_singleton]
      simp [spacedLength]
    | cons next words =>
      have ih := ih (cons_ne_nil _ _)
      rw [intercalate_cons_cons, length_append, length_append, length_singleton]
      have hcons : spacedLength (word :: next :: words) =
          word.length + 1 + spacedLength (next :: words) := by
        simp [spacedLength]
      omega

theorem spacedLength_spacedFields (space : α → Bool) (text : List α) :
    spacedLength (spacedFields space text) ≤ text.length + 1 := by
  induction text with
  | nil => exact Nat.le_refl _
  | cons char text ih =>
    unfold spacedFields
    rw [length_cons]
    split
    · split
      · omega
      · have hempty : spacedLength ([] :: spacedFields space text) =
            spacedLength (spacedFields space text) + 1 := by
          simp [spacedLength, Nat.add_comm]
        omega
    · cases hfields : spacedFields space text with
      | nil =>
        have hone : spacedLength [[char]] = 2 := rfl
        simp only
        omega
      | cons field fields =>
        rw [hfields] at ih
        have hlonger : spacedLength ((char :: field) :: fields) =
            spacedLength (field :: fields) + 1 := by
          simp only [spacedLength, map_cons, sum_cons, length_cons]
          omega
        simp only
        omega

theorem spacedLength_splitFields (space : α → Bool) (text : List α) :
    spacedLength (splitFields space text) ≤ text.length + 1 := by
  have hall := spacedLength_spacedFields space text
  obtain ⟨rest, hrest⟩ := rdropWhile_prefix (·.isEmpty) (l := spacedFields space text)
  have hlength : spacedLength (spacedFields space text) =
      spacedLength (splitFields space text) + spacedLength rest := by
    unfold splitFields
    nth_rewrite 1 [← hrest]
    rw [spacedLength, map_append, sum_append]
    rfl
  omega

end Preseed.Texts
