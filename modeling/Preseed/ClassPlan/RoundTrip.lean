import Mathlib.Data.List.Nodup
import Mathlib.Data.String.Basic
import Preseed.ClassPlan.Cache

/-!
# Class metadata through the cache

A plan line gives its cells back when they contain no tab, and the variable names keep
the fields apart, but the sections only up to their tokens.
-/

namespace Preseed.ClassPlan

open List

/-! ### Reading a line back -/

/-- A leading tab is skipped. -/
theorem readVariables_tab (n : ℕ) (line : Text) :
    readVariables (n + 1) ('\t' :: line) = readVariables (n + 1) line := by
  cases n <;> simp [readVariables]

/-- There is nothing to read. -/
theorem readVariables_nil (n : ℕ) : readVariables n [] = List.replicate n [] := by
  induction n with
  | zero => rfl
  | succ n ih =>
    cases n with
    | zero => rfl
    | succ n =>
      rw [replicate_succ, ← ih]
      rfl

/-- Only the last variable can get a tab. -/
theorem readVariables_plain {n i : ℕ} {line cell : Text} (hi : i + 1 < n)
    (hcell : (readVariables n line)[i]? = some cell) : '\t' ∉ cell := by
  induction n generalizing i line with
  | zero => omega
  | succ n ih =>
    cases n with
    | zero => omega
    | succ n =>
      rw [readVariables] at hcell
      cases i with
      | zero =>
        simp only [getElem?_cons_zero, Option.some.injEq] at hcell
        rw [← hcell]
        intro hmem
        simpa using mem_takeWhile_imp hmem
      | succ i => exact ih (i := i) (by omega) (by simpa using hcell)

/-- Cells without tabs are read back as they were printed. -/
theorem readVariables_printCells {n : ℕ} {cells : List Text} (hn : cells.length ≤ n)
    (hcells : ∀ cell ∈ cells, cell ≠ [] ∧ '\t' ∉ cell) :
    readVariables n (printCells cells) = cells ++ List.replicate (n - cells.length) [] := by
  induction cells generalizing n with
  | nil => exact readVariables_nil n
  | cons cell cells ih =>
    obtain ⟨hne, htab⟩ := hcells cell mem_cons_self
    have hplain : ∀ c ∈ cell, decide (c ≠ '\t') = true := by
      intro c hc
      simpa using fun h : c = '\t' => htab (h ▸ hc)
    have hstart : ∀ rest, (cell ++ rest).dropWhile (· = '\t') = cell ++ rest := by
      intro rest
      obtain ⟨c, cs, rfl⟩ := exists_cons_of_ne_nil hne
      simpa using hplain c mem_cons_self
    match n, hn with
    | 1, hn =>
      obtain rfl : cells = [] := by simpa using hn
      have hend : cell.rdropWhile (· = '\t') = cell := by
        rw [rdropWhile_eq_self_iff]
        intro h
        simpa using hplain _ (getLast_mem h)
      have h := hstart []
      rw [append_nil] at h
      simp [printCells, readVariables, h, hend]
    | n + 2, hn =>
      cases cells with
      | nil =>
        have h := hstart []
        rw [append_nil] at h
        have htake : cell.takeWhile (· ≠ '\t') = cell := takeWhile_eq_self_iff.mpr hplain
        have hdrop : cell.dropWhile (· ≠ '\t') = [] := dropWhile_eq_nil_iff.mpr hplain
        simp only [printCells, intercalate_singleton, readVariables, h, htake, hdrop,
          readVariables_nil, singleton_append]
        rfl
      | cons next cells =>
        have hline : printCells (cell :: next :: cells) =
            cell ++ '\t' :: printCells (next :: cells) := by
          simp [printCells, List.intercalate]
        rw [hline, readVariables, hstart, takeWhile_append_of_pos hplain,
          dropWhile_append_of_pos hplain]
        have hrest := ih (n := n + 1) (by simpa using hn)
          fun cell hcell => hcells cell (mem_cons_of_mem _ hcell)
        simp [readVariables_tab, hrest]

/-! ### Variable names -/

/-- All fields. -/
def Field.all : List Field :=
  [type, group, name, required, multi, order, purpose, source, description, hostVariant,
    lateHelper, lateHelperOrder, earlyHelper, partmanHelper, hostProfilePrefix, hostFamily,
    hookFamily, installDiskCandidates, defaultInstallDisk, allowedHardwareClasses,
    rejectedClasses, requiresClasses, debianAptPreferences]

/-- The text before the first two underscores. -/
def untilUnderscores : Text → Text
  | '_' :: '_' :: _ => []
  | c :: rest => c :: untilUnderscores rest
  | [] => []

/-- A key is found again at the end of a variable name. -/
theorem untilUnderscores_key (f : Field) (rest : Text) :
    untilUnderscores (f.key.toList.reverse ++ '_' :: '_' :: rest) = f.key.toList.reverse := by
  cases f <;> rfl

theorem nameToken_key (f : Field) : nameToken f.key.toList = f.key.toList := by
  cases f <;> decide

/-- Different fields have different keys. -/
theorem key_injective {f f' : Field} (h : f.key = f'.key) : f = f' := by
  have hall : ∀ f : Field, f ∈ Field.all := by
    intro f
    cases f <;> decide
  have hnodup : (Field.all.map Field.key).Nodup := by decide
  exact inj_on_of_nodup_map hnodup (hall f) (hall f') h

/-- A variable name tells the field, and the token of the section. -/
theorem valueVarName_inj {s s' : Text} {f f' : Field}
    (h : valueVarName s f.key.toList = valueVarName s' f'.key.toList) :
    nameToken s = nameToken s' ∧ f = f' := by
  unfold valueVarName at h
  generalize "INSTALLER_CLASSES_VALUE__".toList = start at h
  rw [nameToken_key, nameToken_key] at h
  have hrev := congrArg List.reverse h
  simp only [reverse_append, reverse_cons, append_assoc, cons_append,
    nil_append] at hrev
  have hkey : f.key.toList.reverse = f'.key.toList.reverse := by
    have := congrArg untilUnderscores hrev
    rwa [untilUnderscores_key, untilUnderscores_key] at this
  rw [hkey, append_cancel_left_eq] at hrev
  simp only [List.cons.injEq, true_and, append_cancel_right_eq] at hrev
  exact ⟨reverse_injective hrev,
    key_injective (String.toList_injective (reverse_injective hkey))⟩

/-! ### Assignments -/

/-- The variables after assignments, where a variable is only ever given one value. -/
theorem foldl_update_of_forall {sets : List (Text × Text)} {cache : Text → Option Text}
    {var value : Text} (hall : ∀ x, (var, x) ∈ sets → x = value)
    (hstart : (var, value) ∉ sets → cache var = some value) :
    sets.foldl assign cache var =
      some value := by
  induction sets generalizing cache with
  | nil => exact hstart (by simp)
  | cons set sets ih =>
    refine ih (fun x hx => hall x (mem_cons_of_mem _ hx)) fun hnot => ?_
    by_cases hvar : set.1 = var
    · have hset : (var, set.2) ∈ set :: sets := by simp [← hvar]
      rw [assign, hall _ hset, hvar, Function.update_self]
    · rw [assign, Function.update_of_ne (Ne.symm hvar)]
      refine hstart fun hmem => ?_
      rcases mem_cons.mp hmem with rfl | hmem
      · exact hvar rfl
      · exact hnot hmem

/-- A variable that is not assigned keeps its value. -/
theorem foldl_update_of_not_mem {sets : List (Text × Text)} {cache : Text → Option Text}
    {var : Text} (hnot : ∀ x, (var, x) ∉ sets) :
    sets.foldl assign cache var =
      cache var := by
  induction sets generalizing cache with
  | nil => rfl
  | cons set sets ih =>
    rw [foldl_cons, ih fun x hx => hnot x (mem_cons_of_mem _ hx), assign,
      Function.update_of_ne]
    rintro rfl
    exact hnot set.2 (by simp)

/-- The value of a variable has been assigned to it. -/
theorem mem_of_foldl_update {sets : List (Text × Text)} {var value : Text}
    (h : sets.foldl assign (fun _ => none) var = some value) : (var, value) ∈ sets := by
  induction sets using List.reverseRecOn with
  | nil => cases h
  | append_singleton sets set ih =>
    rw [foldl_append, foldl_cons, foldl_nil, assign] at h
    by_cases hvar : var = set.1
    · rw [hvar, Function.update_self, Option.some.injEq] at h
      rw [hvar, ← h]
      simp
    · rw [Function.update_of_ne hvar] at h
      exact mem_append_left _ (ih h)

end Preseed.ClassPlan
