import Mathlib.Data.List.Nodup

/-!
# Insertion-ordered dictionaries

A Python dictionary is a list of its items. What it finds under a key is one of its
items, and the only one when no key occurs twice.
-/

namespace Preseed.HardwareTuning

variable {κ α : Type} [BEq κ] [LawfulBEq κ] {dict : List (κ × α)} {key : κ} {a : α}

/-- What a dictionary finds is one of its items. -/
theorem mem_of_lookup (h : dict.lookup key = some a) : (key, a) ∈ dict := by
  obtain ⟨before, after, rfl, -⟩ := List.lookup_eq_some_iff.mp h
  simp

/-- A dictionary finds every key it lists. -/
theorem lookup_isSome_of_mem (h : key ∈ dict.map Prod.fst) : ∃ a, dict.lookup key = some a := by
  cases hlookup : dict.lookup key with
  | some a => exact ⟨a, rfl⟩
  | none =>
    obtain ⟨item, hitem, rfl⟩ := List.mem_map.mp h
    have hother := List.lookup_eq_none_iff.mp hlookup item hitem
    simp at hother

/-- An item is found under its key, if no key occurs twice. -/
theorem lookup_eq_of_mem (hnodup : (dict.map Prod.fst).Nodup) (hmem : (key, a) ∈ dict) :
    dict.lookup key = some a := by
  obtain ⟨a', ha'⟩ := lookup_isSome_of_mem (List.mem_map_of_mem (f := Prod.fst) hmem)
  have hsame := List.inj_on_of_nodup_map hnodup (mem_of_lookup ha') hmem rfl
  rw [ha', (Prod.mk.inj hsame).2]

end Preseed.HardwareTuning
