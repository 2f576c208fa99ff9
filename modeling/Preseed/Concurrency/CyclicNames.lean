import Mathlib.Data.List.Nodup
import Mathlib.Data.List.Perm.Subperm
import Mathlib.Data.Nat.ModEq

/-!
# Names from a cyclic counter

A counter runs through `1, …, M` and starts again. A free name is found by advancing
it until it is not in use. The search ends as long as fewer than `M` names are in use.
-/

namespace Preseed.Concurrency

/-- The name after a given one; the last one is followed by the first. -/
def following (M name : ℕ) : ℕ := name % M + 1

/-- Advance a name until it is not in use, at most `fuel` times. -/
def freeName (M : ℕ) (used : List ℕ) : ℕ → ℕ → Option ℕ
  | 0, _ => none
  | fuel + 1, name => if name ∈ used then freeName M used fuel (following M name) else some name

variable {M : ℕ} {used : List ℕ} {name : ℕ}

/-- A name after another one is in range. -/
theorem following_range (hM : 0 < M) : 1 ≤ following M name ∧ following M name ≤ M := by
  have hlt := Nat.mod_lt name hM
  unfold following
  omega

/-- Advancing a name in range several times. -/
theorem iterate_following (h : 1 ≤ name) (hM : name ≤ M) (i : ℕ) :
    (following M)^[i] name = (name - 1 + i) % M + 1 := by
  induction i with
  | zero =>
    have hlt : name - 1 + 0 < M := by omega
    rw [Function.iterate_zero_apply, Nat.mod_eq_of_lt hlt]
    omega
  | succ i ih =>
    rw [Function.iterate_succ_apply', ih]
    unfold following
    rw [Nat.mod_add_mod, Nat.add_assoc]

/-- One round of the counter meets no name twice. -/
theorem iterate_following_inj (h : 1 ≤ name) (hM : name ≤ M) {i j : ℕ} (hi : i < M) (hj : j < M)
    (heq : (following M)^[i] name = (following M)^[j] name) : i = j := by
  rw [iterate_following h hM, iterate_following h hM, Nat.add_right_cancel_iff] at heq
  have hmod : name - 1 + i ≡ name - 1 + j [MOD M] := heq
  have hcancel : i ≡ j [MOD M] := Nat.ModEq.add_left_cancel' _ hmod
  rwa [Nat.ModEq, Nat.mod_eq_of_lt hi, Nat.mod_eq_of_lt hj] at hcancel

/-- A search that fails has met only names in use. -/
theorem freeName_none {fuel : ℕ} (h : freeName M used fuel name = none) :
    ∀ i < fuel, (following M)^[i] name ∈ used := by
  induction fuel generalizing name with
  | zero =>
    intro i hi
    omega
  | succ fuel ih =>
    unfold freeName at h
    split at h
    · rename_i hused
      intro i hi
      cases i with
      | zero => exact hused
      | succ i => exact ih h i (by omega)
    · cases h

/-- The search ends if there are more names than are in use. -/
theorem freeName_isSome (h : 1 ≤ name) (hM : name ≤ M) (hused : used.length < M) :
    (freeName M used (used.length + 1) name).isSome := by
  cases hsearch : freeName M used (used.length + 1) name with
  | some found => rfl
  | none =>
    have hmet := freeName_none hsearch
    have hnodup : ((List.range (used.length + 1)).map fun i => (following M)^[i] name).Nodup := by
      refine List.Nodup.map_on ?_ List.nodup_range
      intro i hi j hj heq
      rw [List.mem_range] at hi hj
      exact iterate_following_inj h hM (by omega) (by omega) heq
    have hsub : ((List.range (used.length + 1)).map fun i => (following M)^[i] name) ⊆ used := by
      intro found hfound
      obtain ⟨i, hi, rfl⟩ := List.mem_map.mp hfound
      exact hmet i (List.mem_range.mp hi)
    have hlength := (List.subperm_of_subset hnodup hsub).length_le
    simp only [List.length_map, List.length_range] at hlength
    omega

/-- What the search finds is a name in range that is not in use. -/
theorem freeName_some {fuel found : ℕ} (hM : 0 < M) (hname : 1 ≤ name ∧ name ≤ M)
    (h : freeName M used fuel name = some found) : found ∉ used ∧ 1 ≤ found ∧ found ≤ M := by
  induction fuel generalizing name with
  | zero => cases h
  | succ fuel ih =>
    unfold freeName at h
    split at h
    · exact ih (following_range hM) h
    · rename_i hfree
      cases h
      exact ⟨hfree, hname⟩

end Preseed.Concurrency
