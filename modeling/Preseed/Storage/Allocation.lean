import Preseed.Storage.Sizing

/-!
# Shrinking and filling a list of partitions

One step moves an amount between a partition and the overflow or the budget, so
the sum of the partitions and the open amount is the same after each step. A
run of shrink steps ends without overflow or with every partition at its floor.
-/

namespace Preseed.Storage

open List Function

/-- The megabytes of a list of partitions. -/
def total (parts : List Part) (sizes : Sizes) : ℤ := (parts.map sizes).sum

theorem total_cons (part : Part) (parts : List Part) (sizes : Sizes) :
    total (part :: parts) sizes = sizes part + total parts sizes := by
  simp [total]

variable {parts : List Part}

theorem total_congr {left right : Sizes}
    (h : ∀ part ∈ parts, left part = right part) : total parts left = total parts right := by
  unfold total
  rw [map_congr_left h]

variable {part : Part}

theorem total_update (hnodup : parts.Nodup) (hmem : part ∈ parts) (sizes : Sizes) (size : ℤ) :
    total parts (update sizes part size) = total parts sizes - sizes part + size := by
  induction parts with
  | nil => simp at hmem
  | cons first parts ih =>
    have hfirst := (nodup_cons.mp hnodup).1
    rw [total_cons, total_cons]
    by_cases heq : first = part
    · subst heq
      have hrest : total parts (update sizes first size) = total parts sizes :=
        total_congr fun other hother =>
          update_of_ne (ne_of_mem_of_not_mem hother hfirst) _ _
      rw [update_self, hrest]
      omega
    · have hrest := ih (nodup_cons.mp hnodup).2
        ((mem_cons.mp hmem).resolve_left (Ne.symm heq))
      rw [update_of_ne heq, hrest]
      omega

variable {sizes : Sizes}

theorem total_nonneg (h : ∀ part ∈ parts, 0 ≤ sizes part) :
    0 ≤ total parts sizes := by
  apply sum_nonneg
  simpa using h

theorem le_total (h : ∀ part ∈ parts, 0 ≤ sizes part)
    (hmem : part ∈ parts) : sizes part ≤ total parts sizes :=
  single_le_sum (by simpa using h) _ (mem_map_of_mem hmem)

theorem wrap64_eq {number : ℤ} (hlow : -2 ^ 63 ≤ number) (hhigh : number < 2 ^ 63) :
    wrap64 number = number := by
  unfold wrap64
  rw [Int.bmod_def]
  split <;> omega

theorem testLe_iff {left right : ℤ} (hleft : left < 2 ^ 63) (hright : right < 2 ^ 63) :
    testLe left right ↔ left ≤ right := by
  simp only [testLe, hleft, hright, decide_true, Bool.true_and, decide_eq_true_eq]

theorem runtimeMin_eq {left right : ℤ} (hleft : left < 2 ^ 63) (hright : right < 2 ^ 63) :
    runtimeMin left right = min left right := by
  unfold runtimeMin
  by_cases hle : left ≤ right
  · rw [if_pos ((testLe_iff hleft hright).mpr hle), min_eq_left hle]
  · rw [if_neg (fun h => hle ((testLe_iff hleft hright).mp h)), min_eq_right (by omega)]

/-! ## One step -/

variable {current : ℤ}

theorem shrink_spec {floor overflow : ℤ} (hfloor : 0 ≤ floor) (hle : floor ≤ current)
    (hcurrent : current < 2 ^ 63) (hoverflow : 0 ≤ overflow) :
    ∃ size rest, runtimeShrinkPartitionToFloor current floor overflow = some (size, rest) ∧
      floor ≤ size ∧ size ≤ current ∧ 0 ≤ rest ∧ rest ≤ overflow ∧
      current - size = overflow - rest ∧ (rest = 0 ∨ size = floor) := by
  have hcurrent' : requireNonnegative current = some () := if_pos ⟨by omega, hcurrent⟩
  have hfloor' : requireNonnegative floor = some () := if_pos ⟨hfloor, by omega⟩
  simp only [runtimeShrinkPartitionToFloor, hcurrent', hfloor', guard, hoverflow, hle, if_true,
    Option.pure_def, Option.bind_eq_bind, Option.bind_some]
  split
  · refine ⟨_, _, rfl, hle, le_rfl, hoverflow, le_rfl, by omega, by omega⟩
  · split
    · exact ⟨_, _, rfl, by omega, by omega, le_rfl, hoverflow, by omega, Or.inl rfl⟩
    · exact ⟨_, _, rfl, le_rfl, hle, by omega, by omega, by omega, Or.inr rfl⟩

variable {budget : ℤ}

theorem fill_spec {target size rest : ℤ} (hbudget : 0 ≤ budget)
    (h : runtimeFillPartitionToTarget current target budget = some (size, rest)) :
    current ≤ size ∧ size ≤ max current target ∧ 0 ≤ rest ∧ size - current = budget - rest := by
  simp only [runtimeFillPartitionToTarget, Option.bind_eq_bind, Option.bind_eq_some_iff] at h
  obtain ⟨_, _, _, _, _, _, h⟩ := h
  split at h
  · cases h
    omega
  · split at h
    · cases h
      omega
    · cases h
      omega

theorem fill_isSome {target : ℤ} (hcurrent : 0 < current) (hbound : current < 2 ^ 63)
    (htarget : 0 ≤ target) (hbudget : 0 ≤ budget) :
    ∃ size rest, runtimeFillPartitionToTarget current target budget = some (size, rest) := by
  have hcurrent' : requirePositive current = some () := if_pos ⟨hcurrent, hbound⟩
  simp only [runtimeFillPartitionToTarget, hcurrent', guard, htarget, hbudget, if_true,
    Option.pure_def, Option.bind_eq_bind, Option.bind_some]
  split
  · exact ⟨_, _, rfl⟩
  · split
    · exact ⟨_, _, rfl⟩
    · exact ⟨_, _, rfl⟩

/-! ## A run of steps -/

/-- What a run of shrink steps over `order` leaves of the sizes and the overflow. -/
structure Shrunk (parts order : List Part) (floor before after : Sizes) (overflow rest : ℤ) :
    Prop where
  untouched : ∀ part, part ∉ order → after part = before part
  floors : ∀ part ∈ order, floor part ≤ after part
  ceilings : ∀ part ∈ order, after part ≤ before part
  nonneg : 0 ≤ rest
  le : rest ≤ overflow
  balance : total parts before - total parts after = overflow - rest
  exhausted : rest = 0 ∨ ∀ part ∈ order, after part = floor part

variable {order : List Part}

theorem shrink_run (hnodup : parts.Nodup) (hsub : order ⊆ parts) {floor : Sizes} {overflow : ℤ}
    (hoverflow : 0 ≤ overflow) (hfloor : ∀ part ∈ order, 0 ≤ floor part)
    (hle : ∀ part ∈ order, floor part ≤ sizes part) (hbound : ∀ part ∈ order, sizes part < 2 ^ 63) :
    ∃ after rest, order.foldlM (shrinkPart floor) (sizes, overflow) = some (after, rest) ∧
      Shrunk parts order floor sizes after overflow rest := by
  induction order generalizing sizes overflow with
  | nil =>
    refine ⟨sizes, overflow, rfl, ?_⟩
    exact ⟨fun _ _ => rfl, by simp, by simp, hoverflow, le_rfl, by omega, Or.inr (by simp)⟩
  | cons part order ih =>
    obtain ⟨size, rest, hstep, hlow, hhigh, hrest, hrestle, hbalance, hend⟩ :=
      shrink_spec (hfloor part (by simp)) (hle part (by simp)) (hbound part (by simp)) hoverflow
    have hsizes : ∀ other ∈ order, floor other ≤ update sizes part size other ∧
        update sizes part size other < 2 ^ 63 := by
      intro other hother
      have := hle other (by simp [hother])
      have := hbound other (by simp [hother])
      by_cases heq : other = part
      · subst heq
        rw [update_self]
        omega
      · rw [update_of_ne heq]
        omega
    obtain ⟨after, final, hrun, hshrunk⟩ := ih (subset_of_cons_subset hsub) hrest
      (fun other hother => hfloor other (by simp [hother])) (fun other h => (hsizes other h).1)
      (fun other h => (hsizes other h).2)
    have hpart : part ∉ order → after part = size := by
      intro hnot
      rw [hshrunk.untouched part hnot, update_self]
    have hother : ∀ other, other ≠ part → update sizes part size other = sizes other :=
      fun other hne => update_of_ne hne _ _
    refine ⟨after, final, ?_, ?_⟩
    · simp only [foldlM_cons, shrinkPart, hstep, Option.bind_eq_bind, Option.bind_some,
        Option.pure_def]
      exact hrun
    have htotal := total_update hnodup (hsub (by simp : part ∈ part :: order)) sizes size
    refine ⟨?_, ?_, ?_, hshrunk.nonneg, by have := hshrunk.le; omega, ?_, ?_⟩
    · intro other hnot
      simp only [mem_cons, not_or] at hnot
      rw [hshrunk.untouched other hnot.2, hother other hnot.1]
    · intro other hmem
      by_cases hin : other ∈ order
      · exact hshrunk.floors other hin
      · obtain rfl : other = part := (mem_cons.mp hmem).resolve_right hin
        rw [hpart hin]
        exact hlow
    · intro other hmem
      by_cases hin : other ∈ order
      · have hafter := hshrunk.ceilings other hin
        by_cases heq : other = part
        · subst heq
          rw [update_self] at hafter
          omega
        · rwa [hother other heq] at hafter
      · obtain rfl : other = part := (mem_cons.mp hmem).resolve_right hin
        rw [hpart hin]
        exact hhigh
    · have := hshrunk.balance
      omega
    · rcases hshrunk.exhausted with hzero | hfloors
      · exact Or.inl hzero
      rcases hend with hzero | hsize
      · have hnonneg := hshrunk.nonneg
        have hfinal := hshrunk.le
        exact Or.inl (by omega)
      · right
        intro other hmem
        by_cases hin : other ∈ order
        · exact hfloors other hin
        · obtain rfl : other = part := (mem_cons.mp hmem).resolve_right hin
          rw [hpart hin, hsize]

/-- What a run of fill steps over `order` leaves of the sizes and the budget. -/
structure Filled (parts order : List Part) (target before after : Sizes) (budget rest : ℤ) :
    Prop where
  untouched : ∀ part, part ∉ order → after part = before part
  floors : ∀ part, before part ≤ after part
  ceilings : ∀ part, after part ≤ max (before part) (target part)
  nonneg : 0 ≤ rest
  balance : total parts after - total parts before = budget - rest

variable {target : Sizes}

theorem fillPart_eq_some {state after : Sizes × ℤ} (h : fillPart target state part = some after) :
    ∃ size rest, runtimeFillPartitionToTarget (state.1 part) (target part) state.2 =
        some (size, rest) ∧ after = (update state.1 part size, rest) := by
  simp only [fillPart, Option.bind_eq_bind, Option.bind_eq_some_iff] at h
  obtain ⟨⟨size, rest⟩, hfill, hafter⟩ := h
  cases hafter
  exact ⟨size, rest, hfill, rfl⟩

theorem fill_run (hnodup : parts.Nodup) (hsub : order ⊆ parts) {after : Sizes} {rest : ℤ}
    (hbudget : 0 ≤ budget)
    (h : order.foldlM (fillPart target) (sizes, budget) = some (after, rest)) :
    Filled parts order target sizes after budget rest := by
  induction order generalizing sizes budget with
  | nil =>
    cases h
    exact ⟨fun _ _ => rfl, fun _ => le_rfl, fun _ => le_max_left _ _, hbudget, by omega⟩
  | cons part order ih =>
    simp only [foldlM_cons, Option.bind_eq_bind, Option.bind_eq_some_iff] at h
    obtain ⟨state, hstep, hrun⟩ := h
    obtain ⟨size, open', hfill, rfl⟩ := fillPart_eq_some hstep
    dsimp only at hfill hrun
    obtain ⟨hlow, hhigh, hopen, hbalance⟩ := fill_spec hbudget hfill
    have hfilled := ih (subset_of_cons_subset hsub) hopen hrun
    have htotal := total_update hnodup (hsub (by simp : part ∈ part :: order)) sizes size
    have hgrown : ∀ other, sizes other ≤ update sizes part size other := by
      intro other
      by_cases heq : other = part
      · subst heq
        rwa [update_self]
      · rw [update_of_ne heq]
    refine ⟨?_, fun other => le_trans (hgrown other) (hfilled.floors other), ?_, hfilled.nonneg,
      by have := hfilled.balance; omega⟩
    · intro other hnot
      simp only [mem_cons, not_or] at hnot
      rw [hfilled.untouched other hnot.2, update_of_ne hnot.1]
    · intro other
      have hafter := hfilled.ceilings other
      by_cases heq : other = part
      · subst heq
        rw [update_self] at hafter
        omega
      · rwa [update_of_ne heq] at hafter

/-- A run of fill steps over partitions that exist never fails. -/
theorem fill_run_isSome (hnodup : parts.Nodup) (hsub : order ⊆ parts) (hbudget : 0 ≤ budget)
    (htarget : ∀ part, 0 ≤ target part) (hnonneg : ∀ part ∈ parts, 0 ≤ sizes part)
    (hpositive : ∀ part ∈ order, 0 < sizes part) (hbound : total parts sizes + budget < 2 ^ 63) :
    ∃ result, order.foldlM (fillPart target) (sizes, budget) = some result := by
  induction order generalizing sizes budget with
  | nil => exact ⟨_, rfl⟩
  | cons part order ih =>
    have hmem : part ∈ parts := hsub (by simp)
    have hsize := le_total hnonneg hmem
    obtain ⟨size, rest, hfill⟩ :=
      fill_isSome (hpositive part (by simp)) (by omega) (htarget part) hbudget
    obtain ⟨hlow, _, hrest, hbalance⟩ := fill_spec hbudget hfill
    have htotal := total_update hnodup hmem sizes size
    have hgrown : ∀ other, sizes other ≤ update sizes part size other := by
      intro other
      by_cases heq : other = part
      · subst heq
        rwa [update_self]
      · rw [update_of_ne heq]
    obtain ⟨result, hrun⟩ := ih (subset_of_cons_subset hsub) hrest
      (fun other hother => le_trans (hnonneg other hother) (hgrown other))
      (fun other hother => lt_of_lt_of_le (hpositive other (by simp [hother])) (hgrown other))
      (by omega)
    refine ⟨result, ?_⟩
    simp only [foldlM_cons, fillPart, hfill, Option.bind_eq_bind, Option.bind_some,
      Option.pure_def]
    exact hrun

/-! ## The whole budget -/

section Budget

variable {parts order : List Part} {usable : ℤ} {initial : Sizes}

/-- What the low-space path leaves. -/
structure FitsOrAtFloors (parts order : List Part) (floor initial after : Sizes) (usable : ℤ) :
    Prop where
  untouched : ∀ part, part ∉ order → after part = initial part
  floors : ∀ part ∈ order, floor part ≤ after part
  ceilings : ∀ part ∈ order, after part ≤ initial part
  outcome : total parts after ≤ usable ∨ ∀ part ∈ order, after part = floor part

theorem baseTotal_eq {sizes : Sizes} (hnonneg : ∀ part ∈ parts, 0 ≤ sizes part)
    (hbound : total parts sizes < 2 ^ 63) : baseTotal parts sizes = total parts sizes := by
  have hpositive := total_nonneg hnonneg
  exact wrap64_eq (by unfold total at *; omega) (by unfold total at *; omega)

theorem shrinkToBudget_spec (hnodup : parts.Nodup) (hsub : order ⊆ parts) {floor : Sizes}
    (hnonneg : ∀ part ∈ parts, 0 ≤ initial part) (hbound : total parts initial < 2 ^ 63)
    (hfloor : ∀ part ∈ order, 0 ≤ floor part)
    (hle : ∀ part ∈ order, floor part ≤ initial part) :
    ∃ after, shrinkToBudget parts order floor usable initial = some after ∧
      FitsOrAtFloors parts order floor initial after usable := by
  unfold shrinkToBudget
  rw [baseTotal_eq hnonneg hbound]
  split
  · rename_i hover
    have hoverflow : 0 ≤ total parts initial - usable := by omega
    obtain ⟨after, rest, hrun, hshrunk⟩ := shrink_run hnodup hsub hoverflow hfloor hle
      (fun part hpart => by have := le_total hnonneg (hsub hpart); omega)
    refine ⟨after, by rw [hrun]; rfl, hshrunk.untouched, hshrunk.floors, hshrunk.ceilings, ?_⟩
    have hbalance := hshrunk.balance
    rcases hshrunk.exhausted with hzero | hfloors
    · left
      omega
    · exact Or.inr hfloors
  · exact ⟨initial, rfl, fun _ _ => rfl, hle, fun _ _ => le_rfl, Or.inl (by omega)⟩

/-- What filling to the budget leaves. -/
structure FillsBudget (parts order : List Part) (target sizes after : Sizes) (usable : ℤ) :
    Prop where
  total : total parts after = usable
  grown : ∀ part, sizes part ≤ after part
  ceilings : ∀ part, part ≠ .root → after part ≤ max (sizes part) (target part)
  untouched : ∀ part, part ∉ order → part ≠ .root → after part = sizes part

theorem fillToBudget_spec (hnodup : parts.Nodup) (hsub : order ⊆ parts) (hroot : .root ∈ parts)
    {target sizes after : Sizes} (hnonneg : ∀ part ∈ parts, 0 ≤ sizes part)
    (hbound : total parts sizes < 2 ^ 63) (husable : usable < 2 ^ 63)
    (h : fillToBudget parts order target usable sizes = some after) :
    total parts sizes ≤ usable ∧ FillsBudget parts order target sizes after usable := by
  have hpositive := total_nonneg hnonneg
  simp only [fillToBudget, baseTotal_eq hnonneg hbound, Option.bind_eq_bind,
    Option.bind_eq_some_iff, Option.guard_eq_some'] at h
  obtain ⟨_, hfits, ⟨filled, rest⟩, hrun, hafter⟩ := h
  rw [wrap64_eq (by omega) (by omega)] at hrun
  have hfilled := fill_run hnodup hsub (by omega) hrun
  have hbalance := hfilled.balance
  have hrest := hfilled.nonneg
  have hrootle : filled .root ≤ total parts filled :=
    le_total (fun part hpart => le_trans (hnonneg part hpart) (hfilled.floors part)) hroot
  have hrootnonneg := le_trans (hnonneg .root hroot) (hfilled.floors .root)
  cases hafter
  dsimp only
  rw [wrap64_eq (by omega) (by omega)]
  have htotal := total_update hnodup hroot filled (filled .root + rest)
  refine ⟨hfits, by omega, ?_, ?_, ?_⟩
  · intro part
    have hgrown := hfilled.floors part
    by_cases heq : part = .root
    · subst heq
      rw [update_self]
      omega
    · rwa [update_of_ne heq]
  · intro part hne
    rw [update_of_ne hne]
    exact hfilled.ceilings part
  · intro part hnot hne
    rw [update_of_ne hne]
    exact hfilled.untouched part hnot

theorem fillToBudget_isSome (hnodup : parts.Nodup) (hsub : order ⊆ parts)
    {target sizes : Sizes} (hnonneg : ∀ part ∈ parts, 0 ≤ sizes part)
    (hfits : total parts sizes ≤ usable) (husable : usable < 2 ^ 63)
    (htarget : ∀ part, 0 ≤ target part) (hpositive : ∀ part ∈ order, 0 < sizes part) :
    ∃ after, fillToBudget parts order target usable sizes = some after := by
  have htotal := total_nonneg hnonneg
  have hbase := baseTotal_eq hnonneg (by omega)
  have hbudget : 0 ≤ usable - total parts sizes := by omega
  obtain ⟨⟨filled, rest⟩, hrun⟩ :=
    fill_run_isSome hnodup hsub hbudget htarget hnonneg hpositive (by omega)
  refine ⟨update filled .root (wrap64 (filled .root + rest)), ?_⟩
  simp only [fillToBudget, hbase, guard, hfits, if_true, Option.pure_def, Option.bind_eq_bind,
    Option.bind_some, wrap64_eq (show -2 ^ 63 ≤ usable - total parts sizes by omega)
      (show usable - total parts sizes < 2 ^ 63 by omega), hrun]

end Budget

end Preseed.Storage
