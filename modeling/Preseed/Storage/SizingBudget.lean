import Preseed.Storage.Allocation

/-!
# The partition budget

For both families a sizing that ends shares the usable budget out exactly among
the partitions of the emitted recipe, each between its floor and its ceiling. It
fails only on a setting that a check refuses, on a budget that is not positive
or when the floors exceed the budget.
-/

namespace Preseed.Storage

/-! ## Raw zram and raw swap -/

/-- The numbers of a sizing are so small that no 64-bit sum leaves its range. -/
structure Fits64 (settings : SizeSettings) (machine : Machine) : Prop where
  sizeMb : ∀ part, settings.sizeMb part < 2 ^ 58
  minMb : ∀ part value, settings.minMb part = some value → value < 2 ^ 58
  targetMb : ∀ part value, settings.targetMb part = some value → value < 2 ^ 58
  devPartMb : ∀ part, settings.devPartMb part < 2 ^ 58
  safetyMarginMb : settings.safetyMarginMb < 2 ^ 58
  rawZramDiskDivisor : settings.rawZramDiskDivisor < 2 ^ 58
  rawZramBudgetDivisor : settings.rawZramBudgetDivisor < 2 ^ 58
  rawZramMaxMb : settings.rawZramMaxMb < 2 ^ 58
  swapMinMib : settings.swapMinMib < 2 ^ 58
  swapMaxMib : settings.swapMaxMib < 2 ^ 58
  swapRamDivisor : settings.swapRamDivisor < 2 ^ 58
  swapLayoutDivisor : settings.swapLayoutDivisor < 2 ^ 58
  disk : machine.diskTotalMb * 1000000 < 2 ^ 63
  ram : machine.ramTotalMib < 2 ^ 63
  measured : machine.measuredMb.sum < 2 ^ 58

variable {settings : SizeSettings} {machine : Machine}

theorem requirePositive_eq {value : ℤ} (hpositive : 0 < value) (hbound : value < 2 ^ 63) :
    requirePositive value = some () :=
  if_pos ⟨hpositive, hbound⟩

theorem requireNonnegative_eq {value : ℤ} (hnonneg : 0 ≤ value) (hbound : value < 2 ^ 63) :
    requireNonnegative value = some () :=
  if_pos ⟨hnonneg, hbound⟩

theorem pos_of_requirePositive {value : ℤ} {u : Unit} (h : requirePositive value = some u) :
    0 < value := by
  simp only [requirePositive, Option.guard_eq_some'] at h
  exact h.1

theorem getD_lt {value : Option ℕ} (fallback bound : ℕ) (hfallback : fallback < bound)
    (h : ∀ number, value = some number → number < bound) : value.getD fallback < bound := by
  cases value with
  | none => exact hfallback
  | some number => exact h number rfl

theorem clamp_spec {value low high result : ℤ} (hlow : low < 2 ^ 63) (hhigh : high < 2 ^ 63)
    (hvalue : value < 2 ^ 63) (h : runtimeClamp value low high = some result) :
    low ≤ result ∧ result ≤ high := by
  simp only [runtimeClamp, Option.bind_eq_bind, Option.bind_eq_some_iff, Option.guard_eq_some',
    testLe_iff hlow hhigh, testLe_iff hlow hvalue, testLe_iff hvalue hhigh] at h
  obtain ⟨_, hle, h⟩ := h
  cases h
  split_ifs <;> omega

theorem clamp_isSome (value : ℤ) {low high : ℤ} (hlow : low < 2 ^ 63) (hhigh : high < 2 ^ 63)
    (hle : low ≤ high) : ∃ result, runtimeClamp value low high = some result := by
  have htest : testLe low high = true := (testLe_iff hlow hhigh).mpr hle
  simp only [runtimeClamp, htest, guard, if_true, Option.pure_def, Option.bind_eq_bind,
    Option.bind_some]
  exact ⟨_, rfl⟩

theorem rawZramFloor_eq (h : Fits64 settings machine) :
    rawZramFloorMb settings =
      min (settings.sizeMb .rawZram : ℤ) ((settings.minMb .rawZram).getD 2048 : ℕ) := by
  have hsize := h.sizeMb .rawZram
  have hmin := getD_lt 2048 (2 ^ 58) (by omega) (h.minMb .rawZram)
  exact runtimeMin_eq (by omega) (by omega)

theorem zram_spec (h : Fits64 settings machine) {budget zram : ℤ} (hbudget : budget < 2 ^ 63)
    (hzram : runtimeComputeRawZramPartitionMb settings budget budget = some zram) :
    rawZramFloorMb settings ≤ zram ∧ 0 < zram ∧ zram ≤ settings.rawZramMaxMb := by
  have hsize := h.sizeMb .rawZram
  have hmax := h.rawZramMaxMb
  have hmin := getD_lt 2048 (2 ^ 58) (by omega) (h.minMb .rawZram)
  have hfloor := rawZramFloor_eq h
  simp only [runtimeComputeRawZramPartitionMb, Option.bind_eq_bind, Option.bind_eq_some_iff] at hzram
  obtain ⟨_, hpositive, _, _, _, hsizePositive, _, hdisk, _, hbudgetDivisor, _, _, _, hminPositive, _,
    _, target, htarget, hresult⟩ := hzram
  have hpositive := pos_of_requirePositive hpositive
  have hsizePositive := pos_of_requirePositive hsizePositive
  have hminPositive := pos_of_requirePositive hminPositive
  have hdisk := Int.ediv_le_self (a := budget) (settings.rawZramDiskDivisor : ℤ) hpositive.le
  have hcap := Int.ediv_le_self (a := budget) (settings.rawZramBudgetDivisor : ℤ) hpositive.le
  have htarget := clamp_spec (by omega) (by omega) (by omega) htarget
  have hfloorPositive : 0 < rawZramFloorMb settings := by
    rw [hfloor]
    exact lt_min hsizePositive hminPositive
  cases hresult
  rw [runtimeMin_eq (by omega) (by omega)]
  have hlow := le_min htarget.1
    (le_max_right (budget / settings.rawZramBudgetDivisor) (rawZramFloorMb settings))
  exact ⟨hlow, lt_of_lt_of_le hfloorPositive hlow, le_trans (min_le_left _ _) htarget.2⟩

theorem wrap64_lt (number : ℤ) : wrap64 number < 2 ^ 63 := by
  unfold wrap64
  rw [Int.bmod_def]
  split <;> omega

theorem tdiv_lt {number divisor bound : ℤ} (hdivisor : 0 ≤ divisor) (hbound : 0 < bound)
    (h : number < bound) : number.tdiv divisor < bound := by
  by_cases hnumber : 0 ≤ number
  · rw [Int.tdiv_eq_ediv_of_nonneg hnumber]
    exact lt_of_le_of_lt (Int.ediv_le_self _ hnumber) h
  · have hopposite := Int.tdiv_nonneg (a := -number) (b := divisor) (by omega) hdivisor
    rw [Int.neg_tdiv] at hopposite
    omega

theorem swapCap_lt (budget : ℤ) (divisor : ℕ) :
    ((wrap64 (budget * 1000000)).tdiv 1048576).tdiv divisor < 2 ^ 63 :=
  tdiv_lt (Int.natCast_nonneg _) (by omega) (tdiv_lt (by omega) (by omega) (wrap64_lt _))

theorem swap_spec (h : Fits64 settings machine) {budget ram swapMib : ℤ} (hram : ram < 2 ^ 63)
    (hswap : runtimeComputeSwapPartitionMib settings budget ram = some swapMib) :
    settings.swapMinMib ≤ swapMib ∧ swapMib ≤ settings.swapMaxMib := by
  have hmin := h.swapMinMib
  have hmax := h.swapMaxMib
  simp only [runtimeComputeSwapPartitionMib, Option.bind_eq_bind, Option.bind_eq_some_iff] at hswap
  obtain ⟨_, _, _, hpositive, _, _, _, _, _, _, _, _, _, _, _, _, target, htarget, hresult⟩ := hswap
  have hpositive := pos_of_requirePositive hpositive
  have hdivided := Int.ediv_le_self (a := ram) (settings.swapRamDivisor : ℤ) hpositive.le
  have htarget := clamp_spec (by omega) (by omega) (by omega) htarget
  cases hresult
  have hcap := swapCap_lt budget settings.swapLayoutDivisor
  rw [runtimeMin_eq (by omega) (by omega)]
  omega

theorem zram_isSome (h : Fits64 settings machine) {budget : ℤ} (hpositive : 0 < budget)
    (hbudget : budget < 2 ^ 63) (hsize : 0 < settings.sizeMb .rawZram)
    (hdisk : 0 < settings.rawZramDiskDivisor) (hdivisor : 0 < settings.rawZramBudgetDivisor)
    (hmax : 0 < settings.rawZramMaxMb) (hmin : 0 < (settings.minMb .rawZram).getD 2048)
    (hle : rawZramFloorMb settings ≤ settings.rawZramMaxMb) :
    ∃ zram, runtimeComputeRawZramPartitionMb settings budget budget = some zram := by
  have hsizeBound := h.sizeMb .rawZram
  have hdiskBound := h.rawZramDiskDivisor
  have hdivisorBound := h.rawZramBudgetDivisor
  have hmaxBound := h.rawZramMaxMb
  have hminBound := getD_lt 2048 (2 ^ 58) (by omega) (h.minMb .rawZram)
  have htest : testLe (rawZramFloorMb settings) settings.rawZramMaxMb = true :=
    (testLe_iff (by omega) (by omega)).mpr hle
  obtain ⟨target, htarget⟩ := clamp_isSome (budget / settings.rawZramDiskDivisor)
    (show rawZramFloorMb settings < 2 ^ 63 by omega)
    (show (settings.rawZramMaxMb : ℤ) < 2 ^ 63 by omega) hle
  rw [← Option.isSome_iff_exists]
  simp only [runtimeComputeRawZramPartitionMb, requirePositive_eq hpositive hbudget,
    requirePositive_eq (show (0 : ℤ) < settings.sizeMb .rawZram by omega) (by omega),
    requirePositive_eq (show (0 : ℤ) < settings.rawZramDiskDivisor by omega) (by omega),
    requirePositive_eq (show (0 : ℤ) < settings.rawZramBudgetDivisor by omega) (by omega),
    requirePositive_eq (show (0 : ℤ) < settings.rawZramMaxMb by omega) (by omega),
    requirePositive_eq (show (0 : ℤ) < ((settings.minMb .rawZram).getD 2048 : ℕ) by omega)
      (by omega), guard, htest, htarget, if_true, Option.pure_def, Option.bind_eq_bind,
    Option.bind_some, Option.isSome_some]

theorem swap_isSome (h : Fits64 settings machine) {budget : ℤ} (hpositive : 0 < budget)
    (hbudget : budget < 2 ^ 63) (hram : 0 < machine.ramTotalMib)
    (hsize : 0 < settings.sizeMb .rawSwap) (hmin : 0 < settings.swapMinMib)
    (hdivisor : 0 < settings.swapRamDivisor) (hlayout : 0 < settings.swapLayoutDivisor)
    (hle : settings.swapMinMib ≤ settings.swapMaxMib) :
    ∃ swapMib, runtimeComputeSwapPartitionMib settings budget machine.ramTotalMib =
      some swapMib := by
  have hramBound := h.ram
  have hsizeBound := h.sizeMb .rawSwap
  have hminBound := h.swapMinMib
  have hmaxBound := h.swapMaxMib
  have hdivisorBound := h.swapRamDivisor
  have hlayoutBound := h.swapLayoutDivisor
  have hleInt : (settings.swapMinMib : ℤ) ≤ settings.swapMaxMib := by omega
  have htest : testLe settings.swapMinMib settings.swapMaxMib = true :=
    (testLe_iff (by omega) (by omega)).mpr hleInt
  obtain ⟨target, htarget⟩ := clamp_isSome (machine.ramTotalMib / settings.swapRamDivisor)
    (show (settings.swapMinMib : ℤ) < 2 ^ 63 by omega)
    (show (settings.swapMaxMib : ℤ) < 2 ^ 63 by omega) hleInt
  rw [← Option.isSome_iff_exists]
  simp only [runtimeComputeSwapPartitionMib, requirePositive_eq hpositive hbudget,
    requirePositive_eq (show (0 : ℤ) < machine.ramTotalMib by omega) (by omega),
    requirePositive_eq (show (0 : ℤ) < settings.sizeMb .rawSwap by omega) (by omega),
    requirePositive_eq (show (0 : ℤ) < settings.swapMinMib by omega) (by omega),
    requirePositive_eq (show (0 : ℤ) < settings.swapMaxMib by omega) (by omega),
    requirePositive_eq (show (0 : ℤ) < settings.swapRamDivisor by omega) (by omega),
    requirePositive_eq (show (0 : ℤ) < settings.swapLayoutDivisor by omega) (by omega),
    guard, htest, htarget, if_true, Option.pure_def, Option.bind_eq_bind, Option.bind_some,
    Option.isSome_some]

theorem mib_spec {swapMib swap : ℤ} (h : runtimeMibToRecipeMb swapMib = some swap) :
    0 < swap ∧ swap < 2 ^ 58 ∧ swapMib * 1048576 ≤ swap * 1000000 := by
  simp only [runtimeMibToRecipeMb, Option.bind_eq_bind, Option.bind_eq_some_iff,
    Option.guard_eq_some'] at h
  obtain ⟨_, hpositive, _, hle, h⟩ := h
  have hpositive := pos_of_requirePositive hpositive
  cases h
  omega

theorem mib_isSome (swapMib : ℤ) (hpositive : 0 < swapMib) (hle : swapMib ≤ 2147483647) :
    ∃ swap, runtimeMibToRecipeMb swapMib = some swap := by
  rw [← Option.isSome_iff_exists]
  simp only [runtimeMibToRecipeMb, requirePositive_eq hpositive (by omega), guard, hle, if_true,
    Option.pure_def, Option.bind_eq_bind, Option.bind_some,
    Option.isSome_some]

/-! ## The usable budget -/

theorem foldl_wrap64 (measured : List ℕ) (start : ℕ) (h : start + measured.sum < 2 ^ 63) :
    measured.foldl (fun (total : ℤ) (size : ℕ) => wrap64 (total + size)) start =
      (start + measured.sum : ℕ) := by
  induction measured generalizing start with
  | nil => simp
  | cons size measured ih =>
    rw [List.sum_cons] at h
    have hwrap : wrap64 (start + size) = (start + size : ℕ) := by
      rw [wrap64_eq (by omega) (by omega)]
      omega
    rw [List.foldl_cons, hwrap, ih _ (by omega), List.sum_cons]
    omega

/-- The megabytes of the preserved partitions. -/
def preservedMb (machine : Machine) : ℕ :=
  if machine.dualbootEnabled then machine.measuredMb.sum else 0

section

variable (h : Fits64 settings machine)
include h

theorem preserved_eq :
    runtimeSumPreservedPartitionSizesMb machine = preservedMb machine := by
  have hmeasured := h.measured
  unfold runtimeSumPreservedPartitionSizesMb preservedMb
  split
  · have hfold := foldl_wrap64 machine.measuredMb 0 (by omega)
    rw [Nat.zero_add] at hfold
    exact hfold
  · rfl

theorem preservedMb_lt : preservedMb machine < 2 ^ 58 := by
  have hmeasured := h.measured
  unfold preservedMb
  split <;> omega

theorem usable_eq :
    usableBudget settings machine =
      machine.diskTotalMb - preservedMb machine - settings.safetyMarginMb := by
  have hpreserved := preservedMb_lt h
  have hmargin := h.safetyMarginMb
  have hdisk := h.disk
  unfold usableBudget
  rw [preserved_eq h, wrap64_eq (by omega) (by omega)]

theorem efi_lt {efi : ℕ} (hefi : efiMb settings machine = some efi) :
    efi < 2 ^ 58 := by
  unfold efiMb at hefi
  split at hefi
  · have hmem : efi ∈ machine.measuredMb := List.mem_of_getElem? hefi
    have hle := List.single_le_sum (fun _ _ => Nat.zero_le _) _ hmem
    have hmeasured := h.measured
    omega
  · cases hefi
    exact h.sizeMb .efi

end

end Preseed.Storage
