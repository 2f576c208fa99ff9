import Preseed.Storage.SizingBudget

/-!
# Conservation of the partition budget

The result of a sizing, for both families: what it promises when it ends, and
on what it can fail.
-/

namespace Preseed.Storage

open Option

/-! ## The data of the two families -/

namespace Family

def parts : Family → List Part
  | btrfs => Btrfs.parts
  | f2fs => F2fs.parts

def shrinkOrder : Family → Bool → List Part
  | btrfs => Btrfs.shrinkOrder
  | f2fs => F2fs.shrinkOrder

def fillOrder : Family → Sizes → List Part
  | btrfs => fun _ => Btrfs.fillOrder
  | f2fs => F2fs.fillOrder

def minDefaultMb : Family → Part → ℕ
  | btrfs => Btrfs.minDefaultMb
  | f2fs => F2fs.minDefaultMb

def targetMb : Family → SizeSettings → Part → ℕ
  | btrfs => Btrfs.targetMb
  | f2fs => F2fs.targetMb

def configuredMb : Family → SizeSettings → ℕ → ℤ → ℤ → Sizes
  | btrfs => Btrfs.configuredMb
  | f2fs => F2fs.configuredMb

def runtimeComputeLayoutSizing : Family → SizeSettings → Machine → Option LayoutSizing
  | btrfs => Btrfs.runtimeComputeLayoutSizing
  | f2fs => F2fs.runtimeComputeLayoutSizing

/-- The partitions that a recipe creates: F2FS leaves out an optional partition of
size zero, and a reused EFI partition has no stanza. -/
def emittedParts (family : Family) (dualboot : Bool) (sizes : Sizes) : List Part :=
  (newParts dualboot family.parts).filter fun part =>
    family = btrfs ∨ part ∉ [Part.home, .pool, .varLibShsigned] ∨ 0 < sizes part

/-- The floor of a partition: the smaller of its size and its minimum, where the
low-space path may shrink it, else its configured or computed size. -/
def floors (family : Family) (settings : SizeSettings) (dualboot : Bool) (configured : Sizes) :
    Sizes :=
  fun part =>
    if part ∈ family.shrinkOrder dualboot then
      floorMb settings family.minDefaultMb configured part
    else configured part

/-- The checks of the settings that a sizing makes. -/
structure Accepted (family : Family) (settings : SizeSettings) (machine : Machine) : Prop where
  safetyMargin : 0 < settings.safetyMarginMb
  rawZramSize : 0 < settings.sizeMb .rawZram
  rawZramDiskDivisor : 0 < settings.rawZramDiskDivisor
  rawZramBudgetDivisor : 0 < settings.rawZramBudgetDivisor
  rawZramMax : 0 < settings.rawZramMaxMb
  rawZramMin : 0 < (settings.minMb .rawZram).getD 2048
  rawZramFloor : rawZramFloorMb settings ≤ settings.rawZramMaxMb
  ram : 0 < machine.ramTotalMib
  rawSwapSize : 0 < settings.sizeMb .rawSwap
  swapMin : 0 < settings.swapMinMib
  swapRamDivisor : 0 < settings.swapRamDivisor
  swapLayoutDivisor : 0 < settings.swapLayoutDivisor
  swapOrder : settings.swapMinMib ≤ settings.swapMaxMib
  efi : (efiMb settings machine).isSome
  btrfs : family = btrfs →
    (∀ part ∈ Btrfs.parts, 0 < settings.devPartMb part) ∧
      ∀ part ∈ Btrfs.fillOrder, 0 < settings.sizeMb part ∧
        settings.sizeMb part ≤ Btrfs.targetMb settings part ∧
        0 < (settings.minMb part).getD (Btrfs.minDefaultMb part)
  f2fs : family = f2fs →
    (∀ part ∈ [Part.efi, .boot, .root, .varLogJournal], 0 < settings.sizeMb part) ∧
      (settings.secureBootStateLuks → 0 < settings.sizeMb .varLibShsigned)

/-- The sizes that a sizing computes before it shares the budget out. -/
structure Computed (settings : SizeSettings) (machine : Machine) (efi : ℕ)
    (swapMib swap zram : ℤ) : Prop where
  rawZram : runtimeComputeRawZramPartitionMb settings (usableBudget settings machine)
    (usableBudget settings machine) = some zram
  swapSize : runtimeComputeSwapPartitionMib settings (usableBudget settings machine)
    machine.ramTotalMib = some swapMib
  rawSwap : runtimeMibToRecipeMb swapMib = some swap
  reused : efiMb settings machine = some efi

/-- What a sizing promises about its result. -/
structure Conserved (family : Family) (settings : SizeSettings) (machine : Machine)
    (configured : Sizes) (sizing : LayoutSizing) : Prop where
  budget : sizing.usableBudgetMb =
    machine.diskTotalMb - preservedMb machine - settings.safetyMarginMb
  positive : 0 < sizing.usableBudgetMb
  /-- The partitions of the recipe sum exactly to the budget. -/
  exact : total (family.emittedParts machine.dualbootEnabled sizing.sizes) sizing.sizes =
    sizing.usableBudgetMb
  /-- With the preserved partitions and the margin they fill the disk. -/
  fits : preservedMb machine + settings.safetyMarginMb +
    total (family.emittedParts machine.dualbootEnabled sizing.sizes) sizing.sizes =
      machine.diskTotalMb
  floors : ∀ part ∈ newParts machine.dualbootEnabled family.parts,
    family.floors settings machine.dualbootEnabled configured part ≤ sizing.sizes part
  ceilings : ∀ part ∈ newParts machine.dualbootEnabled family.parts, part ≠ .root →
    sizing.sizes part ≤ max (configured part) (family.targetMb settings part)
  /-- A reused EFI partition has its measured size and is not charged. -/
  reused : machine.dualbootEnabled → (sizing.sizes .efi = configured .efi) ∧
    .efi ∉ family.emittedParts machine.dualbootEnabled sizing.sizes
  rawSwap : sizing.sizes .rawSwap = configured .rawSwap
  rawZram : sizing.sizes .rawZram = configured .rawZram

/-! ## The lists of partitions -/

variable {family : Family} {settings : SizeSettings} {machine : Machine} {sizing : LayoutSizing}

theorem nodup_newParts (family : Family) (dualboot : Bool) :
    (newParts dualboot family.parts).Nodup := by
  cases family <;> cases dualboot <;> decide

theorem shrinkOrder_subset (family : Family) (dualboot : Bool) :
    family.shrinkOrder dualboot ⊆ newParts dualboot family.parts := by
  cases family <;> cases dualboot <;> decide

theorem fillOrder_subset_btrfs (family : Family) (sizes : Sizes) :
    family.fillOrder sizes ⊆ Btrfs.fillOrder := by
  cases family with
  | btrfs => exact .refl _
  | f2fs =>
    simp only [fillOrder, F2fs.fillOrder]
    split
    · decide
    · simp

theorem fillOrder_subset (family : Family) (dualboot : Bool) (sizes : Sizes) :
    family.fillOrder sizes ⊆ newParts dualboot family.parts := by
  cases family with
  | btrfs =>
    have hbtrfs : Btrfs.fillOrder ⊆ newParts dualboot Btrfs.parts := by cases dualboot <;> decide
    exact hbtrfs
  | f2fs =>
    simp only [fillOrder, F2fs.fillOrder]
    split
    · cases dualboot <;> decide
    · simp

theorem root_mem (family : Family) (dualboot : Bool) :
    .root ∈ newParts dualboot family.parts := by
  cases family <;> cases dualboot <;> decide

/-- Neither run touches the raw partitions or a reused EFI partition. -/
theorem untouched_parts (family : Family) (dualboot : Bool) (sizes : Sizes) {part : Part}
    (h : part = .rawSwap ∨ part = .rawZram ∨ (dualboot ∧ part = .efi)) :
    part ∉ family.shrinkOrder dualboot ∧ part ∉ family.fillOrder sizes ∧ part ≠ .root := by
  have hfill : part ∉ Btrfs.fillOrder ∧ part ≠ .root := by
    rcases h with rfl | rfl | ⟨-, rfl⟩ <;> decide
  refine ⟨?_, fun hmem => hfill.1 (family.fillOrder_subset_btrfs sizes hmem), hfill.2⟩
  rcases h with rfl | rfl | ⟨hdualboot, rfl⟩
  · cases family <;> cases dualboot <;> decide
  · cases family <;> cases dualboot <;> decide
  · subst hdualboot
    cases family <;> decide

theorem efi_not_mem_newParts (family : Family) : .efi ∉ newParts true family.parts := by
  cases family <;> decide

theorem length_newParts (family : Family) (dualboot : Bool) :
    (newParts dualboot family.parts).length ≤ 12 := by
  cases family <;> cases dualboot <;> decide

theorem total_le_length (parts : List Part) (sizes : Sizes)
    (h : ∀ part ∈ parts, sizes part ≤ 2 ^ 58) : total parts sizes ≤ parts.length * 2 ^ 58 := by
  induction parts with
  | nil => simp [Storage.total]
  | cons part parts ih =>
    have hpart := h part (by simp)
    have hrest := ih fun other hother => h other (by simp [hother])
    rw [total_cons, List.length_cons]
    omega

/-- An optional partition without a stanza has size zero. -/
theorem total_filter {parts : List Part} {sizes : Sizes} {keep : Part → Bool}
    (h : ∀ part ∈ parts, keep part = false → sizes part = 0) :
    Storage.total (parts.filter keep) sizes = Storage.total parts sizes := by
  induction parts with
  | nil => rfl
  | cons part parts ih =>
    have hrest := ih fun other hother => h other (by simp [hother])
    cases hkeep : keep part with
    | true => rw [List.filter_cons_of_pos hkeep, total_cons, total_cons, hrest]
    | false =>
      rw [List.filter_cons_of_neg (by simp [hkeep]), hrest, total_cons, h part (by simp) hkeep]
      omega

/-! ## The configured sizes -/

variable {efi : ℕ} {swap zram : ℤ}

theorem configured_bounds (h : Fits64 settings machine) (hefi : efi < 2 ^ 58)
    (hswap : 0 < swap ∧ swap < 2 ^ 58) (hzram : 0 < zram ∧ zram < 2 ^ 58) (part : Part) :
    0 ≤ family.configuredMb settings efi swap zram part ∧
      family.configuredMb settings efi swap zram part < 2 ^ 58 := by
  have hsize := h.sizeMb part
  cases family <;> cases part <;>
    simp only [configuredMb, Btrfs.configuredMb, F2fs.configuredMb] <;>
    omega

theorem minDefault_lt (family : Family) (part : Part) : family.minDefaultMb part < 2 ^ 58 := by
  cases family <;> cases part <;> decide

theorem floorMb_bounds (family : Family) (h : Fits64 settings machine) {configured : Sizes} {part : Part}
    (hconfigured : 0 ≤ configured part ∧ configured part < 2 ^ 58) :
    0 ≤ floorMb settings family.minDefaultMb configured part ∧
      floorMb settings family.minDefaultMb configured part ≤ configured part := by
  have hmin := getD_lt _ (2 ^ 58) (family.minDefault_lt part) (h.minMb part)
  unfold floorMb
  rw [runtimeMin_eq (by omega) (by omega)]
  omega

/-! ## The course of a sizing -/

/-- The steps of a sizing that ended. -/
theorem compute_eq_some
    (h : family.runtimeComputeLayoutSizing settings machine = some sizing) :
    ∃ efi swapMib swap zram shrunk,
      Computed settings machine efi swapMib swap zram ∧
      0 < usableBudget settings machine ∧
      shrinkToBudget (newParts machine.dualbootEnabled family.parts)
        (family.shrinkOrder machine.dualbootEnabled)
        (floorMb settings family.minDefaultMb (family.configuredMb settings efi swap zram))
        (usableBudget settings machine) (family.configuredMb settings efi swap zram) =
          some shrunk ∧
      fillToBudget (newParts machine.dualbootEnabled family.parts) (family.fillOrder shrunk)
        (fun part => family.targetMb settings part) (usableBudget settings machine) shrunk =
          some sizing.sizes ∧
      sizing.usableBudgetMb = usableBudget settings machine ∧ sizing.swapSizeMib = swapMib := by
  cases family with
  | btrfs =>
    simp only [runtimeComputeLayoutSizing, Btrfs.runtimeComputeLayoutSizing, bind_eq_bind,
      bind_eq_some_iff, guard_eq_some'] at h
    obtain ⟨_, _, _, _, _, hpositive, _, _, zram, hzram, swapMib, hswapMib, swap, hswap, efi, hefi,
      _, _, shrunk, hshrunk, sizes, hsizes, hsizing⟩ := h
    cases hsizing
    exact ⟨efi, swapMib, swap, zram, shrunk, ⟨hzram, hswapMib, hswap, hefi⟩, hpositive, hshrunk,
      hsizes, rfl, rfl⟩
  | f2fs =>
    simp only [runtimeComputeLayoutSizing, F2fs.runtimeComputeLayoutSizing, bind_eq_bind,
      bind_eq_some_iff, guard_eq_some'] at h
    obtain ⟨_, _, _, hpositive, _, _, zram, hzram, swapMib, hswapMib, swap, hswap, efi, hefi,
      shrunk, hshrunk, sizes, hsizes, hsizing⟩ := h
    cases hsizing
    exact ⟨efi, swapMib, swap, zram, shrunk, ⟨hzram, hswapMib, hswap, hefi⟩, hpositive, hshrunk,
      hsizes, rfl, rfl⟩

theorem forM_eq_some {items : List Part} {check : Part → Option Unit}
    (h : ∀ part ∈ items, check part = some ()) : items.forM check = some () := by
  induction items with
  | nil => rfl
  | cons part items ih =>
    change (check part).bind (fun _ => items.forM check) = some ()
    rw [h part (by simp)]
    exact ih fun other hother => h other (by simp [hother])

theorem requireSizes_eq (h : Fits64 settings machine) (haccepted : Accepted .f2fs settings machine) :
    F2fs.requireSizes settings = some () := by
  obtain ⟨hsizes, hluks⟩ := haccepted.f2fs rfl
  have hraw := haccepted.rawSwapSize
  have hzram := haccepted.rawZramSize
  have hpositive : [Part.efi, .boot, .root, .varLogJournal, .rawSwap, .rawZram].forM
      (fun part => requirePositive (settings.sizeMb part)) = some () := by
    refine forM_eq_some fun part hpart => ?_
    have hbound := h.sizeMb part
    have : 0 < settings.sizeMb part := by
      by_cases hmem : part ∈ [Part.efi, .boot, .root, .varLogJournal]
      · exact hsizes part hmem
      · obtain rfl | rfl : part = .rawSwap ∨ part = .rawZram := by
          revert hpart hmem
          cases part <;> decide
        · exact hraw
        · exact hzram
    exact requirePositive_eq (by omega) (by omega)
  have hnonneg : [Part.home, .pool, .varLibShsigned].forM
      (fun part => requireNonnegative (settings.sizeMb part)) = some () := by
    refine forM_eq_some fun part _ => ?_
    have hbound := h.sizeMb part
    exact requireNonnegative_eq (by omega) (by omega)
  have htargetBound := getD_lt 0 (2 ^ 58) (by omega) (h.targetMb .home)
  have htarget : requireNonnegative (F2fs.targetMb settings .home) = some () := by
    unfold F2fs.targetMb
    exact requireNonnegative_eq (by omega) (by omega)
  unfold F2fs.requireSizes
  rw [hpositive, hnonneg, htarget]
  cases hmode : settings.secureBootStateLuks with
  | false => rfl
  | true =>
    have hbound := h.sizeMb .varLibShsigned
    have hsize := hluks hmode
    exact requirePositive_eq (by omega) (by omega)

theorem btrfs_checks (h : Fits64 settings machine) (haccepted : Accepted .btrfs settings machine) :
    Btrfs.runtimeValidatePartitionSizes settings = some () ∧
      (Btrfs.fillOrder.forM fun part => requirePositive (Btrfs.targetMb settings part)) = some () ∧
      ∀ efi swap zram, (Btrfs.fillOrder.forM fun part => (guard (testLe
        (Btrfs.configuredMb settings efi swap zram part) (Btrfs.targetMb settings part)) :
          Option Unit)) = some () := by
  obtain ⟨hdev, hsizes⟩ := haccepted.btrfs rfl
  have htarget : ∀ part, Btrfs.targetMb settings part < 2 ^ 58 := by
    intro part
    have hsize := h.sizeMb .pool
    cases part <;> exact getD_lt _ _ (by omega) (h.targetMb _)
  refine ⟨?_, ?_, fun efi swap zram => ?_⟩
  · refine forM_eq_some fun part hpart => ?_
    have hbound := h.devPartMb part
    have hpositive := hdev part hpart
    exact requirePositive_eq (by omega) (by omega)
  · refine forM_eq_some fun part hpart => ?_
    have hbound := htarget part
    obtain ⟨hpositive, hle, -⟩ := hsizes part hpart
    exact requirePositive_eq (by omega) (by omega)
  · refine forM_eq_some fun part hpart => ?_
    have hbound := htarget part
    obtain ⟨-, hle, -⟩ := hsizes part hpart
    have hconfigured : Btrfs.configuredMb settings efi swap zram part = settings.sizeMb part := by
      revert hpart
      cases part <;> simp [Btrfs.fillOrder, Btrfs.configuredMb]
    rw [hconfigured]
    exact if_pos ((testLe_iff (by omega) (by omega)).mpr (by omega))

variable {shrunk : Sizes}

/-- A sizing with accepted settings ends once the budget can be shared out. -/
theorem compute_isSome (h : Fits64 settings machine) (haccepted : Accepted family settings machine)
    {swapMib : ℤ} (hcomputed : Computed settings machine efi swapMib swap zram)
    (hpositive : 0 < usableBudget settings machine) {sizes : Sizes}
    (hshrunk : shrinkToBudget (newParts machine.dualbootEnabled family.parts)
      (family.shrinkOrder machine.dualbootEnabled)
      (floorMb settings family.minDefaultMb (family.configuredMb settings efi swap zram))
      (usableBudget settings machine) (family.configuredMb settings efi swap zram) = some shrunk)
    (hsizes : fillToBudget (newParts machine.dualbootEnabled family.parts)
      (family.fillOrder shrunk) (fun part => family.targetMb settings part)
      (usableBudget settings machine) shrunk = some sizes) :
    (family.runtimeComputeLayoutSizing settings machine).isSome := by
  have hmarginBound := h.safetyMarginMb
  have hmargin := haccepted.safetyMargin
  have hmargin : requirePositive settings.safetyMarginMb = some () :=
    requirePositive_eq (by omega) (by omega)
  have hguard : (guard (0 < usableBudget settings machine) : Option Unit) = some () :=
    if_pos hpositive
  cases family with
  | btrfs =>
    obtain ⟨hvalidate, htargets, hle⟩ := btrfs_checks h haccepted
    simp only [parts, shrinkOrder, minDefaultMb, configuredMb, fillOrder, targetMb] at hshrunk hsizes
    simp only [runtimeComputeLayoutSizing, Btrfs.runtimeComputeLayoutSizing, hvalidate, hmargin,
      hguard, htargets, hcomputed.rawZram, hcomputed.swapSize, hcomputed.rawSwap,
      hcomputed.reused, hle, hshrunk, hsizes, pure_def, bind_eq_bind,
      bind_some, isSome_some]
  | f2fs =>
    have hrequire := requireSizes_eq h haccepted
    simp only [parts, shrinkOrder, minDefaultMb, configuredMb, fillOrder, targetMb] at hshrunk hsizes
    simp only [runtimeComputeLayoutSizing, F2fs.runtimeComputeLayoutSizing, hrequire, hmargin,
      hguard, hcomputed.rawZram, hcomputed.swapSize, hcomputed.rawSwap, hcomputed.reused, hshrunk, hsizes, pure_def, bind_eq_bind, bind_some,
      isSome_some]

/-! ## The budget is conserved -/

theorem computed_bounds (family : Family) (h : Fits64 settings machine) {swapMib : ℤ}
    (hcomputed : Computed settings machine efi swapMib swap zram) (part : Part) :
    0 ≤ family.configuredMb settings efi swap zram part ∧
      family.configuredMb settings efi swap zram part < 2 ^ 58 := by
  have husable := usable_eq h
  have hdisk := h.disk
  have hmax := h.rawZramMaxMb
  obtain ⟨-, hzramPositive, hzramMax⟩ := zram_spec h (by omega) hcomputed.rawZram
  obtain ⟨hswapPositive, hswapBound, -⟩ := mib_spec hcomputed.rawSwap
  exact configured_bounds h (efi_lt h hcomputed.reused) ⟨hswapPositive, hswapBound⟩
    ⟨hzramPositive, by omega⟩ part

/-- The low-space path on the configured sizes of a family. -/
theorem shrink_family (family : Family) (machine : Machine) (h : Fits64 settings machine) {configured : Sizes}
    (hbounds : ∀ part, 0 ≤ configured part ∧ configured part < 2 ^ 58) (usable : ℤ) :
    ∃ after, shrinkToBudget (newParts machine.dualbootEnabled family.parts)
        (family.shrinkOrder machine.dualbootEnabled)
        (floorMb settings family.minDefaultMb configured) usable configured = some after ∧
      FitsOrAtFloors (newParts machine.dualbootEnabled family.parts)
        (family.shrinkOrder machine.dualbootEnabled)
        (floorMb settings family.minDefaultMb configured) configured after usable := by
  have htotal := total_le_length (newParts machine.dualbootEnabled family.parts) configured
    fun part _ => (hbounds part).2.le
  have hlength := family.length_newParts machine.dualbootEnabled
  exact shrinkToBudget_spec (family.nodup_newParts _) (family.shrinkOrder_subset _)
    (fun part _ => (hbounds part).1) (by omega)
    (fun part _ => (floorMb_bounds family h (hbounds part)).1)
    (fun part _ => (floorMb_bounds family h (hbounds part)).2)

theorem shrunk_bounds (h : Fits64 settings machine) {configured : Sizes} {usable : ℤ}
    (hbounds : ∀ part, 0 ≤ configured part ∧ configured part < 2 ^ 58)
    (hshrunk : FitsOrAtFloors (newParts machine.dualbootEnabled family.parts)
      (family.shrinkOrder machine.dualbootEnabled)
      (floorMb settings family.minDefaultMb configured) configured shrunk usable) (part : Part) :
    0 ≤ shrunk part ∧ shrunk part ≤ configured part ∧
      family.floors settings machine.dualbootEnabled configured part ≤ shrunk part := by
  have hpart := hbounds part
  unfold floors
  split
  · rename_i hmem
    have hfloor := (floorMb_bounds family h hpart).1
    have hlow := hshrunk.floors part hmem
    have hhigh := hshrunk.ceilings part hmem
    omega
  · rename_i hmem
    rw [hshrunk.untouched part hmem]
    omega

theorem conserved_of_some (h : Fits64 settings machine) {swapMib : ℤ}
    (hcomputed : Computed settings machine efi swapMib swap zram)
    (hpositive : 0 < usableBudget settings machine)
    (hshrink : shrinkToBudget (newParts machine.dualbootEnabled family.parts)
      (family.shrinkOrder machine.dualbootEnabled)
      (floorMb settings family.minDefaultMb (family.configuredMb settings efi swap zram))
      (usableBudget settings machine) (family.configuredMb settings efi swap zram) = some shrunk)
    (hfill : fillToBudget (newParts machine.dualbootEnabled family.parts)
      (family.fillOrder shrunk) (fun part => family.targetMb settings part)
      (usableBudget settings machine) shrunk = some sizing.sizes)
    (husable : sizing.usableBudgetMb = usableBudget settings machine) :
    Conserved family settings machine (family.configuredMb settings efi swap zram) sizing := by
  have hbounds := computed_bounds family h hcomputed
  obtain ⟨after, hafter, hshrunk⟩ := shrink_family family machine h
    hbounds (usableBudget settings machine)
  obtain rfl : after = shrunk := Option.some.inj (hafter.symm.trans hshrink)
  have hafterBounds := shrunk_bounds h hbounds hshrunk
  have hbudget := usable_eq h
  have hdisk := h.disk
  have hlength := family.length_newParts machine.dualbootEnabled
  have htotal := total_le_length (newParts machine.dualbootEnabled family.parts) after
    fun part _ => by
      have := hafterBounds part
      have := hbounds part
      omega
  obtain ⟨-, hfilled⟩ := fillToBudget_spec (family.nodup_newParts _) (family.fillOrder_subset _ _)
    (family.root_mem _) (fun part _ => (hafterBounds part).1) (by omega) (by omega) hfill
  have huntouched : ∀ part, (part = .rawSwap ∨ part = .rawZram ∨
      (machine.dualbootEnabled ∧ part = .efi)) →
      sizing.sizes part = family.configuredMb settings efi swap zram part := by
    intro part hpart
    obtain ⟨hshrinkOrder, hfillOrder, hroot⟩ := family.untouched_parts _ after hpart
    rw [hfilled.untouched part hfillOrder hroot, hshrunk.untouched part hshrinkOrder]
  have hemitted : Storage.total (family.emittedParts machine.dualbootEnabled sizing.sizes)
      sizing.sizes = usableBudget settings machine := by
    rw [← hfilled.total]
    refine total_filter fun part _ hkeep => ?_
    have hgrown := hfilled.grown part
    have hnonneg := (hafterBounds part).1
    simp only [decide_eq_false_iff_not, not_or, not_lt] at hkeep
    omega
  refine ⟨by rw [husable, hbudget], by omega, by rw [hemitted, husable], by omega, ?_, ?_, ?_,
    huntouched _ (.inl rfl), huntouched _ (.inr (.inl rfl))⟩
  · intro part _
    exact le_trans (hafterBounds part).2.2 (hfilled.grown part)
  · intro part _ hroot
    exact le_trans (hfilled.ceilings part hroot) (max_le_max (hafterBounds part).2.1 le_rfl)
  · intro hdualboot
    refine ⟨huntouched _ (.inr (.inr ⟨hdualboot, rfl⟩)), fun hmem => ?_⟩
    rw [hdualboot] at hmem
    exact family.efi_not_mem_newParts (List.mem_filter.mp hmem).1

/-- With accepted settings every size that is computed first exists, unless the
swap size is out of range. -/
theorem exists_computed (h : Fits64 settings machine) (haccepted : Accepted family settings machine)
    (hpositive : 0 < usableBudget settings machine) :
    (∃ swapMib, runtimeComputeSwapPartitionMib settings (usableBudget settings machine)
        machine.ramTotalMib = some swapMib ∧ 2147483647 < swapMib) ∨
      ∃ efi swapMib swap zram, Computed settings machine efi swapMib swap zram := by
  have husable := usable_eq h
  have hdisk := h.disk
  obtain ⟨zram, hzram⟩ := zram_isSome h hpositive (by omega) haccepted.rawZramSize
    haccepted.rawZramDiskDivisor haccepted.rawZramBudgetDivisor haccepted.rawZramMax
    haccepted.rawZramMin haccepted.rawZramFloor
  obtain ⟨swapMib, hswapMib⟩ := swap_isSome h hpositive (by omega) haccepted.ram
    haccepted.rawSwapSize haccepted.swapMin haccepted.swapRamDivisor haccepted.swapLayoutDivisor
    haccepted.swapOrder
  have hram := h.ram
  obtain ⟨hlow, hhigh⟩ := swap_spec h (by omega) hswapMib
  have hmin := haccepted.swapMin
  by_cases hlarge : 2147483647 < swapMib
  · exact .inl ⟨swapMib, hswapMib, hlarge⟩
  obtain ⟨swap, hswap⟩ := mib_isSome swapMib (by omega) (by omega)
  obtain ⟨efi, hefi⟩ := isSome_iff_exists.mp haccepted.efi
  exact .inr ⟨efi, swapMib, swap, zram, hzram, hswapMib, hswap, hefi⟩

/-- A partition which is filled still has a positive size. -/
theorem fillOrder_positive (h : Fits64 settings machine)
    (haccepted : Accepted family settings machine) {usable : ℤ}
    (hbounds : ∀ part, 0 ≤ family.configuredMb settings efi swap zram part ∧
      family.configuredMb settings efi swap zram part < 2 ^ 58)
    (hshrunk : FitsOrAtFloors (newParts machine.dualbootEnabled family.parts)
      (family.shrinkOrder machine.dualbootEnabled)
      (floorMb settings family.minDefaultMb (family.configuredMb settings efi swap zram))
      (family.configuredMb settings efi swap zram) shrunk usable) :
    ∀ part ∈ family.fillOrder shrunk, 0 < shrunk part := by
  intro part hpart
  cases family with
  | btrfs =>
    obtain ⟨hsize, -, hmin⟩ := (haccepted.btrfs rfl).2 part hpart
    have hmem : part ∈ Btrfs.shrinkOrder machine.dualbootEnabled := by
      have hsub : Btrfs.fillOrder ⊆ Btrfs.shrinkOrder machine.dualbootEnabled := by
        cases machine.dualbootEnabled <;> decide
      exact hsub hpart
    have hfloor := hshrunk.floors part hmem
    have hconfigured : Btrfs.configuredMb settings efi swap zram part = settings.sizeMb part := by
      revert hpart
      cases part <;> simp [fillOrder, Btrfs.fillOrder, Btrfs.configuredMb]
    have hbound := hbounds part
    have hminBound := getD_lt _ (2 ^ 58) (minDefault_lt .btrfs part) (h.minMb part)
    simp only [floorMb, configuredMb, minDefaultMb] at hfloor hbound hminBound
    rw [runtimeMin_eq (by omega) (by omega)] at hfloor
    omega
  | f2fs =>
    simp only [fillOrder, F2fs.fillOrder] at hpart
    split at hpart
    · rename_i hhome
      obtain rfl : part = .home := by simpa using hpart
      exact hhome
    · simp at hpart

/-- For both families and every disk, RAM, preserved sizes and settings below
the 64-bit range: a sizing that ends conserves the budget, and one that fails
had a refused setting, no positive budget, a swap size out of range or floors
above the budget. -/
theorem sizing_conserves_budget (family : Family) (settings : SizeSettings) (machine : Machine)
    (h : Fits64 settings machine) :
    (∀ sizing, family.runtimeComputeLayoutSizing settings machine = some sizing →
      ∃ efi swapMib swap zram, Computed settings machine efi swapMib swap zram ∧
        sizing.swapSizeMib = swapMib ∧ settings.swapMinMib ≤ swapMib ∧
        swapMib ≤ settings.swapMaxMib ∧ rawZramFloorMb settings ≤ zram ∧
        zram ≤ settings.rawZramMaxMb ∧
        Conserved family settings machine (family.configuredMb settings efi swap zram) sizing) ∧
    (family.runtimeComputeLayoutSizing settings machine = none →
      ¬ Accepted family settings machine ∨
      (machine.diskTotalMb - preservedMb machine - settings.safetyMarginMb : ℤ) ≤ 0 ∨
      (∃ swapMib, runtimeComputeSwapPartitionMib settings
        (machine.diskTotalMb - preservedMb machine - settings.safetyMarginMb)
        machine.ramTotalMib = some swapMib ∧ 2147483647 < swapMib) ∨
      ∃ efi swapMib swap zram, Computed settings machine efi swapMib swap zram ∧
        (machine.diskTotalMb - preservedMb machine - settings.safetyMarginMb : ℤ) <
          Storage.total (newParts machine.dualbootEnabled family.parts)
            (family.floors settings machine.dualbootEnabled
              (family.configuredMb settings efi swap zram))) := by
  have hbudget := usable_eq h
  have hdisk := h.disk
  constructor
  · intro sizing hsizing
    obtain ⟨efi, swapMib, swap, zram, shrunk, hcomputed, hpositive, hshrink, hfill, husable,
      hswapMib⟩ := compute_eq_some hsizing
    have hram := h.ram
    obtain ⟨hswapLow, hswapHigh⟩ := swap_spec h (by omega) hcomputed.swapSize
    obtain ⟨hzramLow, -, hzramHigh⟩ := zram_spec h (by omega) hcomputed.rawZram
    exact ⟨efi, swapMib, swap, zram, hcomputed, hswapMib, hswapLow, hswapHigh, hzramLow, hzramHigh,
      conserved_of_some h hcomputed hpositive hshrink hfill husable⟩
  · intro hnone
    rw [← hbudget]
    by_cases haccepted : Accepted family settings machine
    · by_cases hpositive : usableBudget settings machine ≤ 0
      · exact Or.inr (Or.inl hpositive)
      refine Or.inr (Or.inr ?_)
      rcases exists_computed h haccepted (by omega) with hlarge | hexists
      · exact Or.inl hlarge
      obtain ⟨efi, swapMib, swap, zram, hcomputed⟩ := hexists
      refine Or.inr ⟨efi, swapMib, swap, zram, hcomputed, ?_⟩
      by_contra hover
      have hbounds := computed_bounds family h hcomputed
      obtain ⟨after, hafter, hshrunk⟩ := shrink_family family machine h
        hbounds (usableBudget settings machine)
      have hfits : Storage.total (newParts machine.dualbootEnabled family.parts) after ≤
          usableBudget settings machine := by
        rcases hshrunk.outcome with hle | hfloors
        · exact hle
        · have heq : Storage.total (newParts machine.dualbootEnabled family.parts) after =
              Storage.total (newParts machine.dualbootEnabled family.parts)
                (family.floors settings machine.dualbootEnabled
                  (family.configuredMb settings efi swap zram)) := by
            refine total_congr fun part _ => ?_
            unfold floors
            split
            · rename_i hmem
              exact hfloors part hmem
            · rename_i hmem
              exact hshrunk.untouched part hmem
          omega
      obtain ⟨sizes, hsizes⟩ := fillToBudget_isSome (family.nodup_newParts _)
        (family.fillOrder_subset _ after)
        (fun part _ => (shrunk_bounds h hbounds hshrunk part).1) hfits (by omega)
        (fun part => Int.natCast_nonneg (family.targetMb settings part))
        (fillOrder_positive h haccepted hbounds hshrunk)
      have hsome := compute_isSome h haccepted hcomputed (by omega) hafter hsizes
      rw [hnone] at hsome
      exact absurd hsome (by decide)
    · exact Or.inl haccepted

/-! ## Concrete sizings -/

/-- Small positive settings with a raw zram that may take the whole budget. -/
def zramHeavy : SizeSettings where
  sizeMb
    | .efi | .boot => 512
    | .root => 4096
    | .home | .opt | .data | .pool | .varTmp | .varLibShsigned | .varLogJournal => 1024
    | .rawSwap => 1024
    | .rawZram => 2048
  minMb _ := none
  targetMb _ := some 8192
  devPartMb _ := 1024
  safetyMarginMb := 100
  rawZramDiskDivisor := 1
  rawZramBudgetDivisor := 1
  rawZramMaxMb := 1000000
  swapMinMib := 512
  swapMaxMib := 1024
  swapRamDivisor := 2
  swapLayoutDivisor := 10
  secureBootStateLuks := false

/-- Usual divisors, and a data partition which may be shrunk to nothing. -/
def dataMayVanish : SizeSettings :=
  { zramHeavy with
    rawZramDiskDivisor := 100
    minMb := fun part => if part = .data then some 0 else none }

/-- Four partitions of `2 ^ 62` MB, whose sum wraps to nothing. -/
def wrappingSizes : SizeSettings :=
  { zramHeavy with
    rawZramDiskDivisor := 100
    sizeMb := fun part =>
      if part ∈ [Part.efi, .boot, .root, .home] then 2 ^ 62 else zramHeavy.sizeMb part }

/-- A whole disk without preserved partitions. -/
def emptyDisk (diskTotalMb : ℕ) : Machine where
  diskTotalMb := diskTotalMb
  ramTotalMib := 4096
  dualbootEnabled := false
  measuredMb := []
  efiSlot := 1

theorem zramHeavy_accepted : Accepted .f2fs zramHeavy (emptyDisk 20100) where
  safetyMargin := by decide
  rawZramSize := by decide
  rawZramDiskDivisor := by decide
  rawZramBudgetDivisor := by decide
  rawZramMax := by decide
  rawZramMin := by decide
  rawZramFloor := by decide
  ram := by decide
  rawSwapSize := by decide
  swapMin := by decide
  swapRamDivisor := by decide
  swapLayoutDivisor := by decide
  swapOrder := by decide
  efi := by decide
  btrfs h := by cases h
  f2fs _ := ⟨by decide, by decide⟩

/-- Three ways in which a sizing differs from plain floors and sums: raw zram is
not shrunk from its computed size to its floor, a Btrfs partition shrunk to
nothing cannot be filled, and sizes near `2 ^ 63` wrap. -/
theorem sizing_not_conserved :
    (Accepted .f2fs zramHeavy (emptyDisk 20100) ∧
      Storage.total (newParts false F2fs.parts) (Family.f2fs.floors zramHeavy false
        (F2fs.configuredMb zramHeavy 512 1074 (rawZramFloorMb zramHeavy))) ≤ 20000 ∧
      (F2fs.runtimeComputeLayoutSizing zramHeavy (emptyDisk 20100)).isNone) ∧
    (Storage.total (newParts false Btrfs.parts) (Family.btrfs.floors dataMayVanish false
        (Btrfs.configuredMb dataMayVanish 512 1074 2048)) ≤ 14386 ∧
      (Btrfs.runtimeComputeLayoutSizing dataMayVanish (emptyDisk 14486)).isNone ∧
      (Btrfs.runtimeComputeLayoutSizing dataMayVanish (emptyDisk 20100)).isSome) ∧
    (F2fs.runtimeComputeLayoutSizing wrappingSizes (emptyDisk 20100)).any fun sizing =>
      Storage.total (newParts false F2fs.parts) sizing.sizes ≠ sizing.usableBudgetMb := by
  refine ⟨⟨zramHeavy_accepted, by decide, by decide⟩,
    ⟨by decide, by decide, by decide⟩, by decide⟩

theorem dataMayVanish_fits64 : Fits64 dataMayVanish (emptyDisk 20100) where
  sizeMb part := by cases part <;> decide
  minMb part value h := by
    simp only [dataMayVanish, ite_none_right_eq_some, Option.some.injEq] at h
    omega
  targetMb part value h := by
    simp only [dataMayVanish, zramHeavy, Option.some.injEq] at h
    omega
  devPartMb part := by cases part <;> decide
  safetyMarginMb := by decide
  rawZramDiskDivisor := by decide
  rawZramBudgetDivisor := by decide
  rawZramMaxMb := by decide
  swapMinMib := by decide
  swapMaxMib := by decide
  swapRamDivisor := by decide
  swapLayoutDivisor := by decide
  disk := by decide
  ram := by decide
  measured := by decide

/-- On a disk with room to spare, the Btrfs sizing fills the budget exactly. -/
theorem sizing_fills_budget :
    ∃ sizing, Btrfs.runtimeComputeLayoutSizing dataMayVanish (emptyDisk 20100) = some sizing ∧
      Storage.total (Family.btrfs.emittedParts false sizing.sizes) sizing.sizes = 20000 := by
  obtain ⟨sizing, hsizing⟩ := Option.isSome_iff_exists.mp
    (show (Btrfs.runtimeComputeLayoutSizing dataMayVanish (emptyDisk 20100)).isSome by
      decide)
  obtain ⟨_, _, _, _, _, _, _, _, _, _, hconserved⟩ :=
    (sizing_conserves_budget .btrfs dataMayVanish (emptyDisk 20100) dataMayVanish_fits64).1
      sizing hsizing
  have hexact := hconserved.exact
  rw [hconserved.budget] at hexact
  exact ⟨sizing, hsizing, hexact⟩

end Family

end Preseed.Storage
