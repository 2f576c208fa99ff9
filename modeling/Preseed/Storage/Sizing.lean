import Preseed.Storage.Slots

/-!
# Partition sizes

`runtime_compute_layout_sizing` of both families: the budget is what the disk
leaves after the preserved partitions and the safety margin. If the configured
sizes exceed it, partitions are shrunk to their floors in a fixed order; what
is left over is filled up to the targets, and root takes the rest. Recipe sizes
are decimal MB, RAM and swap are MiB.
-/

namespace Preseed.Storage

abbrev Sizes := Part → ℤ

/-- The settings which the sizing reads, in canonical decimal. A required setting
that is unset is 0 and fails its check for a positive number. -/
structure SizeSettings where
  /-- `SIZE_PART_*_MB`. -/
  sizeMb : Part → ℕ
  /-- `SIZE_PART_*_MIN_MB`. -/
  minMb : Part → Option ℕ
  /-- `SIZE_PART_*_TARGET_MB`. -/
  targetMb : Part → Option ℕ
  /-- `DEV_PART_*_MB` before the sizing. -/
  devPartMb : Part → ℕ
  safetyMarginMb : ℕ
  rawZramDiskDivisor : ℕ
  rawZramBudgetDivisor : ℕ
  rawZramMaxMb : ℕ
  swapMinMib : ℕ
  swapMaxMib : ℕ
  swapRamDivisor : ℕ
  swapLayoutDivisor : ℕ
  /-- `runtime_secure_boot_state_uses_luks`. -/
  secureBootStateLuks : Bool

/-- The machine: disk, RAM and, on a dual-boot disk, the measured sizes of the
slots before the first Debian one. -/
structure Machine where
  diskTotalMb : ℕ
  ramTotalMib : ℕ
  dualbootEnabled : Bool
  measuredMb : List ℕ
  efiSlot : ℕ

/-- The variables which the sizing sets. -/
structure LayoutSizing where
  /-- `DEV_PART_*_MB`. -/
  sizes : Sizes
  swapSizeMib : ℤ
  usableBudgetMb : ℤ
  baseLayoutMb : ℤ
  preservedTotalMb : ℤ

/-! ## Checked numbers -/

def requirePositive (value : ℤ) : Option Unit := guard (0 < value ∧ value < 2 ^ 63)

def requireNonnegative (value : ℤ) : Option Unit := guard (0 ≤ value ∧ value < 2 ^ 63)

/-- `[ left -le right ]` on numbers. -/
def testLe (left right : ℤ) : Bool :=
  decide (left < 2 ^ 63) && decide (right < 2 ^ 63) && decide (left ≤ right)

def runtimeMin (left right : ℤ) : ℤ := if testLe left right then left else right

def runtimeClamp (value low high : ℤ) : Option ℤ := do
  guard (testLe low high)
  return if testLe low value then (if testLe value high then value else high) else low

/-! ## Filling and shrinking one partition -/

/-- The new size and the rest of the budget. -/
def runtimeFillPartitionToTarget (current target budget : ℤ) : Option (ℤ × ℤ) := do
  requirePositive current
  guard (0 ≤ target)
  guard (0 ≤ budget)
  if budget ≤ 0 ∨ target ≤ current then return (current, budget)
  else
    let needed := target - current
    if needed ≤ budget then return (target, budget - needed)
    else return (current + budget, 0)

/-- The new size and the rest of the overflow. -/
def runtimeShrinkPartitionToFloor (current floor overflow : ℤ) : Option (ℤ × ℤ) := do
  requireNonnegative current
  requireNonnegative floor
  guard (0 ≤ overflow)
  guard (floor ≤ current)
  if overflow ≤ 0 ∨ current ≤ floor then return (current, overflow)
  else
    let shrinkable := current - floor
    if overflow ≤ shrinkable then return (current - overflow, 0)
    else return (floor, overflow - shrinkable)

/-- `runtime_apply_fill_result` stores both halves of a result. -/
def fillPart (target : Sizes) (state : Sizes × ℤ) (part : Part) : Option (Sizes × ℤ) := do
  let (size, budget) ← runtimeFillPartitionToTarget (state.1 part) (target part) state.2
  return (Function.update state.1 part size, budget)

def shrinkPart (floor : Sizes) (state : Sizes × ℤ) (part : Part) : Option (Sizes × ℤ) := do
  let (size, overflow) ← runtimeShrinkPartitionToFloor (state.1 part) (floor part) state.2
  return (Function.update state.1 part size, overflow)

/-! ## Raw zram and raw swap -/

def rawZramFloorMb (settings : SizeSettings) : ℤ :=
  runtimeMin (settings.sizeMb .rawZram) ((settings.minMb .rawZram).getD 2048)

/-- Both callers pass the budget also as the relevant span. -/
def runtimeComputeRawZramPartitionMb (settings : SizeSettings) (budget span : ℤ) : Option ℤ := do
  requirePositive budget
  requirePositive span
  requirePositive (settings.sizeMb .rawZram)
  requirePositive settings.rawZramDiskDivisor
  requirePositive settings.rawZramBudgetDivisor
  requirePositive settings.rawZramMaxMb
  requirePositive ((settings.minMb .rawZram).getD 2048)
  guard (testLe (rawZramFloorMb settings) settings.rawZramMaxMb)
  let target ← runtimeClamp (span / settings.rawZramDiskDivisor) (rawZramFloorMb settings)
    settings.rawZramMaxMb
  let cap := max (budget / settings.rawZramBudgetDivisor) (rawZramFloorMb settings)
  return runtimeMin target cap

def runtimeComputeSwapPartitionMib (settings : SizeSettings) (budget ramMib : ℤ) : Option ℤ := do
  requirePositive budget
  requirePositive ramMib
  requirePositive (settings.sizeMb .rawSwap)
  requirePositive settings.swapMinMib
  requirePositive settings.swapMaxMib
  requirePositive settings.swapRamDivisor
  requirePositive settings.swapLayoutDivisor
  guard (testLe settings.swapMinMib settings.swapMaxMib)
  let target ← runtimeClamp (ramMib / settings.swapRamDivisor) settings.swapMinMib
    settings.swapMaxMib
  -- the product can leave 64 bits, and shell division truncates
  let cap := ((wrap64 (budget * 1000000)).tdiv 1048576).tdiv settings.swapLayoutDivisor
  return runtimeMin target (max cap settings.swapMinMib)

/-- A swap size in MiB as recipe MB, rounded up. -/
def runtimeMibToRecipeMb (sizeMib : ℤ) : Option ℤ := do
  requirePositive sizeMib
  guard (sizeMib ≤ 2147483647)
  return (sizeMib * 1048576 + 999999) / 1000000

/-! ## The common course of the sizing -/

/-- `runtime_sum_preserved_partition_sizes_mb`. -/
def runtimeSumPreservedPartitionSizesMb (machine : Machine) : ℤ :=
  if machine.dualbootEnabled then
    machine.measuredMb.foldl (fun (total : ℤ) (size : ℕ) => wrap64 (total + size)) 0
  else 0

def usableBudget (settings : SizeSettings) (machine : Machine) : ℤ :=
  wrap64 (machine.diskTotalMb - runtimeSumPreservedPartitionSizesMb machine -
    settings.safetyMarginMb)

/-- `runtime_get_partition_size_mb RUNTIME_EFI_SLOT`. -/
def measuredEfiMb (machine : Machine) : Option ℕ := machine.measuredMb[machine.efiSlot - 1]?

/-- `DEV_PART_EFI_MB`: measured for a reused partition, configured for a new one. -/
def efiMb (settings : SizeSettings) (machine : Machine) : Option ℕ :=
  if machine.dualbootEnabled then measuredEfiMb machine else some (settings.sizeMb .efi)

/-- The sum of the new partitions; a reused EFI partition is not among them. -/
def baseTotal (parts : List Part) (sizes : Sizes) : ℤ := wrap64 (parts.map sizes).sum

/-- Without the EFI partition when it is reused. -/
def newParts (dualboot : Bool) (parts : List Part) : List Part :=
  if dualboot then parts.filter (· ≠ .efi) else parts

/-- The low-space path: the new partitions are shrunk in the order given. -/
def shrinkToBudget (parts order : List Part) (floor : Sizes) (usable : ℤ) (initial : Sizes) :
    Option Sizes :=
  if usable < baseTotal parts initial then do
    let (sizes, _) ← order.foldlM (shrinkPart floor) (initial, baseTotal parts initial - usable)
    return sizes
  else return initial

/-- Fill to the targets in the order given and leave the rest to root. -/
def fillToBudget (parts order : List Part) (target : Sizes) (usable : ℤ) (sizes : Sizes) :
    Option Sizes := do
  guard (baseTotal parts sizes ≤ usable)
  let (sizes, elastic) ← order.foldlM (fillPart target) (sizes, wrap64 (usable - baseTotal parts sizes))
  return Function.update sizes .root (wrap64 (sizes .root + elastic))

/-- `min(size, SIZE_PART_*_MIN_MB)`, for a partition which the low-space path shrinks. -/
def floorMb (settings : SizeSettings) (minDefault : Part → ℕ) (initial : Sizes) : Sizes :=
  fun part => runtimeMin (initial part) ((settings.minMb part).getD (minDefault part))

/-! ## Btrfs -/

namespace Btrfs

def runtimeValidatePartitionSizes (settings : SizeSettings) : Option Unit :=
  parts.forM fun part => requirePositive (settings.devPartMb part)

def shrinkOrder (dualboot : Bool) : List Part :=
  newParts dualboot
    [.pool, .data, .home, .opt, .varTmp, .varLogJournal, .efi, .boot, .root]

def fillOrder : List Part := [.root, .home, .opt, .varTmp, .data, .pool]

/-- The minimum of a partition when its setting is unset. -/
def minDefaultMb : Part → ℕ
  | .pool | .data | .home => 1024
  | .opt | .varTmp | .boot => 512
  | .varLogJournal | .efi => 256
  | .root => 4096
  | _ => 0

/-- `SIZE_PART_*_TARGET_MB`, for the pool by default its size. -/
def targetMb (settings : SizeSettings) (part : Part) : ℕ :=
  match part with
  | .pool => (settings.targetMb .pool).getD (settings.sizeMb .pool)
  | part => (settings.targetMb part).getD 0

/-- The sizes before shrinking and filling. -/
def configuredMb (settings : SizeSettings) (efi : ℕ) (swap zram : ℤ) : Sizes
  | .efi => efi
  | .rawSwap => swap
  | .rawZram => zram
  | part => settings.sizeMb part

def runtimeComputeLayoutSizing (settings : SizeSettings) (machine : Machine) :
    Option LayoutSizing := do
  runtimeValidatePartitionSizes settings
  requirePositive settings.safetyMarginMb
  let usable := usableBudget settings machine
  guard (0 < usable)
  fillOrder.forM fun part => requirePositive (targetMb settings part)
  let zram ← runtimeComputeRawZramPartitionMb settings usable usable
  let swapMib ← runtimeComputeSwapPartitionMib settings usable machine.ramTotalMib
  let swap ← runtimeMibToRecipeMb swapMib
  let efi ← efiMb settings machine
  let configured := configuredMb settings efi swap zram
  fillOrder.forM fun part => guard (testLe (configured part) (targetMb settings part))
  let created := newParts machine.dualbootEnabled parts
  let shrunk ← shrinkToBudget created (shrinkOrder machine.dualbootEnabled)
    (floorMb settings minDefaultMb configured) usable configured
  let sizes ← fillToBudget created fillOrder (fun part => targetMb settings part) usable shrunk
  return { sizes := sizes
           swapSizeMib := swapMib
           usableBudgetMb := usable
           baseLayoutMb := baseTotal created shrunk
           preservedTotalMb := runtimeSumPreservedPartitionSizesMb machine }

end Btrfs

/-! ## F2FS -/

namespace F2fs

def shrinkOrder (dualboot : Bool) : List Part :=
  newParts dualboot [.pool, .home, .varLogJournal, .efi, .boot, .root]

/-- Only an existing home partition is filled. -/
def fillOrder (sizes : Sizes) : List Part := if 0 < sizes .home then [.home] else []

def minDefaultMb : Part → ℕ
  | .varLogJournal | .efi => 256
  | .boot => 512
  | .root => 4096
  | _ => 0

def targetMb (settings : SizeSettings) (part : Part) : ℕ := (settings.targetMb part).getD 0

/-- The Secure Boot state partition exists only in LUKS mode. -/
def configuredMb (settings : SizeSettings) (efi : ℕ) (swap zram : ℤ) : Sizes
  | .efi => efi
  | .rawSwap => swap
  | .rawZram => zram
  | .varLibShsigned => if settings.secureBootStateLuks then settings.sizeMb .varLibShsigned else 0
  | part => settings.sizeMb part

/-- The checks of the configured sizes. -/
def requireSizes (settings : SizeSettings) : Option Unit := do
  [Part.efi, .boot, .root, .varLogJournal, .rawSwap, .rawZram].forM fun part =>
    requirePositive (settings.sizeMb part)
  [Part.home, .pool, .varLibShsigned].forM fun part => requireNonnegative (settings.sizeMb part)
  requireNonnegative (targetMb settings .home)
  if settings.secureBootStateLuks then requirePositive (settings.sizeMb .varLibShsigned)

def runtimeComputeLayoutSizing (settings : SizeSettings) (machine : Machine) :
    Option LayoutSizing := do
  requirePositive settings.safetyMarginMb
  let usable := usableBudget settings machine
  guard (0 < usable)
  requireSizes settings
  let zram ← runtimeComputeRawZramPartitionMb settings usable usable
  let swapMib ← runtimeComputeSwapPartitionMib settings usable machine.ramTotalMib
  let swap ← runtimeMibToRecipeMb swapMib
  let efi ← efiMb settings machine
  let configured := configuredMb settings efi swap zram
  let created := newParts machine.dualbootEnabled parts
  let shrunk ← shrinkToBudget created (shrinkOrder machine.dualbootEnabled)
    (floorMb settings minDefaultMb configured) usable configured
  let sizes ← fillToBudget created (fillOrder shrunk) (fun part => targetMb settings part) usable
    shrunk
  return { sizes := sizes
           swapSizeMib := swapMib
           usableBudgetMb := usable
           baseLayoutMb := baseTotal created shrunk
           preservedTotalMb := runtimeSumPreservedPartitionSizesMb machine }

end F2fs

end Preseed.Storage
