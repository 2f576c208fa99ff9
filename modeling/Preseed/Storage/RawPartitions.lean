import Preseed.Storage.Slots

/-!
# The raw swap and raw zram partitions

`scripts/late/zram-swap.sh` compares the raw partitions with the sizes of the
runtime environment, which the two families write. A fixed-size partition may
be off by two aligned MiB; the last partition takes the remaining extent and
has a tolerance which grows with the number of new partitions.
-/

namespace Preseed.Storage

/-- The variables of the runtime environment that the late stage reads for the
raw partitions; one that is not written is the empty text. -/
structure RuntimeEnv where
  dualbootEnabled : String
  rawZramSlot : String
  debianStartSlot : String
  debianEndSlot : String
  devPartRawSwap : String
  devPartRawZram : String
  devPartRawSwapMb : String
  devPartRawZramMb : String
  swapFallbackRawDevice : String
  zramBackingRawDevice : String

/-- `runtime_write_runtime_env` of one family, with the end slot as that family
writes it. -/
def runtimeEnvWith (settings : SlotSettings) (layout : SlotLayout) (swapMb zramMb endSlot : String) :
    RuntimeEnv where
  dualbootEnabled := if layout.dualbootEnabled then "true" else "false"
  rawZramSlot := layout.slot .rawZram
  debianStartSlot := layout.slot .boot
  debianEndSlot := endSlot
  devPartRawSwap := runtimePartitionPath settings (layout.slot .rawSwap)
  devPartRawZram := runtimePartitionPath settings (layout.slot .rawZram)
  devPartRawSwapMb := swapMb
  devPartRawZramMb := zramMb
  swapFallbackRawDevice := runtimePartitionPath settings (layout.slot .rawSwap)
  zramBackingRawDevice := runtimePartitionPath settings (layout.slot .rawZram)

def Btrfs.runtimeWriteRuntimeEnv (settings : SlotSettings) (layout : SlotLayout)
    (swapMb zramMb : String) : RuntimeEnv :=
  runtimeEnvWith settings layout swapMb zramMb (layout.slot .rawZram)

-- `f2fs.sh` has no `RUNTIME_DEBIAN_END_SLOT` at all.
def F2fs.runtimeWriteRuntimeEnv (settings : SlotSettings) (layout : SlotLayout)
    (swapMb zramMb : String) : RuntimeEnv :=
  runtimeEnvWith settings layout swapMb zramMb ""

/-! ## The late stage -/

/-- `case` pattern `''|*[!0-9]*|0*` does not match. -/
def isCanonicalPositive (value : String) : Bool :=
  isDecimal value && value.toList.head? != some '0'

def slotInRange (slot : String) : Bool :=
  isCanonicalPositive slot && decide (slot.length ≤ 3) && decide (testValue slot ≤ 128)

/-- The number of new partitions from the first Debian slot on, with the new
EFI system partition. -/
def newPartitionCount (startSlot endSlot dualbootEnabled : String) : Option ℕ :=
  let count := testValue endSlot - testValue startSlot + 1
  match dualbootEnabled with
  | "false" => some (count + 1)
  | "true" => some count
  | _ => none

def rawStoragePartitionAlignmentToleranceBytes (env : RuntimeEnv) (device : String) : Option ℕ :=
  if device = "" ∨ device ≠ env.devPartRawZram then some 2097152
  else do
    guard ([env.debianStartSlot, env.debianEndSlot, env.rawZramSlot].all slotInRange)
    guard (env.debianEndSlot = env.rawZramSlot)
    guard (testValue env.debianStartSlot ≤ testValue env.debianEndSlot)
    let count ← newPartitionCount env.debianStartSlot env.debianEndSlot env.dualbootEnabled
    guard (count ≤ 32)
    return (count + 2) * 1048576

/-- The two comparisons of an actual size with the configured one. -/
def withinTolerance (configuredMb actualBytes toleranceBytes : ℕ) : Bool :=
  decide (actualBytes ≤ configuredMb * 1000000 + toleranceBytes) &&
    decide ((configuredMb * 1000000 : ℤ) - actualBytes ≤ toleranceBytes)

/-- `actualBytes` is what `blockdev --getsize64` prints. -/
def rawStoragePartitionSizeIsAcceptable (env : RuntimeEnv) (configuredMb : String)
    (actualBytes : ℕ) (device : String) : Bool :=
  match rawStoragePartitionAlignmentToleranceBytes env device with
  | none => false
  | some tolerance =>
      isCanonicalPositive configuredMb && decide (testValue configuredMb ≤ 2147483647) &&
        decide ((Nat.digits 10 actualBytes).length ≤ 18) &&
        withinTolerance (testValue configuredMb) actualBytes tolerance

/-- The checks on the device path and the configured size before the block
device is measured. -/
def rawStorageRequestAccepted (device configuredMb : String) : Bool :=
  "/dev/".toList.isPrefixOf device.toList && isCanonicalPositive configuredMb &&
    decide (testValue configuredMb ≤ 2147483647)

/-- An existing block device of `actualBytes` bytes passes. -/
def validateRawStoragePartition (env : RuntimeEnv) (device configuredMb : String)
    (actualBytes : ℕ) : Bool :=
  rawStorageRequestAccepted device configuredMb &&
    decide ((Nat.digits 10 actualBytes).length ≤ 18) &&
    (rawStoragePartitionAlignmentToleranceBytes env device).isSome &&
    rawStoragePartitionSizeIsAcceptable env configuredMb actualBytes device

/-- Both raw partitions of an installed system pass. -/
def rawPartitionsAccepted (env : RuntimeEnv) (swapBytes zramBytes : ℕ) : Bool :=
  validateRawStoragePartition env env.swapFallbackRawDevice env.devPartRawSwapMb swapBytes &&
    validateRawStoragePartition env env.zramBackingRawDevice env.devPartRawZramMb zramBytes

/-! ## Rules for the late stage -/

/-- The signed difference of an actual size from the recipe size, in bytes. -/
def deviation (configuredMb actualBytes : ℕ) : ℤ := actualBytes - configuredMb * 1000000

theorem withinTolerance_iff {configuredMb actualBytes toleranceBytes : ℕ} :
    withinTolerance configuredMb actualBytes toleranceBytes ↔
      |deviation configuredMb actualBytes| ≤ toleranceBytes := by
  simp only [withinTolerance, deviation, Bool.and_eq_true, decide_eq_true_eq, abs_le]
  omega

theorem digits_length_iff {actualBytes : ℕ} :
    (Nat.digits 10 actualBytes).length ≤ 18 ↔ actualBytes < 10 ^ 18 :=
  Nat.digits_length_le_iff (by norm_num) _

/-- What an accepted raw partition satisfies, given the tolerance of its device. -/
theorem validateRawStoragePartition_iff {env : RuntimeEnv} {device configuredMb : String}
    {actualBytes : ℕ} :
    validateRawStoragePartition env device configuredMb actualBytes ↔
      rawStorageRequestAccepted device configuredMb ∧ actualBytes < 10 ^ 18 ∧
        ∃ tolerance, rawStoragePartitionAlignmentToleranceBytes env device = some tolerance ∧
          |deviation (testValue configuredMb) actualBytes| ≤ tolerance := by
  unfold validateRawStoragePartition rawStoragePartitionSizeIsAcceptable
  cases htolerance : rawStoragePartitionAlignmentToleranceBytes env device with
  | none => simp
  | some tolerance =>
    simp only [Bool.and_eq_true, decide_eq_true_eq, Option.isSome_some, withinTolerance_iff,
      digits_length_iff, Option.some.injEq, exists_eq_left', rawStorageRequestAccepted]
    tauto

end Preseed.Storage
