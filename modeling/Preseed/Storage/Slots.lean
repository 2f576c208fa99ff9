import Mathlib

/-!
# Partition slots

`scripts/runtime/btrfs.sh` and `scripts/runtime/f2fs.sh` give each partition of
the layout a slot, a shell text of decimal digits. A test such as `-ge` reads
the text as a decimal number, an arithmetic expansion reads a leading zero as
octal, and both work on 64-bit numbers. A fatal error of the scripts is `none`.
-/

namespace Preseed.Storage

/-- The partitions of the two recipe families. -/
inductive Part
  | efi | boot | root | home | opt | data | pool | varTmp | varLibShsigned | varLogJournal
  | rawSwap | rawZram
  deriving DecidableEq

/-- The two recipe families. -/
inductive Family
  | btrfs | f2fs
  deriving DecidableEq

/-! ## Numbers in the shell -/

/-- `case` pattern `''|*[!0-9]*` does not match. -/
def isDecimal (value : String) : Bool :=
  !value.toList.isEmpty && value.toList.all Char.isDigit

/-- Digits read in a given base. -/
def digitsValue (base : ℕ) (digits : List Char) : ℕ :=
  digits.foldl (fun number digit => base * number + (digit.toNat - '0'.toNat)) 0

/-- The number which `[` reads from a text of digits. -/
def testValue (value : String) : ℕ := digitsValue 10 value.toList

/-- `[` refuses an integer operand that does not fit 64 bits. -/
def isTestOperand (value : String) : Bool :=
  isDecimal value && decide (testValue value < 2 ^ 63)

/-- `[ left -ge right ]`, false also when an operand is refused. -/
def testGe (left right : String) : Bool :=
  isTestOperand left && isTestOperand right && decide (testValue right ≤ testValue left)

/-- 64-bit two's complement, as shell arithmetic wraps. -/
def wrap64 (number : ℤ) : ℤ := number.bmod (2 ^ 64)

/-- The number which an arithmetic expansion reads from a variable's digits. -/
def arithmeticValue (value : String) : Option ℕ :=
  match value.toList with
  | '0' :: digit :: digits =>
      if (digit :: digits).all (· < '8') then some (digitsValue 8 (digit :: digits)) else none
  | digits => some (digitsValue 10 digits)

/-- `$((value + increment))`. -/
def arithmeticAdd (value : String) (increment : ℕ) : Option String :=
  (arithmeticValue value).map fun (number : ℕ) => Int.repr (wrap64 (number + increment))

def runtimeRequireInteger (value : String) : Option Unit := guard (isDecimal value)

def runtimeRequirePositiveInteger (value : String) : Option Unit :=
  guard (isTestOperand value && decide (0 < testValue value))

/-! ## The settings of a layout -/

/-- The environment and the kernel command line as the slot assignment reads
them; an unset variable is the empty text. -/
structure SlotSettings where
  devPartPrefix : String
  /-- `DEFAULT_*_SLOT`. -/
  defaultSlot : Part → String
  /-- `DEV_PART_*` before the assignment. -/
  devPart : Part → String
  /-- `DEV_PART_*_MB` before the assignment. -/
  devPartMb : Part → String
  dualbootClassSelected : Bool
  dualbootEfi : String
  dualbootDebian : String
  /-- `F2FS_LAYOUT_VARIANT` is `desktop`. -/
  desktopVariant : Bool
  qemuClassSelected : Bool
  qemuPoolMb : String
  /-- `SIZE_PART_QEMU_POOL_MIN_MB`. -/
  qemuPoolMinMb : String
  secureBootStateLuks : Bool

/-- The variables which the assignment sets. -/
structure SlotLayout where
  dualbootEnabled : Bool
  /-- `RUNTIME_*_SLOT`, empty for a partition that the layout does not have. -/
  slot : Part → String

/-- `runtime_partition_path`. -/
def runtimePartitionPath (settings : SlotSettings) (slot : String) : String :=
  settings.devPartPrefix ++ slot

/-- The slot which a device path names after the partition prefix. -/
def runtimePartitionSlotFromPath (settings : SlotSettings) (path : String) : Option String := do
  guard (settings.devPartPrefix.toList.isPrefixOf path.toList)
  let slot := String.ofList (path.toList.drop settings.devPartPrefix.toList.length)
  guard (isDecimal slot)
  guard (slot ≠ "0")
  return slot

/-- One fatal comparison for each neighbouring pair of slots. -/
def strictlyIncreasing : List String → Bool
  | left :: right :: slots => !testGe left right && strictlyIncreasing (right :: slots)
  | _ => true

/-- The kernel command line of a layout without the dual-boot class names no slots. -/
def noDualbootArguments (settings : SlotSettings) : Bool :=
  settings.dualbootEfi == "" && settings.dualbootDebian == ""

def dualbootArgumentsAccepted (settings : SlotSettings) : Option Unit := do
  runtimeRequirePositiveInteger settings.dualbootEfi
  runtimeRequirePositiveInteger settings.dualbootDebian
  guard (!testGe settings.dualbootEfi settings.dualbootDebian)

/-! ## Btrfs -/

namespace Btrfs

/-- The partitions from the EFI system partition through raw zram. -/
def parts : List Part :=
  [.efi, .boot, .root, .home, .opt, .data, .pool, .varTmp, .varLibShsigned, .varLogJournal,
    .rawSwap, .rawZram]

/-- `DEFAULT_*_SLOT`, or the slot of the configured path. -/
def defaultSlotOrPath (settings : SlotSettings) (part : Part) : Option String :=
  if settings.defaultSlot part ≠ "" then do
    runtimeRequirePositiveInteger (settings.defaultSlot part)
    return settings.defaultSlot part
  else runtimePartitionSlotFromPath settings (settings.devPart part)

def runtimeLoadDefaultSlotsFromEnv (settings : SlotSettings) : Option (List String) := do
  let slots ← parts.mapM (defaultSlotOrPath settings)
  guard (strictlyIncreasing slots)
  return slots

def slotOf (slots : List String) (part : Part) : String := slots.getD (parts.idxOf part) ""

def runtimeAssignDefaultSlots (slots : List String) : SlotLayout where
  dualbootEnabled := false
  slot := slotOf slots

/-- Slots above the first Debian one are counted from it. -/
def runtimeAssignDualbootSlots (settings : SlotSettings) : Option SlotLayout := do
  dualbootArgumentsAccepted settings
  let following ← (List.range' 1 10).mapM (arithmeticAdd settings.dualbootDebian)
  return { dualbootEnabled := true
           slot := slotOf (settings.dualbootEfi :: settings.dualbootDebian :: following) }

def runtimeApplyLayoutFromCmdline (settings : SlotSettings) : Option SlotLayout := do
  parts.forM fun part => runtimeRequirePositiveInteger (settings.devPartMb part)
  let slots ← runtimeLoadDefaultSlotsFromEnv settings
  if settings.dualbootClassSelected then
    guard (settings.dualbootEfi ≠ "")
    guard (settings.dualbootDebian ≠ "")
    runtimeAssignDualbootSlots settings
  else
    guard (noDualbootArguments settings)
    return runtimeAssignDefaultSlots slots

end Btrfs

/-! ## F2FS -/

namespace F2fs

/-- `F2FS_QEMU_POOL_ENABLED`. -/
def runtimeConfigureQemuPool (settings : SlotSettings) : Option Bool :=
  if settings.qemuClassSelected then do
    guard settings.desktopVariant
    let minimum := if settings.qemuPoolMinMb = "" then settings.qemuPoolMb else settings.qemuPoolMinMb
    runtimeRequirePositiveInteger settings.qemuPoolMb
    runtimeRequirePositiveInteger minimum
    guard (testGe settings.qemuPoolMb minimum)
    return true
  else return false

def runtimeRequiredSlotFromEnv (settings : SlotSettings) (part : Part) : Option String := do
  runtimeRequirePositiveInteger (settings.defaultSlot part)
  return settings.defaultSlot part

def runtimeOptionalSlotFromEnv (settings : SlotSettings) (part : Part) : Option String :=
  if settings.defaultSlot part = "" then return ""
  else runtimeRequiredSlotFromEnv settings part

/-- Give `part` the slot of the journal and move the journal, raw swap and raw
zram up by one. -/
def insertBeforeJournal (layout : SlotLayout) (part : Part) : Option SlotLayout := do
  let journal ← arithmeticAdd (layout.slot .varLogJournal) 1
  let swap ← arithmeticAdd (layout.slot .rawSwap) 1
  let zram ← arithmeticAdd (layout.slot .rawZram) 1
  return { layout with
    slot := fun other =>
      if other = part then layout.slot .varLogJournal
      else match other with
        | .varLogJournal => journal
        | .rawSwap => swap
        | .rawZram => zram
        | other => layout.slot other }

def runtimeAssignDefaultSlots (settings : SlotSettings) (qemuPool : Bool) : Option SlotLayout := do
  let efi ← runtimeRequiredSlotFromEnv settings .efi
  let boot ← runtimeRequiredSlotFromEnv settings .boot
  let root ← runtimeRequiredSlotFromEnv settings .root
  let home ← runtimeOptionalSlotFromEnv settings .home
  let pool ← runtimeOptionalSlotFromEnv settings .pool
  let journal ← runtimeRequiredSlotFromEnv settings .varLogJournal
  let swap ← runtimeRequiredSlotFromEnv settings .rawSwap
  let zram ← runtimeRequiredSlotFromEnv settings .rawZram
  let layout : SlotLayout :=
    { dualbootEnabled := false
      slot := fun
        | .efi => efi | .boot => boot | .root => root | .home => home | .pool => pool
        | .varLogJournal => journal | .rawSwap => swap | .rawZram => zram
        | _ => "" }
  if qemuPool && pool == "" then insertBeforeJournal layout .pool else return layout

/-- The slot of an optional partition at the next number, and the number after it. -/
def takeOptionalSlot (wanted : Bool) (next : String) : Option (String × String) :=
  if wanted then do
    let following ← arithmeticAdd next 1
    return (next, following)
  else return ("", next)

def runtimeAssignDualbootSlots (settings : SlotSettings) : Option SlotLayout := do
  dualbootArgumentsAccepted settings
  let boot := settings.dualbootDebian
  let root ← arithmeticAdd boot 1
  let next ← arithmeticAdd root 1
  let (home, next) ← takeOptionalSlot (settings.defaultSlot .home ≠ "") next
  let (pool, journal) ← takeOptionalSlot (settings.defaultSlot .pool ≠ "") next
  let swap ← arithmeticAdd journal 1
  let zram ← arithmeticAdd swap 1
  let layout : SlotLayout :=
    { dualbootEnabled := true
      slot := fun
        | .efi => settings.dualbootEfi | .boot => boot | .root => root | .home => home
        | .pool => pool | .varLogJournal => journal | .rawSwap => swap | .rawZram => zram
        | _ => "" }
  if settings.secureBootStateLuks then insertBeforeJournal layout .varLibShsigned
  else return layout

/-- The order in which the slots have to increase. -/
def parts : List Part :=
  [.efi, .boot, .root, .home, .pool, .varLibShsigned, .varLogJournal, .rawSwap, .rawZram]

def validateFrom (previous : ℕ) : List String → Option Unit
  | [] => return ()
  | slot :: slots => do
      runtimeRequirePositiveInteger slot
      guard (previous < testValue slot)
      validateFrom (testValue slot) slots

def runtimeValidateLayoutSlots (layout : SlotLayout) : Option Unit :=
  validateFrom 0 ((parts.map layout.slot).filter (· ≠ ""))

def runtimeApplyLayoutFromCmdline (settings : SlotSettings) : Option SlotLayout := do
  let qemuPool ← runtimeConfigureQemuPool settings
  let assigned ←
    if settings.dualbootClassSelected then do
      guard settings.desktopVariant
      guard (settings.dualbootEfi ≠ "")
      guard (settings.dualbootDebian ≠ "")
      runtimeAssignDualbootSlots settings
    else do
      guard (noDualbootArguments settings)
      runtimeAssignDefaultSlots settings qemuPool
  let layout ←
    if settings.secureBootStateLuks && assigned.slot .varLibShsigned == "" then
      insertBeforeJournal assigned .varLibShsigned
    else pure assigned
  runtimeValidateLayoutSlots layout
  return layout

end F2fs

/-! ## Two slots with different numbers -/

theorem wrap64_succ_ne (number : ℤ) : wrap64 (number + 1) ≠ wrap64 number := by
  unfold wrap64
  intro h
  have hleft := Int.bmod_emod (x := number + 1) (m := 2 ^ 64)
  have hright := Int.bmod_emod (x := number) (m := 2 ^ 64)
  rw [h] at hleft
  omega

/-- The texts of two counted slots next to each other differ. -/
theorem arithmeticAdd_succ_ne {value left right : String} {increment : ℕ}
    (hleft : arithmeticAdd value increment = some left)
    (hright : arithmeticAdd value (increment + 1) = some right) : left ≠ right := by
  intro h
  subst h
  obtain ⟨number, hnumber, rfl⟩ := Option.map_eq_some_iff.mp hleft
  obtain ⟨other, hother, hrepr⟩ := Option.map_eq_some_iff.mp hright
  obtain rfl : number = other := Option.some.inj (hnumber.symm.trans hother)
  have hwrap := Int.repr_injective hrepr
  rw [Int.natCast_add, ← Int.add_assoc] at hwrap
  exact wrap64_succ_ne _ hwrap

/-- A slot which `[` can read is not followed by itself. -/
theorem testGe_self {slot : String} (h : isTestOperand slot) : testGe slot slot := by
  simp [testGe, h]

end Preseed.Storage
