import Preseed.Storage.RawPartitions

/-!
# The tail of the partition table

Every new partition before raw zram is off by at most two aligned MiB, and raw
zram takes what the others leave. The late stage accepts such a table for a
Btrfs layout whose accumulated deviation stays in the tail's tolerance. For an
F2FS layout it accepts none, since the end slot is missing.
-/

namespace Preseed.Storage

open Option

namespace Family

def applyLayout : Family → SlotSettings → Option SlotLayout
  | btrfs => Btrfs.runtimeApplyLayoutFromCmdline
  | f2fs => F2fs.runtimeApplyLayoutFromCmdline

def writeEnv : Family → SlotSettings → SlotLayout → String → String → RuntimeEnv
  | btrfs => Btrfs.runtimeWriteRuntimeEnv
  | f2fs => F2fs.runtimeWriteRuntimeEnv

end Family

/-! ## Swap and zram have different paths -/

theorem mapM_getElem? {α β : Type} {f : α → Option β} {items : List α} {results : List β}
    (h : items.mapM f = some results) (i : ℕ) : items[i]?.bind f = results[i]? := by
  induction items generalizing results i with
  | nil =>
    obtain rfl : results = [] := by simpa using h.symm
    simp
  | cons item items ih =>
    simp only [List.mapM_cons, bind_eq_bind, bind_eq_some_iff] at h
    obtain ⟨result, hresult, rest, hrest, hresults⟩ := h
    obtain rfl : result :: rest = results := by simpa using hresults
    cases i with
    | zero => simpa using hresult
    | succ i => simpa using ih hrest i

theorem not_testGe_of_strictlyIncreasing {slots : List String} (h : strictlyIncreasing slots)
    {i : ℕ} {left right : String} (hleft : slots[i]? = some left)
    (hright : slots[i + 1]? = some right) : testGe left right = false := by
  induction slots generalizing i with
  | nil => simp at hleft
  | cons first slots ih =>
    cases slots with
    | nil => simp at hright
    | cons second slots =>
      simp only [strictlyIncreasing, Bool.and_eq_true, Bool.not_eq_true'] at h
      cases i with
      | zero =>
        simp only [List.getElem?_cons_zero, Option.some.injEq] at hleft
        simp only [List.getElem?_cons_succ, List.getElem?_cons_zero, Option.some.injEq] at hright
        subst hleft hright
        exact h.1
      | succ i => exact ih h.2 (by simpa using hleft) (by simpa using hright)

theorem isTestOperand_of_slotInRange {slot : String} (h : slotInRange slot) :
    isTestOperand slot := by
  simp only [slotInRange, isCanonicalPositive, Bool.and_eq_true, decide_eq_true_eq] at h
  have hdecimal := h.1.1.1
  have hbound : testValue slot < 2 ^ 63 := by omega
  simp only [isTestOperand, hdecimal, hbound, decide_true, Bool.and_self]

theorem not_slotInRange_empty : slotInRange "" = false := by decide

namespace Btrfs

/-- A slot which the assignment gives to `part`, by its position. -/
theorem getElem?_of_slotOf {slots : List String} (part : Part) {i : ℕ} (hi : parts.idxOf part = i)
    (h : slotOf slots part ≠ "") : slots[i]? = some (slotOf slots part) := by
  subst hi
  unfold slotOf at h ⊢
  rw [List.getD_eq_getElem?_getD] at h ⊢
  cases hslot : slots[parts.idxOf part]? with
  | none => simp [hslot] at h
  | some slot => rfl

theorem rawSwap_ne_of_increasing {slots : List String} (h : strictlyIncreasing slots)
    (hzram : slotInRange (slotOf slots .rawZram)) :
    slotOf slots .rawSwap ≠ slotOf slots .rawZram := by
  intro heq
  have hne : slotOf slots .rawZram ≠ "" := by
    intro hempty
    rw [hempty, not_slotInRange_empty] at hzram
    exact absurd hzram (by decide)
  have hright := getElem?_of_slotOf (i := 11) .rawZram (by decide) hne
  have hleft := getElem?_of_slotOf (i := 10) .rawSwap (by decide) (heq ▸ hne)
  have hlt := not_testGe_of_strictlyIncreasing h hleft hright
  rw [heq, testGe_self (isTestOperand_of_slotInRange hzram)] at hlt
  exact absurd hlt (by decide)

theorem rawSwap_ne_of_counted {first second value : String} {following : List String}
    (hfollowing : (List.range' 1 10).mapM (arithmeticAdd value) = some following)
    (hzram : slotInRange (slotOf (first :: second :: following) .rawZram)) :
    slotOf (first :: second :: following) .rawSwap ≠
      slotOf (first :: second :: following) .rawZram := by
  have hnine := mapM_getElem? hfollowing 8
  have hten := mapM_getElem? hfollowing 9
  intro heq
  have hne : slotOf (first :: second :: following) .rawZram ≠ "" := by
    intro hempty
    rw [hempty, not_slotInRange_empty] at hzram
    exact absurd hzram (by decide)
  have hright := getElem?_of_slotOf (i := 11) .rawZram (by decide) hne
  have hleft := getElem?_of_slotOf (i := 10) .rawSwap (by decide) (heq ▸ hne)
  simp only [List.getElem?_cons_succ] at hleft hright
  rw [hleft] at hnine
  rw [hright] at hten
  exact arithmeticAdd_succ_ne hnine hten heq

variable {settings : SlotSettings} {layout : SlotLayout}

theorem rawSwap_ne_of_dualboot (h : runtimeAssignDualbootSlots settings = some layout)
    (hzram : slotInRange (layout.slot .rawZram)) : layout.slot .rawSwap ≠ layout.slot .rawZram := by
  simp only [runtimeAssignDualbootSlots, bind_eq_bind, bind_eq_some_iff] at h
  obtain ⟨_, _, following, hfollowing, hlayout⟩ := h
  cases hlayout
  exact rawSwap_ne_of_counted hfollowing hzram

theorem rawSwap_ne_rawZram (h : runtimeApplyLayoutFromCmdline settings = some layout)
    (hzram : slotInRange (layout.slot .rawZram)) : layout.slot .rawSwap ≠ layout.slot .rawZram := by
  simp only [runtimeApplyLayoutFromCmdline, bind_eq_bind, bind_eq_some_iff] at h
  obtain ⟨_, _, slots, hslots, h⟩ := h
  split at h
  · simp only [bind_eq_some_iff] at h
    obtain ⟨_, _, _, _, h⟩ := h
    exact rawSwap_ne_of_dualboot h hzram
  · simp only [bind_eq_some_iff] at h
    obtain ⟨_, _, h⟩ := h
    cases h
    simp only [runtimeLoadDefaultSlotsFromEnv, bind_eq_bind, bind_eq_some_iff,
      guard_eq_some'] at hslots
    obtain ⟨_, _, _, hincreasing, hslots⟩ := hslots
    cases hslots
    exact rawSwap_ne_of_increasing hincreasing hzram

end Btrfs

theorem runtimePartitionPath_inj {left right : String}
    (h : runtimePartitionPath settings left = runtimePartitionPath settings right) :
    left = right := by
  unfold runtimePartitionPath at h
  have hlist := congrArg String.toList h
  rw [String.toList_append, String.toList_append] at hlist
  exact String.toList_inj.mp (List.append_cancel_left hlist)

/-! ## The table -/

/-- The new partitions of one installation: recipe sizes and actual sizes. -/
structure NewPartitions where
  /-- Recipe MB and actual bytes of the new partitions before raw swap. -/
  fixed : List (ℕ × ℕ)
  /-- `DEV_PART_RAW_SWAP_MB`. -/
  rawSwapMb : String
  rawSwapBytes : ℕ
  /-- `DEV_PART_RAW_ZRAM_MB`. -/
  rawZramMb : String
  rawZramBytes : ℕ

namespace NewPartitions

/-- The bytes which the recipe gives to the new partitions. -/
def recipeBytes (table : NewPartitions) : ℕ :=
  ((table.fixed.map Prod.fst).sum + testValue table.rawSwapMb + testValue table.rawZramMb) * 1000000

def actualBytes (table : NewPartitions) : ℕ :=
  (table.fixed.map Prod.snd).sum + table.rawSwapBytes + table.rawZramBytes

/-- What the partitions before raw zram are off together. -/
def accumulated (table : NewPartitions) : ℤ :=
  (table.fixed.map fun partition => deviation partition.1 partition.2).sum +
    deviation (testValue table.rawSwapMb) table.rawSwapBytes

/-- A fixed-size partition loses or gains at most its two aligned boundaries, and
raw zram takes the remaining extent. -/
structure Aligned (table : NewPartitions) : Prop where
  fixed : ∀ partition ∈ table.fixed, |deviation partition.1 partition.2| ≤ 2 * 1048576
  rawSwap : |deviation (testValue table.rawSwapMb) table.rawSwapBytes| ≤ 2 * 1048576
  remaining : table.actualBytes = table.recipeBytes

theorem sum_deviation (partitions : List (ℕ × ℕ)) :
    (partitions.map fun partition => deviation partition.1 partition.2).sum =
      (partitions.map Prod.snd).sum - (partitions.map Prod.fst).sum * 1000000 := by
  induction partitions with
  | nil => simp
  | cons partition partitions ih =>
    rw [List.map_cons, List.sum_cons, ih, List.map_cons, List.map_cons, List.sum_cons,
      List.sum_cons, deviation]
    push_cast
    ring

/-- The tail is off by what the other partitions are off together. -/
theorem deviation_tail {table : NewPartitions} (h : table.Aligned) :
    deviation (testValue table.rawZramMb) table.rawZramBytes = -table.accumulated := by
  have hremaining := h.remaining
  simp only [actualBytes, recipeBytes] at hremaining
  have hcast : ((table.fixed.map Prod.snd).sum + table.rawSwapBytes + table.rawZramBytes : ℤ) =
      ((table.fixed.map Prod.fst).sum + testValue table.rawSwapMb +
        testValue table.rawZramMb) * 1000000 := by
    exact_mod_cast hremaining
  rw [accumulated, sum_deviation]
  unfold deviation
  linarith

end NewPartitions

/-- The tolerance of the tail that a layout's runtime environment gives. -/
def tailTolerance (layout : SlotLayout) : ℕ :=
  (testValue (layout.slot .rawZram) - testValue (layout.slot .boot) + 1 +
    (if layout.dualbootEnabled then 0 else 1) + 2) * 1048576

/-- The slots of a layout that the late stage supports. -/
def slotsSupported (layout : SlotLayout) : Bool :=
  slotInRange (layout.slot .boot) && slotInRange (layout.slot .rawZram) &&
    decide (testValue (layout.slot .boot) ≤ testValue (layout.slot .rawZram)) &&
    decide (tailTolerance layout ≤ 34 * 1048576)

/-- The raw partitions have device paths and sizes that the late stage can read. -/
def requestsSupported (settings : SlotSettings) (layout : SlotLayout) (table : NewPartitions) :
    Bool :=
  rawStorageRequestAccepted (runtimePartitionPath settings (layout.slot .rawSwap))
      table.rawSwapMb &&
    rawStorageRequestAccepted (runtimePartitionPath settings (layout.slot .rawZram))
      table.rawZramMb &&
    decide (table.rawSwapBytes < 10 ^ 18) && decide (table.rawZramBytes < 10 ^ 18)

/-! ## The tolerance of the two devices -/

variable {zramMb swapMb : String}

theorem swapTolerance {endSlot : String} (hne : layout.slot .rawSwap ≠ layout.slot .rawZram) :
    rawStoragePartitionAlignmentToleranceBytes
      (runtimeEnvWith settings layout swapMb zramMb endSlot)
      (runtimePartitionPath settings (layout.slot .rawSwap)) = some 2097152 := by
  have hpath : runtimePartitionPath settings (layout.slot .rawSwap) ≠
      runtimePartitionPath settings (layout.slot .rawZram) :=
    fun h => hne (runtimePartitionPath_inj h)
  exact if_pos (Or.inr hpath)

theorem rawStorageRequestAccepted_ne_empty {device configuredMb : String}
    (h : rawStorageRequestAccepted device configuredMb) : device ≠ "" := by
  rintro rfl
  simp [rawStorageRequestAccepted] at h

/-- The tail has a tolerance only when the end slot was written and the slots
are supported. -/
theorem zramTolerance_iff {endSlot : String} {tolerance : ℕ}
    (hdevice : runtimePartitionPath settings (layout.slot .rawZram) ≠ "") :
    rawStoragePartitionAlignmentToleranceBytes
        (runtimeEnvWith settings layout swapMb zramMb endSlot)
        (runtimePartitionPath settings (layout.slot .rawZram)) = some tolerance ↔
      endSlot = layout.slot .rawZram ∧ slotsSupported layout ∧ tolerance = tailTolerance layout := by
  unfold rawStoragePartitionAlignmentToleranceBytes
  rw [if_neg (by simp [hdevice, runtimeEnvWith])]
  cases hdualboot : layout.dualbootEnabled <;>
    simp only [runtimeEnvWith, hdualboot, newPartitionCount, slotsSupported, tailTolerance,
      bind_eq_bind, bind_eq_some_iff, guard_eq_some', List.all_cons, List.all_nil,
      Bool.and_eq_true, decide_eq_true_eq, Bool.and_true, Bool.false_eq_true, if_false, if_true,
      exists_and_left, exists_const, Option.some.injEq, exists_eq_left', pure_def]
  all_goals
    constructor
    · rintro ⟨⟨hstart, -, hzram⟩, rfl, hle, hcount, rfl⟩
      refine ⟨rfl, ⟨⟨⟨hstart, hzram⟩, hle⟩, ?_⟩, rfl⟩
      omega
    · rintro ⟨rfl, ⟨⟨⟨hstart, hzram⟩, hle⟩, hcount⟩, rfl⟩
      refine ⟨⟨hstart, hzram, hzram⟩, rfl, hle, ?_, rfl⟩
      omega

/-! ## Planned and verified sizes -/

/-- Acceptance of the two partitions for an environment with a given end slot. -/
theorem rawPartitionsAccepted_iff {endSlot : String} {swapBytes zramBytes : ℕ}
    (hdistinct : slotInRange (layout.slot .rawZram) →
      endSlot = layout.slot .rawZram → layout.slot .rawSwap ≠ layout.slot .rawZram) :
    rawPartitionsAccepted (runtimeEnvWith settings layout swapMb zramMb endSlot) swapBytes
        zramBytes ↔
      endSlot = layout.slot .rawZram ∧ slotsSupported layout ∧
        requestsSupported settings layout ⟨[], swapMb, swapBytes, zramMb, zramBytes⟩ ∧
        |deviation (testValue swapMb) swapBytes| ≤ 2 * 1048576 ∧
        |deviation (testValue zramMb) zramBytes| ≤ tailTolerance layout := by
  have hinRange : slotsSupported layout → slotInRange (layout.slot .rawZram) := by
    intro h
    simp only [slotsSupported, Bool.and_eq_true] at h
    exact h.1.1.2
  simp only [rawPartitionsAccepted, Bool.and_eq_true, validateRawStoragePartition_iff,
    requestsSupported, decide_eq_true_eq]
  constructor
  · rintro ⟨⟨hswapRequest, hswapBytes, swap, hswapTolerance, hswap⟩,
      hzramRequest, hzramBytes, zram, hzramTolerance, hzram⟩
    have hdevice := rawStorageRequestAccepted_ne_empty hzramRequest
    obtain ⟨hend, hslots, rfl⟩ := (zramTolerance_iff hdevice).mp hzramTolerance
    have hne := hdistinct (hinRange hslots) hend
    obtain rfl : 2097152 = swap := Option.some.inj ((swapTolerance hne).symm.trans hswapTolerance)
    exact ⟨hend, hslots, ⟨⟨⟨hswapRequest, hzramRequest⟩, hswapBytes⟩, hzramBytes⟩, hswap, hzram⟩
  · rintro ⟨hend, hslots, ⟨⟨⟨hswapRequest, hzramRequest⟩, hswapBytes⟩, hzramBytes⟩, hswap, hzram⟩
    have hdevice := rawStorageRequestAccepted_ne_empty hzramRequest
    have hne := hdistinct (hinRange hslots) hend
    exact ⟨⟨hswapRequest, hswapBytes, _, swapTolerance hne, hswap⟩,
      hzramRequest, hzramBytes, _, (zramTolerance_iff hdevice).mpr ⟨hend, hslots, rfl⟩, hzram⟩

/-- The end slot is only written for Btrfs. -/
theorem writeEnv_endSlot {family : Family} :
    family.writeEnv settings layout swapMb zramMb =
      runtimeEnvWith settings layout swapMb zramMb
        (if family = .btrfs then layout.slot .rawZram else "") := by
  cases family <;> rfl

/-- For every layout of either family and every table whose fixed-size
partitions keep to their aligned boundaries, both raw partitions are accepted
exactly for a Btrfs layout with supported slots and requests whose accumulated
deviation is within the tolerance of the tail. No size outside the tolerances is
ever accepted. -/
theorem raw_partitions_accepted_iff (family : Family) (settings : SlotSettings)
    (layout : SlotLayout) (hlayout : family.applyLayout settings = some layout)
    (table : NewPartitions) (haligned : table.Aligned) :
    (rawPartitionsAccepted (family.writeEnv settings layout table.rawSwapMb table.rawZramMb)
        table.rawSwapBytes table.rawZramBytes ↔
      family = .btrfs ∧ slotsSupported layout ∧ requestsSupported settings layout table ∧
        |table.accumulated| ≤ tailTolerance layout) ∧
    ∀ swapBytes zramBytes : ℕ,
      rawPartitionsAccepted (family.writeEnv settings layout table.rawSwapMb table.rawZramMb)
        swapBytes zramBytes →
      |deviation (testValue table.rawSwapMb) swapBytes| ≤ 2 * 1048576 ∧
        |deviation (testValue table.rawZramMb) zramBytes| ≤ tailTolerance layout := by
  have hdistinct : slotInRange (layout.slot .rawZram) →
      (if family = .btrfs then layout.slot .rawZram else "") = layout.slot .rawZram →
      layout.slot .rawSwap ≠ layout.slot .rawZram := by
    intro hrange hend
    cases family with
    | btrfs => exact Btrfs.rawSwap_ne_rawZram hlayout hrange
    | f2fs =>
      rw [if_neg (by decide)] at hend
      rw [← hend, not_slotInRange_empty] at hrange
      exact absurd hrange (by decide)
  rw [writeEnv_endSlot]
  constructor
  · rw [rawPartitionsAccepted_iff hdistinct, NewPartitions.deviation_tail haligned, abs_neg]
    constructor
    · rintro ⟨hend, hslots, hrequests, -, haccumulated⟩
      refine ⟨?_, hslots, hrequests, haccumulated⟩
      cases family with
      | btrfs => rfl
      | f2fs =>
        rw [if_neg (by decide)] at hend
        simp only [slotsSupported, ← hend, not_slotInRange_empty, Bool.and_false,
          Bool.false_and] at hslots
        exact absurd hslots (by decide)
    · rintro ⟨rfl, hslots, hrequests, haccumulated⟩
      exact ⟨if_pos rfl, hslots, hrequests, haligned.rawSwap, haccumulated⟩
  · intro swapBytes zramBytes haccepted
    obtain ⟨-, -, -, hswap, hzram⟩ := (rawPartitionsAccepted_iff hdistinct).mp haccepted
    exact ⟨hswap, hzram⟩

/-! ## Two concrete layouts -/

/-- A whole disk with consecutive slots. -/
def wholeDisk (slots : Part → String) : SlotSettings where
  devPartPrefix := "/dev/sda"
  defaultSlot := slots
  devPart _ := ""
  devPartMb _ := "1024"
  dualbootClassSelected := false
  dualbootEfi := ""
  dualbootDebian := ""
  desktopVariant := true
  qemuClassSelected := false
  qemuPoolMb := ""
  qemuPoolMinMb := ""
  secureBootStateLuks := false

/-- An F2FS disk with the partitions that every F2FS layout has. -/
def f2fsWholeDisk : SlotSettings :=
  wholeDisk fun
    | .efi => "1" | .boot => "2" | .root => "3" | .varLogJournal => "4" | .rawSwap => "5"
    | .rawZram => "6" | _ => ""

def btrfsWholeDisk : SlotSettings :=
  wholeDisk fun
    | .efi => "1" | .boot => "2" | .root => "3" | .home => "4" | .opt => "5" | .data => "6"
    | .pool => "7" | .varTmp => "8" | .varLibShsigned => "9" | .varLogJournal => "10"
    | .rawSwap => "11" | .rawZram => "12"

/-- Every new partition has exactly its recipe size. -/
def exactTable (fixedMb : List ℕ) : NewPartitions where
  fixed := fixedMb.map fun size => (size, size * 1000000)
  rawSwapMb := "4096"
  rawSwapBytes := 4096000000
  rawZramMb := "2048"
  rawZramBytes := 2048000000

/-- Without the end slot, an F2FS installation with exact sizes is refused. -/
theorem f2fs_exact_table_refused :
    (exactTable [512, 1024, 30000, 512]).Aligned ∧
    (Family.f2fs.applyLayout f2fsWholeDisk).map (fun layout =>
      rawPartitionsAccepted (Family.f2fs.writeEnv f2fsWholeDisk layout "4096" "2048") 4096000000
        2048000000) = some false := by
  refine ⟨⟨?_, by decide, by decide⟩, by decide⟩
  simp [exactTable, deviation]

/-- A Btrfs installation with exact sizes is accepted. -/
theorem btrfs_exact_table_accepted :
    ∃ layout, Family.btrfs.applyLayout btrfsWholeDisk = some layout ∧
      rawPartitionsAccepted (Family.btrfs.writeEnv btrfsWholeDisk layout "4096" "2048") 4096000000
        2048000000 := by
  obtain ⟨layout, hlayout⟩ := Option.isSome_iff_exists.mp
    (show (Family.btrfs.applyLayout btrfsWholeDisk).isSome by decide)
  have haligned : (exactTable [512, 1024, 30000, 512, 512, 512, 512, 512, 512, 512]).Aligned := by
    refine ⟨?_, by decide, by decide⟩
    simp [exactTable, deviation]
  have hslots : (Family.btrfs.applyLayout btrfsWholeDisk).map slotsSupported = some true := by
    decide
  have hrequests : (Family.btrfs.applyLayout btrfsWholeDisk).map (fun layout =>
      requestsSupported btrfsWholeDisk layout
        (exactTable [512, 1024, 30000, 512, 512, 512, 512, 512, 512, 512])) = some true := by
    decide
  rw [hlayout] at hslots hrequests
  have haccumulated :
      (exactTable [512, 1024, 30000, 512, 512, 512, 512, 512, 512, 512]).accumulated = 0 := by
    decide
  refine ⟨layout, hlayout,
    (raw_partitions_accepted_iff .btrfs btrfsWholeDisk layout hlayout _ haligned).1.mpr
      ⟨rfl, Option.some.inj hslots, Option.some.inj hrequests, ?_⟩⟩
  rw [haccumulated, abs_zero]
  exact Int.natCast_nonneg _

end Preseed.Storage
