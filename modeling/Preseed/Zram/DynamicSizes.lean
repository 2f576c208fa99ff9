import Preseed.Zram.ConfigValues

/-!
# The sizes of the zram device

`_dynamic_sizes` of `Zram::Setup::Device` computes the size of the disk, the limit of its
memory and the limit of its writeback from the configuration, the RAM and the backing device.
-/

namespace Preseed.Zram

open Option

/-! ## Configuration -/

/-- The texts of the configuration from which the sizes are made. -/
structure SizePolicy where
  sizePercent : List Char
  sizeMinMib : List Char
  sizeMaxMib : List Char
  memLimitPercent : List Char
  writebackEnabled : List Char
  writebackLimitEnabled : List Char
  writebackLimitPercent : List Char

/-- The values of a configuration which the sizes need. -/
structure SizeConfig where
  sizePercent : ℕ
  sizeMinMib : ℕ
  sizeMaxMib : ℕ
  memLimitPercent : ℕ
  writebackEnabled : Bool
  writebackLimitEnable : Bool
  writebackLimitPct : ℕ
  deriving DecidableEq

/-- The writeback is limited. -/
def SizeConfig.Limited (config : SizeConfig) : Prop :=
  config.writebackEnabled ∧ config.writebackLimitEnable

instance (config : SizeConfig) : Decidable config.Limited :=
  inferInstanceAs (Decidable (_ ∧ _))

/-- What `normalize_config` makes of these values, and what it requires of them. -/
def normalizeSizes (policy : SizePolicy) : Option SizeConfig := do
  let writebackEnabled ← ensureBool policy.writebackEnabled
  let writebackLimitEnable ← ensureBool policy.writebackLimitEnabled
  let writebackLimitPct ← ensurePercent policy.writebackLimitPercent
  let percent ← ensurePositiveUint policy.sizePercent
  let sizePercent ← ensureRange percent 1 300
  let sizeMinMib ← ensurePositiveUint policy.sizeMinMib
  let sizeMaxMib ← ensurePositiveUint policy.sizeMaxMib
  let memLimitPercent ← ensurePercent policy.memLimitPercent
  guard (0 < memLimitPercent)
  guard (sizeMinMib ≤ sizeMaxMib)
  guard (writebackEnabled ∧ writebackLimitEnable → 0 < writebackLimitPct)
  return ⟨sizePercent, sizeMinMib, sizeMaxMib, memLimitPercent, writebackEnabled,
    writebackLimitEnable, writebackLimitPct⟩

/-- What the validator guarantees of the sizes. -/
structure SizeConfig.Valid (config : SizeConfig) : Prop where
  sizeMin : 0 < config.sizeMinMib
  sizes : config.sizeMinMib ≤ config.sizeMaxMib
  memLimit : 0 < config.memLimitPercent ∧ config.memLimitPercent ≤ 100

variable {config : SizeConfig}

theorem normalizeSizes_valid {policy : SizePolicy}
    (h : normalizeSizes policy = some config) : config.Valid := by
  simp only [normalizeSizes, bind_eq_bind, bind_eq_some_iff,
    guard_eq_some', pure_def, Option.some.injEq, exists_const] at h
  obtain ⟨_, -, _, -, _, -, _, -, _, -, minimum, hminimum, _, -, percent, hpercent, hpositive,
    hsizes, -, rfl⟩ := h
  exact ⟨of_ensurePositiveUint hminimum, hsizes, hpositive, of_ensurePercent hpercent⟩

/-! ## Sizes -/

/-- `int(($bytes + 1_048_575) / 1_048_576)` of `_memory_mib` and `_backing_mib`. -/
def mibOfBytes (bytes : ℕ) : Option ℕ := do
  guard (0 < bytes)
  return (bytes + 1048575) / 1048576

/-- `int(($value * $percent + 99) / 100)`. -/
def percentOf (value percent : ℕ) : ℕ := (value * percent + 99) / 100

/-- The sizes of a device; the writeback limit is in pages of 4096 bytes. -/
structure Sizes where
  sizeMib : ℕ
  memLimitMib : ℕ
  writebackPages : ℕ
  deriving DecidableEq

/-- `$size`. -/
def diskSize (config : SizeConfig) (ram : ℕ) : ℕ :=
  let size := percentOf ram config.sizePercent
  let size := if size < config.sizeMinMib then config.sizeMinMib else size
  if config.sizeMaxMib < size then config.sizeMaxMib else size

/-- `$mem_limit`. -/
def memLimit (config : SizeConfig) (ram size : ℕ) : ℕ :=
  let memoryBase := if size < ram then size else ram
  let limit := percentOf memoryBase config.memLimitPercent
  if size < limit then size else limit

/-- `$cap`: the half of what is usable, or all of it. -/
def writebackCap (usable : ℕ) : ℕ := if usable / 2 < 1024 then usable else usable / 2

/-- `$limit`. -/
def writebackLimit (config : SizeConfig) (size usable : ℕ) : ℕ :=
  let limit := percentOf size config.writebackLimitPct
  if writebackCap usable < limit then writebackCap usable else limit

/-- `$reserve`. -/
def reserveMib : ℕ := 128

/-- `$writeback_pages`. -/
def writebackPages (config : SizeConfig) (size backingBytes : ℕ) : Option ℕ :=
  if config.Limited then
    match mibOfBytes backingBytes with
    | none => none
    | some backing =>
      if reserveMib < backing then
        some (bytesToWritebackPages (writebackLimit config size (backing - reserveMib) * 1048576))
      else none
  else some 0

/-- `_dynamic_sizes`. -/
def dynamicSizes (config : SizeConfig) (ramBytes backingBytes : ℕ) : Option Sizes := do
  let ram ← mibOfBytes ramBytes
  let size := diskSize config ram
  let pages ← writebackPages config size backingBytes
  return ⟨size, memLimit config ram size, pages⟩

/-! ## Bounds -/

theorem percentOf_le (value : ℕ) {percent : ℕ} (h : percent ≤ 100) : percentOf value percent ≤ value := by
  have hmul := Nat.mul_le_mul_left value h
  rw [percentOf, Nat.div_le_iff_le_mul_add_pred (by decide)]
  omega

theorem percentOf_pos {value percent : ℕ} (hvalue : 0 < value) (hpercent : 0 < percent) :
    0 < percentOf value percent := by
  have hmul : 0 < value * percent := Nat.mul_pos hvalue hpercent
  exact Nat.div_pos (by omega) (by decide)

theorem diskSize_eq (config : SizeConfig) (ram : ℕ) :
    diskSize config ram =
      min (max (percentOf ram config.sizePercent) config.sizeMinMib) config.sizeMaxMib := by
  unfold diskSize
  dsimp only
  split <;> split <;> omega

theorem memLimit_eq (config : SizeConfig) (ram size : ℕ) :
    memLimit config ram size = min (percentOf (min size ram) config.memLimitPercent) size := by
  have hbase : (if size < ram then size else ram) = min size ram := by split <;> omega
  unfold memLimit
  dsimp only
  rw [hbase]
  split <;> omega

theorem writebackLimit_eq (config : SizeConfig) (size usable : ℕ) :
    writebackLimit config size usable =
      min (percentOf size config.writebackLimitPct) (writebackCap usable) := by
  unfold writebackLimit
  dsimp only
  split <;> omega

theorem diskSize_mem (hvalid : config.Valid) (ram : ℕ) :
    config.sizeMinMib ≤ diskSize config ram ∧ diskSize config ram ≤ config.sizeMaxMib := by
  have hsizes := hvalid.sizes
  rw [diskSize_eq]
  omega

/-- The limit of the memory is within the disk and within the memory. -/
theorem memLimit_mem (hvalid : config.Valid) {ram size : ℕ} (hram : 0 < ram) (hsize : 0 < size) :
    0 < memLimit config ram size ∧ memLimit config ram size ≤ min size ram := by
  have hbase : 0 < min size ram := by omega
  have hpos := percentOf_pos hbase hvalid.memLimit.1
  have hle := percentOf_le (min size ram) hvalid.memLimit.2
  rw [memLimit_eq]
  omega

theorem mibOfBytes_eq (bytes : ℕ) :
    mibOfBytes bytes = if 0 < bytes then some ((bytes + 1048575) / 1048576) else none := by
  unfold mibOfBytes
  by_cases h : 0 < bytes <;> simp [h]

theorem writebackCap_le (usable : ℕ) : writebackCap usable ≤ usable := by
  unfold writebackCap
  split <;> omega

/-- The cap falls only from all that is usable of a device to the half of a larger one. -/
theorem writebackCap_lt_iff {limit usable usable' : ℕ} (h : usable ≤ usable') :
    min limit (writebackCap usable') < min limit (writebackCap usable) ↔
      usable < 2048 ∧ 2048 ≤ usable' ∧ usable' / 2 < min limit usable := by
  unfold writebackCap
  split <;> split <;> omega

theorem bytesToWritebackPages_mib (mib : ℕ) :
    bytesToWritebackPages (mib * 1048576) = mib * 256 := by
  unfold bytesToWritebackPages
  omega

/-- `$usable`, in MiB. -/
def usableMib (backingBytes : ℕ) : ℕ := (backingBytes + 1048575) / 1048576 - reserveMib

/-- The limit of the writeback, of a backing device that is larger than the reserve. -/
theorem writebackPages_eq (config : SizeConfig) (size backingBytes : ℕ) :
    writebackPages config size backingBytes =
      if config.Limited then
        if reserveMib * 1048576 < backingBytes then
          some (min (percentOf size config.writebackLimitPct)
            (writebackCap (usableMib backingBytes)) * 256)
        else none
      else some 0 := by
  have hreserve : reserveMib < (backingBytes + 1048575) / 1048576 ↔
      reserveMib * 1048576 < backingBytes := by
    rw [show reserveMib * 1048576 = 134217728 from rfl, reserveMib]
    omega
  unfold writebackPages
  by_cases hlimited : config.Limited
  · rw [if_pos hlimited, if_pos hlimited, mibOfBytes_eq]
    by_cases hlarge : reserveMib * 1048576 < backingBytes
    · rw [if_pos (Nat.zero_lt_of_lt hlarge), if_pos hlarge]
      dsimp only
      rw [if_pos (hreserve.mpr hlarge), bytesToWritebackPages_mib, writebackLimit_eq, usableMib]
    · rw [if_neg hlarge]
      split
      · rfl
      · rename_i backing hbacking
        obtain ⟨-, hmib⟩ := ite_none_right_eq_some.mp hbacking
        cases hmib
        exact if_neg (mt hreserve.mp hlarge)
  · rw [if_neg hlimited, if_neg hlimited]

/-! ## The sizes of a device -/

/-- What holds of the sizes of a device. -/
structure Sizes.Bounded (config : SizeConfig) (ramBytes backingBytes : ℕ) (sizes : Sizes) :
    Prop where
  disk : config.sizeMinMib ≤ sizes.sizeMib ∧ sizes.sizeMib ≤ config.sizeMaxMib
  memory_pos : 0 < sizes.memLimitMib
  memory_disk : sizes.memLimitMib ≤ sizes.sizeMib
  /-- within the memory, rounded up to MiB -/
  memory_ram : sizes.memLimitMib ≤ (ramBytes + 1048575) / 1048576
  writeback : config.Limited → sizes.writebackPages * 4096 < backingBytes

theorem dynamicSizes_eq_some_iff {ramBytes backingBytes : ℕ} {sizes : Sizes} :
    dynamicSizes config ramBytes backingBytes = some sizes ↔
      0 < ramBytes ∧ sizes.sizeMib = diskSize config ((ramBytes + 1048575) / 1048576) ∧
      sizes.memLimitMib = memLimit config ((ramBytes + 1048575) / 1048576) sizes.sizeMib ∧
      writebackPages config sizes.sizeMib backingBytes = some sizes.writebackPages := by
  simp only [dynamicSizes, mibOfBytes_eq, bind_eq_bind, bind_eq_some_iff,
    pure_def, Option.some.injEq, ite_none_right_eq_some]
  constructor
  · rintro ⟨ram, ⟨hpos, rfl⟩, pages, hpages, rfl⟩
    exact ⟨hpos, rfl, rfl, hpages⟩
  · rintro ⟨hpos, hsize, hmem, hpages⟩
    refine ⟨_, ⟨hpos, rfl⟩, sizes.writebackPages, hsize ▸ hpages, ?_⟩
    rw [← hsize, ← hmem]

/-- When the sizes can be computed. -/
theorem dynamicSizes_isSome_iff (config : SizeConfig) (ramBytes backingBytes : ℕ) :
    (∃ sizes, dynamicSizes config ramBytes backingBytes = some sizes) ↔
      0 < ramBytes ∧ (config.Limited → reserveMib * 1048576 < backingBytes) := by
  constructor
  · rintro ⟨sizes, h⟩
    obtain ⟨hpos, -, -, hpages⟩ := dynamicSizes_eq_some_iff.mp h
    refine ⟨hpos, fun hlimited => ?_⟩
    rw [writebackPages_eq, if_pos hlimited] at hpages
    exact (ite_none_right_eq_some.mp hpages).1
  · rintro ⟨hpos, hlarge⟩
    have hpages : ∃ pages, writebackPages config
        (diskSize config ((ramBytes + 1048575) / 1048576)) backingBytes = some pages := by
      rw [writebackPages_eq]
      split
      · exact ⟨_, if_pos (hlarge ‹_›)⟩
      · exact ⟨0, rfl⟩
    obtain ⟨pages, hpages⟩ := hpages
    let ram := (ramBytes + 1048575) / 1048576
    let size := diskSize config ram
    exact ⟨⟨size, memLimit config ram size, pages⟩,
      dynamicSizes_eq_some_iff.mpr ⟨hpos, rfl, rfl, hpages⟩⟩

theorem dynamicSizes_bounded (hvalid : config.Valid) {ramBytes backingBytes : ℕ} {sizes : Sizes}
    (h : dynamicSizes config ramBytes backingBytes = some sizes) :
    sizes.Bounded config ramBytes backingBytes := by
  obtain ⟨hram, hsize, hmem, hpages⟩ := dynamicSizes_eq_some_iff.mp h
  obtain ⟨hmin, hmax⟩ := diskSize_mem hvalid ((ramBytes + 1048575) / 1048576)
  have hpos := hvalid.sizeMin
  rw [← hsize] at hmin hmax
  obtain ⟨hmemPos, hmemLe⟩ := memLimit_mem hvalid
    (show 0 < (ramBytes + 1048575) / 1048576 by omega) (show 0 < sizes.sizeMib by omega)
  rw [← hmem] at hmemPos hmemLe
  refine ⟨⟨hmin, hmax⟩, hmemPos, by omega, by omega, fun hlimited => ?_⟩
  have hcap := writebackCap_le (usableMib backingBytes)
  rw [writebackPages_eq, if_pos hlimited, ite_none_right_eq_some,
    Option.some.injEq] at hpages
  obtain ⟨hlarge, hlimit⟩ := hpages
  rw [show reserveMib * 1048576 = 134217728 from rfl] at hlarge
  have husable : usableMib backingBytes = (backingBytes + 1048575) / 1048576 - 128 := rfl
  omega

/-- The larger backing device gets the smaller limit: all that is usable of the smaller one
is its cap, and only the half of the larger one is. -/
def Halved (config : SizeConfig) (size smaller larger : ℕ) : Prop :=
  config.Limited ∧ usableMib smaller < 2048 ∧ 2048 ≤ usableMib larger ∧
    usableMib larger / 2 < min (percentOf size config.writebackLimitPct) (usableMib smaller)

/-- When a larger backing device gets a smaller limit. -/
theorem writebackPages_lt_iff {ramBytes smaller larger : ℕ} {sizes sizes' : Sizes}
    (hle : smaller ≤ larger) (h : dynamicSizes config ramBytes smaller = some sizes)
    (h' : dynamicSizes config ramBytes larger = some sizes') :
    sizes'.writebackPages < sizes.writebackPages ↔
      Halved config sizes.sizeMib smaller larger := by
  obtain ⟨-, hsize, -, hpages⟩ := dynamicSizes_eq_some_iff.mp h
  obtain ⟨-, hsize', -, hpages'⟩ := dynamicSizes_eq_some_iff.mp h'
  rw [writebackPages_eq] at hpages hpages'
  rw [hsize', ← hsize] at hpages'
  by_cases hlimited : config.Limited
  · rw [if_pos hlimited, ite_none_right_eq_some, Option.some.injEq] at hpages hpages'
    have husable : usableMib smaller ≤ usableMib larger := by
      unfold usableMib
      omega
    rw [← hpages.2, ← hpages'.2, Nat.mul_lt_mul_right (by decide), writebackCap_lt_iff husable]
    exact ⟨fun hcap => ⟨hlimited, hcap⟩, fun hhalved => hhalved.2⟩
  · rw [if_neg hlimited, Option.some.injEq] at hpages hpages'
    constructor
    · intro hlt
      omega
    · intro hhalved
      exact absurd hhalved.1 hlimited

/-- The default policy, with all of the memory as its limit. -/
def wholePolicy : SizePolicy where
  sizePercent := "100".toList
  sizeMinMib := "2048".toList
  sizeMaxMib := "16384".toList
  memLimitPercent := "100".toList
  writebackEnabled := "1".toList
  writebackLimitEnabled := "1".toList
  writebackLimitPercent := "25".toList

def wholeConfig : SizeConfig := ⟨100, 2048, 16384, 100, true, true, 25⟩

end Preseed.Zram
