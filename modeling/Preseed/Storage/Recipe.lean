import Preseed.Storage.Conservation
import Preseed.Storage.RawTail

/-!
# Slots and stanzas

The partitioner numbers the stanzas of the emitted recipe one after the other,
from the first Debian slot or, on a whole disk, from the EFI system partition.
The slots agree with these numbers when the given slots are consecutive
canonical decimals and an optional F2FS partition has a slot exactly if it has
a size.
-/

namespace Preseed.Storage

open Option Family

/-- The names of partitions that are created one after the other. -/
def createdSlots (first count : ℕ) : List String := (List.range' first count).map Nat.repr

/-- The number of the first partition that is created. -/
def firstCreated (layout : SlotLayout) : ℕ :=
  testValue (layout.slot (if layout.dualbootEnabled then .boot else .efi))

/-- The slots of a layout agree with a recipe. -/
structure SlotsAgree (layout : SlotLayout) (emitted : List Part) : Prop where
  /-- The `k`-th stanza becomes the partition of the `k`-th slot. -/
  numbered : emitted.map layout.slot = createdSlots (firstCreated layout) emitted.length
  /-- A path is assigned exactly for a partition with a stanza, and for a reused EFI
  partition. -/
  assigned : ∀ part, layout.slot part ≠ "" ↔
    part ∈ emitted ∨ (layout.dualbootEnabled = true ∧ part = .efi)
  raw : [Part.rawSwap, .rawZram] ⊆ emitted
  /-- No new partition has the slot of the EFI or of a preserved partition. -/
  preserved : layout.dualbootEnabled = true → ∀ part ∈ emitted,
    testValue (layout.slot .efi) < testValue (layout.slot part) ∧
      testValue (layout.slot .boot) ≤ testValue (layout.slot part)

/-! ## Canonical decimals in the shell -/

theorem testValue_repr (number : ℕ) : testValue (Nat.repr number) = number := by
  unfold testValue digitsValue
  rw [Nat.toList_repr]
  have hfold := Nat.ofDigitChars_ten_toDigits (n := number)
  rwa [Nat.ofDigitChars_eq_foldl] at hfold

variable {number : ℕ}

theorem head_toDigits (h : 0 < number) :
    (Nat.toDigits 10 number).head? ≠ some '0' := by
  induction number using Nat.strong_induction_on with
  | _ number ih =>
    by_cases hsmall : number < 10
    · rw [Nat.toDigits_of_lt_base hsmall]
      simp only [List.head?_cons, ne_eq, Option.some.injEq, Nat.digitChar_eq_zero]
      omega
    · rw [Nat.toDigits_of_base_le (by omega) (by omega)]
      have hrest := ih (number / 10) (by omega) (by omega)
      cases hdigits : Nat.toDigits 10 (number / 10) with
      | nil => exact absurd hdigits Nat.toDigits_ne_nil
      | cons digit digits =>
        rw [hdigits] at hrest
        simpa using hrest

theorem arithmeticValue_repr (h : 0 < number) :
    arithmeticValue (Nat.repr number) = some number := by
  have hhead := head_toDigits h
  have hvalue := testValue_repr number
  unfold testValue at hvalue
  unfold arithmeticValue
  rw [Nat.toList_repr] at hvalue ⊢
  split
  · rename_i hdigits
    rw [hdigits] at hhead
    simp at hhead
  · rw [hvalue]

theorem arithmeticAdd_repr {increment : ℕ} (h : 0 < number) (hbound : number + increment < 2 ^ 63) :
    arithmeticAdd (Nat.repr number) increment = some (Nat.repr (number + increment)) := by
  unfold arithmeticAdd
  rw [arithmeticValue_repr h, map_some, wrap64_eq (by omega) (by omega)]
  rfl

variable {first : ℕ}

theorem getElem?_createdSlots {count k : ℕ} :
    (createdSlots first count)[k]? = if k < count then some (Nat.repr (first + k)) else none := by
  unfold createdSlots
  rw [List.getElem?_map]
  split
  · rename_i h
    simp [h]
  · rename_i h
    simp [h]

/-- Consecutive slots, position by position. -/
theorem map_eq_createdSlots {parts : List Part} {slot : Part → String} :
    parts.map slot = createdSlots first parts.length ↔
      ∀ k part, parts[k]? = some part → slot part = Nat.repr (first + k) := by
  constructor
  · intro h k part hpart
    have hk := congrArg (fun slots => slots[k]?) h
    obtain ⟨hlt, -⟩ := List.getElem?_eq_some_iff.mp hpart
    rw [List.getElem?_map, hpart, getElem?_createdSlots, if_pos hlt] at hk
    exact Option.some.inj hk
  · intro h
    apply List.ext_getElem?
    intro k
    rw [List.getElem?_map, getElem?_createdSlots]
    cases hpart : parts[k]? with
    | none =>
      have hlen : parts.length ≤ k := by simpa using hpart
      rw [if_neg (by omega)]
      rfl
    | some part =>
      have hlt : k < parts.length := (List.getElem?_eq_some_iff.mp hpart).1
      rw [if_pos hlt, map_some, h k part hpart]

/-! ## Layouts with consecutive slots -/

/-- Exactly the partitions of a list have slots, and these are consecutive. -/
structure Numbered (layout : SlotLayout) (parts : List Part) (first : ℕ) : Prop where
  slot : ∀ k part, parts[k]? = some part → layout.slot part = Nat.repr (first + k)
  unused : ∀ part, part ∉ parts →
    (layout.dualbootEnabled = true ∧ part = .efi) ∨ layout.slot part = ""

variable {part : Part} {layout : SlotLayout}

theorem Numbered.mem {parts : List Part} (h : Numbered layout parts first) (hmem : part ∈ parts) :
    ∃ k, k < parts.length ∧ parts[k]? = some part ∧ layout.slot part = Nat.repr (first + k) := by
  obtain ⟨k, hk, hpart⟩ := List.mem_iff_getElem.mp hmem
  have hsome : parts[k]? = some part := by rw [List.getElem?_eq_getElem hk, hpart]
  exact ⟨k, hk, hsome, h.slot k part hsome⟩

/-- Consecutive slots for the parts of a recipe agree with it. -/
theorem Numbered.agree {emitted : List Part} (h : Numbered layout emitted first)
    (hraw : [Part.rawSwap, .rawZram] ⊆ emitted)
    (hhead : emitted.head? = some (if layout.dualbootEnabled then .boot else .efi))
    (hreused : layout.dualbootEnabled = true →
      .efi ∉ emitted ∧ layout.slot .efi ≠ "" ∧ testValue (layout.slot .efi) < first) :
    SlotsAgree layout emitted := by
  have hfirst : firstCreated layout = first := by
    unfold firstCreated
    rw [h.slot 0 _ (by rw [← List.head?_eq_getElem?]; exact hhead), testValue_repr]
    rfl
  refine ⟨?_, fun part => ?_, hraw, fun hdualboot part hmem => ?_⟩
  · rw [hfirst]
    exact map_eq_createdSlots.mpr h.slot
  · constructor
    · intro hslot
      by_cases hmem : part ∈ emitted
      · exact Or.inl hmem
      · exact Or.inr ((h.unused part hmem).resolve_right hslot)
    · rintro (hmem | ⟨hdualboot, rfl⟩)
      · obtain ⟨k, -, -, hslot⟩ := h.mem hmem
        rw [hslot]
        exact Nat.repr_ne_empty
      · exact (hreused hdualboot).2.1
  · obtain ⟨k, -, -, hslot⟩ := h.mem hmem
    have hboot : testValue (layout.slot .boot) = first := by
      rw [← hfirst, firstCreated, if_pos hdualboot]
    have hefi := (hreused hdualboot).2.2
    rw [hboot, hslot, testValue_repr]
    omega

theorem runtimeRequirePositiveInteger_iff {value : String} :
    runtimeRequirePositiveInteger value = some () ↔
      isTestOperand value = true ∧ 0 < testValue value := by
  simp only [runtimeRequirePositiveInteger, guard_eq_some', Bool.and_eq_true,
    decide_eq_true_eq]

variable {settings : SlotSettings}

/-- Accepted dual-boot slots: the EFI partition is before the first Debian one. -/
theorem dualbootArguments_spec (hdebian : settings.dualbootDebian = Nat.repr first)
    (h : dualbootArgumentsAccepted settings = some ()) :
    settings.dualbootEfi ≠ "" ∧ testValue settings.dualbootEfi < first := by
  simp only [dualbootArgumentsAccepted, bind_eq_bind, bind_eq_some_iff,
    guard_eq_some'] at h
  obtain ⟨_, hefi, _, hfirst, hge⟩ := h
  obtain ⟨hefi, -⟩ := runtimeRequirePositiveInteger_iff.mp hefi
  obtain ⟨hfirst, -⟩ := runtimeRequirePositiveInteger_iff.mp hfirst
  constructor
  · intro hempty
    rw [hempty] at hefi
    exact absurd hefi (by decide)
  · simp only [testGe, hefi, hfirst, Bool.true_and, Bool.not_eq_true', decide_eq_false_iff_not,
      not_le] at hge
    rwa [hdebian, testValue_repr] at hge

/-! ## Inserting a partition before the journal -/

/-- The partitions after the optional ones. -/
def tailParts : List Part := [.varLogJournal, .rawSwap, .rawZram]

/-- The slots after a partition is inserted at the number of the journal. -/
theorem insertBeforeJournal_spec (hpositive : 0 < number) (hbound : number + 3 < 2 ^ 63)
    (hpart : part ∉ tailParts)
    (htail : ∀ k other, tailParts[k]? = some other → layout.slot other = Nat.repr (number + k)) :
    ∃ inserted, F2fs.insertBeforeJournal layout part = some inserted ∧
      inserted.dualbootEnabled = layout.dualbootEnabled ∧
      (∀ k other, (part :: tailParts)[k]? = some other →
        inserted.slot other = Nat.repr (number + k)) ∧
      ∀ other ∉ part :: tailParts, inserted.slot other = layout.slot other := by
  have hadd : ∀ k other, tailParts[k]? = some other →
      arithmeticAdd (layout.slot other) 1 = some (Nat.repr (number + (k + 1))) := by
    intro k other hother
    have hk : k < 3 := (List.getElem?_eq_some_iff.mp hother).1
    rw [htail k other hother, arithmeticAdd_repr (by omega) (by omega), Nat.add_assoc]
  unfold F2fs.insertBeforeJournal
  rw [hadd 0 .varLogJournal rfl, hadd 1 .rawSwap rfl, hadd 2 .rawZram rfl]
  refine ⟨_, rfl, rfl, ?_, ?_⟩
  · intro k other hother
    cases k with
    | zero =>
      obtain rfl : part = other := by simpa using hother
      simpa using htail 0 .varLogJournal rfl
    | succ k =>
      have hmem : other ∈ tailParts := List.mem_of_getElem? (i := k) (by simpa using hother)
      have hne : other ≠ part := fun heq => hpart (heq ▸ hmem)
      simp only [hne, if_false]
      rcases k with - | - | - | k <;> simp only [tailParts, List.getElem?_cons_succ,
        List.getElem?_cons_zero, Option.some.injEq, List.getElem?_nil, reduceCtorEq] at hother
      all_goals
        subst hother
        rfl
  · intro other hother
    simp only [tailParts, List.mem_cons, List.not_mem_nil, or_false, not_or] at hother
    obtain ⟨hne, hjournal, hswap, hzram⟩ := hother
    simp only [hne, if_false]

/-- A partition inserted before the journal keeps the slots consecutive. -/
theorem Numbered.insert {leading : List Part} (h : Numbered layout (leading ++ tailParts) first)
    (hfirst : 0 < first) (hbound : first + leading.length + 3 < 2 ^ 63)
    (hleading : ∀ other ∈ leading, other ∉ part :: tailParts) (hpart : part ∉ tailParts) :
    ∃ inserted, F2fs.insertBeforeJournal layout part = some inserted ∧
      inserted.dualbootEnabled = layout.dualbootEnabled ∧
      Numbered inserted (leading ++ part :: tailParts) first := by
  have htail : ∀ k other, tailParts[k]? = some other →
      layout.slot other = Nat.repr (first + leading.length + k) := by
    intro k other hother
    have hk : (leading ++ tailParts)[leading.length + k]? = some other := by
      rw [List.getElem?_append_right (by omega), Nat.add_sub_cancel_left]
      exact hother
    rw [h.slot _ other hk, Nat.add_assoc]
  obtain ⟨inserted, hinserted, hdualboot, hslots, hkept⟩ :=
    insertBeforeJournal_spec (by omega) hbound hpart htail
  refine ⟨inserted, hinserted, hdualboot, ?_, ?_⟩
  · intro k other hother
    by_cases hk : k < leading.length
    · rw [List.getElem?_append_left hk] at hother
      rw [hkept other (hleading other (List.mem_of_getElem? hother))]
      exact h.slot k other (by rw [List.getElem?_append_left hk, hother])
    · rw [List.getElem?_append_right (by omega)] at hother
      rw [hslots _ other hother]
      congr 1
      omega
  · intro other hother
    simp only [List.mem_append, not_or] at hother
    rw [hdualboot, hkept other hother.2]
    refine h.unused other ?_
    simp only [List.mem_append, not_or]
    exact ⟨hother.1, fun hmem => hother.2 (List.mem_cons_of_mem _ hmem)⟩

/-! ## The F2FS partitions -/

namespace F2fs

/-- The partitions before the Secure Boot state and the journal. -/
def leadingParts (dualboot home pool : Bool) : List Part :=
  (if dualboot then [] else [.efi]) ++ [.boot, .root] ++ (if home then [.home] else []) ++
    if pool then [.pool] else []

/-- The partitions of an F2FS recipe. -/
def createdParts (dualboot home pool luks : Bool) : List Part :=
  leadingParts dualboot home pool ++ if luks then .varLibShsigned :: tailParts else tailParts

theorem length_leadingParts (dualboot home pool : Bool) :
    (leadingParts dualboot home pool).length ≤ 5 := by
  cases dualboot <;> cases home <;> cases pool <;> decide

theorem leadingParts_disjoint (dualboot home pool : Bool) :
    ∀ other ∈ leadingParts dualboot home pool, other ∉ .varLibShsigned :: tailParts := by
  cases dualboot <;> cases home <;> cases pool <;> decide

theorem head?_createdParts (dualboot home pool luks : Bool) :
    (createdParts dualboot home pool luks).head? = some (if dualboot then .boot else .efi) := by
  cases dualboot <;> rfl

theorem raw_subset_createdParts (dualboot home pool luks : Bool) :
    [Part.rawSwap, .rawZram] ⊆ createdParts dualboot home pool luks := by
  cases dualboot <;> cases home <;> cases pool <;> cases luks <;> decide

theorem emittedParts_eq (dualboot : Bool) (sizes : Sizes) :
    f2fs.emittedParts dualboot sizes =
      createdParts dualboot (0 < sizes .home) (0 < sizes .pool) (0 < sizes .varLibShsigned) := by
  unfold Family.emittedParts Family.parts parts newParts createdParts leadingParts tailParts
  by_cases hhome : 0 < sizes .home <;> by_cases hpool : 0 < sizes .pool <;>
    by_cases hluks : 0 < sizes .varLibShsigned <;> cases dualboot <;>
    simp [hhome, hpool, hluks, List.filter]

/-! ## The slots of an F2FS layout -/

/-- The default slots are consecutive canonical decimals. -/
def consecutiveDefaults (settings : SlotSettings) (first : ℕ) : Prop :=
  let created := createdParts false (settings.defaultSlot .home ≠ "")
    (settings.defaultSlot .pool ≠ "") false
  created.map settings.defaultSlot = createdSlots first created.length

/-- The pool gets a slot by default, or for the machines of a whole disk. -/
def poolWanted (settings : SlotSettings) : Bool :=
  settings.defaultSlot .pool ≠ "" || (settings.qemuClassSelected && !settings.dualbootClassSelected)

theorem runtimeRequiredSlotFromEnv_eq {slot : String}
    (h : runtimeRequiredSlotFromEnv settings part = some slot) : slot = settings.defaultSlot part := by
  simp only [runtimeRequiredSlotFromEnv, bind_eq_bind, bind_eq_some_iff] at h
  obtain ⟨_, _, hslot⟩ := h
  exact (Option.some.inj hslot).symm

theorem runtimeOptionalSlotFromEnv_eq {slot : String}
    (h : runtimeOptionalSlotFromEnv settings part = some slot) : slot = settings.defaultSlot part := by
  unfold runtimeOptionalSlotFromEnv at h
  split at h
  · rename_i hempty
    rw [hempty]
    exact (Option.some.inj h).symm
  · exact runtimeRequiredSlotFromEnv_eq h

/-- The pool before the journal. -/
theorem numbered_insertPool {dualboot home : Bool}
    (h : Numbered layout (createdParts dualboot home false false) first) (hfirst : 0 < first)
    (hbound : first + 12 < 2 ^ 63) :
    ∃ inserted, insertBeforeJournal layout .pool = some inserted ∧
      inserted.dualbootEnabled = layout.dualbootEnabled ∧
      Numbered inserted (createdParts dualboot home true false) first := by
  have hleading : Numbered layout (leadingParts dualboot home false ++ tailParts) first := h
  have hlength := length_leadingParts dualboot home false
  have hdisjoint : ∀ other ∈ leadingParts dualboot home false, other ∉ .pool :: tailParts := by
    cases dualboot <;> cases home <;> decide
  have hparts : createdParts dualboot home true false =
      leadingParts dualboot home false ++ .pool :: tailParts := by
    cases dualboot <;> cases home <;> rfl
  rw [hparts]
  exact hleading.insert hfirst (by omega) hdisjoint (by decide)

/-- The Secure Boot state before the journal. -/
theorem numbered_insertState {dualboot home pool : Bool}
    (h : Numbered layout (createdParts dualboot home pool false) first) (hfirst : 0 < first)
    (hbound : first + 12 < 2 ^ 63) :
    ∃ inserted, insertBeforeJournal layout .varLibShsigned = some inserted ∧
      inserted.dualbootEnabled = layout.dualbootEnabled ∧
      Numbered inserted (createdParts dualboot home pool true) first := by
  have hleading : Numbered layout (leadingParts dualboot home pool ++ tailParts) first := h
  have hlength := length_leadingParts dualboot home pool
  exact hleading.insert hfirst (by omega) (leadingParts_disjoint dualboot home pool) (by decide)

/-- The layout of the default slots. -/
def defaultLayout (settings : SlotSettings) : SlotLayout where
  dualbootEnabled := false
  slot
    | .efi => settings.defaultSlot .efi
    | .boot => settings.defaultSlot .boot
    | .root => settings.defaultSlot .root
    | .home => settings.defaultSlot .home
    | .pool => settings.defaultSlot .pool
    | .varLogJournal => settings.defaultSlot .varLogJournal
    | .rawSwap => settings.defaultSlot .rawSwap
    | .rawZram => settings.defaultSlot .rawZram
    | _ => ""

theorem numbered_defaultLayout (hdefaults : consecutiveDefaults settings first) :
    Numbered (defaultLayout settings) (createdParts false (settings.defaultSlot .home ≠ "")
      (settings.defaultSlot .pool ≠ "") false) first := by
  have hslot : ∀ part ∈ createdParts false (settings.defaultSlot .home ≠ "")
      (settings.defaultSlot .pool ≠ "") false,
      (defaultLayout settings).slot part = settings.defaultSlot part := by
    intro part hmem
    cases part with
    | varLibShsigned | opt | data | varTmp =>
      simp [createdParts, leadingParts, tailParts] at hmem
    | _ => rfl
  constructor
  · intro k part hpart
    rw [hslot part (List.mem_of_getElem? hpart)]
    exact map_eq_createdSlots.mp hdefaults k part hpart
  · intro part hpart
    right
    cases part with
    | home | pool =>
      simp only [createdParts, leadingParts, tailParts] at hpart
      simpa [defaultLayout] using hpart
    | efi | boot | root | varLogJournal | rawSwap | rawZram =>
      simp [createdParts, leadingParts, tailParts] at hpart
    | _ => rfl

/-- Default slots which are consecutive stay so when the pool of the machines is
inserted. -/
theorem numbered_of_defaults {qemuPool : Bool} (hdefaults : consecutiveDefaults settings first)
    (hfirst : 0 < first) (hbound : first + 12 < 2 ^ 63)
    (h : runtimeAssignDefaultSlots settings qemuPool = some layout) :
    layout.dualbootEnabled = false ∧
      Numbered layout (createdParts false (settings.defaultSlot .home ≠ "")
        (settings.defaultSlot .pool ≠ "" || qemuPool) false) first := by
  have hbase := numbered_defaultLayout hdefaults
  have hassigned : (if qemuPool && settings.defaultSlot .pool == "" then
      insertBeforeJournal (defaultLayout settings) .pool else some (defaultLayout settings)) =
      some layout := by
    simp only [runtimeAssignDefaultSlots, bind_eq_bind, bind_eq_some_iff] at h
    obtain ⟨efi, hefi, boot, hboot, root, hroot, home, hhome, pool, hpool, journal, hjournal,
      swap, hswap, zram, hzram, h⟩ := h
    obtain rfl := runtimeRequiredSlotFromEnv_eq hefi
    obtain rfl := runtimeRequiredSlotFromEnv_eq hboot
    obtain rfl := runtimeRequiredSlotFromEnv_eq hroot
    obtain rfl := runtimeOptionalSlotFromEnv_eq hhome
    obtain rfl := runtimeOptionalSlotFromEnv_eq hpool
    obtain rfl := runtimeRequiredSlotFromEnv_eq hjournal
    obtain rfl := runtimeRequiredSlotFromEnv_eq hswap
    obtain rfl := runtimeRequiredSlotFromEnv_eq hzram
    exact h
  by_cases hpool : settings.defaultSlot .pool = ""
  · cases qemuPool with
    | false =>
      simp only [Bool.false_and, Bool.false_eq_true, if_false, Option.some.injEq] at hassigned
      subst hassigned
      refine ⟨rfl, ?_⟩
      simpa only [Bool.or_false] using hbase
    | true =>
      rw [hpool] at hbase ⊢
      obtain ⟨inserted, hinserted, hdualboot, hnumbered⟩ := numbered_insertPool hbase hfirst hbound
      obtain rfl : inserted = layout := by simpa [hpool, hinserted] using hassigned
      exact ⟨hdualboot, hnumbered⟩
  · have hempty : (settings.defaultSlot .pool == "") = false := by simpa using hpool
    rw [hempty, Bool.and_false, if_neg (by decide)] at hassigned
    cases hassigned
    refine ⟨rfl, ?_⟩
    simpa [hpool] using hbase

theorem takeOptionalSlot_repr (wanted : Bool) (h : 0 < number) (hbound : number + 1 < 2 ^ 63) :
    takeOptionalSlot wanted (Nat.repr number) =
      some (if wanted then Nat.repr number else "", Nat.repr (number + wanted.toNat)) := by
  cases wanted with
  | false => rfl
  | true =>
    unfold takeOptionalSlot
    rw [if_pos rfl, arithmeticAdd_repr h hbound]
    rfl

theorem insertBeforeJournal_efi {inserted : SlotLayout}
    (h : insertBeforeJournal layout .varLibShsigned = some inserted) :
    inserted.slot .efi = layout.slot .efi := by
  simp only [insertBeforeJournal, bind_eq_bind, bind_eq_some_iff] at h
  obtain ⟨_, _, _, _, _, _, h⟩ := h
  cases h
  rfl

/-- The layout of counted slots, before the Secure Boot state is inserted. -/
def dualbootLayout (settings : SlotSettings) (first : ℕ) (home pool : Bool) : SlotLayout where
  dualbootEnabled := true
  slot
    | .efi => settings.dualbootEfi
    | .boot => Nat.repr first
    | .root => Nat.repr (first + 1)
    | .home => if home then Nat.repr (first + 2) else ""
    | .pool => if pool then Nat.repr (first + 2 + home.toNat) else ""
    | .varLogJournal => Nat.repr (first + 2 + home.toNat + pool.toNat)
    | .rawSwap => Nat.repr (first + 2 + home.toNat + pool.toNat + 1)
    | .rawZram => Nat.repr (first + 2 + home.toNat + pool.toNat + 2)
    | _ => ""

theorem numbered_dualbootLayout (settings : SlotSettings) (first : ℕ) (home pool : Bool) :
    Numbered (dualbootLayout settings first home pool) (createdParts true home pool false) first := by
  constructor
  · rw [← map_eq_createdSlots]
    cases home <;> cases pool <;> rfl
  · intro part hpart
    cases part with
    | efi => exact Or.inl ⟨rfl, rfl⟩
    | home | pool =>
      right
      simp only [createdParts, leadingParts, tailParts] at hpart
      simpa [dualbootLayout] using hpart
    | boot | root | varLogJournal | rawSwap | rawZram =>
      simp [createdParts, leadingParts, tailParts] at hpart
    | _ => exact Or.inr rfl

/-- Dual-boot slots are counted from the first Debian one. -/
theorem numbered_of_dualboot (hdebian : settings.dualbootDebian = Nat.repr first)
    (hfirst : 0 < first) (hbound : first + 12 < 2 ^ 63)
    (h : runtimeAssignDualbootSlots settings = some layout) :
    layout.dualbootEnabled = true ∧ layout.slot .efi = settings.dualbootEfi ∧
      Numbered layout (createdParts true (settings.defaultSlot .home ≠ "")
        (settings.defaultSlot .pool ≠ "") settings.secureBootStateLuks) first := by
  simp only [runtimeAssignDualbootSlots, bind_eq_bind, bind_eq_some_iff] at h
  obtain ⟨_, _, h⟩ := h
  generalize decide (settings.defaultSlot .home ≠ "") = home at h ⊢
  generalize decide (settings.defaultSlot .pool ≠ "") = pool at h ⊢
  have hcounts : home.toNat ≤ 1 ∧ pool.toNat ≤ 1 := ⟨Bool.toNat_le home, Bool.toNat_le pool⟩
  simp (disch := omega) only [hdebian, arithmeticAdd_repr, takeOptionalSlot_repr,
    Option.some.injEq, exists_eq_left'] at h
  have hassigned : (if settings.secureBootStateLuks then
      insertBeforeJournal (dualbootLayout settings first home pool) .varLibShsigned
    else some (dualbootLayout settings first home pool)) = some layout := h
  have hbase := numbered_dualbootLayout settings first home pool
  cases hluks : settings.secureBootStateLuks with
  | false =>
    rw [hluks, if_neg (by decide)] at hassigned
    cases hassigned
    exact ⟨rfl, rfl, hbase⟩
  | true =>
    rw [hluks, if_pos rfl] at hassigned
    obtain ⟨inserted, hinserted, hdualboot, hnumbered⟩ := numbered_insertState hbase hfirst hbound
    obtain rfl : inserted = layout := Option.some.inj (hinserted.symm.trans hassigned)
    exact ⟨hdualboot, insertBeforeJournal_efi hinserted, hnumbered⟩

theorem runtimeConfigureQemuPool_eq {qemuPool : Bool}
    (h : runtimeConfigureQemuPool settings = some qemuPool) :
    qemuPool = settings.qemuClassSelected := by
  unfold runtimeConfigureQemuPool at h
  split at h
  · rename_i hqemu
    simp only [bind_eq_bind, bind_eq_some_iff] at h
    obtain ⟨_, _, _, _, _, _, _, _, h⟩ := h
    rw [hqemu]
    exact (Option.some.inj h).symm
  · rename_i hqemu
    rw [← Option.some.inj h]
    simpa using hqemu

/-- The Secure Boot state is inserted where the assignment left it out. -/
def insertState (settings : SlotSettings) (assigned : SlotLayout) : Option SlotLayout :=
  if settings.secureBootStateLuks && assigned.slot .varLibShsigned == "" then
    insertBeforeJournal assigned .varLibShsigned
  else some assigned

/-- The steps of an accepted assignment. -/
theorem apply_eq_some (h : runtimeApplyLayoutFromCmdline settings = some layout) :
    ∃ assigned, insertState settings assigned = some layout ∧
      (settings.dualbootClassSelected = true ∧
          runtimeAssignDualbootSlots settings = some assigned ∨
        settings.dualbootClassSelected = false ∧
          runtimeAssignDefaultSlots settings settings.qemuClassSelected = some assigned) := by
  simp only [runtimeApplyLayoutFromCmdline, bind_eq_bind, bind_eq_some_iff] at h
  obtain ⟨qemuPool, hqemu, h⟩ := h
  obtain rfl := runtimeConfigureQemuPool_eq hqemu
  have hinsert : ∀ assigned : SlotLayout,
      (if settings.secureBootStateLuks && assigned.slot .varLibShsigned == "" then
          (insertBeforeJournal assigned .varLibShsigned).bind fun layout =>
            (runtimeValidateLayoutSlots layout).bind fun _ => some layout
        else (some assigned).bind fun layout =>
          (runtimeValidateLayoutSlots layout).bind fun _ => some layout) = some layout →
      insertState settings assigned = some layout := by
    intro assigned hassigned
    unfold insertState
    by_cases hstate : (settings.secureBootStateLuks && assigned.slot .varLibShsigned == "") = true
    all_goals
      simp only [hstate, if_true, if_false, Bool.false_eq_true, bind_eq_some_iff] at hassigned ⊢
      obtain ⟨inserted, hinserted, _, _, hlayout⟩ := hassigned
      exact hinserted.trans hlayout
  split at h
  · rename_i hdualboot
    simp only [bind_eq_some_iff] at h
    obtain ⟨_, _, _, _, _, _, assigned, hassigned, h⟩ := h
    exact ⟨assigned, hinsert assigned h, Or.inl ⟨hdualboot, hassigned⟩⟩
  · rename_i hdualboot
    simp only [bind_eq_some_iff] at h
    obtain ⟨_, _, assigned, hassigned, h⟩ := h
    exact ⟨assigned, hinsert assigned h, Or.inr ⟨by simpa using hdualboot, hassigned⟩⟩

/-- The slots of every accepted F2FS layout are consecutive. -/
theorem numbered_of_apply (hfirst : 0 < first) (hbound : first + 12 < 2 ^ 63)
    (hdebian : settings.dualbootClassSelected → settings.dualbootDebian = Nat.repr first)
    (hdefaults : ¬settings.dualbootClassSelected → consecutiveDefaults settings first)
    (h : runtimeApplyLayoutFromCmdline settings = some layout) :
    layout.dualbootEnabled = settings.dualbootClassSelected ∧
      (settings.dualbootClassSelected → layout.slot .efi = settings.dualbootEfi) ∧
      Numbered layout (createdParts settings.dualbootClassSelected
        (settings.defaultSlot .home ≠ "") (poolWanted settings) settings.secureBootStateLuks)
        first := by
  obtain ⟨assigned, hinsert, ⟨hdualboot, hassigned⟩ | ⟨hdualboot, hassigned⟩⟩ := apply_eq_some h
  · obtain ⟨henabled, hefi, hnumbered⟩ :=
      numbered_of_dualboot (hdebian hdualboot) hfirst hbound hassigned
    have hwanted : poolWanted settings = decide (settings.defaultSlot .pool ≠ "") := by
      simp [poolWanted, hdualboot]
    have hkept : assigned = layout := by
      unfold insertState at hinsert
      split at hinsert
      · rename_i hstate
        simp only [Bool.and_eq_true, beq_iff_eq] at hstate
        rw [hstate.1] at hnumbered
        have hmem : Part.varLibShsigned ∈ createdParts true (settings.defaultSlot .home ≠ "")
            (settings.defaultSlot .pool ≠ "") true := by
          simp [createdParts]
        obtain ⟨k, -, -, hslot⟩ := hnumbered.mem hmem
        rw [hstate.2] at hslot
        exact absurd hslot.symm Nat.repr_ne_empty
      · exact Option.some.inj hinsert
    subst hkept
    rw [hwanted, hdualboot]
    exact ⟨henabled, fun _ => hefi, hnumbered⟩
  · have hdefaults := hdefaults (by simp [hdualboot])
    obtain ⟨henabled, hnumbered⟩ := numbered_of_defaults hdefaults hfirst hbound hassigned
    have hwanted : poolWanted settings =
        (decide (settings.defaultSlot .pool ≠ "") || settings.qemuClassSelected) := by
      simp [poolWanted, hdualboot]
    have hempty : assigned.slot .varLibShsigned = "" := by
      have hunused := hnumbered.unused .varLibShsigned (by
        cases decide (settings.defaultSlot .home ≠ "") <;>
          cases (decide (settings.defaultSlot .pool ≠ "") || settings.qemuClassSelected) <;> decide)
      simpa [henabled] using hunused
    rw [hwanted, hdualboot]
    unfold insertState at hinsert
    rw [hempty, beq_self_eq_true, Bool.and_true] at hinsert
    cases hluks : settings.secureBootStateLuks with
    | false =>
      rw [hluks, if_neg (by decide)] at hinsert
      cases hinsert
      exact ⟨henabled, by simp, hnumbered⟩
    | true =>
      rw [hluks, if_pos rfl] at hinsert
      obtain ⟨inserted, hinserted, hkept, hnumbered⟩ :=
        numbered_insertState hnumbered hfirst hbound
      obtain rfl : inserted = layout := Option.some.inj (hinserted.symm.trans hinsert)
      exact ⟨hkept.trans henabled, by simp, hnumbered⟩

end F2fs

/-! ## The slots of a Btrfs layout -/

namespace Btrfs

/-- The default slots, or the slots of the configured paths, are consecutive
canonical decimals. -/
def consecutiveDefaults (settings : SlotSettings) (first : ℕ) : Prop :=
  parts.mapM (defaultSlotOrPath settings) = some (createdSlots first parts.length)

theorem numbered_default (first : ℕ) :
    Numbered (runtimeAssignDefaultSlots (createdSlots first parts.length)) parts first := by
  constructor
  · rw [← map_eq_createdSlots]
    rfl
  · intro part hpart
    cases part <;> exact absurd hpart (by decide)

theorem numbered_of_dualboot (hdebian : settings.dualbootDebian = Nat.repr first)
    (hfirst : 0 < first) (hbound : first + 12 < 2 ^ 63)
    (h : runtimeAssignDualbootSlots settings = some layout) :
    layout.dualbootEnabled = true ∧ layout.slot .efi = settings.dualbootEfi ∧
      Numbered layout (newParts true parts) first := by
  simp only [runtimeAssignDualbootSlots, bind_eq_bind, bind_eq_some_iff] at h
  obtain ⟨_, _, following, hfollowing, h⟩ := h
  have hcounted : (List.range' 1 10).mapM (arithmeticAdd settings.dualbootDebian) =
      some ((List.range' 1 10).map fun k => Nat.repr (first + k)) := by
    rw [hdebian]
    simp (disch := omega) only [List.range', List.mapM_cons, List.mapM_nil, arithmeticAdd_repr,
      bind_eq_bind, Option.bind_some, pure_def, List.map_cons, List.map_nil]
  rw [hcounted] at hfollowing
  cases hfollowing
  cases h
  refine ⟨rfl, rfl, ?_, ?_⟩
  · rw [← map_eq_createdSlots, hdebian]
    rfl
  · intro part hpart
    cases part with
    | efi => exact Or.inl ⟨rfl, rfl⟩
    | _ => exact absurd hpart (by decide)

end Btrfs

/-! ## The optional partitions with a size -/

namespace F2fs

/-- Shrinking the partitions of a list keeps a size of zero, and a positive size whose
floor is positive. -/
def KeepsSign (order : List Part) (floor before after : Sizes) : Prop :=
  ∀ part, (before part = 0 → after part = 0) ∧
    (0 < before part → (part ∈ order → 0 < floor part) → 0 < after part)

theorem KeepsSign.refl (order : List Part) (floor sizes : Sizes) :
    KeepsSign order floor sizes sizes :=
  fun _ => ⟨id, fun h _ => h⟩

variable {floor : Sizes}

theorem KeepsSign.cons {first : Part} {order : List Part} {before between after : Sizes}
    (hfirst : KeepsSign [first] floor before between)
    (hrest : KeepsSign order floor between after) :
    KeepsSign (first :: order) floor before after := by
  intro part
  constructor
  · intro hzero
    exact (hrest part).1 ((hfirst part).1 hzero)
  · intro hpositive hfloor
    refine (hrest part).2 ((hfirst part).2 hpositive fun hmem => ?_) fun hmem => ?_
    · exact hfloor (by simp [List.mem_singleton.mp hmem])
    · exact hfloor (List.mem_cons_of_mem _ hmem)

theorem shrinkPart_keepsSign {state after : Sizes × ℤ}
    (h : shrinkPart floor state part = some after) : KeepsSign [part] floor state.1 after.1 := by
  simp only [shrinkPart, bind_eq_bind, bind_eq_some_iff] at h
  obtain ⟨⟨size, rest⟩, hstep, h⟩ := h
  cases h
  intro other
  by_cases heq : other = part
  · subst heq
    simp only [Function.update_self, List.mem_singleton, forall_const]
    simp only [runtimeShrinkPartitionToFloor, requireNonnegative, bind_eq_bind,
      bind_eq_some_iff, guard_eq_some', exists_const] at hstep
    obtain ⟨⟨hcurrent, -⟩, ⟨hfloor, -⟩, hoverflow, hle, hstep⟩ := hstep
    split at hstep
    · cases hstep
      exact ⟨id, fun h _ => h⟩
    · split at hstep <;> cases hstep <;> constructor <;> intros <;> omega
  · simp only [Function.update_of_ne heq]
    exact ⟨id, fun h _ => h⟩

theorem shrinkRun_keepsSign {order : List Part} {state after : Sizes × ℤ}
    (h : order.foldlM (shrinkPart floor) state = some after) :
    KeepsSign order floor state.1 after.1 := by
  induction order generalizing state with
  | nil =>
    cases h
    exact KeepsSign.refl [] floor _
  | cons part order ih =>
    rw [List.foldlM_cons, bind_eq_bind, bind_eq_some_iff] at h
    obtain ⟨between, hstep, hrest⟩ := h
    exact (shrinkPart_keepsSign hstep).cons (ih hrest)

theorem shrinkToBudget_keepsSign {created order : List Part} {initial shrunk : Sizes} {usable : ℤ}
    (h : shrinkToBudget created order floor usable initial = some shrunk) :
    KeepsSign order floor initial shrunk := by
  unfold shrinkToBudget at h
  split at h
  · rw [bind_eq_bind, bind_eq_some_iff] at h
    obtain ⟨after, hrun, h⟩ := h
    cases h
    exact shrinkRun_keepsSign hrun
  · cases h
    exact KeepsSign.refl order floor _

/-- Filling changes only root and a home partition that has a size. -/
theorem fillToBudget_sign {created : List Part} {target shrunk sizes : Sizes} {usable : ℤ}
    (h : fillToBudget created (fillOrder shrunk) target usable shrunk = some sizes)
    (hpart : part ≠ .root) : 0 < sizes part ↔ 0 < shrunk part := by
  simp only [fillToBudget, bind_eq_bind, bind_eq_some_iff, guard_eq_some',
    exists_const] at h
  obtain ⟨-, ⟨filled, elastic⟩, hfilled, h⟩ := h
  cases h
  simp only [Function.update_of_ne hpart]
  unfold fillOrder at hfilled
  split at hfilled
  · rename_i hhome
    simp only [List.foldlM_cons, List.foldlM_nil, bind_eq_bind, bind_eq_some_iff] at hfilled
    obtain ⟨after, hstep, hfilled⟩ := hfilled
    cases hfilled
    simp only [fillPart, bind_eq_bind, bind_eq_some_iff] at hstep
    obtain ⟨⟨size, rest⟩, hfill, hstep⟩ := hstep
    obtain ⟨rfl, -⟩ := Prod.mk.inj (Option.some.inj hstep)
    by_cases heq : part = .home
    · subst heq
      simp only [Function.update_self]
      simp only [runtimeFillPartitionToTarget, bind_eq_bind, bind_eq_some_iff,
        guard_eq_some', exists_const] at hfill
      obtain ⟨_, _, _, hbudget, hfill⟩ := hfill
      constructor
      · exact fun _ => hhome
      · split at hfill
        · cases hfill
          exact id
        · split at hfill <;> cases hfill <;> omega
    · simp only [Function.update_of_ne heq]
  · simp only [List.foldlM_nil, pure_def, Option.some.injEq, Prod.mk.injEq] at hfilled
    rw [hfilled.1]

/-- The settings give an optional partition a slot exactly if they give it a size, and
its minimum keeps such a partition. -/
structure OptionalAgree (slots : SlotSettings) (sizes : SizeSettings) : Prop where
  home : slots.defaultSlot .home ≠ "" ↔ 0 < sizes.sizeMb .home
  pool : poolWanted slots = true ↔ 0 < sizes.sizeMb .pool
  state : slots.secureBootStateLuks = sizes.secureBootStateLuks
  minimum : ∀ part ∈ [Part.home, .pool], 0 < sizes.sizeMb part →
    0 < (sizes.minMb part).getD (minDefaultMb part)

theorem runtimeMin_pos {left right : ℤ} (hleft : 0 < left) (hright : 0 < right) :
    0 < runtimeMin left right := by
  unfold runtimeMin
  split
  · exact hleft
  · exact hright

theorem state_positive {settings : SizeSettings} {machine : Machine} {sizing : LayoutSizing}
    (h : runtimeComputeLayoutSizing settings machine = some sizing)
    (hluks : settings.secureBootStateLuks = true) : 0 < settings.sizeMb .varLibShsigned := by
  simp only [runtimeComputeLayoutSizing, requireSizes, hluks, if_true, bind_eq_bind,
    bind_eq_some_iff] at h
  obtain ⟨_, _, _, _, _, ⟨_, _, _, _, _, _, hstate⟩, _⟩ := h
  simp only [requirePositive, guard_eq_some'] at hstate
  exact_mod_cast hstate.1

/-- The optional partitions which a computed layout creates. -/
theorem optional_sizes {settings : SizeSettings} {machine : Machine} {sizing : LayoutSizing}
    (hminimum : ∀ part ∈ [Part.home, .pool], 0 < settings.sizeMb part →
      0 < (settings.minMb part).getD (minDefaultMb part))
    (h : runtimeComputeLayoutSizing settings machine = some sizing) :
    (0 < sizing.sizes .home ↔ 0 < settings.sizeMb .home) ∧
      (0 < sizing.sizes .pool ↔ 0 < settings.sizeMb .pool) ∧
      (0 < sizing.sizes .varLibShsigned ↔ settings.secureBootStateLuks = true) := by
  have hstate := state_positive h
  have hcomputed : f2fs.runtimeComputeLayoutSizing settings machine = some sizing := h
  obtain ⟨efi, swapMib, swap, zram, shrunk, -, -, hshrunk, hsizes, -, -⟩ :=
    compute_eq_some hcomputed
  have hkeeps := shrinkToBudget_keepsSign hshrunk
  have hfill : ∀ part, part ≠ .root → (0 < sizing.sizes part ↔ 0 < shrunk part) :=
    fun part hpart => fillToBudget_sign hsizes hpart
  have hsized : ∀ part ∈ [Part.home, .pool], (0 < shrunk part ↔ 0 < settings.sizeMb part) := by
    intro part hmem
    have hconfigured : f2fs.configuredMb settings efi swap zram part = settings.sizeMb part := by
      simp only [List.mem_cons, List.not_mem_nil, or_false] at hmem
      rcases hmem with rfl | rfl <;> rfl
    obtain ⟨hzero, hpositive⟩ := hkeeps part
    rw [hconfigured] at hzero hpositive
    constructor
    · intro hshrunk
      by_contra hnot
      have := hzero (by omega)
      omega
    · intro hsize
      refine hpositive (by exact_mod_cast hsize) fun _ => ?_
      have hmin := hminimum part hmem hsize
      exact runtimeMin_pos (by rw [hconfigured]; exact_mod_cast hsize) (by exact_mod_cast hmin)
  have hstateSized : 0 < shrunk .varLibShsigned ↔ settings.secureBootStateLuks = true := by
    have hnotShrunk : Part.varLibShsigned ∉ shrinkOrder machine.dualbootEnabled := by
      cases machine.dualbootEnabled <;> decide
    obtain ⟨hzero, hpositive⟩ := hkeeps .varLibShsigned
    have hconfigured : f2fs.configuredMb settings efi swap zram .varLibShsigned =
        if settings.secureBootStateLuks then (settings.sizeMb .varLibShsigned : ℤ) else 0 := rfl
    rw [hconfigured] at hzero hpositive
    cases hluks : settings.secureBootStateLuks with
    | false =>
      rw [hluks, if_neg (by decide)] at hzero
      have := hzero rfl
      simp [this]
    | true =>
      rw [hluks, if_pos rfl] at hpositive
      have hsize := hstate hluks
      simp only [iff_true]
      exact hpositive (by exact_mod_cast hsize) fun hmem => absurd hmem hnotShrunk
  refine ⟨?_, ?_, ?_⟩
  · rw [hfill .home (by decide), hsized .home (by decide)]
  · rw [hfill .pool (by decide), hsized .pool (by decide)]
  · rw [hfill .varLibShsigned (by decide), hstateSized]

end F2fs

/-! ## Slots and stanzas -/

namespace Btrfs

theorem dualbootAccepted_of_assign (h : runtimeAssignDualbootSlots settings = some layout) :
    dualbootArgumentsAccepted settings = some () := by
  simp only [runtimeAssignDualbootSlots, bind_eq_bind, bind_eq_some_iff] at h
  obtain ⟨_, haccepted, _⟩ := h
  exact haccepted

/-- The slots of an accepted Btrfs layout agree with its recipe, which always has every
partition. -/
theorem slotsAgree (sizes : Sizes) (hbound : first + 12 < 2 ^ 63)
    (hdebian : settings.dualbootClassSelected → settings.dualbootDebian = Nat.repr first)
    (hdefaults : ¬settings.dualbootClassSelected → consecutiveDefaults settings first)
    (h : runtimeApplyLayoutFromCmdline settings = some layout) :
    SlotsAgree layout (btrfs.emittedParts layout.dualbootEnabled sizes) := by
  have hemitted : ∀ dualboot, btrfs.emittedParts dualboot sizes = newParts dualboot parts :=
    fun dualboot => List.filter_eq_self.mpr (by simp)
  rw [hemitted]
  simp only [runtimeApplyLayoutFromCmdline, bind_eq_bind, bind_eq_some_iff] at h
  obtain ⟨_, _, slots, hslots, h⟩ := h
  split at h
  · rename_i hdualboot
    simp only [bind_eq_some_iff] at h
    obtain ⟨_, _, _, _, h⟩ := h
    have hefi := dualbootArguments_spec (hdebian hdualboot) (dualbootAccepted_of_assign h)
    obtain ⟨henabled, hreused, hnumbered⟩ :=
      numbered_of_dualboot (hdebian hdualboot) (by omega) hbound h
    rw [henabled]
    refine hnumbered.agree (by decide) (by rw [henabled]; rfl) fun _ => ⟨by decide, ?_⟩
    rw [hreused]
    exact hefi
  · rename_i hdualboot
    simp only [bind_eq_some_iff] at h
    obtain ⟨_, _, h⟩ := h
    cases h
    simp only [runtimeLoadDefaultSlotsFromEnv, bind_eq_bind, bind_eq_some_iff] at hslots
    obtain ⟨loaded, hloaded, _, _, hslots⟩ := hslots
    cases hslots
    obtain rfl := Option.some.inj ((hdefaults hdualboot).symm.trans hloaded)
    exact (numbered_default first).agree (by decide) rfl
      (fun h => absurd (show false = true from h) (by decide))

end Btrfs

namespace F2fs

theorem first_pos
    (hdebian : settings.dualbootClassSelected → settings.dualbootDebian = Nat.repr first)
    (hdefaults : ¬settings.dualbootClassSelected → consecutiveDefaults settings first)
    (h : runtimeApplyLayoutFromCmdline settings = some layout) :
    0 < first ∧ (settings.dualbootClassSelected →
      settings.dualbootEfi ≠ "" ∧ testValue settings.dualbootEfi < first) := by
  obtain ⟨assigned, -, ⟨hdualboot, hassigned⟩ | ⟨hdualboot, hassigned⟩⟩ := apply_eq_some h
  · simp only [runtimeAssignDualbootSlots, bind_eq_bind, bind_eq_some_iff] at hassigned
    obtain ⟨_, haccepted, _⟩ := hassigned
    have hefi := dualbootArguments_spec (hdebian hdualboot) haccepted
    exact ⟨by omega, fun _ => hefi⟩
  · simp only [runtimeAssignDefaultSlots, runtimeRequiredSlotFromEnv, bind_eq_bind,
      bind_eq_some_iff] at hassigned
    obtain ⟨_, ⟨_, hefi, _⟩, _⟩ := hassigned
    have hnumber := map_eq_createdSlots.mp (hdefaults (by simp [hdualboot])) 0 .efi rfl
    obtain ⟨-, hpositive⟩ := runtimeRequirePositiveInteger_iff.mp hefi
    rw [hnumber, testValue_repr] at hpositive
    exact ⟨by omega, by simp [hdualboot]⟩

/-- The slots of an accepted F2FS layout agree with its recipe when an optional
partition has a slot exactly if it has a size. -/
theorem slotsAgree {sizes : SizeSettings} {machine : Machine} {sizing : LayoutSizing}
    (hbound : first + 12 < 2 ^ 63)
    (hdebian : settings.dualbootClassSelected → settings.dualbootDebian = Nat.repr first)
    (hdefaults : ¬settings.dualbootClassSelected → consecutiveDefaults settings first)
    (hoptional : OptionalAgree settings sizes)
    (h : runtimeApplyLayoutFromCmdline settings = some layout)
    (hsizing : runtimeComputeLayoutSizing sizes machine = some sizing) :
    SlotsAgree layout (f2fs.emittedParts layout.dualbootEnabled sizing.sizes) := by
  obtain ⟨hfirst, hreused⟩ := first_pos hdebian hdefaults h
  obtain ⟨henabled, hefi, hnumbered⟩ := numbered_of_apply hfirst hbound hdebian hdefaults h
  obtain ⟨hhome, hpool, hstate⟩ := optional_sizes hoptional.minimum hsizing
  have hwanted : createdParts settings.dualbootClassSelected (settings.defaultSlot .home ≠ "")
      (poolWanted settings) settings.secureBootStateLuks =
      createdParts layout.dualbootEnabled (0 < sizing.sizes .home) (0 < sizing.sizes .pool)
        (0 < sizing.sizes .varLibShsigned) := by
    congr 1
    · exact henabled.symm
    · exact decide_eq_decide.mpr (hoptional.home.trans hhome.symm)
    · rw [Bool.eq_iff_iff, decide_eq_true_eq, hpool]
      exact hoptional.pool
    · rw [Bool.eq_iff_iff, decide_eq_true_eq, hstate, hoptional.state]
  rw [hwanted] at hnumbered
  rw [emittedParts_eq]
  refine hnumbered.agree (raw_subset_createdParts _ _ _ _) (head?_createdParts _ _ _ _) ?_
  intro hdualboot
  rw [henabled] at hdualboot
  rw [hefi hdualboot]
  refine ⟨?_, hreused hdualboot⟩
  rw [henabled, hdualboot]
  cases decide (0 < sizing.sizes .home) <;> cases decide (0 < sizing.sizes .pool) <;>
    cases decide (0 < sizing.sizes .varLibShsigned) <;> decide

end F2fs

/-- The slots and the sizes of a family are set up consistently: the slots from which
it numbers are consecutive canonical decimals, and an F2FS partition that can be left
out has a slot exactly if it has a size. -/
structure Consistent (family : Family) (slots : SlotSettings) (sizes : SizeSettings)
    (first : ℕ) : Prop where
  bound : first + 12 < 2 ^ 63
  debian : slots.dualbootClassSelected → slots.dualbootDebian = Nat.repr first
  defaults : ¬slots.dualbootClassSelected →
    match family with
    | .btrfs => Btrfs.consecutiveDefaults slots first
    | .f2fs => F2fs.consecutiveDefaults slots first
  optional : family = .f2fs → F2fs.OptionalAgree slots sizes

/-- Every accepted layout whose slots and sizes are consistent creates the partitions
of its recipe under the slots that its paths name. -/
theorem slots_agree_with_recipe (family : Family) (slots : SlotSettings) (sizes : SizeSettings)
    (machine : Machine) (layout : SlotLayout) (sizing : LayoutSizing) (first : ℕ)
    (hconsistent : Consistent family slots sizes first)
    (hlayout : family.applyLayout slots = some layout)
    (hsizing : family.runtimeComputeLayoutSizing sizes machine = some sizing) :
    SlotsAgree layout (family.emittedParts layout.dualbootEnabled sizing.sizes) := by
  cases family with
  | btrfs =>
    exact Btrfs.slotsAgree sizing.sizes hconsistent.bound hconsistent.debian hconsistent.defaults
      hlayout
  | f2fs =>
    exact F2fs.slotsAgree hconsistent.bound hconsistent.debian hconsistent.defaults
      (hconsistent.optional rfl) hlayout hsizing

/-! ## Concrete layouts -/

/-- An F2FS disk with a home partition at the fourth slot. -/
def f2fsHomeDisk (journal swap zram : String) : SlotSettings :=
  wholeDisk fun
    | .efi => "1" | .boot => "2" | .root => "3" | .home => "4" | .varLogJournal => journal
    | .rawSwap => swap | .rawZram => zram | _ => ""

/-- Small F2FS partitions with a home partition of the given size and no pool. -/
def homeSizes (homeMb : ℕ) : SizeSettings :=
  { Family.dataMayVanish with
    sizeMb := fun part =>
      match part with
      | .home => homeMb
      | .pool => 0
      | part => Family.dataMayVanish.sizeMb part
    minMb := fun part => if part = .home then some 512 else none }

/-- The numbers of an accepted layout agree with the numbers of its stanzas. -/
def stanzasNumbered (slots : SlotSettings) (sizes : SizeSettings) : Option Bool := do
  let layout ← Family.f2fs.applyLayout slots
  let sizing ← Family.f2fs.runtimeComputeLayoutSizing sizes (Family.emptyDisk 20100)
  let emitted := Family.f2fs.emittedParts layout.dualbootEnabled sizing.sizes
  return emitted.map layout.slot = createdSlots (firstCreated layout) emitted.length

theorem not_agree_of_stanzasNumbered {slots : SlotSettings} {sizes : SizeSettings}
    (h : stanzasNumbered slots sizes = some false) :
    ∃ layout sizing, f2fs.applyLayout slots = some layout ∧
      f2fs.runtimeComputeLayoutSizing sizes (emptyDisk 20100) = some sizing ∧
      ¬SlotsAgree layout (f2fs.emittedParts layout.dualbootEnabled sizing.sizes) := by
  simp only [stanzasNumbered, bind_eq_bind, bind_eq_some_iff] at h
  obtain ⟨layout, hlayout, sizing, hsizing, h⟩ := h
  refine ⟨layout, sizing, hlayout, hsizing, fun hagree => ?_⟩
  exact of_decide_eq_false (Option.some.inj h) hagree.numbered

/-- Slots with a gap are accepted, and so is a home slot without a size. -/
theorem slots_disagree_with_recipe :
    (∃ layout sizing, Family.f2fs.applyLayout (f2fsHomeDisk "6" "7" "8") = some layout ∧
      Family.f2fs.runtimeComputeLayoutSizing (homeSizes 1024) (Family.emptyDisk 20100) =
        some sizing ∧
      ¬SlotsAgree layout (Family.f2fs.emittedParts layout.dualbootEnabled sizing.sizes)) ∧
    ∃ layout sizing, Family.f2fs.applyLayout (f2fsHomeDisk "5" "6" "7") = some layout ∧
      Family.f2fs.runtimeComputeLayoutSizing (homeSizes 0) (Family.emptyDisk 20100) =
        some sizing ∧
      ¬SlotsAgree layout (Family.f2fs.emittedParts layout.dualbootEnabled sizing.sizes) :=
  ⟨not_agree_of_stanzasNumbered (by decide), not_agree_of_stanzasNumbered (by decide)⟩

theorem homeDisk_consistent :
    Consistent .f2fs (f2fsHomeDisk "5" "6" "7") (homeSizes 1024) 1 where
  bound := by decide
  debian h := absurd h (by decide)
  defaults _ := by
    unfold F2fs.consecutiveDefaults
    decide
  optional _ :=
    { home := by decide
      pool := by decide
      state := rfl
      minimum := by decide }

/-- A home partition with a slot and a size. -/
theorem home_slots_agree :
    ∃ (layout : SlotLayout) (sizing : LayoutSizing),
      Family.f2fs.applyLayout (f2fsHomeDisk "5" "6" "7") = some layout ∧
      SlotsAgree layout (Family.f2fs.emittedParts layout.dualbootEnabled sizing.sizes) := by
  obtain ⟨layout, hlayout⟩ := Option.isSome_iff_exists.mp
    (show (Family.f2fs.applyLayout (f2fsHomeDisk "5" "6" "7")).isSome by decide)
  obtain ⟨sizing, hsizing⟩ := Option.isSome_iff_exists.mp
    (show (Family.f2fs.runtimeComputeLayoutSizing (homeSizes 1024)
      (Family.emptyDisk 20100)).isSome by decide)
  exact ⟨layout, sizing, hlayout, slots_agree_with_recipe .f2fs _ _ _ layout sizing 1
    homeDisk_consistent hlayout hsizing⟩

end Preseed.Storage
