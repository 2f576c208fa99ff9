import Preseed.HardwareTuning.ResetOnLog

/-!
# Firmware profiles come first

A firmware profile may change every other control of its machine, so a reset restores
it before anything else. As long as a profile of the journal is neither restored nor
yielded to another manager the reset writes nothing else, and it keeps the baselines
of all other entries but those that it yields.
-/

namespace Preseed.HardwareTuning

open Effects List

/-- The control is a firmware profile selector, by its setting or, if it is missing from the
inventory, by its identifier. -/
def IsFirmware (inventory : Inventory) (key : String) : Prop :=
  inventory.hasSetting ["PLATFORM_PROFILE"] key = true ∨
    inventory.get? key = none ∧ isPlatformProfileId key = true

/-- A write comes after the firmware profiles: each of them was restored or is yielded, or the write
is to a firmware profile itself and the other one has answered all its readings so far. -/
def AfterFirmware (inventory : Inventory) (file : Journal) : Guard Hardware Journal Trace :=
  fun t _ op => ∀ key, op.target = some key → ∀ e ∈ file.entries, IsFirmware inventory e.id →
    e.id ≠ key → Resolved inventory t.log e ∨ Yielded inventory file t.log e ∨
      IsFirmware inventory key ∧ (inventory.get? e.id).isSome ∧ Untroubled t.log e.id

/-- What becomes of the journal: a firmware profile is restored or yielded, or every entry that is
not yielded is kept. -/
def KeepsWithFirmware (inventory : Inventory) (file mem : Journal) (t : Trace) : Prop :=
  ∀ e ∈ file.entries, IsFirmware inventory e.id →
    Restored inventory t.log e ∨ Yielded inventory file t.log e ∨
      ∀ e' ∈ file.entries, Yielded inventory file t.log e' ∨ Retained mem t e'

section

variable {inventory : Inventory} {file held mem : Journal} {scan : Scan} {visited : List String}
  {st st' : Restoration} {key : String} {value : Value} {t t' : Trace}

/-- An entry that the first pass could not sort is unresolved. -/
theorem mem_start_unresolved (inventory : Inventory) {e : Entry} (he : e ∈ file.entries)
    (hrestore : e.id ∉ scan.restore.map Prod.fst) (hyield : e.id ∉ scan.yielded) :
    e.id ∈ (scan.start inventory file).unresolved :=
  mem_filter.mpr ⟨mem_map_of_mem he, by simpa using ⟨by simpa using hrestore, hyield⟩⟩

/-- A firmware profile that the first pass could not sort bars the way for the rest. -/
theorem start_platformFailed {e : Entry} (he : e ∈ file.entries)
    (hfirmware : IsFirmware inventory e.id) (hrestore : e.id ∉ scan.restore.map Prod.fst) (hyield : e.id ∉ scan.yielded) :
    (scan.start inventory file).platformFailed = true := by
  refine any_eq_true.mpr ⟨e.id, mem_start_unresolved inventory he hrestore hyield, ?_⟩
  rcases hfirmware with hsetting | ⟨-, hid⟩
  · rw [hsetting, Bool.or_true]
  · rw [hid, Bool.true_or]

/-- The entry of a yielded control is yielded. -/
theorem LoopFacts.yielded_entry (h : LoopFacts inventory file scan visited st t)
    (hnodup : file.ids.Nodup) {e : Entry} (he : e ∈ file.entries) (hyield : e.id ∈ scan.yielded) :
    Yielded inventory file t.log e := by
  obtain ⟨e', he', hid, hyielded⟩ := h.given e.id hyield
  rwa [← inj_on_of_nodup_map hnodup he' he hid]

/-- A firmware profile to be restored is one by its setting. -/
theorem IsFirmware.setting (h : IsFirmware inventory key) (hknown : (inventory.get? key).isSome) :
    inventory.hasSetting ["PLATFORM_PROFILE"] key = true := by
  rcases h with hsetting | ⟨hnone, -⟩
  · exact hsetting
  · rw [hnone] at hknown
    cases hknown

/-- The writes of the restoring loop come after the firmware profiles. -/
private theorem afterFirmware_of_admits (hplain : inventory.PlainSelectors)
    (hnodup : file.ids.Nodup) (h : LoopFacts inventory file scan visited st t)
    (hvalue : scan.restore.lookup key = some value)
    (hturn : Turn inventory scan.restore visited key) (hadmits : st.Admits inventory key value)
    (hrestoring : t.Restoring t' key value) {op : Request} (hputs : op.Puts key value) :
    AfterFirmware inventory file t' held op := by
  intro key' htarget e he hfirmware hne
  obtain ⟨hfailed, -⟩ := hadmits
  obtain ⟨-, later, hlater, hall⟩ := hrestoring
  have hkey : key' = key := by
    rcases hputs with rfl | rfl <;> exact (Option.some.inj htarget).symm
  subst hkey
  rw [hlater]
  by_cases hyield : e.id ∈ scan.yielded
  · exact .inr (.inl ((h.yielded_entry hnodup he hyield).append later))
  by_cases hrestore : e.id ∈ scan.restore.map Prod.fst
  · have hsetting := hfirmware.setting (h.known e.id hrestore)
    by_cases hvisit : e.id ∈ visited
    · rcases h.settled e he hvisit with hretained | ⟨-, hresolved⟩
      · rw [h.flagged e.id hretained hsetting] at hfailed
        cases hfailed
      · exact .inl (hresolved.append later)
    · refine .inr (.inr ⟨.inl ?_, h.known e.id hrestore,
        (h.fresh e.id hrestore hvisit).append (Ne.symm hne) hall⟩)
      -- Otherwise the profile would have been visited before.
      by_contra hother
      rw [Bool.not_eq_true] at hother
      exact hvisit (hturn.firmware hplain hother hrestore hsetting)
  · rw [(h.barred (start_platformFailed he hfirmware hrestore hyield)).1] at hfailed
    cases hfailed

/-- When a control to restore has failed and a firmware profile is journaled, every control to
restore is retained. -/
theorem mem_retainedKeys_of_platformOwned {keys failed : List String}
    (howned : platformOwned inventory file = true) (hfailed : failed ≠ []) (hkey : key ∈ keys) :
    key ∈ retainedKeys inventory file keys failed := by
  refine mem_append_right _ (mem_filter.mpr ⟨hkey, ?_⟩)
  rw [howned, Bool.or_eq_true]
  exact .inl (by simpa using hfailed)

/-- What is left of the journal once nothing but yielded controls is dropped. -/
private theorem retained_of_dropped (h : LoopFacts inventory file scan visited st t)
    (hnodup : file.ids.Nodup) {later : List Exchange} (hlater : t'.log = t.log ++ later)
    (hmem : mem = (file.update (scan.restore.map Prod.fst) Entry.markPending).without
      (st'.dropped inventory file (scan.restore.map Prod.fst)))
    (hfile : t'.file = mem ∨ t'.file.baselines = file.baselines)
    (hdropped : ∀ k ∈ st'.dropped inventory file (scan.restore.map Prod.fst), k ∈ scan.yielded)
    {e : Entry} (he : e ∈ file.entries) :
    Yielded inventory file t'.log e ∨ Retained mem t' e := by
  by_cases hyield : e.id ∈ scan.yielded
  · exact .inl (hlater ▸ (h.yielded_entry hnodup he hyield).append later)
  · have hin : (e.id, e.before) ∈ file.baselines := mem_map_of_mem he
    have hheld : (e.id, e.before) ∈
        (file.update (scan.restore.map Prod.fst) Entry.markPending).baselines := by
      rwa [Journal.baselines_update file _ (f := Entry.markPending) fun _ => ⟨rfl, rfl⟩]
    have hleft : (e.id, e.before) ∈ mem.baselines := by
      rw [hmem]
      exact Journal.mem_baselines_without hheld fun hdrop => hyield (hdropped e.id hdrop)
    refine .inr ⟨hleft, ?_⟩
    rcases hfile with hnew | hold
    · rwa [hnew]
    · rwa [hold]

/-- At the end of a reset the baselines are kept with the firmware profile's. -/
private theorem keepsWithFirmware_final (hnodup : file.ids.Nodup)
    (hperm : visited.Perm (scan.restore.map Prod.fst))
    (h : LoopFacts inventory file scan visited st t)
    (hverified : Verified inventory file scan st st' t') {later : List Exchange}
    (hlater : t'.log = t.log ++ later)
    (hmem : mem = (file.update (scan.restore.map Prod.fst) Entry.markPending).without
      (st'.dropped inventory file (scan.restore.map Prod.fst)))
    (hfile : t'.file = mem ∨ t'.file.baselines = file.baselines) :
    KeepsWithFirmware inventory file mem t' := by
  intro e he hfirmware
  set keys := scan.restore.map Prod.fst with hkeys
  have hwithin : ∀ k ∈ st'.complete, k ∈ scan.yielded ∨ k ∈ keys := fun k hk =>
    (h.within k (hverified.sub hk)).imp_right hperm.mem_iff.mp
  have hkeep : (∀ k ∈ st'.dropped inventory file keys, k ∈ scan.yielded) →
      ∀ e' ∈ file.entries, Yielded inventory file t'.log e' ∨ Retained mem t' e' :=
    fun hdropped e' he' => retained_of_dropped h hnodup hlater hmem hfile hdropped he'
  by_cases hyield : e.id ∈ scan.yielded
  · exact .inr (.inl (hlater ▸ (h.yielded_entry hnodup he hyield).append later))
  by_cases hrestore : e.id ∈ keys
  · have hsetting := hfirmware.setting (h.known e.id hrestore)
    have howned : platformOwned inventory file = true := by
      obtain ⟨knob, hknob, hset⟩ := Inventory.hasSetting_iff.mp hsetting
      refine any_eq_true.mpr ⟨knob, Inventory.mem_of_get? hknob, ?_⟩
      rw [Inventory.id_of_get? hknob]
      simpa using ⟨hset, mem_map_of_mem he⟩
    by_cases hall : ∀ k ∈ keys, k ∈ st'.complete
    · exact .inl (hverified.checked e he (hall e.id hrestore) hyield)
    · refine .inr (.inr (hkeep fun k hk => ?_))
      obtain ⟨hcomplete, hnot⟩ := mem_filter.mp hk
      refine (hwithin k hcomplete).resolve_right fun hin => ?_
      have hfailed : (keys.filter fun key => key ∉ st'.complete) ≠ [] := by
        intro hnil
        refine hall fun k hk => ?_
        simpa using filter_eq_nil_iff.mp hnil k hk
      exact (of_decide_eq_true hnot) (mem_retainedKeys_of_platformOwned howned hfailed hin)
  · -- The profile could not even be read.
    have hbarred := (h.barred (start_platformFailed he hfirmware hrestore hyield)).2
    exact .inr (.inr (hkeep fun k hk => hbarred k (hverified.sub (mem_of_mem_filter hk))))

/-- A reset restores firmware profiles first, whatever it reads and whatever fails. -/
theorem wp_reset_firmware (hplain : inventory.PlainSelectors) (hnodup : file.ids.Nodup) :
    wp observed (AfterFirmware inventory file) (reset inventory)
      (fun _ mem t => KeepsWithFirmware inventory file mem t) file ⟨file, []⟩ := by
  refine wp_reset_logged hplain hnodup ?_ ?_ ?_ ?_
  · intro t s op hpassive key htarget
    rw [hpassive] at htarget
    cases htarget
  · intro scan held visited st t key value h _ hvalue hturn hadmits t' op hrestoring hputs
    exact afterFirmware_of_admits hplain hnodup h hvalue hturn hadmits hrestoring hputs
  · intro err mem t hmem hfile e he _
    refine .inr (.inr fun e' he' => .inr ?_)
    have hin : (e'.id, e'.before) ∈ file.baselines := mem_map_of_mem he'
    exact ⟨hmem ▸ hin, hfile ▸ hin⟩
  · rintro scan visited st st' t t' mem x hperm h hverified ⟨later, hlater⟩ - hmem hfile
    exact keepsWithFirmware_final hnodup hperm h hverified hlater hmem hfile

/-- Loading a journal changes no selector. -/
theorem Inventory.PlainSelectors.adopt (h : inventory.PlainSelectors) (journal : Journal) :
    (inventory.adopt journal).PlainSelectors := by
  rintro knob hknob hsetting
  obtain ⟨knob', hknob', rfl⟩ := mem_map.mp hknob
  obtain ⟨_, hadopt⟩ := adopt_eq journal knob'
  rw [hadopt] at hsetting ⊢
  exact h knob' hknob' hsetting

end

/-- A reset writes to another control only after every firmware profile of its journal is restored
or yielded, or before the profile was attempted if it writes to another profile; and unless a
profile ends restored or yielded, every other entry is kept or yielded as well. -/
theorem firmware_comes_first (inventory : Inventory) (file : Journal)
    (hplain : inventory.PlainSelectors) (loaded : Inventory)
    (hload : loadEngine inventory file = .ok loaded) :
    (∀ t p mem op, Program.Steps observed ⟨file, []⟩ (reset loaded file) t p →
      p.issued? = some (mem, op) → AfterFirmware loaded file t mem op) ∧
    ∀ t x mem, Program.Steps observed ⟨file, []⟩ (reset loaded file) t (.done (x, mem)) →
      KeepsWithFirmware loaded file mem t := by
  obtain ⟨rfl, hnodup⟩ := loadEngine_ok hload
  have hsafe := wp_reset_firmware (hplain.adopt file) hnodup
  exact ⟨fun t p mem op hrun hissued => hsafe.guard hrun hissued,
    fun t x mem hrun => hsafe.result hrun⟩

/-- A machine with a firmware profile selector, and two controls of its CPU policy. -/
def profileInventory : Inventory where
  knobs := [plainKnob "firmware/platform-profile-0/profile" "PLATFORM_PROFILE"
      ["balanced", "performance"] [],
    plainKnob "policy0/energy_performance_preference" "CPU_EPP" ["performance", "power"] [],
    plainKnob "policy0/scaling_governor" "CPU_GOVERNOR" ["performance", "powersave"] []]
  nodup := by decide
  paired := by simp [plainKnob]

/-- The journal of an apply that has set all three of them to `performance`. -/
def profileJournal : Journal where
  profile := some .performance
  entries := [("firmware/platform-profile-0/profile", "balanced"),
    ("policy0/energy_performance_preference", "power"),
    ("policy0/scaling_governor", "powersave")].map fun e =>
      { id := e.1, before := .text e.2, requested := some (.text "performance"),
        last := some (.text "performance"), pending := false }

theorem profile_loaded :
    loadEngine profileInventory profileJournal = .ok (profileInventory.adopt profileJournal) :=
  loadEngine_of_isOk (by decide)

theorem profile_plain : profileInventory.PlainSelectors := by
  intro knob hknob _
  simp only [profileInventory, mem_cons, not_mem_nil, or_false] at hknob
  rcases hknob with rfl | rfl | rfl <;> rfl

/-- The rule at this machine. -/
theorem firmware_comes_first_profile :
    (∀ t p mem op, Program.Steps observed ⟨profileJournal, []⟩
        (reset (profileInventory.adopt profileJournal) profileJournal) t p →
      p.issued? = some (mem, op) →
      AfterFirmware (profileInventory.adopt profileJournal) profileJournal t mem op) ∧
    ∀ t x mem, Program.Steps observed ⟨profileJournal, []⟩
        (reset (profileInventory.adopt profileJournal) profileJournal) t (.done (x, mem)) →
      KeepsWithFirmware (profileInventory.adopt profileJournal) profileJournal mem t :=
  firmware_comes_first profileInventory profileJournal profile_plain _ profile_loaded

/-- The profile cannot be read, and another manager has changed the energy preference. -/
def profileUnreadable (_ : List Exchange) (key : String) : Except Failure Value :=
  if key = "firmware/platform-profile-0/profile" then .error ⟨.osError, "read failed"⟩
  else if key = "policy0/scaling_governor" then .ok (.text "performance")
  else .ok (.text "balance_power")

/-- A reset may drop the baseline of a control that nobody has changed while the firmware profile
cannot be read: the governor is yielded together with the energy preference. -/
theorem yielded_without_firmware :
    ¬∀ (inventory : Inventory) (file : Journal) loaded t x mem, inventory.PlainSelectors →
      loadEngine inventory file = .ok loaded →
      Program.Steps observed ⟨file, []⟩ (reset loaded file) t (.done (x, mem)) →
      ∀ e ∈ file.entries, IsFirmware loaded e.id →
        (∃ err, (readings t.log e.id).head? = some (.error err)) →
        ∀ e' ∈ file.entries, e'.id ≠ e.id → Retained mem t e' := by
  intro h
  set run := resetWith profileUnreadable (profileInventory.adopt profileJournal) profileJournal
    with hrun
  have hsteps := resetWith_steps profileUnreadable (profileInventory.adopt profileJournal)
    profileJournal
  rw [← hrun] at hsteps
  obtain ⟨⟨x, mem⟩, hresult⟩ : ∃ y, run.2.result? = some y :=
    Option.isSome_iff_exists.mp (by decide)
  rw [Program.eq_done_of_result? hresult] at hsteps
  have hread : ((readings run.1.log "firmware/platform-profile-0/profile").head?.map
      Except.toOption) = some none := by decide
  have hleft : run.1.file.ids = ["firmware/platform-profile-0/profile"] := by decide
  obtain ⟨e, he, hid⟩ : ∃ e ∈ profileJournal.entries,
      e.id = "firmware/platform-profile-0/profile" := by decide
  obtain ⟨e', he', hid'⟩ : ∃ e' ∈ profileJournal.entries, e'.id = "policy0/scaling_governor" := by
    decide
  have hfirmware : IsFirmware (profileInventory.adopt profileJournal) e.id := by
    rw [hid]
    exact .inl (by decide)
  have hfailed : ∃ err, (readings run.1.log e.id).head? = some (.error err) := by
    rw [hid]
    cases hhead : (readings run.1.log "firmware/platform-profile-0/profile").head? with
    | none => simp [hhead] at hread
    | some answer =>
      cases answer with
      | error err => exact ⟨err, rfl⟩
      | ok value => simp [hhead, Except.toOption] at hread
  have hne : e'.id ≠ e.id := by
    rw [hid, hid']
    decide
  obtain ⟨-, hkept⟩ :=
    h _ _ _ _ _ _ profile_plain profile_loaded hsteps e he hfirmware hfailed e' he' hne
  have hin : e'.id ∈ run.1.file.ids := by
    obtain ⟨e'', he'', heq⟩ := List.mem_map.mp hkept
    simp only [Prod.mk.injEq] at heq
    exact List.mem_map.mpr ⟨e'', he'', heq.1⟩
  rw [hleft, hid'] at hin
  simp at hin

end Preseed.HardwareTuning
