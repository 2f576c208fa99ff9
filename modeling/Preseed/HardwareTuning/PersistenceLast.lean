import Preseed.HardwareTuning.FirmwareFirst

/-!
# The persistence mode is released last

Restoring the other controls of a GPU needs its persistence mode. A reset switches the
mode off only when every other control of the device has been restored or yielded, and
drops its entry only with theirs, unless the final verification finds one of them
changed once more.
-/

namespace Preseed.HardwareTuning

open Effects List

/-- The control is another one of the device of a persistence mode. -/
def OnDevice (inventory : Inventory) (device key : String) : Prop :=
  startsWith key (devicePrefix device) = true ∧
    inventory.hasSetting ["PERSISTENCE_MODE"] key = false

/-- The persistence mode of a device is switched off after its other controls were restored or
yielded. -/
def ReleasesLast (inventory : Inventory) (file : Journal) : Guard Hardware Journal Trace :=
  fun t _ op => ∀ key, op.Puts key (.int 0) →
    inventory.hasSetting ["PERSISTENCE_MODE"] key = true → ∀ e ∈ file.entries,
      OnDevice inventory key e.id → Resolved inventory t.log e ∨ Yielded inventory file t.log e

/-- The final verification has found the control changed after it was restored. -/
def Strayed (inventory : Inventory) (log : List Exchange) (e : Entry) : Prop :=
  Resolved inventory log e ∧ Astray log e

/-- What becomes of the journal when the entry of a switched-off persistence mode is dropped: every
other entry of the device is dropped as well, unless the final verification has found it, or a
control of its domain, changed after it was restored. -/
def DroppedLast (inventory : Inventory) (file mem : Journal) (t : Trace) : Prop :=
  ∀ p ∈ file.entries, inventory.hasSetting ["PERSISTENCE_MODE"] p.id = true → p.before = .int 0 →
    p.id ∉ mem.ids → Yielded inventory file t.log p ∨
      ∀ e ∈ file.entries, OnDevice inventory p.id e.id → Yielded inventory file t.log e ∨
        Resolved inventory t.log e ∧ (e.id ∈ mem.ids → ∃ f ∈ file.entries,
          (f = e ∨ sharesDomain inventory f.id e.id = true) ∧
            (OnDevice inventory p.id f.id → Strayed inventory t.log f))

section

variable {inventory : Inventory} {file held mem : Journal} {scan : Scan} {visited : List String}
  {st st' : Restoration} {key : String} {value : Value} {t t' : Trace}

/-- The other controls of the device are restored or yielded, once none of them is unresolved. -/
private theorem settled_device (h : LoopFacts inventory file scan visited st t) {device : String}
    (hresolved : ∀ k ∈ st.unresolved, ¬OnDevice inventory device k)
    (hvisited : ∀ k ∈ scan.restore.map Prod.fst,
      inventory.hasSetting ["PERSISTENCE_MODE"] k = false → k ∈ visited)
    {e : Entry} (he : e ∈ file.entries) (hdevice : OnDevice inventory device e.id) :
    e.id ∈ scan.yielded ∨ e.id ∈ st.complete ∧ Resolved inventory t.log e := by
  by_cases hyield : e.id ∈ scan.yielded
  · exact .inl hyield
  by_cases hrestore : e.id ∈ scan.restore.map Prod.fst
  · have hvisit := hvisited e.id hrestore hdevice.2
    rcases h.settled e he hvisit with hretained | hdone
    · exact (hresolved e.id hretained hdevice).elim
    · exact .inr hdone
  · have hstart := mem_start_unresolved inventory he hrestore hyield
    exact (hresolved e.id (h.inherited hstart) hdevice).elim

/-- A write that switches a persistence mode off comes after the rest of its device. -/
private theorem releasesLast_of_admits (hplain : inventory.PlainSelectors)
    (hnodup : file.ids.Nodup) (h : LoopFacts inventory file scan visited st t)
    (hvalue : scan.restore.lookup key = some value)
    (hturn : Turn inventory scan.restore visited key) (hadmits : st.Admits inventory key value)
    (hrestoring : t.Restoring t' key value) {op : Request} (hputs : op.Puts key value) :
    ReleasesLast inventory file t' held op := by
  intro key' hoff hsetting e he hdevice
  obtain ⟨-, later, hlater, -⟩ := hrestoring
  have hsame : key' = key ∧ value = .int 0 := by
    rcases hputs with rfl | rfl <;> rcases hoff with hoff | hoff <;> cases hoff <;> exact ⟨rfl, rfl⟩
  obtain ⟨rfl, rfl⟩ := hsame
  have hswitch : SwitchesOff inventory key' (.int 0) := ⟨hsetting, rfl⟩
  have hnone : ∀ k ∈ st.unresolved, ¬OnDevice inventory key' k := by
    rintro k hk ⟨hstarts, -⟩
    rw [hadmits.2 hswitch k hk] at hstarts
    cases hstarts
  rw [hlater]
  rcases settled_device h hnone
    (fun k hk hother => hturn.persistence hplain hswitch hvalue hk hother) he hdevice with
    hyield | ⟨-, hresolved⟩
  · exact .inr ((h.yielded_entry hnodup he hyield).append later)
  · exact .inl (hresolved.append later)

/-- An entry of the journal is dropped exactly with its control. -/
theorem Journal.mem_ids_without {journal : Journal} {complete : List String} {e : Entry}
    (he : e ∈ journal.entries) : e.id ∈ (journal.without complete).ids ↔ e.id ∉ complete := by
  constructor
  · intro hmem
    obtain ⟨e', he', hid⟩ := mem_map.mp hmem
    have hnot := (mem_filter.mp he').2
    rw [hid] at hnot
    simpa using hnot
  · intro hnot
    exact mem_map.mpr ⟨e, mem_filter.mpr ⟨he, by simpa using hnot⟩, rfl⟩

/-- The dropped entries of a journal with some entries marked. -/
theorem Journal.mem_ids_update_without {complete keys : List String} {f : Entry → Entry}
    (hf : ∀ e, (f e).id = e.id) {e : Entry} (he : e ∈ file.entries) :
    e.id ∈ ((file.update keys f).without complete).ids ↔ e.id ∉ complete := by
  have hin : e.id ∈ (file.update keys f).ids := by
    rw [Journal.update_ids file keys f hf]
    exact mem_map_of_mem he
  obtain ⟨e', he', hid⟩ := mem_map.mp hin
  rw [← hid]
  exact Journal.mem_ids_without he'

/-- At the end of a reset the entry of a persistence mode is dropped with those of its device. -/
private theorem droppedLast_final (hnodup : file.ids.Nodup)
    (hperm : visited.Perm (scan.restore.map Prod.fst))
    (h : LoopFacts inventory file scan visited st t)
    (hverified : Verified inventory file scan st st' t') {later : List Exchange}
    (hlater : t'.log = t.log ++ later)
    (hentries : ∀ kv ∈ scan.restore, ∃ e ∈ file.entries, e.id = kv.1 ∧ e.before = kv.2)
    (hmem : mem = (file.update (scan.restore.map Prod.fst) Entry.markPending).without
      (st'.dropped inventory file (scan.restore.map Prod.fst))) :
    DroppedLast inventory file mem t' := by
  intro p hp hsetting hbefore hgone
  set keys := scan.restore.map Prod.fst with hkeys
  have hids : ∀ e ∈ file.entries, e.id ∈ mem.ids ↔ e.id ∉ st'.dropped inventory file keys := by
    intro e he
    rw [hmem]
    exact Journal.mem_ids_update_without (f := Entry.markPending) (fun _ => rfl) he
  have hdropped : p.id ∈ st'.dropped inventory file keys := by
    by_contra hnot
    exact hgone ((hids p hp).mpr hnot)
  obtain ⟨hcomplete', hfree⟩ := mem_filter.mp hdropped
  have hcomplete := hverified.sub hcomplete'
  by_cases hyield : p.id ∈ scan.yielded
  · exact .inl (hlater ▸ (h.yielded_entry hnodup hp hyield).append later)
  refine .inr fun e he hdevice => ?_
  -- The persistence mode was switched off, so that nothing of its device was left unresolved.
  have hkey : p.id ∈ keys := hperm.mem_iff.mp ((h.within p.id hcomplete).resolve_left hyield)
  obtain ⟨value, hvalue⟩ := lookup_isSome_of_mem hkey
  obtain ⟨p', hp', hid', hbefore'⟩ := hentries _ (mem_of_lookup hvalue)
  obtain rfl : p' = p := inj_on_of_nodup_map hnodup hp' hp hid'
  obtain ⟨hvisited, hleft⟩ := h.released p'.id hcomplete hyield
    ⟨value, hvalue, hsetting, by rw [← hbefore, hbefore']⟩
  have hnone : ∀ k ∈ st.unresolved, ¬OnDevice inventory p'.id k := by
    rintro k hk ⟨hstarts, hother⟩
    rw [hleft k hk hstarts] at hother
    cases hother
  have hstrayed : ∀ f ∈ file.entries, f.id ∉ st'.complete → OnDevice inventory p'.id f.id →
      Strayed inventory t'.log f := by
    intro f hf hlost hfdevice
    rcases settled_device h hnone hvisited hf hfdevice with hfyield | ⟨hdone, hresolved⟩
    · exact (hlost (hverified.yields f.id hfyield)).elim
    · exact ⟨hlater ▸ hresolved.append later, hverified.astray f hf hdone hlost⟩
  rcases settled_device h hnone hvisited he hdevice with heyield | ⟨-, hresolved⟩
  · exact .inl (hlater ▸ (h.yielded_entry hnodup he heyield).append later)
  refine .inr ⟨hlater ▸ hresolved.append later, fun hkept => ?_⟩
  have hnot := (hids e he).mp hkept
  by_cases hlost : e.id ∈ st'.complete
  · -- The control is kept for another one of its domain.
    have hretained : e.id ∈ retainedKeys inventory file keys
        (keys.filter fun key => key ∉ st'.complete) := by
      by_contra hcon
      exact hnot (mem_filter.mpr ⟨hlost, by simpa using hcon⟩)
    rcases mem_append.mp hretained with hfailed | hdomain
    · exact absurd hlost (by simpa using (mem_filter.mp hfailed).2)
    obtain ⟨-, hshares⟩ := mem_filter.mp hdomain
    rw [Bool.or_eq_true] at hshares
    rcases hshares with howned | hshares
    · rw [Bool.and_eq_true] at howned
      have hfailed : (keys.filter fun key => key ∉ st'.complete) ≠ [] := by
        intro hnil
        rw [hnil] at howned
        exact absurd howned.2 (by decide)
      exact absurd (mem_retainedKeys_of_platformOwned howned.1 hfailed hkey)
        (of_decide_eq_true hfree)
    · obtain ⟨k, hk, hshares⟩ := any_eq_true.mp hshares
      obtain ⟨hk, hklost⟩ := mem_filter.mp hk
      obtain ⟨kv, hkv, rfl⟩ := mem_map.mp hk
      obtain ⟨f, hf, hfid, -⟩ := hentries kv hkv
      refine ⟨f, hf, .inr (hfid ▸ hshares), hstrayed f hf ?_⟩
      rw [hfid]
      exact of_decide_eq_true hklost
  · exact ⟨e, he, .inl rfl, hstrayed e he hlost⟩

/-- A reset releases the persistence mode last, whatever it reads and whatever fails. -/
theorem wp_reset_persistence (hplain : inventory.PlainSelectors) (hnodup : file.ids.Nodup) :
    wp observed (ReleasesLast inventory file) (reset inventory)
      (fun _ mem t => DroppedLast inventory file mem t) file ⟨file, []⟩ := by
  refine wp_reset_logged hplain hnodup ?_ ?_ ?_ ?_
  · intro t s op hpassive key hputs
    rcases hputs with rfl | rfl <;> cases hpassive
  · intro scan held visited st t key value h _ hvalue hturn hadmits t' op hrestoring hputs
    exact releasesLast_of_admits hplain hnodup h hvalue hturn hadmits hrestoring hputs
  · intro err mem t hmem _ p hp _ _ hgone
    have hin : (p.id, p.before) ∈ mem.baselines := hmem ▸ mem_map_of_mem hp
    obtain ⟨e, he, heq⟩ := mem_map.mp hin
    exact (hgone (mem_map.mpr ⟨e, he, congrArg Prod.fst heq⟩)).elim
  · rintro scan visited st st' t t' mem x hperm h hverified ⟨later, hlater⟩ hentries hmem -
    exact droppedLast_final hnodup hperm h hverified hlater hentries hmem

end

/-- In every attempt a reset switches a persistence mode off only after the other controls of its
device are restored or yielded; and if it drops the entry of a switched-off mode, it drops those of
the device as well, unless its final verification has found one of them, or a control of its domain,
changed after it was restored. -/
theorem persistence_released_last (inventory : Inventory) (file : Journal)
    (hplain : inventory.PlainSelectors) (loaded : Inventory)
    (hload : loadEngine inventory file = .ok loaded) :
    (∀ t p mem op, Program.Steps observed ⟨file, []⟩ (reset loaded file) t p →
      p.issued? = some (mem, op) → ReleasesLast loaded file t mem op) ∧
    ∀ t x mem, Program.Steps observed ⟨file, []⟩ (reset loaded file) t (.done (x, mem)) →
      DroppedLast loaded file mem t := by
  obtain ⟨rfl, hnodup⟩ := loadEngine_ok hload
  have hsafe := wp_reset_persistence (hplain.adopt file) hnodup
  exact ⟨fun t p mem op hrun hissued => hsafe.guard hrun hissued,
    fun t x mem hrun => hsafe.result hrun⟩

/-- A GPU with its persistence mode and automatic boost, both of them switches. -/
def gpuInventory : Inventory where
  knobs := [("GPU-0/PERSISTENCE_MODE", "PERSISTENCE_MODE"), ("GPU-0/AUTO_BOOST", "AUTO_BOOST")].map
    fun control => { plainKnob control.1 control.2 [] [] with
      minimum := some 0, maximum := some 1, unit := "boolean" }
  nodup := by decide
  paired := by simp [plainKnob]

/-- The journal of an apply that has switched persistence on and automatic boost off. -/
def gpuJournal : Journal where
  profile := some .performance
  entries := [("GPU-0/AUTO_BOOST", 1, 0), ("GPU-0/PERSISTENCE_MODE", 0, 1)].map fun e =>
    { id := e.1, before := .int e.2.1, requested := some (.int e.2.2), last := some (.int e.2.2),
      pending := false }

theorem gpu_plain : gpuInventory.PlainSelectors := by
  intro knob hknob _
  obtain ⟨control, -, rfl⟩ := mem_map.mp hknob
  rfl

theorem gpu_loaded : loadEngine gpuInventory gpuJournal = .ok (gpuInventory.adopt gpuJournal) :=
  loadEngine_of_isOk (by decide)

/-- The rule at this GPU. -/
theorem persistence_released_last_gpu :
    (∀ t p mem op, Program.Steps observed ⟨gpuJournal, []⟩
        (reset (gpuInventory.adopt gpuJournal) gpuJournal) t p →
      p.issued? = some (mem, op) →
      ReleasesLast (gpuInventory.adopt gpuJournal) gpuJournal t mem op) ∧
    ∀ t x mem, Program.Steps observed ⟨gpuJournal, []⟩
        (reset (gpuInventory.adopt gpuJournal) gpuJournal) t (.done (x, mem)) →
      DroppedLast (gpuInventory.adopt gpuJournal) gpuJournal mem t :=
  persistence_released_last gpuInventory gpuJournal gpu_plain _ gpu_loaded

/-- The driver forgets the automatic boost when persistence is switched off. -/
def gpuForgets (log : List Exchange) (key : String) : Except Failure Value :=
  let written (id : String) (value : Value) := log.any fun x => x.op = .write id value
  if key = "GPU-0/PERSISTENCE_MODE" then
    .ok (.int (if written "GPU-0/PERSISTENCE_MODE" (.int 0) then 0 else 1))
  else .ok (.int (if written "GPU-0/AUTO_BOOST" (.int 1) ∧
    ¬written "GPU-0/PERSISTENCE_MODE" (.int 0) then 1 else 0))

/-- Another manager has switched persistence off, and the automatic boost cannot be read. -/
def gpuForeign (_ : List Exchange) (key : String) : Except Failure Value :=
  if key = "GPU-0/PERSISTENCE_MODE" then .ok (.int 0) else .error ⟨.osError, "read failed"⟩

/-- The entry of the persistence mode is gone, and that of the automatic boost is left. -/
def BoostStranded (values : List Exchange → String → Except Failure Value) : Prop :=
  (resetWith values (gpuInventory.adopt gpuJournal) gpuJournal).2.result?.map
    (fun y => y.2.ids) = some ["GPU-0/AUTO_BOOST"]

private theorem released_of_stranded {values : List Exchange → String → Except Failure Value}
    (hstranded : BoostStranded values) :
    ¬∀ (inventory : Inventory) (file : Journal) loaded t x mem, inventory.PlainSelectors →
      loadEngine inventory file = .ok loaded →
      Program.Steps observed ⟨file, []⟩ (reset loaded file) t (.done (x, mem)) →
      ∀ p ∈ file.entries, loaded.hasSetting ["PERSISTENCE_MODE"] p.id = true →
        p.before = .int 0 → p.id ∉ mem.ids →
        ∀ e ∈ file.entries, OnDevice loaded p.id e.id → e.id ∉ mem.ids := by
  intro h
  have hsteps := resetWith_steps values (gpuInventory.adopt gpuJournal) gpuJournal
  obtain ⟨⟨x, mem⟩, hresult, hids⟩ := Option.map_eq_some_iff.mp hstranded
  rw [Program.eq_done_of_result? hresult] at hsteps
  simp only at hids
  obtain ⟨p, hp, hid, hbefore⟩ : ∃ p ∈ gpuJournal.entries,
      p.id = "GPU-0/PERSISTENCE_MODE" ∧ p.before = .int 0 := by decide
  obtain ⟨e, he, hid'⟩ : ∃ e ∈ gpuJournal.entries, e.id = "GPU-0/AUTO_BOOST" := by decide
  refine h _ _ _ _ _ _ gpu_plain gpu_loaded hsteps p hp ?_ hbefore ?_ e he ?_ ?_
  · rw [hid]
    decide
  · rw [hid, hids]
    decide
  · rw [hid, hid']
    exact ⟨by decide, by decide⟩
  · rw [hid', hids]
    decide

/-- A reset may drop the persistence mode and keep the automatic boost: when the driver forgets the
boost together with persistence, and when another manager has switched persistence off. -/
theorem boost_stranded_without_persistence : BoostStranded gpuForgets ∧ BoostStranded gpuForeign ∧
    ¬∀ (inventory : Inventory) (file : Journal) loaded t x mem, inventory.PlainSelectors →
      loadEngine inventory file = .ok loaded →
      Program.Steps observed ⟨file, []⟩ (reset loaded file) t (.done (x, mem)) →
      ∀ p ∈ file.entries, loaded.hasSetting ["PERSISTENCE_MODE"] p.id = true →
        p.before = .int 0 → p.id ∉ mem.ids →
        ∀ e ∈ file.entries, OnDevice loaded p.id e.id → e.id ∉ mem.ids := by
  have hforgets : BoostStranded gpuForgets := by
    unfold BoostStranded
    decide
  have hforeign : BoostStranded gpuForeign := by
    unfold BoostStranded
    decide
  exact ⟨hforgets, hforeign, released_of_stranded hforgets⟩

end Preseed.HardwareTuning
