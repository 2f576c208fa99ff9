import Preseed.HardwareTuning.WriteAheadApply

/-!
# The recovery that completes

A reset without faults and without another writer, started from a sound journal file.
A write takes effect on its target; it may still change other controls as a side
effect, but none that the reset has already found at its baseline. Then the reset
comes to an end, every journaled control reads its baseline, and the journal is empty.
-/

namespace Preseed.HardwareTuning

open Effects List

/-- Some entry of the journal has this value as its control's baseline. -/
def Journal.restores (journal : Journal) (key : String) (value : Value) : Bool :=
  journal.entries.any fun e => e.id = key ∧ e.before = value

/-- A machine without faults under a reset. Next to the machine stand the controls that the reset
has read at their baselines since its last save. -/
def faultless (inventory : Inventory) :
    Environment Hardware Journal (Machine × List String) := fun w _ op =>
  match op with
  | .read key => fun (answer : Except Failure Value) w' =>
    answer = .ok (w.1.hw key) ∧
      w' = (w.1, if w.1.durable.restores key (w.1.hw key) then key :: w.2 else w.2)
  | .write key value | .restoreValue key value => fun (answer : Except Failure Unit) w' =>
    answer = .ok () ∧ ∃ hw', w' = ({ w.1 with hw := hw' }, w.2) ∧
      (inventory.restorable key → hw' key = value) ∧
      (∀ other ∈ w.2, other ≠ key → hw' other = w.1.hw other) ∧ inventory.NumericPairs hw'
  | .save journal => fun (answer : Except Failure Unit) w' =>
    answer = .ok () ∧ w' = (w.1.saved journal, [])
  | .writeMaximum _ | .temperature | .checkOwnership _ => fun _ w' => w' = w

/-- Loading a journal changes nothing about how the machine behaves. -/
theorem faultless_adopt (inventory : Inventory) (journal : Journal) :
    faultless (inventory.adopt journal) = faultless inventory := by
  funext w mem op
  cases op with
  | write | restoreValue =>
    simp only [faultless, Inventory.restorable_adopt, Inventory.numericPairs_adopt]
    rfl
  | read | save | temperature | checkOwnership | writeMaximum => rfl

/-- A journal a reset can recover from: its controls are there, each once, and the baselines of
paired controls are numbers. -/
structure Journal.Recoverable (inventory : Inventory) (journal : Journal) : Prop where
  /-- No control is journaled twice. -/
  nodup : journal.ids.Nodup
  /-- Every journaled control is one of the inventory. -/
  known : ∀ e ∈ journal.entries, (inventory.get? e.id).isSome
  /-- The baselines of paired controls are numbers. -/
  numeric : ∀ e ∈ journal.entries, ∀ knob, inventory.get? e.id = some knob → knob.pair.isSome →
    ∃ n, e.before = .int n

/-- The situation while a faultless reset restores and verifies: the journal file holds the
intent, and what has been read at its baseline is still there. -/
structure Restoring (inventory : Inventory) (held : Journal) (w : Machine × List String) :
    Prop where
  /-- The journal file holds the intent. -/
  durable : w.1.durable = held
  /-- A control that was read at its baseline still reads it. -/
  settled : ∀ e ∈ held.entries, inventory.restorable e.id → e.id ∈ w.2 → w.1.hw e.id = e.before
  /-- Paired controls read numbers. -/
  numeric : inventory.NumericPairs w.1.hw

section Reset

variable {inventory : Inventory} {held s : Journal} {w w' : Machine × List String}

/-- Two entries of one control are the same entry. -/
theorem Journal.Recoverable.eq_of_id (hrec : held.Recoverable inventory) {e e' : Entry}
    (he : e ∈ held.entries) (he' : e' ∈ held.entries) (hid : e.id = e'.id) : e = e' :=
  inj_on_of_nodup_map hrec.nodup he he' hid

/-- A reading answers, and settles a control that reads its baseline. -/
theorem Restoring.read (h : Restoring inventory held w) (hrec : held.Recoverable inventory)
    {key : String} {answer : Except Failure Value}
    (hread : faultless inventory w s (.read key) answer w') :
    answer = .ok (w.1.hw key) ∧ w'.1 = w.1 ∧ Restoring inventory held w' ∧ w.2 ⊆ w'.2 ∧
      ∀ e ∈ held.entries, e.id = key → e.before = w.1.hw key → key ∈ w'.2 := by
  obtain ⟨rfl, rfl⟩ := hread
  have hsub : w.2 ⊆ if w.1.durable.restores key (w.1.hw key) then key :: w.2 else w.2 := by
    split
    · exact subset_cons_self key w.2
    · exact List.Subset.refl _
  refine ⟨rfl, rfl, ⟨h.durable, fun e he hrestorable hmem => ?_, h.numeric⟩, hsub,
    fun e he hid hbefore => ?_⟩
  · split at hmem
    · rename_i hbase
      rcases mem_cons.mp hmem with hid | hmem
      · rw [h.durable] at hbase
        obtain ⟨e', he', hat⟩ := any_eq_true.mp hbase
        obtain ⟨hid', hbefore'⟩ := of_decide_eq_true hat
        cases hrec.eq_of_id he he' (hid.trans hid'.symm)
        rw [hid, hbefore']
      · exact h.settled e he hrestorable hmem
    · exact h.settled e he hrestorable hmem
  · have hbase : w.1.durable.restores key (w.1.hw key) = true := by
      rw [h.durable]
      exact any_eq_true.mpr ⟨e, he, by simp [hid, hbefore]⟩
    simp [hbase]

/-- Writing a baseline back takes effect, and disturbs nothing that is settled. -/
theorem Restoring.write (h : Restoring inventory held w) (hrec : held.Recoverable inventory)
    {e : Entry} (he : e ∈ held.entries) {op : Request}
    (hop : op = .write e.id e.before ∨ op = .restoreValue e.id e.before) :
    (faultless inventory).enabled w s op ∧
      ∀ (answer : Except Failure op.Reply) w', faultless inventory w s op answer w' →
        (∃ reply, answer = .ok reply) ∧ Restoring inventory held w' ∧ w'.2 = w.2 ∧
          (inventory.restorable e.id → w'.1.hw e.id = e.before) := by
  have hexists : ∃ hw' : String → Value, (inventory.restorable e.id → hw' e.id = e.before) ∧
      (∀ other ∈ w.2, other ≠ e.id → hw' other = w.1.hw other) ∧ inventory.NumericPairs hw' := by
    refine ⟨fun key => if key = e.id then e.before else w.1.hw key, by simp, ?_, ?_⟩
    · intro other _ hne
      simp [hne]
    · intro key knob hknob hpair
      by_cases hid : key = e.id
      · subst hid
        simpa using hrec.numeric e he knob hknob hpair
      · simpa [hid] using h.numeric key knob hknob hpair
  have hafter : ∀ hw' : String → Value, (inventory.restorable e.id → hw' e.id = e.before) →
      (∀ other ∈ w.2, other ≠ e.id → hw' other = w.1.hw other) → inventory.NumericPairs hw' →
      Restoring inventory held ({ w.1 with hw := hw' }, w.2) := by
    intro hw' htarget hothers hnumeric
    refine ⟨h.durable, fun e' he' hrestorable hmem => ?_, hnumeric⟩
    by_cases hid : e'.id = e.id
    · cases hrec.eq_of_id he' he hid
      exact htarget hrestorable
    · rw [← h.settled e' he' hrestorable hmem]
      exact hothers e'.id hmem hid
  obtain ⟨hw', hhw'⟩ := hexists
  rcases hop with rfl | rfl
  · refine ⟨⟨.ok (), ({ w.1 with hw := hw' }, w.2), rfl, hw', rfl, hhw'⟩, ?_⟩
    rintro answer w' ⟨rfl, hw'', rfl, htarget, hothers, hnumeric⟩
    exact ⟨⟨(), rfl⟩, hafter hw'' htarget hothers hnumeric, rfl, htarget⟩
  · refine ⟨⟨.ok (), ({ w.1 with hw := hw' }, w.2), rfl, hw', rfl, hhw'⟩, ?_⟩
    rintro answer w' ⟨rfl, hw'', rfl, htarget, hothers, hnumeric⟩
    exact ⟨⟨(), rfl⟩, hafter hw'' htarget hothers hnumeric, rfl, htarget⟩

/-- A faultless reading finds an answer. -/
theorem faultless_read_enabled (key : String) :
    (faultless inventory).enabled w s (.read key) :=
  ⟨_, _, rfl, rfl⟩

/-- Writing back succeeds, and leaves the control settled. -/
theorem wp_writeBack_faultless (h : Restoring inventory held w)
    (hrec : held.Recoverable inventory) {e : Entry} (he : e ∈ held.entries) {knob : Knob}
    (hknob : inventory.get? e.id = some knob) :
    wp (faultless inventory) (faultless inventory).enabled (writeBack knob e.id e.before)
      (fun x s' w' => x = .ok () ∧ s' = s ∧ Restoring inventory held w' ∧ w.2 ⊆ w'.2 ∧
        (inventory.restorable e.id → e.id ∈ w'.2)) s w := by
  have hres := Inventory.restorable_of_get? hknob
  -- The readback, once the control reads its baseline.
  have hcheck : ∀ w₁ text, Restoring inventory held w₁ → w.2 ⊆ w₁.2 →
      (inventory.restorable e.id → w₁.1.hw e.id = e.before) →
      wp (faultless inventory) (faultless inventory).enabled
        (checkReadback knob e.id e.before text)
        (fun x s' w' => x = .ok () ∧ s' = s ∧ Restoring inventory held w' ∧ w.2 ⊆ w'.2 ∧
          (inventory.restorable e.id → e.id ∈ w'.2)) s w₁ := by
    intro w₁ text h₁ hsub hbefore
    refine wp_checkReadback (fun hrestorable => ⟨faultless_read_enabled e.id, ?_⟩) fun hfixed => ?_
    · intro answer w₂ hread
      obtain ⟨rfl, -, h₂, hsub₂, hsettle⟩ := h₁.read hrec hread
      have hhw := hbefore (hres ▸ hrestorable)
      refine ⟨by simp, ?_⟩
      rintro _ ⟨⟩
      rw [if_pos hhw]
      exact ⟨rfl, rfl, h₂, fun k hk => hsub₂ (hsub hk), fun _ => hsettle e he rfl hhw.symm⟩
    · refine ⟨rfl, rfl, h₁, hsub, fun hrestorable => ?_⟩
      rw [hres, hfixed] at hrestorable
      exact absurd hrestorable Bool.false_ne_true
  refine wp_writeBack_steps (R := fun w₁ => Restoring inventory held w₁ ∧ w.2 ⊆ w₁.2)
    (D := fun w₁ => Restoring inventory held w₁ ∧ w.2 ⊆ w₁.2 ∧
      (inventory.restorable e.id → w₁.1.hw e.id = e.before))
    (fun _ => ⟨faultless_read_enabled e.id, fun answer w₁ hread => ?_⟩)
    (fun _ => ⟨h, List.Subset.refl _⟩) (fun op hop w₁ ⟨h₁, hsub⟩ => ?_)
    fun w₁ text ⟨h₁, hsub, hhw⟩ => hcheck w₁ text h₁ hsub hhw
  · obtain ⟨rfl, hsame, h₁, hsub, -⟩ := h.read hrec hread
    refine ⟨nofun, ?_⟩
    rintro current ⟨⟩
    exact ⟨⟨h₁, hsub⟩, fun heq => ⟨h₁, hsub, fun _ => by rw [hsame, heq]⟩⟩
  · obtain ⟨henabled, hanswers⟩ := h₁.write (s := s) hrec he hop
    refine ⟨henabled, fun answer w' hans => ?_⟩
    obtain ⟨hreply, h', hsame, hhw⟩ := hanswers answer w' hans
    refine ⟨fun err herr => ?_, fun _ => ⟨h', hsame ▸ hsub, hhw⟩⟩
    obtain ⟨reply, hok⟩ := hreply
    rw [herr] at hok
    cases hok

/-- The restoring loop restores a control. -/
theorem wp_restoreOne_faultless (h : Restoring inventory held w)
    (hrec : held.Recoverable inventory) {e : Entry} (he : e ∈ held.entries) {st : Restoration}
    (hunresolved : st.unresolved = []) (hplatform : st.platformFailed = false) :
    wp (faultless inventory) (faultless inventory).enabled
      (restoreOne inventory st e.id e.before)
      (fun x s' w' => x = .ok { st with complete := st.complete.insert e.id } ∧ s' = s ∧
        Restoring inventory held w' ∧ w.2 ⊆ w'.2 ∧
          (inventory.restorable e.id → e.id ∈ w'.2)) s w := by
  obtain ⟨knob, hknob⟩ := Option.isSome_iff_exists.mp (hrec.known e he)
  unfold restoreOne
  simp only [hknob, hplatform, hunresolved, any_nil, Bool.false_eq_true, if_false, and_false]
  rw [wp_handleIf, wp_bind]
  refine wp_mono (wp_writeBack_faultless h hrec he hknob) ?_
  rintro x s' w' ⟨rfl, rfl, hrest⟩
  exact ⟨rfl, rfl, hrest⟩

/-- The final verification confirms every restored control. -/
theorem wp_verifyAll_faultless {journal : Journal} {st : Restoration} {keys : List String}
    (hrec : held.Recoverable inventory) (h : Restoring inventory held w)
    (hkeys : ∀ key ∈ keys, ∃ e ∈ journal.entries, e.id = key)
    (hheld : ∀ e ∈ journal.entries, ∃ e' ∈ held.entries, e'.id = e.id ∧ e'.before = e.before)
    (hsettled : ∀ key ∈ keys, inventory.restorable key → key ∈ w.2) :
    wp (faultless inventory) (faultless inventory).enabled
      (Act.fold (verifyOne inventory journal) st keys)
      (fun x s' w' => x = .ok st ∧ s' = s ∧ Restoring inventory held w' ∧ w.2 ⊆ w'.2) s w := by
  refine wp_fold (fun rest st' s' w' => st' = st ∧ s' = s ∧ Restoring inventory held w' ∧
    w.2 ⊆ w'.2 ∧ rest ⊆ keys) ⟨rfl, rfl, h, List.Subset.refl _, List.Subset.refl _⟩ ?_ ?_
  · rintro key rest st' s' w' ⟨rfl, rfl, h', hsub, hrest⟩
    have hkey := hrest mem_cons_self
    have hrest' : rest ⊆ keys := fun k hk => hrest (mem_cons_of_mem _ hk)
    obtain ⟨e₀, he₀, hid₀⟩ := hkeys key hkey
    obtain ⟨entry, hentry⟩ := Journal.exists_entry? (mem_map.mpr ⟨e₀, he₀, hid₀⟩ :
      key ∈ journal.ids)
    obtain ⟨hmem, hid⟩ := Journal.entry?_eq_some hentry
    obtain ⟨e, he, heid, hebefore⟩ := hheld entry hmem
    have hekey : e.id = key := heid.trans hid
    obtain ⟨knob, hknob⟩ := Option.isSome_iff_exists.mp (hekey ▸ hrec.known e he)
    unfold verifyOne
    rw [hknob, hentry]
    dsimp only
    rw [wp_handleIf, wp_bind]
    refine wp_checkReadback (fun hrestorable => ⟨faultless_read_enabled key, ?_⟩) fun _ => ?_
    · intro answer w₁ hread
      obtain ⟨rfl, -, h₁, hsub₁, -⟩ := h'.read hrec hread
      refine ⟨by simp, ?_⟩
      rintro _ ⟨⟩
      have hres : inventory.restorable key := by
        rwa [Inventory.restorable_of_get? hknob]
      have hhw : w'.1.hw key = entry.before := by
        rw [← hebefore, ← hekey]
        refine h'.settled e he (hekey ▸ hres) ?_
        rw [hekey]
        exact hsub (hsettled key hkey hres)
      rw [if_pos hhw]
      exact ⟨rfl, rfl, h₁, fun k hk => hsub₁ (hsub hk), hrest'⟩
    · exact ⟨rfl, rfl, h', hsub, hrest'⟩
  · rintro st' s' w' ⟨rfl, rfl, h', hsub, -⟩
    exact ⟨rfl, rfl, h', hsub⟩

/-- The second half of a faultless reset, after a first pass that sorted every control among
those to restore. -/
theorem wp_restoreScanned_faultless {journal : Journal} {scan : Scan}
    (hrec : journal.Recoverable inventory) (hyielded : scan.yielded = [])
    (hfailures : scan.failures = [])
    (hrestore : ∀ kv ∈ scan.restore, ∃ e ∈ journal.entries, e.id = kv.1 ∧ e.before = kv.2)
    (horder : (scan.restore.map Prod.fst).Sublist journal.ids)
    (hall : ∀ e ∈ journal.entries, e.id ∈ scan.restore.map Prod.fst)
    (hdurable : w.1.durable = journal)
    (hnumeric : inventory.NumericPairs w.1.hw) :
    wp (faultless inventory) (faultless inventory).enabled
      (restoreScanned inventory journal scan)
      (fun x s' w' => (∃ done, x = .ok done ∧ done.failures = []) ∧ s'.entries = [] ∧
        w'.1.durable = s' ∧ ∀ e ∈ journal.entries, inventory.restorable e.id →
          w'.1.hw e.id = e.before) journal w := by
  unfold restoreScanned
  rw [yieldDomains_of_nil hyielded]
  obtain ⟨restore, yielded, failures⟩ := scan
  dsimp only at hyielded hfailures hrestore horder hall ⊢
  subst hyielded hfailures
  rw [dedup_nil]
  set keys := restore.map Prod.fst with hkeys
  set held := journal.update keys Entry.markPending with hheld
  have hmark : ∀ e ∈ journal.entries, ∃ e' ∈ held.entries, e'.id = e.id ∧ e'.before = e.before := by
    intro e he
    exact ⟨e.markPending, Journal.mem_update.mpr ⟨e, he, by simp [hall e he]⟩, rfl, rfl⟩
  have hheldRec : held.Recoverable inventory := by
    refine ⟨?_, ?_, ?_⟩
    · rw [hheld, Journal.update_ids journal keys Entry.markPending fun _ => rfl]
      exact hrec.nodup
    · intro e he
      obtain ⟨e', he', rfl⟩ := Journal.mem_update.mp he
      split <;> exact hrec.known e' he'
    · intro e he
      obtain ⟨e', he', rfl⟩ := Journal.mem_update.mp he
      split <;> exact hrec.numeric e' he'
  have hkeysNodup : keys.Nodup := horder.nodup hrec.nodup
  have hentry : ∀ key value, (key, value) ∈ restore →
      ∃ e ∈ held.entries, e.id = key ∧ e.before = value := by
    intro key value hkv
    obtain ⟨e, he, hid, hbefore⟩ := hrestore (key, value) hkv
    obtain ⟨e', he', hid', hbefore'⟩ := hmark e he
    exact ⟨e', he', hid'.trans hid, hbefore'.trans hbefore⟩
  have hknown : ∀ key ∈ keys, (inventory.get? key).isSome := by
    intro key hkey
    obtain ⟨kv, hkv, rfl⟩ := mem_map.mp hkey
    obtain ⟨e, he, hid, -⟩ := hentry kv.1 kv.2 hkv
    exact hid ▸ hheldRec.known e he
  have hunresolved : (journal.ids.filter fun key => key ∉ keys ∧ key ∉ ([] : List String)) = [] := by
    refine filter_eq_nil_iff.mpr fun key hkey => ?_
    obtain ⟨e, he, rfl⟩ := mem_map.mp hkey
    simp [hall e he]
  rw [hunresolved]
  -- The loops, once the intent is saved.
  have hloops : ∀ w, Restoring inventory held w →
      wp (faultless inventory) (faultless inventory).enabled (do
        let st ← ordered inventory restore ⟨[], [], [], false⟩ (restoreOne inventory)
        let st ← Act.fold (verifyOne inventory journal) st
          (sortedKeys (st.complete.filter fun key => key ∉ ([] : List String)))
        let failed := keys.filter fun key => key ∉ st.complete
        let retained := retainedKeys inventory journal keys failed
        let complete := st.complete.filter fun key => key ∉ retained
        Act.modify (·.without complete)
        let j ← Act.get
        saveJournal j
        pure (⟨complete, [], st.failures⟩ : ResetOutcome))
        (fun x s' w' => (∃ done, x = .ok done ∧ done.failures = []) ∧ s'.entries = [] ∧
          w'.1.durable = s' ∧ ∀ e ∈ journal.entries, inventory.restorable e.id →
            w'.1.hw e.id = e.before) held w := by
    intro w h
    rw [wp_bind]
    refine wp_ordered hkeysNodup hknown (fun visited st s' w' => s' = held ∧
      Restoring inventory held w' ∧ st.unresolved = [] ∧ st.failures = [] ∧
      st.platformFailed = false ∧ (∀ key ∈ visited, key ∈ st.complete) ∧
      ∀ key ∈ st.complete, key ∈ keys ∧ (inventory.restorable key → key ∈ w'.2))
      ⟨rfl, h, rfl, rfl, rfl, by simp, by simp⟩ ?_ ?_ ?_
    · rintro visited st s' w' lo hi low ⟨rfl, h', hrest⟩ ⟨a, b, ha, hb, hpair, hsame, -⟩ hlow
      refine ⟨faultless_read_enabled hi, fun answer w'' hread => ?_⟩
      obtain ⟨rfl, -, h'', hsub, -⟩ := h'.read hheldRec hread
      obtain ⟨hun, hfa, hpl, hvis, hcom⟩ := hrest
      refine ⟨fun e hgt => ?_, fun _ => ⟨rfl, h'', hun, hfa, hpl, hvis, fun key hkey =>
        ⟨(hcom key hkey).1, fun hres => hsub ((hcom key hkey).2 hres)⟩⟩⟩
      -- Numbers compare.
      obtain ⟨e', he', hid', hbefore'⟩ := hentry lo low (mem_of_lookup hlow)
      obtain ⟨n, hn⟩ := hheldRec.numeric e' he' a (hid' ▸ ha) hpair
      obtain ⟨k, hk⟩ := h'.numeric hi b hb (hsame ▸ hpair)
      rw [hbefore'] at hn
      rw [hk, hn] at hgt
      cases hgt
    · rintro visited st s' w' key value ⟨rfl, h', hun, hfa, hpl, hvis, hcom⟩ - hvalue
      have hkv := mem_of_lookup hvalue
      obtain ⟨e, he, rfl, rfl⟩ := hentry key value hkv
      refine wp_mono (wp_restoreOne_faultless h' hheldRec he hun hpl) ?_
      rintro x s'' w'' ⟨rfl, rfl, h'', hsub, hdone⟩
      refine ⟨rfl, h'', hun, hfa, hpl, fun k hk => ?_, fun k hk => ?_⟩
      · rcases mem_append.mp hk with hk | hk
        · exact mem_insert_of_mem (hvis k hk)
        · rw [mem_singleton.mp hk]
          exact mem_insert_self
      · rcases mem_insert_iff.mp hk with rfl | hk
        · exact ⟨mem_map_of_mem hkv, hdone⟩
        · exact ⟨(hcom k hk).1, fun hres => hsub ((hcom k hk).2 hres)⟩
    · rintro visited st s' w' hcover ⟨rfl, h', -, hfa, -, hvis, hcom⟩
      rw [outcome_ok, wp_bind]
      have hcomplete : ∀ key ∈ sortedKeys (st.complete.filter fun key => key ∉ ([] : List String)),
          key ∈ st.complete := fun key hkey => mem_of_mem_filter (mem_sortedKeys.mp hkey)
      have hmem : ∀ e ∈ journal.entries, e.id ∈ st.complete := fun e he =>
        hvis e.id (hcover.mem_iff.mpr (hall e he))
      refine wp_mono (wp_verifyAll_faultless hheldRec h' (fun key hkey => ?_) hmark
        fun key hkey => (hcom key (hcomplete key hkey)).2) ?_
      · obtain ⟨kv, hkv, rfl⟩ := mem_map.mp (hcom key (hcomplete key hkey)).1
        obtain ⟨e, he, hid, -⟩ := hrestore kv hkv
        exact ⟨e, he, hid⟩
      rintro x s'' w'' ⟨rfl, rfl, h'', hsub⟩
      have hnofail : (keys.filter fun key => key ∉ st.complete) = [] := by
        refine filter_eq_nil_iff.mpr fun key hkey => ?_
        simpa using hvis key (hcover.mem_iff.mpr hkey)
      rw [outcome_ok]
      simp only [hnofail, retainedKeys_nil, not_mem_nil, not_false_eq_true, decide_true,
        filter_true, wp_bind, wp_modify, outcome_ok, wp_get,
        wp_saveJournal]
      refine ⟨⟨.ok (), _, rfl, rfl⟩, fun answer w₃ hsave => ?_⟩
      obtain ⟨rfl, rfl⟩ := hsave
      refine ⟨⟨_, rfl, hfa⟩, ?_, rfl, fun e he hres => ?_⟩
      · refine filter_eq_nil_iff.mpr fun e he => ?_
        obtain ⟨e', he', rfl⟩ := Journal.mem_update.mp he
        have hid : (if e'.id ∈ keys then e'.markPending else e').id = e'.id := by
          split <;> rfl
        simpa [hid] using hmem e' he'
      · obtain ⟨e', he', hid', hbefore'⟩ := hmark e he
        rw [← hbefore', ← hid']
        refine h''.settled e' he' (hid' ▸ hres) ?_
        rw [hid']
        exact hsub ((hcom e.id (hmem e he)).2 hres)
  rw [wp_bind, wp_modify, outcome_ok, wp_bind, wp_when]
  refine ⟨fun _ => ?_, fun hnil => ?_⟩
  · rw [wp_saveJournal]
    refine ⟨⟨.ok (), _, rfl, rfl⟩, fun answer w' hsave => ?_⟩
    obtain ⟨rfl, rfl⟩ := hsave
    exact hloops _ ⟨rfl, by simp, hnumeric⟩
  · rw [not_not] at hnil
    have hempty : keys = [] := by rw [hkeys, hnil, map_nil]
    have hentries : journal.entries = [] := by
      refine eq_nil_iff_forall_not_mem.mpr fun e he => ?_
      have hkey := hall e he
      simp [hempty] at hkey
    have hsame : held = journal := by simp [hheld, hempty, Journal.update]
    exact hloops w ⟨hdurable.trans hsame.symm, by simp [hsame, hentries], hnumeric⟩

/-- A faultless reset from a sound journal file succeeds: it comes to an end with every journaled
control at its baseline and an empty journal file. -/
theorem wp_reset_faultless {m : Machine} (hsound : m.Sound inventory True) :
    wp (faultless inventory) (faultless inventory).enabled (reset inventory)
      (fun x _ w' => (∃ report, x = .ok report) ∧ w'.1.durable.entries = [] ∧
        ∀ e ∈ m.durable.entries, inventory.restorable e.id → w'.1.hw e.id = e.before)
      m.durable (m, []) := by
  have hrec : m.durable.Recoverable inventory := by
    refine ⟨hsound.kept.nodup, hsound.kept.known, fun e he knob hknob hpair => ?_⟩
    rw [hsound.kept.before e he]
    exact hsound.numericBaseline e.id knob hknob hpair
  unfold reset resetCore
  simp only [wp_bind, wp_get, outcome_ok]
  have hscan : wp (faultless inventory) (faultless inventory).enabled
      (Act.fold (scanOne inventory) ⟨[], [], []⟩ m.durable.entries) _ m.durable (m, []) :=
    wp_scan (fun w => w.1 = m) (fun e answer => answer = .ok (m.hw e.id)) rfl fun e _ w hw => by
      refine ⟨faultless_read_enabled e.id, ?_⟩
      rintro answer w' ⟨rfl, rfl⟩
      exact ⟨hw, by rw [hw]⟩
  refine wp_mono hscan ?_
  rintro (err | scan) s' w' ⟨rfl, hw, hsorts, herror⟩
  · obtain ⟨e, -, hcontra⟩ := herror err rfl
    cases hcontra
  have hsorts := hsorts scan rfl
  have hyielded : scan.yielded = [] := by
    refine eq_nil_iff_forall_not_mem.mpr fun key hkey => ?_
    obtain ⟨e, he, rfl, hsettled, hrestorable, value, hvalue, hne⟩ := hsorts.yielded key hkey
    cases hvalue
    exact hne (hsound.kept.last trivial e he hsettled hrestorable).symm
  have hfailures : scan.failures = [] := by
    by_contra hfailed
    obtain ⟨e, he, hmissing | ⟨err, hcontra⟩⟩ := hsorts.failed hfailed
    · have hknown := hsound.kept.known e he
      rw [hmissing] at hknown
      cases hknown
    · cases hcontra
  rw [outcome_ok]
  refine wp_mono (wp_restoreScanned_faultless hrec hyielded hfailures (fun kv hkv => ?_)
    hsorts.order (fun e he => ?_) (by rw [hw]) (by rw [hw]; exact hsound.numeric)) ?_
  · obtain ⟨e, he, hid, hbefore, -⟩ := hsorts.restore kv hkv
    exact ⟨e, he, hid, hbefore⟩
  · rcases hsorts.covered e he with h | h | h
    · exact h
    · rw [hyielded] at h
      simp at h
    · exact absurd hfailures h
  · rintro x s'' w'' ⟨⟨done, rfl, hclean⟩, hempty, hdurable, hrestored⟩
    rw [outcome_ok, if_pos hclean, wp_pure]
    exact ⟨⟨_, rfl⟩, hdurable ▸ hempty, hrestored⟩

end Reset

/-! ### Write-ahead recovery -/

/-- A journal that describes a machine is not longer than its inventory. -/
theorem Journal.Kept.length_le {inventory : Inventory} {calm : Prop} {m : Machine} {j : Journal}
    (h : j.Kept inventory calm m) : j.entries.length ≤ inventory.knobs.length := by
  have hsub : j.ids ⊆ inventory.knobs.map Knob.id := by
    intro key hkey
    obtain ⟨e, he, rfl⟩ := mem_map.mp hkey
    obtain ⟨knob, hknob⟩ := Option.isSome_iff_exists.mp (h.known e he)
    exact mem_map.mpr ⟨knob, Inventory.mem_of_get? hknob, Inventory.id_of_get? hknob⟩
  simpa [Journal.ids] using (subperm_of_subset h.nodup hsub).length_le

/-- A process that loads the journal of a sound machine and resets without faults. -/
theorem reset_process_faultless {inventory : Inventory} {m : Machine}
    (hcount : inventory.knobs.length ≤ 8192) (hsound : m.Sound inventory True) :
    Program.Safe (faultless inventory) (faultless inventory).enabled
      (fun x w' => x.1 = .ok () ∧ w'.1.durable.entries = [] ∧
        ∀ e ∈ m.durable.entries, inventory.restorable e.id → w'.1.hw e.id = e.before)
      (Command.reset.process inventory m.durable) (m, []) := by
  have hload : loadEngine inventory m.durable = .ok (inventory.adopt m.durable) := by
    have hlength := hsound.kept.length_le
    unfold loadEngine
    rw [if_neg (by omega), if_neg (not_not.mpr hsound.kept.nodup)]
  unfold Command.process
  rw [hload]
  have hreset := wp_reset_faultless ((sound_adopt m.durable).mpr hsound)
  rw [faultless_adopt] at hreset
  have hrun : wp (faultless inventory) (faultless inventory).enabled
      (Command.reset.run (inventory.adopt m.durable))
      (fun x _ w' => x = .ok () ∧ w'.1.durable.entries = [] ∧
        ∀ e ∈ m.durable.entries, inventory.restorable e.id → w'.1.hw e.id = e.before)
      m.durable (m, []) := by
    unfold Command.run
    rw [wp_bind]
    refine wp_mono hreset ?_
    rintro x s' w' ⟨⟨report, rfl⟩, hempty, hrestored⟩
    exact ⟨rfl, hempty, by simpa using hrestored⟩
  exact hrun

/-- Write-ahead recovery of the engine, wherever applies and resets may have been stopped. A write
is issued only on a control whose pending entry, with the value from before the apply, is in the
journal file. If no write has disturbed a settled entry, a later reset without faults that does
not disturb what it has found at its baseline comes to an end, with every journaled restorable
control at its baseline and an empty journal. -/
theorem write_ahead_recovery (inventory : Inventory) (spread : String → String → Prop)
    (m : Machine) :
    (Reached inventory (hardware inventory spread) m →
      ∀ (command : Command) m' p mem op key,
      Program.Steps (hardware inventory spread) m (command.process inventory m.durable) m' p →
      p.issued? = some (mem, op) → op.target = some key →
      ∃ e ∈ m'.durable.entries, e.id = key ∧ e.before = m'.baseline key ∧ e.pending = true) ∧
    (inventory.knobs.length ≤ 8192 →
      Reached inventory ((hardware inventory spread).restrict (undisturbing inventory spread)) m →
      (∃ x w', Program.Steps (faultless inventory) (m, [])
        (Command.reset.process inventory m.durable) w' (.done x)) ∧
      ∀ x w', Program.Steps (faultless inventory) (m, [])
          (Command.reset.process inventory m.durable) w' (.done x) →
        x.1 = .ok () ∧ w'.1.durable.entries = [] ∧
          ∀ e ∈ m.durable.entries, inventory.restorable e.id → w'.1.hw e.id = e.before) := by
  constructor
  · intro hreached command m' p mem op key hrun hissued htarget
    have hsound : m.Sound inventory False :=
      hreached.sound (fun _ _ _ _ _ h => h) (fun h => h.elim)
    have hguard := (process_writeAhead (fun _ _ _ _ _ h => h) (fun h => h.elim) command
      hsound).guard hrun hissued
    obtain ⟨e, he, hid, hpending⟩ := hguard.journaled key htarget
    exact ⟨e, he, hid, hid ▸ hguard.sound.kept.before e he, hpending⟩
  · intro hcount hreached
    have hsound : m.Sound inventory True :=
      hreached.sound (fun _ _ _ _ _ h => h.2) (fun _ _ _ _ _ _ h => h.1)
    have hsafe := reset_process_faultless hcount hsound
    obtain ⟨x, w', hrun, -⟩ := hsafe.terminates
    exact ⟨⟨x, w', hrun⟩, fun x w' hrun => hsafe.result hrun⟩

/-- A GPU whose clocks are restored before its auto-boost setting. -/
def boostInventory : Inventory where
  knobs := [plainKnob "GPU-0/auto-boost" "AUTO_BOOST" ["off", "on"] ["GPU-0/clocks"],
    plainKnob "GPU-0/clocks" "APPLICATION_CLOCKS_MHZ" ["default", "boosted"] []]
  nodup := by decide
  paired := by simp [plainKnob]

/-- Its untuned state. -/
def boostMachine : Machine :=
  ⟨fun key => if key = "GPU-0/auto-boost" then .text "off" else .text "default", Journal.empty,
    fun key => if key = "GPU-0/auto-boost" then .text "off" else .text "default"⟩

/-- Switching its auto boost, in either direction, boosts the clocks as a side effect. -/
def boostEffect (key : String) (value : Value) (hw : String → Value) (other : String) : Value :=
  if other = key then value
  else if key = "GPU-0/auto-boost" ∧ other = "GPU-0/clocks" then .text "boosted"
  else hw other

/-- The apply that switches auto boost on. -/
def boostCommand : Command :=
  .apply (some (plainPolicy [("AUTO_BOOST", "on")])) false .balanced []

/-- The machine after some operations of the apply. -/
def boosted (steps : ℕ) : Machine :=
  (Program.runFor (Machine.respond boostEffect []) steps boostMachine
    (boostCommand.process boostInventory boostMachine.durable)).1

private theorem boosted_hardware (spread : String → String → Prop)
    (hspread : ∀ key other, other = key ∨ other ∈ ["GPU-0/auto-boost", "GPU-0/clocks"] →
      spread key other) (m : Machine) (mem : Journal) (op : Request) :
    hardware boostInventory spread m mem op (m.respond boostEffect [] mem op).1
      (m.respond boostEffect [] mem op).2 := by
  refine Machine.respond_hardware (by decide) (by decide) (fun key value other hne => ?_) op
  refine hspread key other ?_
  by_cases hother : other = key
  · exact .inl hother
  · right
    by_cases hboost : key = "GPU-0/auto-boost" ∧ other = "GPU-0/clocks"
    · simp [hboost.2]
    · simp [boostEffect, hother, hboost] at hne

private theorem boostMachine_reached (E : Environment Hardware Journal Machine) :
    Reached boostInventory E boostMachine := by
  refine .fresh boostMachine.hw fun key knob hknob hpair => ?_
  have hmem := Inventory.mem_of_get? hknob
  simp only [boostInventory, mem_cons, not_mem_nil, or_false] at hmem
  rcases hmem with rfl | rfl <;> cases hpair

private theorem boosted_computed :
    Program.checkedFor (Machine.respond boostEffect []) (fun m _ (op : Request) =>
      op.target.isNone || m.durable.entries.all Entry.pending) 8 boostMachine
        (boostCommand.process boostInventory boostMachine.durable) = true ∧
    (boosted 8).hw "GPU-0/clocks" = .text "boosted" ∧
    (∃ e ∈ (boosted 8).durable.entries, e.id = "GPU-0/clocks" ∧ e.before = .text "default") ∧
    (Program.runFor (Machine.respond boostEffect []) 6 boostMachine
      (boostCommand.process boostInventory boostMachine.durable)).2.issued? =
        some ((boosted 6).durable, .write "GPU-0/auto-boost" (.text "on")) ∧
    (boosted 60).durable.ids = ["GPU-0/auto-boost", "GPU-0/clocks"] := by
  decide +kernel

/-- An apply killed after its write: the later reset brings the clocks back. -/
theorem write_ahead_recovery_killed :
    (boosted 8).hw "GPU-0/clocks" = .text "boosted" ∧
    (∃ e ∈ (boosted 6).durable.entries, e.id = "GPU-0/auto-boost" ∧
      e.before = (boosted 6).baseline "GPU-0/auto-boost" ∧ e.pending = true) ∧
    ∃ x w', Program.Steps (faultless boostInventory) (boosted 8, [])
        (Command.reset.process boostInventory (boosted 8).durable) w' (.done x) ∧
      x.1 = .ok () ∧ w'.1.durable.entries = [] ∧ w'.1.hw "GPU-0/clocks" = .text "default" := by
  have hreached : Reached boostInventory ((hardware boostInventory fun _ _ => True).restrict
      (undisturbing boostInventory fun _ _ => True)) (boosted 8) := by
    have hanswer : ∀ (m : Machine) (mem : Journal) (op : Request),
        (op.target.isNone || m.durable.entries.all Entry.pending) = true →
          ((hardware boostInventory fun _ _ => True).restrict
            (undisturbing boostInventory fun _ _ => True)) m mem op
              (m.respond boostEffect [] mem op).1 (m.respond boostEffect [] mem op).2 := by
      intro m mem op hcheck
      refine ⟨fun key htarget e he _ _ => ?_, boosted_hardware _ (fun _ _ _ => trivial) m mem op⟩
      rw [htarget, Option.isNone_some, Bool.false_or, List.all_eq_true] at hcheck
      exact hcheck e he
    exact .process boostCommand (boostMachine_reached _)
      (Program.Steps.of_checkedFor hanswer _ _ _ boosted_computed.1)
  obtain ⟨⟨x, w', hrun⟩, hall⟩ := (write_ahead_recovery boostInventory (fun _ _ => True)
    (boosted 8)).2 (by decide) hreached
  obtain ⟨hok, hempty, hrestored⟩ := hall x w' hrun
  obtain ⟨-, hboosted, ⟨e, he, hid, hbefore⟩, hissued, -⟩ := boosted_computed
  refine ⟨hboosted, ?_, x, w', hrun, hok, hempty, ?_⟩
  · have hrun : Program.Steps (hardware boostInventory fun _ _ => True) boostMachine _ _ _ :=
      .of_runFor (boosted_hardware _ fun _ _ _ => trivial) 6 boostMachine
        (boostCommand.process boostInventory boostMachine.durable)
    exact (write_ahead_recovery boostInventory (fun _ _ => True) boostMachine).1
      (boostMachine_reached _) boostCommand _ _ (boosted 6).durable
      (.write "GPU-0/auto-boost" (.text "on")) _ hrun hissued rfl
  · rw [← hid, ← hbefore]
    exact hrestored e he (by rw [hid]; decide)

/-- The machine after a complete later reset, in which every operation succeeds. -/
def boostReset : Machine :=
  (Program.runFor (Machine.respond boostEffect []) 60 (boosted 60)
    (Command.reset.process boostInventory (boosted 60).durable)).1

/-- A complete reset may leave a control off its baseline: restoring auto boost, which comes
after the clocks, boosts them again. Every write changes journaled controls only. -/
theorem reset_may_disturb_restored :
    Reached boostInventory (hardware boostInventory fun key other =>
      other = key ∨ other ∈ (boosted 60).durable.ids) (boosted 60) ∧
    (boosted 60).durable.ids = ["GPU-0/auto-boost", "GPU-0/clocks"] ∧
    (Program.runFor (Machine.respond boostEffect []) 60 (boosted 60)
      (Command.reset.process boostInventory (boosted 60).durable)).2.result?.isSome ∧
    boostReset.durable.ids = ["GPU-0/auto-boost", "GPU-0/clocks"] ∧
    boostReset.hw "GPU-0/clocks" ≠ boostMachine.hw "GPU-0/clocks" := by
  have hids := boosted_computed.2.2.2.2
  refine ⟨?_, hids, by decide +kernel⟩
  rw [hids]
  exact .process boostCommand (boostMachine_reached _)
    (.of_runFor (boosted_hardware _ fun _ _ h => h) _ _ _)

end Preseed.HardwareTuning
