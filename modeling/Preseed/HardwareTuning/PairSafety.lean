import Preseed.HardwareTuning.PairedWrites
import Preseed.HardwareTuning.PersistenceLast

/-!
# Resetting the two ends of a range

A reset keeps every pair in order that it writes, as long as the other end is restored
with it.
-/

namespace Preseed.HardwareTuning

open Effects List

/-- A control that is not brought back to its baseline by the attempt: it has no entry, it is
yielded to another manager, or it has been written or could not be read and has another value. -/
def Unrestored (inventory : Inventory) (file : Journal) (b : Bench) (key : String) : Prop :=
  key ∉ file.ids ∨ ∃ e ∈ file.entries, e.id = key ∧
    (Yielded inventory file b.trace.log e ∨ ¬Untroubled b.trace.log key ∧ b.hw key ≠ e.before)

/-- The other end is in order with the write, if it is not restored. -/
def FitsUnrestored (inventory : Inventory) (file : Journal) (b : Bench) (op : Request) : Prop :=
  ∀ lo hi, inventory.PairEnds lo hi →
    (∀ value, op.Puts lo value → Unrestored inventory file b hi → InOrder value (b.hw hi)) ∧
    ∀ value, op.Puts hi value → Unrestored inventory file b lo → InOrder (b.hw lo) value

section

variable {inventory : Inventory} {file held : Journal} {key : String} {value : Value} {b b' : Bench}
  {hw hw' : String → Value}

/-- The rule of writing one baseline back: it is written when the values are still as they were. -/
theorem wp_writeBack_bench {G : Guard Hardware Journal Bench} {knob : Knob} {s : Journal}
    (hpassive : ∀ b, G b s (.read key))
    (hwrite : ∀ b' op, b'.hw = b.hw → (∃ more, b'.trace.log = b.trace.log ++ more) →
      Request.Puts key value op → G b' s op) :
    wp (bench inventory) G (writeBack knob key value)
      (fun _ s' b' => s' = s ∧ Visit inventory key value b b') s b := by
  have hback : ∀ b' text, Visit inventory key value b b' →
      wp (bench inventory) G (checkReadback knob key value text)
        (fun _ s' b' => s' = s ∧ Visit inventory key value b b') s b' := by
    intro b' text h
    refine wp_checkReadback (fun _ => ⟨hpassive b', fun answer b'' hans => ?_⟩) fun _ => ⟨rfl, h⟩
    obtain ⟨⟨-, hlog⟩, hhw, -⟩ := hans
    have hvisit : Visit inventory key value b b'' := h.later ⟨hhw, _, hlog⟩
    refine ⟨fun _ _ => ⟨rfl, hvisit⟩, fun current _ => ?_⟩
    split <;> exact ⟨rfl, hvisit⟩
  refine wp_writeBack_steps
    (R := fun b' => b'.hw = b.hw ∧ ∃ more, b'.trace.log = b.trace.log ++ more)
    (D := Visit inventory key value b) (fun _ => ⟨hpassive b, fun answer b' hans => ?_⟩)
    (fun _ => ⟨rfl, [], by simp⟩)
    (fun op hputs b' ⟨hhw, hgrown⟩ => ⟨hwrite b' op hhw hgrown hputs, fun answer b'' hans => ?_⟩)
    hback
  · obtain ⟨⟨-, hlog⟩, hhw, hvalue⟩ := hans
    have hstirs : Stirs inventory key b.hw b'.hw := hhw ▸ Stirs.refl inventory key b.hw
    refine ⟨?_, ?_⟩
    · rintro e rfl
      exact ⟨rfl, hstirs, ⟨_, hlog⟩, .inr (hlog ▸ not_untroubled_read rfl)⟩
    · rintro current rfl
      refine ⟨⟨hhw, _, hlog⟩, fun hsame => ⟨hstirs, ⟨_, hlog⟩, .inl ?_⟩⟩
      rw [hhw, ← hvalue current rfl, hsame]
  · have hvisit : Visit inventory key value b b'' := by
      obtain ⟨⟨-, hlog⟩, hstirs⟩ := hans
      obtain ⟨more, hmore⟩ := hgrown
      refine ⟨?_, ⟨more ++ [⟨op, answer⟩], by rw [hlog, hmore, append_assoc]⟩, .inr ?_⟩
      · rcases hputs with rfl | rfl <;> exact hhw ▸ hstirs
      · rw [hlog]
        exact not_untroubled_written (by rcases hputs with rfl | rfl <;> rfl) answer
    exact ⟨fun _ _ => ⟨rfl, hvisit⟩, fun _ => hvisit⟩

/-- The rule of the restoring loop at one control. -/
theorem wp_restoreOne_bench {G : Guard Hardware Journal Bench} {st : Restoration} {s : Journal}
    (hpassive : ∀ b, G b s (.read key))
    (hwrite : st.platformFailed = false → ∀ b' op, b'.hw = b.hw →
      (∃ more, b'.trace.log = b.trace.log ++ more) → Request.Puts key value op → G b' s op) :
    wp (bench inventory) G (restoreOne inventory st key value)
      (fun x s' b' => s' = s ∧ Stirs inventory key b.hw b'.hw ∧
        (∃ more, b'.trace.log = b.trace.log ++ more) ∧ ∀ st', x = .ok st' →
          (st.platformFailed = true → st'.platformFailed = true) ∧
          (st.platformFailed = false → inventory.hasSetting ["PERSISTENCE_MODE"] key = false →
            b'.hw key = value ∨ ¬Untroubled b'.trace.log key)) s b := by
  have hstay : ∃ more, b.trace.log = b.trace.log ++ more := ⟨[], by simp⟩
  unfold restoreOne
  cases hget : inventory.get? key with
  | none => exact ⟨rfl, .refl inventory key b.hw, hstay, by simp⟩
  | some knob =>
    dsimp only
    by_cases hfailed : st.platformFailed = true
    · rw [if_pos hfailed]
      refine ⟨rfl, .refl inventory key b.hw, hstay, ?_⟩
      rintro _ ⟨⟩
      exact ⟨fun hf => hf, fun hf => by rw [hfailed] at hf; cases hf⟩
    rw [if_neg hfailed]
    rw [Bool.not_eq_true] at hfailed
    split
    case isTrue hkeep =>
      refine ⟨rfl, .refl inventory key b.hw, hstay, ?_⟩
      rintro _ ⟨⟩
      refine ⟨fun hf => hf, fun _ hother => ?_⟩
      rw [Inventory.hasSetting_iff.mpr ⟨knob, hget, hkeep.1⟩] at hother
      cases hother
    case isFalse =>
      simp only [wp_handleIf, wp_bind]
      refine wp_mono (wp_writeBack_bench hpassive (hwrite hfailed)) ?_
      rintro (err | _) s' b' ⟨rfl, hstirs, hgrown, hput⟩
      · simp only [outcome_error]
        by_cases hcaught : err.isCaught = true
        · rw [if_pos hcaught]
          refine ⟨rfl, hstirs, hgrown, ?_⟩
          intro st' _
          refine ⟨fun hf => ?_, fun _ _ => hput⟩
          rw [hfailed] at hf
          cases hf
        · rw [if_neg hcaught]
          exact ⟨trivial, hstirs, hgrown, by simp⟩
      · refine ⟨rfl, hstirs, hgrown, ?_⟩
        rintro _ ⟨⟩
        exact ⟨fun hf => hf, fun _ _ => hput⟩

/-- The two baselines of a pair are in order. -/
def Journal.OrderedBaselines (file : Journal) (inventory : Inventory) : Prop :=
  ∀ e ∈ file.entries, ∀ e' ∈ file.entries, inventory.PairEnds e.id e'.id →
    InOrder e.before e'.before

section Loop

variable {scan : Scan} {base : List Exchange}

/-- What is known of the controls that are not to be restored. -/
def Spared (inventory : Inventory) (file : Journal) (scan : Scan) (log : List Exchange) : Prop :=
  ∀ e ∈ file.entries, e.id ∉ scan.restore.map Prod.fst → (inventory.get? e.id).isSome →
    Yielded inventory file log e ∨ ¬Untroubled log e.id

theorem Spared.append (h : Spared inventory file scan base) (more : List Exchange) :
    Spared inventory file scan (base ++ more) := by
  intro e he hnot hknown
  rcases h e he hnot hknown with hyield | htrouble
  · exact .inl (hyield.append more)
  · exact .inr fun hquiet => htrouble hquiet.of_append

/-- The value is the baseline of the control. -/
def Journal.Baseline (file : Journal) (key : String) (value : Value) : Prop :=
  ∃ e ∈ file.entries, e.id = key ∧ e.before = value

/-- A control with trouble has arrived. -/
private theorem arrived_of_trouble {e : Entry} (he : e ∈ file.entries)
    (h : b.hw e.id = e.before ∨ ¬Untroubled b.trace.log e.id) :
    Arrived file.Baseline (Unrestored inventory file) b e.id := by
  by_cases hsame : b.hw e.id = e.before
  · exact .inl ⟨e, he, rfl, hsame.symm⟩
  · exact .inr (.inr ⟨e, he, rfl, .inr ⟨h.resolve_left hsame, hsame⟩⟩)

/-- A control that is not to be restored has arrived, if it is in the inventory. -/
private theorem Spared.arrived (h : Spared inventory file scan b.trace.log) {other : String}
    (hnot : other ∉ scan.restore.map Prod.fst) (hknown : (inventory.get? other).isSome) :
    Arrived file.Baseline (Unrestored inventory file) b other := by
  by_cases hin : other ∈ file.ids
  · obtain ⟨e, he, rfl⟩ := mem_map.mp hin
    rcases h e he hnot hknown with hyield | htrouble
    · exact .inr (.inr ⟨e, he, rfl, .inl hyield⟩)
    · exact arrived_of_trouble he (.inr htrouble)
  · exact .inr (.inl hin)

/-- A write is in order whenever the unrestored other end is. -/
def PairSafe (inventory : Inventory) (file : Journal) : Guard Hardware Journal Bench :=
  fun b _ op => FitsUnrestored inventory file b op → LeavesInOrder inventory b op

/-- The restoring loop is a loop over baselines. -/
private theorem pairedLoop_restore
    (hentries : ∀ kv ∈ scan.restore, ∃ e ∈ file.entries, e.id = kv.1 ∧ e.before = kv.2)
    (hkeys : (scan.restore.map Prod.fst).Nodup)
    (hknown : ∀ key ∈ scan.restore.map Prod.fst, (inventory.get? key).isSome)
    (hbaselines : file.OrderedBaselines inventory) :
    PairedLoop inventory scan.restore file.Baseline (Unrestored inventory file)
      fun b => Spared inventory file scan b.trace.log where
  nodup := hkeys
  known := hknown
  planned key value hvalue := hentries _ (mem_of_lookup hvalue)
  targets := by
    rintro lo hi low high hends ⟨e, he, rfl, rfl⟩ ⟨e', he', rfl, rfl⟩
    exact hbaselines e he e' he' hends
  outside b key other hspared hpartner hnot := hspared.arrived hnot hpartner.known
  grown := by
    rintro b b' ⟨more, hmore⟩ hspared
    rw [hmore]
    exact hspared.append more
  loose := by
    rintro b b' key ⟨hhw, more, hmore⟩ (hnot | ⟨e, he, hid, hloose⟩)
    · exact .inl hnot
    · refine .inr ⟨e, he, hid, ?_⟩
      rcases hloose with hyield | ⟨htrouble, hne⟩
      · rw [hmore]
        exact .inl (hyield.append more)
      · rw [hhw, hmore]
        exact .inr ⟨fun hquiet => htrouble hquiet.of_append, hne⟩

/-- The body of the restoring loop is shut when the firmware profile could not be restored. -/
private theorem visitsInOrder_restoreOne (hplain : inventory.PlainSelectors)
    (hentries : ∀ kv ∈ scan.restore, ∃ e ∈ file.entries, e.id = kv.1 ∧ e.before = kv.2) :
    VisitsInOrder inventory scan.restore file.Baseline (Unrestored inventory file)
      (fun st : Restoration => st.platformFailed = true) (restoreOne inventory) := by
  intro st s b key value hvalue hwrite
  obtain ⟨e, he, hid, hbefore⟩ := hentries _ (mem_of_lookup hvalue)
  dsimp only at hid hbefore
  refine wp_mono (wp_restoreOne_bench (fun _ => .passive rfl) fun hopen b' op hhw hgrown =>
    hwrite (by simp [hopen]) s b' op ⟨hhw, hgrown⟩) ?_
  rintro (err | st') s' b' ⟨rfl, hstirs, hgrown, hput⟩
  · trivial
  · obtain ⟨hflag, hdone⟩ := hput st' rfl
    refine ⟨hstirs, hgrown, hflag, fun hopen other hpartner => ?_⟩
    have hplainKey : inventory.hasSetting ["PERSISTENCE_MODE"] key = false := by
      by_contra hcon
      rw [Bool.not_eq_false] at hcon
      exact hpartner.elim (hplain.not_ends (.inr rfl) hcon other).1
        (hplain.not_ends (.inr rfl) hcon other).2
    rw [Bool.not_eq_true] at hopen
    have hend := hdone hopen hplainKey
    rw [← hbefore, ← hid] at hend
    rw [← hid]
    exact arrived_of_trouble he hend

/-- The restoring loop keeps pairs in order. -/
private theorem wp_restoringLoop_bench (hplain : inventory.PlainSelectors)
    (hentries : ∀ kv ∈ scan.restore, ∃ e ∈ file.entries, e.id = kv.1 ∧ e.before = kv.2)
    (hkeys : (scan.restore.map Prod.fst).Nodup)
    (hknown : ∀ key ∈ scan.restore.map Prod.fst, (inventory.get? key).isSome)
    (hbaselines : file.OrderedBaselines inventory)
    (hspared : Spared inventory file scan b.trace.log)
    (horder : ∀ lo hi, inventory.OrderedPair b.hw lo hi) {st : Restoration} :
    wp (bench inventory) (PairSafe inventory file)
      (ordered inventory scan.restore st (restoreOne inventory)) (fun _ _ _ => True) held b :=
  wp_pairedLoop (pairedLoop_restore hentries hkeys hknown hbaselines)
    (visitsInOrder_restoreOne hplain hentries) hspared horder

end Loop

/-- An operation that writes nothing is safe for pairs. -/
theorem PairSafe.passive {s : Journal} {op : Request} (h : op.target = none) :
    PairSafe inventory file b s op :=
  WritesInOrder.passive (s := s) h

/-- The final verification writes nothing. -/
private theorem wp_verify_bench {st : Restoration} {keys : List String} {s : Journal} :
    wp (bench inventory) (PairSafe inventory file)
      (Act.fold (verifyOne inventory file) st keys) (fun _ _ _ => True) s b := by
  refine wp_fold (fun _ _ _ _ => True) trivial ?_ fun _ _ _ _ => trivial
  intro key rest st s b _
  unfold verifyOne
  split
  · rw [wp_handleIf, wp_bind]
    refine wp_mono (Q := fun _ _ _ => True) (wp_checkReadback (fun _ => ⟨.passive rfl, ?_⟩)
      fun _ => trivial) ?_
    · exact fun _ _ _ => ⟨fun _ _ => trivial, fun _ _ => by split <;> trivial⟩
    · rintro (err | _) s' b' -
      · simp only [outcome_error]
        split <;> trivial
      · trivial
  · trivial

/-- A reset keeps every pair in order that it writes, if the unrestored other end is in order with
the write. -/
theorem wp_reset_bench (hplain : inventory.PlainSelectors) (hnodup : file.ids.Nodup)
    (hbaselines : file.OrderedBaselines inventory) {hw₀ : String → Value}
    (horder : ∀ lo hi, inventory.OrderedPair hw₀ lo hi) :
    wp (bench inventory) (PairSafe inventory file) (reset inventory) (fun _ _ _ => True) file
      ⟨hw₀, ⟨file, []⟩⟩ := by
  unfold reset resetCore
  simp only [wp_bind, wp_get, outcome_ok]
  have hview : ∀ b s op r b', bench inventory b s op r b' → observed b.trace s op r b'.trace :=
    fun _ _ _ _ _ h => h.1
  have hlog : wp observed (fun _ _ _ => True)
      (Act.fold (scanOne inventory) ⟨[], [], []⟩ file.entries) _ file ⟨file, []⟩ :=
    Act.wp_and
      (Act.wp_and (wp_scan_observed hnodup)
        (wp_scan_reads (G := fun _ _ _ => True) hnodup fun _ _ => trivial))
      (wp_scan_covers (G := fun _ _ _ => True) fun _ _ => trivial)
  have hvalues : wp (bench inventory) (PairSafe inventory file)
      (Act.fold (scanOne inventory) ⟨[], [], []⟩ file.entries) _ file ⟨hw₀, ⟨file, []⟩⟩ :=
    wp_scanning (fun (_ : List Entry) (b : Bench) => b.hw = hw₀) (fun _ _ _ => True) rfl
      (fun _ _ _ _ _ h => h) fun _ _ _ _ b h => ⟨.passive rfl, fun _ b' hans =>
        ⟨hans.2.1.trans h, trivial, fun _ _ _ => trivial⟩⟩
  refine wp_mono (Act.wp_and (Act.wp_project Bench.trace hview hlog) hvalues) ?_
  rintro (err | scan) s' b ⟨⟨⟨⟨rfl, -, hsorts⟩, hquiet⟩, hcovers⟩, -, ⟨-, hhw⟩, -⟩
  · trivial
  have hsorts := hsorts scan rfl
  have hquiet := hquiet scan rfl
  have hcovers := hcovers scan rfl
  rw [outcome_ok]
  unfold restoreScanned
  set y := yieldDomains inventory s' scan with hy
  have hentries : ∀ kv ∈ y.restore, ∃ e ∈ s'.entries, e.id = kv.1 ∧ e.before = kv.2 := by
    intro kv hkv
    obtain ⟨e, he, hid, hbefore, -⟩ := hsorts.restore kv (restore_yieldDomains_subset hkv)
    exact ⟨e, he, hid, hbefore⟩
  have hunique : (y.restore.map Prod.fst).Nodup := (order_yieldDomains hsorts.order).nodup hnodup
  have hknown : ∀ key ∈ y.restore.map Prod.fst, (inventory.get? key).isSome := by
    intro key hkey
    obtain ⟨kv, hkv, rfl⟩ := mem_map.mp hkey
    obtain ⟨e, -, hid, -, hsome⟩ := hsorts.restore kv (restore_yieldDomains_subset hkv)
    rwa [← hid]
  have hspared : Spared inventory s' y b.trace.log := by
    intro e he hnot hsome
    have hfailed : e.id ∈ y.yielded → Yielded inventory s' b.trace.log e := by
      intro hin
      obtain ⟨e', he', hid, hyield⟩ := yielded_of_sorts hsorts (fun k hk => (hquiet k hk).2) hin
      rwa [← inj_on_of_nodup_map hnodup he' he hid]
    rcases hcovers e he hsome with hin | hin | ⟨err, herr⟩
    · exact .inl (hfailed ((mem_yieldDomains (.inl hin)).resolve_left hnot))
    · exact .inl (hfailed ((mem_yieldDomains (.inr hin)).resolve_left hnot))
    · refine .inr fun hquiet => ?_
      obtain ⟨value, hvalue⟩ := hquiet.2 _ herr
      cases hvalue
  have hrest : ∀ held b, Spared inventory s' y b.trace.log →
      (∀ lo hi, inventory.OrderedPair b.hw lo hi) → ∀ st : Restoration,
      wp (bench inventory) (PairSafe inventory s') (do
        let st ← ordered inventory y.restore st (restoreOne inventory)
        let st ← Act.fold (verifyOne inventory s') st
          (sortedKeys (st.complete.filter fun key => key ∉ y.yielded))
        let failed := (y.restore.map Prod.fst).filter fun key => key ∉ st.complete
        let retained := retainedKeys inventory s' (y.restore.map Prod.fst) failed
        let complete := st.complete.filter fun key => key ∉ retained
        Act.modify (·.without complete)
        let j ← Act.get
        saveJournal j
        pure (⟨complete, y.yielded, st.failures⟩ : ResetOutcome))
        (outcome (fun done => wp (bench inventory) (PairSafe inventory s')
          (if done.failures = [] then
            pure (⟨done.complete.length - done.yielded.dedup.length, sortedKeys done.yielded⟩ :
              ResetReport)
          else Act.raise (tuningError
            ("restoration incomplete; journal retained: " ++ join "; " done.failures)))
          fun _ _ _ => True) fun _ _ _ => True) held b := by
    intro held b hspared horder st
    rw [wp_bind]
    refine wp_mono (wp_restoringLoop_bench hplain hentries hunique hknown hbaselines hspared
      horder) ?_
    rintro (err | st) s₁ b₁ -
    · trivial
    rw [outcome_ok, wp_bind]
    refine wp_mono wp_verify_bench ?_
    rintro (err | st) s₂ b₂ -
    · trivial
    simp only [outcome_ok, wp_bind, wp_modify, wp_get, wp_saveJournal]
    refine ⟨.passive rfl, fun answer b₃ _ => ?_⟩
    cases answer with
    | error err => trivial
    | ok _ =>
      simp only [outcome_ok, wp_pure]
      split <;> trivial
  have hordered : ∀ lo hi, inventory.OrderedPair b.hw lo hi := fun lo hi => hhw ▸ horder lo hi
  rw [wp_bind, wp_modify, outcome_ok, wp_bind, wp_when]
  refine ⟨fun _ => ?_, fun _ => hrest _ b hspared hordered _⟩
  rw [wp_saveJournal]
  refine ⟨.passive rfl, fun answer b₁ hans => ?_⟩
  obtain ⟨⟨-, hgrown⟩, hsame⟩ := hans
  cases answer with
  | error err => trivial
  | ok _ =>
    have hsame' : b₁.hw = b.hw := hsame
    exact hrest _ b₁ (hgrown ▸ hspared.append _) (fun lo hi => hsame' ▸ hordered lo hi) _

end

/-- In every run of a reset that starts with all pairs in order, and whose journal has their
baselines in order, a write leaves the pair of its control in order exactly if the other end fits,
should it not be restored by this reset. -/
theorem reset_keeps_pairs_in_order (inventory : Inventory) (file : Journal)
    (hplain : inventory.PlainSelectors) (loaded : Inventory)
    (hload : loadEngine inventory file = .ok loaded) (hbaselines : file.OrderedBaselines loaded)
    (hw₀ : String → Value) (horder : ∀ lo hi, loaded.OrderedPair hw₀ lo hi) :
    ∀ b p mem op, Program.Steps (bench loaded) ⟨hw₀, ⟨file, []⟩⟩ (reset loaded file) b p →
      p.issued? = some (mem, op) →
      (LeavesInOrder loaded b op ↔ FitsUnrestored loaded file b op) := by
  obtain ⟨rfl, hnodup⟩ := loadEngine_ok hload
  intro b p mem op hrun hissued
  have hsafe := wp_reset_bench (hplain.adopt file) hnodup hbaselines horder
  refine ⟨fun hleaves lo hi hends => ?_, hsafe.guard hrun hissued⟩
  exact ⟨fun value hputs _ => (hleaves lo hi hends).1 value hputs,
    fun value hputs _ => (hleaves lo hi hends).2 value hputs⟩

/-! ### The uncore clock of a processor -/

/-- The limits of the uncore clock. -/
def uncoreInventory : Inventory where
  knobs := [("package_00_die_00/min_freq_khz", "UNCORE_MIN_FREQ_KHZ", Side.min),
      ("package_00_die_00/max_freq_khz", "UNCORE_MAX_FREQ_KHZ", Side.max)].map fun limit =>
    { plainKnob limit.1 limit.2.1 [] [] with
      minimum := some 800000, maximum := some 2400000, unit := "kHz"
      pair := some "package_00_die_00", side := some limit.2.2 }
  nodup := by decide
  paired := by
    rintro a ha b hb - - hne
    simp only [List.map_cons, List.map_nil, List.mem_cons, List.not_mem_nil, or_false] at ha hb
    rcases ha with rfl | rfl <;> rcases hb with rfl | rfl
    · exact (hne rfl).elim
    · exact .inl ⟨rfl, rfl⟩
    · exact .inr ⟨rfl, rfl⟩
    · exact (hne rfl).elim

/-- The journal of an apply that has lowered the lower limit, and raised the upper one. -/
def uncoreJournal : Journal where
  profile := some .balanced
  entries := [("package_00_die_00/min_freq_khz", 1200000, 800000),
      ("package_00_die_00/max_freq_khz", 2000000, 2400000)].map fun e =>
    { id := e.1, before := .int e.2.1, requested := some (.int e.2.2), last := some (.int e.2.2),
      pending := false }

/-- The limits at some values. -/
def uncoreLimits (low high : ℤ) (key : String) : Value :=
  if key = "package_00_die_00/min_freq_khz" then .int low else .int high

theorem uncore_plain : uncoreInventory.PlainSelectors := by
  rintro knob hknob hsetting
  obtain ⟨limit, hlimit, rfl⟩ := mem_map.mp hknob
  simp only [mem_cons, not_mem_nil, or_false] at hlimit
  rcases hlimit with rfl | rfl <;> simp [plainKnob] at hsetting

theorem uncore_loaded :
    loadEngine uncoreInventory uncoreJournal = .ok (uncoreInventory.adopt uncoreJournal) :=
  loadEngine_of_isOk (by decide)

/-- The only pair of the processor. -/
theorem uncore_ends {lo hi : String} (h : (uncoreInventory.adopt uncoreJournal).PairEnds lo hi) :
    lo = "package_00_die_00/min_freq_khz" ∧ hi = "package_00_die_00/max_freq_khz" := by
  obtain ⟨a, b, ha, hb, -, -, hmin, hmax⟩ := h
  rw [Inventory.get?_adopt, Option.map_eq_some_iff] at ha hb
  obtain ⟨a', ha', rfl⟩ := ha
  obtain ⟨b', hb', rfl⟩ := hb
  obtain ⟨_, hadopt⟩ := adopt_eq uncoreJournal a'
  obtain ⟨_, hadopt'⟩ := adopt_eq uncoreJournal b'
  rw [hadopt] at hmin
  rw [hadopt'] at hmax
  rw [← Inventory.id_of_get? ha', ← Inventory.id_of_get? hb']
  obtain ⟨limit, hlimit, rfl⟩ := mem_map.mp (Inventory.mem_of_get? ha')
  obtain ⟨limit', hlimit', rfl⟩ := mem_map.mp (Inventory.mem_of_get? hb')
  simp only [mem_cons, not_mem_nil, or_false] at hlimit hlimit'
  rcases hlimit with rfl | rfl <;> rcases hlimit' with rfl | rfl <;> simp_all [plainKnob]

theorem uncore_baselines :
    uncoreJournal.OrderedBaselines (uncoreInventory.adopt uncoreJournal) := by
  intro e he e' he' hends
  obtain ⟨hlo, hhi⟩ := uncore_ends hends
  obtain ⟨x, hx, rfl⟩ := mem_map.mp he
  obtain ⟨x', hx', rfl⟩ := mem_map.mp he'
  simp only [mem_cons, not_mem_nil, or_false] at hx hx'
  rcases hx with rfl | rfl <;> rcases hx' with rfl | rfl <;> simp_all [InOrder, Value.gt]

theorem uncore_order {low high : ℤ} (h : low ≤ high) :
    ∀ lo hi, (uncoreInventory.adopt uncoreJournal).OrderedPair (uncoreLimits low high) lo hi := by
  intro lo hi hends
  obtain ⟨rfl, rfl⟩ := uncore_ends hends
  simp [InOrder, uncoreLimits, Value.gt, h]

/-- The two limits are the ends of a pair. -/
theorem uncore_pair : (uncoreInventory.adopt uncoreJournal).PairEnds
    "package_00_die_00/min_freq_khz" "package_00_die_00/max_freq_khz" := by
  have hfind : ∀ key ∈ uncoreInventory.knobs.map Knob.id, ∃ knob ∈ uncoreInventory.knobs,
      uncoreInventory.get? key = some knob ∧ knob.id = key := by
    intro key hkey
    obtain ⟨knob, hknob, rfl⟩ := mem_map.mp hkey
    obtain ⟨found, hfound⟩ := Option.isSome_iff_exists.mp
      (List.find?_isSome (p := fun k : Knob => decide (k.id = knob.id)).mpr ⟨knob, hknob, by simp⟩)
    exact ⟨found, mem_of_find?_eq_some hfound, hfound, Inventory.id_of_get? hfound⟩
  obtain ⟨a, ha, hget, hid⟩ := hfind "package_00_die_00/min_freq_khz" (by decide)
  obtain ⟨b, hb, hget', hid'⟩ := hfind "package_00_die_00/max_freq_khz" (by decide)
  obtain ⟨_, hadopt⟩ := adopt_eq uncoreJournal a
  obtain ⟨_, hadopt'⟩ := adopt_eq uncoreJournal b
  refine ⟨adopt uncoreJournal a, adopt uncoreJournal b, by rw [Inventory.get?_adopt, hget]; rfl,
    by rw [Inventory.get?_adopt, hget']; rfl, ?_⟩
  rw [hadopt, hadopt']
  obtain ⟨limit, hlimit, rfl⟩ := mem_map.mp ha
  obtain ⟨limit', hlimit', rfl⟩ := mem_map.mp hb
  simp only [mem_cons, not_mem_nil, or_false] at hlimit hlimit'
  rcases hlimit with rfl | rfl <;> rcases hlimit' with rfl | rfl <;>
    simp_all [plainKnob, Knob.ends]

/-- The reset with the limits at some values, up to an operation. -/
def uncoreReset (low high : ℤ) (n : ℕ) :
    Bench × Program Hardware Journal (Except Failure ResetReport × Journal) :=
  Program.runFor Bench.respond n ⟨uncoreLimits low high, ⟨uncoreJournal, []⟩⟩
    (reset (uncoreInventory.adopt uncoreJournal) uncoreJournal)

private theorem uncoreReset_steps (low high : ℤ) (n : ℕ) :
    Program.Steps (bench (uncoreInventory.adopt uncoreJournal))
      ⟨uncoreLimits low high, ⟨uncoreJournal, []⟩⟩
      (reset (uncoreInventory.adopt uncoreJournal) uncoreJournal)
      (uncoreReset low high n).1 (uncoreReset low high n).2 :=
  .of_runFor (fun b mem op => b.respond_bench _ mem op) _ _ _

/-- The rule at the first write of this processor's reset, with the limits as the apply has left
them. -/
theorem reset_keeps_pairs_in_order_uncore :
    LeavesInOrder (uncoreInventory.adopt uncoreJournal) (uncoreReset 800000 2400000 5).1
        (.write "package_00_die_00/min_freq_khz" (.int 1200000)) ↔
      FitsUnrestored (uncoreInventory.adopt uncoreJournal) uncoreJournal
        (uncoreReset 800000 2400000 5).1
        (.write "package_00_die_00/min_freq_khz" (.int 1200000)) := by
  have hissued : (uncoreReset 800000 2400000 5).2.issued?.map Prod.snd =
      some (.write "package_00_die_00/min_freq_khz" (.int 1200000)) := by decide
  obtain ⟨⟨mem, op⟩, hop, rfl⟩ := Option.map_eq_some_iff.mp hissued
  exact reset_keeps_pairs_in_order uncoreInventory uncoreJournal uncore_plain _ uncore_loaded
    uncore_baselines _ (uncore_order (by decide)) _ _ mem _ (uncoreReset_steps _ _ 5) hop

/-- A reset may write a lower limit above the upper one: another manager has lowered the upper
limit, which is yielded, and the baseline of the lower one is written back alone. -/
theorem lower_limit_above_yielded_upper :
    ¬∀ (inventory : Inventory) (file : Journal) loaded, inventory.PlainSelectors →
      loadEngine inventory file = .ok loaded → file.OrderedBaselines loaded →
      ∀ hw₀, (∀ lo hi, loaded.OrderedPair hw₀ lo hi) →
      ∀ b p mem op, Program.Steps (bench loaded) ⟨hw₀, ⟨file, []⟩⟩ (reset loaded file) b p →
        p.issued? = some (mem, op) → LeavesInOrder loaded b op := by
  intro h
  have hissued : (uncoreReset 800000 1000000 4).2.issued?.map Prod.snd =
      some (.write "package_00_die_00/min_freq_khz" (.int 1200000)) := by decide
  obtain ⟨⟨mem, op⟩, hop, rfl⟩ := Option.map_eq_some_iff.mp hissued
  have hfits := (h _ _ _ uncore_plain uncore_loaded uncore_baselines _ (uncore_order (by decide))
    _ _ _ _ (uncoreReset_steps _ _ 4) hop _ _ uncore_pair).1 (.int 1200000) (.inl rfl)
  have hupper : (uncoreReset 800000 1000000 4).1.hw "package_00_die_00/max_freq_khz" =
      .int 1000000 := by
    decide
  rw [hupper] at hfits
  simp [InOrder, Value.gt] at hfits

end Preseed.HardwareTuning
