import Preseed.HardwareTuning.SnapshotRules

/-!
# What a reset reports

A reset that returns has emptied the journal and accounts for every entry. One that
fails keeps the entry of every control that it neither restored nor gave up: a control
that another manager has changed loses its entry even then. An apply brings new
baselines into a journal without entries only.
-/

namespace Preseed.HardwareTuning

open Effects

/-- A reset keeps its accounts, and an apply replaces no journal, whatever the hardware answers. -/
theorem reset_reports_what_it_did (inventory : Inventory) (file : Journal) :
    (∀ loaded t x mem, loadEngine inventory file = .ok loaded →
      Program.Steps observed ⟨file, []⟩ (reset loaded file) t (.done (x, mem)) →
      Accounts loaded file x mem t) ∧
    ∀ policy checksOwnership name settings file' p mem op,
      Program.Steps anyone file ((Command.apply policy checksOwnership name settings).process
        inventory file) file' p →
      p.issued? = some (mem, op) → Preserves file' op := by
  constructor
  · intro loaded t x mem hload hrun
    obtain ⟨-, hnodup⟩ := loadEngine_ok hload
    exact (wp_reset_observed hnodup (List.Subset.refl _)).result hrun
  · intro policy checksOwnership name settings file' p mem op hrun hissued
    have hsafe : Program.Safe anyone preserving (fun _ _ => True)
        ((Command.apply policy checksOwnership name settings).process inventory file) file := by
      unfold Command.process
      cases hload : loadEngine inventory file with
      | error e => trivial
      | ok loaded =>
        obtain ⟨-, hnodup⟩ := loadEngine_ok hload
        change wp anyone preserving (Command.run loaded _) (fun _ _ _ => True) file file
        unfold Command.run
        rw [wp_bind]
        refine wp_mono (wp_apply_preserving name settings hnodup) ?_
        rintro (e | report) s' file'' - <;> trivial
    exact hsafe.guard hrun hissued

/-- A CPU with given readings, as a deterministic instance of the observed hardware. -/
def cpuObserved (readings : String → Value) (unreadable : List String) (t : Trace) (mem : Journal)
    (op : Request) : Except Failure op.Reply × Trace :=
  let (answer, file) := cpuReads readings unreadable t.file mem op
  (answer, ⟨file, t.log ++ [⟨op, answer⟩]⟩)

private theorem cpuObserved_observed (readings : String → Value) (unreadable : List String)
    (t : Trace) (mem : Journal) (op : Request) :
    observed t mem op (cpuObserved readings unreadable t mem op).1
      (cpuObserved readings unreadable t mem op).2 := by
  refine ⟨?_, rfl⟩
  cases op with
  | save journal => exact .inl rfl
  | read | write | writeMaximum | restoreValue | temperature | checkOwnership => rfl

/-- A reset of the apply's journal, with given readings. -/
def cpuReset (readings : String → Value) (unreadable : List String) :
    Trace × Program Hardware Journal (Except Failure ResetReport × Journal) :=
  Program.runFor (cpuObserved readings unreadable) 60 ⟨cpuApplied.durable, []⟩
    (reset (cpuInventory.adopt cpuApplied.durable) cpuApplied.durable)

/-- The readings after another manager has set the energy preference to `power`. -/
def cpuPower (key : String) : Value :=
  if key = "policy0/scaling_governor" then .text "performance" else .text "power"

private theorem cpuReset_steps (readings : String → Value) (unreadable : List String) :
    Program.Steps observed ⟨cpuApplied.durable, []⟩
      (reset (cpuInventory.adopt cpuApplied.durable) cpuApplied.durable)
      (cpuReset readings unreadable).1 (cpuReset readings unreadable).2 :=
  .of_runFor (cpuObserved_observed readings unreadable) _ _ _

private theorem cpuReset_computed :
    (loadEngine cpuInventory cpuApplied.durable).isOk = true ∧
    (cpuReset cpuPower []).2.result? = some (.ok ⟨0, ["policy0/energy_performance_preference",
      "policy0/scaling_governor"]⟩, Journal.empty) ∧
    (cpuReset cpuPower ["policy0/scaling_governor"]).2.result? = some (.error ⟨.tuningError,
      "restoration incomplete; journal retained: policy0/scaling_governor: read failed"⟩, cpuKept) ∧
    (cpuReset cpuPower ["policy0/scaling_governor"]).1.file.ids = ["policy0/scaling_governor"] ∧
    (readings (cpuReset cpuPower ["policy0/scaling_governor"]).1.log
        "policy0/energy_performance_preference").map Except.toOption = [some (.text "power")] ∧
    ∃ e ∈ cpuApplied.durable.entries,
      e.id = "policy0/energy_performance_preference" ∧ e.before = .text "balance_power" := by
  decide +kernel

private theorem cpu_loaded :
    loadEngine cpuInventory cpuApplied.durable = .ok (cpuInventory.adopt cpuApplied.durable) :=
  loadEngine_of_isOk cpuReset_computed.1

/-- Both controls are given up when another manager has changed one of them. -/
theorem reset_reports_cpu :
    (cpuReset cpuPower []).2.result? = some (.ok ⟨0, ["policy0/energy_performance_preference",
      "policy0/scaling_governor"]⟩, Journal.empty) ∧
    Accounts (cpuInventory.adopt cpuApplied.durable) cpuApplied.durable
      (.ok ⟨0, ["policy0/energy_performance_preference", "policy0/scaling_governor"]⟩)
      Journal.empty (cpuReset cpuPower []).1 := by
  have hresult := cpuReset_computed.2.1
  refine ⟨hresult, (reset_reports_what_it_did cpuInventory cpuApplied.durable).1 _ _ _ _ cpu_loaded ?_⟩
  rw [← Program.eq_done_of_result? hresult]
  exact cpuReset_steps cpuPower []

/-- A failing reset may drop a control that it has not restored: the energy preference was changed
by another manager, and the governor cannot be read. -/
theorem yielded_entry_dropped_on_failure :
    ¬∀ (inventory : Inventory) (file : Journal) loaded t err mem,
      loadEngine inventory file = .ok loaded →
      Program.Steps observed ⟨file, []⟩ (reset loaded file) t (.done (.error err, mem)) →
      err.kind = .tuningError →
      ∀ e ∈ file.entries, Restored loaded t.log e ∨ Retained mem t e := by
  intro h
  have hsteps := cpuReset_steps cpuPower ["policy0/scaling_governor"]
  obtain ⟨-, -, hresult, hfile, hread, e, he, hid⟩ := cpuReset_computed
  rw [Program.eq_done_of_result? hresult] at hsteps
  generalize (cpuReset cpuPower ["policy0/scaling_governor"]).1 = t at hsteps hfile hread
  rcases h _ _ _ _ _ _ cpu_loaded hsteps rfl e he with hrestored | ⟨-, hkept⟩
  · unfold Restored at hrestored
    rw [if_pos (by rw [hid.1, Inventory.restorable_adopt]; decide)] at hrestored
    obtain ⟨earlier, later, hlog, -, hlast⟩ := hrestored
    have hmem : some (Value.text "balance_power") ∈
        (readings t.log "policy0/energy_performance_preference").map Except.toOption := by
      refine List.mem_map.mpr ⟨.ok (.text "balance_power"), ?_, rfl⟩
      rw [hlog, readings_append]
      refine List.mem_append_right _ (List.mem_of_getLast? ?_)
      rw [← hid.1, ← hid.2]
      exact hlast
    rw [hread] at hmem
    simp at hmem
  · have hin : e.id ∈ t.file.ids := by
      rw [← Journal.baselines_ids]
      exact List.mem_map_of_mem hkept
    rw [hfile, hid.1] at hin
    simp at hin

end Preseed.HardwareTuning
