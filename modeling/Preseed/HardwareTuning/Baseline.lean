import Preseed.HardwareTuning.WriteAheadApply

/-!
# Baselines without an external writer

The only changes to controls are the engine's writes and the side effects the engine
itself models. A reset that writes a control while a coupled one could not be read
leaves the coupled entry settled on a value that no longer holds; the next reset takes
the difference for another manager's change and drops the entry with its baseline.
Without such writes no entry is ever dropped off its baseline.
-/

namespace Preseed.HardwareTuning

open Effects

/-- The side effects the engine models: a write may change its target, the companions in either
direction, the other member of its pair, the coupled CPU policy, and whatever a firmware profile
or a CPU driver setting governs. -/
def Inventory.Couples (inventory : Inventory) (key other : String) : Prop :=
  other = key ∨ sharesDomain inventory key other = true ∨ other ∈ sideEffects inventory key

instance (inventory : Inventory) (key other : String) : Decidable (inventory.Couples key other) := by
  unfold Inventory.Couples
  infer_instance

/-- The hardware on which nobody but the engine changes controls. -/
def ownHardware (inventory : Inventory) : Environment Hardware Journal Machine :=
  hardware inventory inventory.Couples

/-- No control is written while a control it may change has a settled journal entry. -/
def noSettledCoupling (inventory : Inventory) : Guard Hardware Journal Machine :=
  undisturbing inventory inventory.Couples

/-- In runs of applies and resets, each stopped anywhere, that never write a control while a
coupled control has a settled entry, a save drops only entries whose controls read their
baselines. -/
theorem baseline_never_lost (inventory : Inventory) {m m' : Machine}
    (hreached : Reached inventory ((ownHardware inventory).restrict (noSettledCoupling inventory)) m)
    (command : Command) {p : Program Hardware Journal (Except Failure Unit × Journal)}
    {mem journal : Journal}
    (hrun : Program.Steps ((ownHardware inventory).restrict (noSettledCoupling inventory)) m
      (command.process inventory m.durable) m' p)
    (hissued : p.issued? = some (mem, .save journal)) :
    ∀ e ∈ m'.durable.entries, e.id ∉ journal.ids → m'.hw e.id = e.before := by
  have hsound : m.Sound inventory True :=
    hreached.sound (fun _ _ _ _ _ h => h.2) (fun _ _ _ _ _ _ h => h.1)
  have hguard := (process_writeAhead (fun _ _ _ _ _ h => h.2) (fun _ _ _ _ _ _ h => h.1) command
    hsound).guard hrun hissued
  exact hguard.dropped journal rfl trivial

/-- A CPU frequency policy: its governor and its energy preference. -/
def cpuInventory : Inventory where
  knobs := [plainKnob "policy0/energy_performance_preference" "CPU_EPP"
      ["performance", "balance_power"] [],
    plainKnob "policy0/scaling_governor" "CPU_GOVERNOR" ["performance", "powersave"] []]
  nodup := by decide
  paired := by simp [plainKnob]

/-- Its untuned readings. -/
def cpuDefaults (key : String) : Value :=
  if key = "policy0/scaling_governor" then .text "powersave" else .text "balance_power"

/-- The driver sets the energy preference when the governor changes: to `performance` under the
performance governor, and to its own default when that governor is left. -/
def cpuEffect (key : String) (value : Value) (hw : String → Value) (other : String) : Value :=
  if other = key then value
  else if key = "policy0/scaling_governor" ∧ other = "policy0/energy_performance_preference" then
    if value = .text "performance" then .text "performance" else .text "balance_performance"
  else hw other

/-- The apply of the performance governor. -/
def cpuCommand : Command :=
  .apply (some (plainPolicy [("CPU_GOVERNOR", "performance"), ("CPU_EPP", "performance")])) false
    .balanced []

/-- The machine after the whole apply. -/
def cpuApplied : Machine :=
  (Program.runFor (Machine.respond cpuEffect []) 60 ⟨cpuDefaults, Journal.empty, cpuDefaults⟩
    (cpuCommand.process cpuInventory Journal.empty)).1

/-- The machine after a reset in which the energy preference cannot be read. -/
def cpuOnce : Machine :=
  (Program.runFor (Machine.respond cpuEffect ["policy0/energy_performance_preference"]) 60
    cpuApplied (Command.reset.process cpuInventory cpuApplied.durable)).1

/-- The machine after a second reset without faults. -/
def cpuTwice : Machine :=
  (Program.runFor (Machine.respond cpuEffect []) 60 cpuOnce
    (Command.reset.process cpuInventory cpuOnce.durable)).1

private theorem cpu_hardware (unreadable : List String) (m : Machine) (mem : Journal)
    (op : Request) :
    ownHardware cpuInventory m mem op (m.respond cpuEffect unreadable mem op).1
      (m.respond cpuEffect unreadable mem op).2 := by
  refine Machine.respond_hardware (by decide) (by decide) (fun key value other hne => ?_) op
  by_cases hother : other = key
  · exact .inl hother
  · by_cases hgovernor : key = "policy0/scaling_governor" ∧
        other = "policy0/energy_performance_preference"
    · obtain ⟨rfl, rfl⟩ := hgovernor
      decide
    · simp [cpuEffect, hother, hgovernor] at hne

private theorem cpu_numeric (hw : String → Value) : cpuInventory.NumericPairs hw := by
  intro key knob hknob hpair
  have hmem := Inventory.mem_of_get? hknob
  simp only [cpuInventory, List.mem_cons, List.not_mem_nil, or_false] at hmem
  rcases hmem with rfl | rfl <;> cases hpair

private theorem cpu_settled (m : Machine) (mem : Journal) (op : Request)
    (hcheck : (op.target.isNone || m.durable.entries.all Entry.pending) = true) :
    (ownHardware cpuInventory).restrict (noSettledCoupling cpuInventory) m mem op
      (m.respond cpuEffect [] mem op).1 (m.respond cpuEffect [] mem op).2 := by
  refine ⟨fun key htarget e he _ _ => ?_, cpu_hardware [] m mem op⟩
  rw [htarget, Option.isNone_some, Bool.false_or, List.all_eq_true] at hcheck
  exact hcheck e he

/-- The machine at the last save of a reset without faults. -/
def cpuLastSave : Machine × Program Hardware Journal (Except Failure Unit × Journal) :=
  Program.runFor (Machine.respond cpuEffect []) 11 cpuApplied
    (Command.reset.process cpuInventory cpuApplied.durable)

/-- The operations check that no entry has settled. -/
def cpuChecked (steps : ℕ) (m : Machine) (command : Command) : Bool :=
  Program.checkedFor (Machine.respond cpuEffect []) (fun m _ (op : Request) =>
    op.target.isNone || m.durable.entries.all Entry.pending) steps m
      (command.process cpuInventory m.durable)

private theorem cpu_computed :
    cpuChecked 60 ⟨cpuDefaults, Journal.empty, cpuDefaults⟩ cpuCommand = true ∧
    cpuChecked 11 cpuApplied .reset = true ∧
    cpuLastSave.1.durable.entries.length = 2 ∧
    cpuLastSave.2.issued? = some (Journal.empty, .save Journal.empty) ∧
    cpuOnce.durable.entries.map (fun e => (e.id, e.before)) =
      [("policy0/energy_performance_preference", .text "balance_power")] ∧
    cpuTwice.durable.entries = [] ∧
    cpuTwice.hw "policy0/energy_performance_preference" = .text "balance_performance" := by
  decide +kernel

/-- Without the failure the last save drops both entries at their baselines. -/
theorem baseline_never_lost_cpu :
    cpuLastSave.1.durable.entries.length = 2 ∧
    ∀ e ∈ cpuLastSave.1.durable.entries, e.id ∉ Journal.empty.ids →
      cpuLastSave.1.hw e.id = e.before := by
  have happlied : Reached cpuInventory
      ((ownHardware cpuInventory).restrict (noSettledCoupling cpuInventory)) cpuApplied :=
    .process cpuCommand (.fresh cpuDefaults (cpu_numeric _))
      (.of_checkedFor cpu_settled 60 _ (cpuCommand.process cpuInventory Journal.empty)
        cpu_computed.1)
  refine ⟨cpu_computed.2.2.1, ?_⟩
  exact baseline_never_lost cpuInventory happlied .reset
    (.of_checkedFor cpu_settled 11 _ _ cpu_computed.2.1)
    cpu_computed.2.2.2.1

/-- A transient read failure costs a baseline. Only the engine writes: the first reset restores
the governor, which changes the energy preference it could not read; the second one takes that
for another manager's change and drops the entry. -/
theorem transient_failure_loses_baseline :
    Reached cpuInventory (ownHardware cpuInventory) cpuTwice ∧
    cpuOnce.durable.entries.map (fun e => (e.id, e.before)) =
      [("policy0/energy_performance_preference", .text "balance_power")] ∧
    cpuTwice.durable.entries = [] ∧
    cpuTwice.hw "policy0/energy_performance_preference" = .text "balance_performance" := by
  refine ⟨?_, cpu_computed.2.2.2.2⟩
  have happlied : Reached cpuInventory (ownHardware cpuInventory) cpuApplied :=
    .process cpuCommand (.fresh cpuDefaults (cpu_numeric _)) 
      (.of_runFor (cpu_hardware []) 60 _ (cpuCommand.process cpuInventory Journal.empty))
  have honce : Reached cpuInventory (ownHardware cpuInventory) cpuOnce :=
    .process .reset happlied (.of_runFor (cpu_hardware _) _ _ _)
  exact .process .reset honce (.of_runFor (cpu_hardware []) _ _ _)

end Preseed.HardwareTuning
