import Preseed.HardwareTuning.Apply

/-!
# The machine under the engine

What a run of tuning processes acts on: the values the controls read, and the
journal file. A write may fail, and it may change other controls as a side effect;
`spread` says which. Nobody else writes. A process starts from the journal file,
applies a profile or resets, and may be stopped between any two operations.
-/

namespace Preseed.HardwareTuning

open Effects

/-- The controls and the journal file. `baseline` is a ghost: the values the controls had when
the journal file was last empty, before anything was changed. -/
structure Machine where
  /-- What each control reads. -/
  hw : String → Value
  /-- The journal file. -/
  durable : Journal
  /-- What each control read when the journal file was last empty. -/
  baseline : String → Value

/-- The machine after a completed save. -/
def Machine.saved (m : Machine) (journal : Journal) : Machine :=
  { m with durable := journal, baseline := if journal.entries = [] then m.hw else m.baseline }

/-- Members of min/max pairs read numbers, as the backends' paired controls do. -/
def Inventory.NumericPairs (inventory : Inventory) (hw : String → Value) : Prop :=
  ∀ key knob, inventory.get? key = some knob → knob.pair.isSome → ∃ n, hw key = .int n

/-- A write of `key` turns the readings `hw` into `hw'`: only controls it spreads to change, and
a control without a getter keeps its constant reading. -/
structure Changes (inventory : Inventory) (spread : String → String → Prop) (key : String)
    (hw hw' : String → Value) : Prop where
  /-- Other controls keep their values. -/
  confined : ∀ other, hw' other ≠ hw other → spread key other
  /-- The reading of a control without a getter is a constant. -/
  constant : ∀ other, (inventory.get? other).isSome → inventory.restorable other = false →
    hw' other = hw other
  /-- Paired controls still read numbers. -/
  numeric : inventory.NumericPairs hw'

/-- The machine as the environment of the engine. Every operation may fail; a failed save may
have replaced the file or not, and a failed write may have changed controls or not. -/
def hardware (inventory : Inventory) (spread : String → String → Prop) :
    Environment Hardware Journal Machine := fun m _ op =>
  match op with
  | .read key => fun (answer : Except Failure Value) m' =>
    m' = m ∧ ∀ value, answer = .ok value → value = m.hw key
  | .write key _ | .writeMaximum key | .restoreValue key _ => fun _ m' =>
    ∃ hw', Changes inventory spread key m.hw hw' ∧ m' = { m with hw := hw' }
  | .save journal => fun (answer : Except Failure Unit) m' =>
    m' = m.saved journal ∨ (∃ e, answer = .error e) ∧ m' = m
  | .temperature | .checkOwnership _ => fun _ m' => m' = m

/-- A write is issued while every journaled control it may change besides its target has a
pending entry. Otherwise the journal's `last` of such a control no longer describes it. -/
def undisturbing (inventory : Inventory) (spread : String → String → Prop) :
    Guard Hardware Journal Machine := fun m _ op =>
  ∀ key, op.target = some key → ∀ entry ∈ m.durable.entries,
    spread key entry.id → inventory.restorable entry.id → entry.pending = true

/-- What a tuning process is asked to do. -/
inductive Command
  | apply (policy : Option Policy) (checksOwnership : Bool) (profile : Profile)
      (settings : Settings)
  | reset

/-- The program of a command on a loaded inventory. -/
def Command.run (inventory : Inventory) : Command → EngineAct Unit
  | .apply policy checksOwnership profile settings => do
    let _ ← HardwareTuning.apply ⟨inventory, checksOwnership, policy⟩ profile settings
    pure ()
  | .reset => do
    let _ ← HardwareTuning.reset inventory
    pure ()

/-- A tuning process: load the journal file, then run the command. -/
def Command.process (inventory : Inventory) (command : Command) (journal : Journal) :
    Program Hardware Journal (Except Failure Unit × Journal) :=
  match loadEngine inventory journal with
  | .error e => .done (.error e, journal)
  | .ok loaded => command.run loaded journal

/-- The machines that tuning processes can leave behind, each of them stopped anywhere, starting
from an empty journal. -/
inductive Reached (inventory : Inventory) (E : Environment Hardware Journal Machine) :
    Machine → Prop
  | fresh (hw : String → Value) (numeric : inventory.NumericPairs hw) :
      Reached inventory E ⟨hw, Journal.empty, hw⟩
  | process {m m' : Machine} {p : Program Hardware Journal (Except Failure Unit × Journal)}
      (command : Command) (before : Reached inventory E m)
      (run : Program.Steps E m (command.process inventory m.durable) m' p) :
      Reached inventory E m'

section Adopt

variable (inventory : Inventory) (journal : Journal)

/-- Loading a journal finds the same controls, with other power gates. -/
theorem Inventory.get?_adopt (key : String) :
    (inventory.adopt journal).get? key = (inventory.get? key).map (HardwareTuning.adopt journal) := by
  simp only [Inventory.get?, Inventory.adopt, List.find?_map]
  congr 2
  funext knob
  obtain ⟨_, h⟩ := adopt_eq journal knob
  simp [h]

@[simp] theorem Inventory.isSome_get?_adopt (key : String) :
    ((inventory.adopt journal).get? key).isSome = (inventory.get? key).isSome := by
  simp [Inventory.get?_adopt]

@[simp] theorem Inventory.restorable_adopt (key : String) :
    (inventory.adopt journal).restorable key = inventory.restorable key := by
  unfold Inventory.restorable
  rw [Inventory.get?_adopt, Option.any_map]
  congr 1
  funext knob
  obtain ⟨_, h⟩ := adopt_eq journal knob
  simp [h]

@[simp] theorem Inventory.numericPairs_adopt (hw : String → Value) :
    (inventory.adopt journal).NumericPairs hw ↔ inventory.NumericPairs hw := by
  simp only [Inventory.NumericPairs, Inventory.get?_adopt, Option.map_eq_some_iff]
  constructor
  · intro h key knob hknob hpair
    obtain ⟨_, hadopt⟩ := adopt_eq journal knob
    exact h key _ ⟨knob, hknob, rfl⟩ (by simpa [hadopt] using hpair)
  · rintro h key _ ⟨knob, hknob, rfl⟩ hpair
    obtain ⟨_, hadopt⟩ := adopt_eq journal knob
    exact h key knob hknob (by simpa [hadopt] using hpair)

/-- Loading a journal changes nothing about how the machine behaves. -/
@[simp] theorem hardware_adopt (spread : String → String → Prop) :
    hardware (inventory.adopt journal) spread = hardware inventory spread := by
  have hchanges : ∀ key hw hw',
      Changes (inventory.adopt journal) spread key hw hw' ↔ Changes inventory spread key hw hw' := by
    intro key hw hw'
    constructor
    · rintro ⟨hconfined, hconstant, hnumeric⟩
      exact ⟨hconfined, by simpa using hconstant, by simpa using hnumeric⟩
    · rintro ⟨hconfined, hconstant, hnumeric⟩
      exact ⟨hconfined, by simpa using hconstant, by simpa using hnumeric⟩
  funext m mem op
  cases op with
  | write | writeMaximum | restoreValue => simp [hardware, hchanges]
  | read | save | temperature | checkOwnership => rfl

end Adopt

/-! ### A deterministic machine -/

/-- A machine without write faults: a write turns the readings into those of `effect`, and the
readings of some controls fail. -/
def Machine.respond (effect : String → Value → (String → Value) → String → Value)
    (unreadable : List String) (m : Machine) (_ : Journal) :
    (op : Request) → Except Failure op.Reply × Machine
  | .read key =>
    (if key ∈ unreadable then .error ⟨.osError, "read failed"⟩ else .ok (m.hw key), m)
  | .write key value | .restoreValue key value => (.ok (), { m with hw := effect key value m.hw })
  | .writeMaximum _ => (.ok none, m)
  | .save journal => (.ok (), m.saved journal)
  | .temperature => (.ok none, m)
  | .checkOwnership _ => (.ok (), m)

/-- The deterministic machine is an instance of the hardware, if its writes change no more than
they spread to. -/
theorem Machine.respond_hardware {inventory : Inventory} {spread : String → String → Prop}
    {effect : String → Value → (String → Value) → String → Value} {unreadable : List String}
    {m : Machine} {mem : Journal} (hunpaired : ∀ knob ∈ inventory.knobs, knob.pair = none)
    (hrestorable : ∀ knob ∈ inventory.knobs, knob.restorable = true)
    (heffect : ∀ key value other, effect key value m.hw other ≠ m.hw other → spread key other)
    (op : Request) :
    hardware inventory spread m mem op (m.respond effect unreadable mem op).1
      (m.respond effect unreadable mem op).2 := by
  have hnumeric : ∀ hw, inventory.NumericPairs hw := by
    intro hw key knob hknob hpair
    rw [hunpaired knob (Inventory.mem_of_get? hknob)] at hpair
    cases hpair
  have hconstant : ∀ key, (inventory.get? key).isSome → inventory.restorable key = false →
      False := by
    intro key hknown hfixed
    obtain ⟨knob, hknob⟩ := Option.isSome_iff_exists.mp hknown
    rw [Inventory.restorable_of_get? hknob, hrestorable knob (Inventory.mem_of_get? hknob)] at hfixed
    cases hfixed
  cases op with
  | read key =>
    refine ⟨rfl, fun value hvalue => ?_⟩
    have hread : (if key ∈ unreadable then .error ⟨.osError, "read failed"⟩ else .ok (m.hw key) :
      Except Failure Value) = .ok value := hvalue
    split at hread <;> cases hread
    rfl
  | write key value | restoreValue key value =>
    exact ⟨_, ⟨heffect key value, fun other hk hf => (hconstant other hk hf).elim, hnumeric _⟩, rfl⟩
  | writeMaximum key =>
    exact ⟨m.hw, ⟨fun other hne => absurd rfl hne, fun _ _ _ => rfl, hnumeric _⟩, rfl⟩
  | save journal => exact .inl rfl
  | temperature => rfl
  | checkOwnership => rfl

/-- A restorable control with words as its values, and nothing else. -/
def plainKnob (id setting : String) (choices companions : List String) : Knob where
  id := id
  setting := setting
  minimum := none
  maximum := none
  choices := choices
  symbols := []
  unit := "enum"
  pair := none
  side := none
  overclock := false
  powerDefault := none
  restorable := true
  validateExtra _ := .ok ()
  companions := companions
  verifiedBoundsAllowed := false
  writeMaximum := false
  restoreValue := false

/-- A policy that asks the same of every profile, and permits nothing. -/
def plainPolicy (knobs : List (String × String)) : Policy where
  allowOverclock := false
  allowPowerIncrease := false
  exclusiveClockControl := false
  maxTemperature := 90
  profiles _ := ⟨knobs, []⟩
  allowVerifiedBounds := false
  verifiedBounds := []

end Preseed.HardwareTuning
